/-
Stores of values under keys, in memory or over a change log.
-/
import Reconfig.Store.ChangeLog

namespace Reconfig

inductive Store where
  | memory (space : KeySpace)
  | log (frames : ChangeLog)

namespace Store

def empty : Store := .memory ∅

/-- The values that the store shows. -/
def space : Store → KeySpace
  | .memory space => space
  | .log frames => frames.space

def get? (s : Store) (key : String) : Option Value := s.space.get? key

/-- All writes take effect, or none of them and the store is as it was. -/
def commit (s : Store) (changes : ChangeSet) : Except Error Store :=
  match s with
  | .memory space => .ok (.memory (changes.applyTo space))
  | .log frames => ((frames.commit changes).mapError ChangeLog.Fault.toError).map .log

def file? : Store → Option (List UInt8)
  | .memory _ => none
  | .log frames => some frames.file

/-- The store with other bytes in its file, which it reads when it is opened
again. -/
def withFile (s : Store) (file : List UInt8) : Store :=
  match s with
  | .memory space => .memory space
  | .log frames => .log { frames with file }

def reopened : Store → Except Error Store
  | .memory space => .ok (.memory space)
  | .log frames => ((ChangeLog.openFile frames.file).mapError ChangeLog.Fault.toError).map .log

@[simp] theorem space_commit {s t : Store} {changes : ChangeSet}
    (h : s.commit changes = .ok t) : t.space = changes.applyTo s.space := by
  cases s with
  | memory space =>
    simp only [commit, Except.ok.injEq] at h
    subst h
    rfl
  | log frames =>
    simp only [commit, ChangeLog.commit] at h
    split at h
    · rename_i none
      cases h
      have : changes.writes = [] := by simpa [ChangeSet.isEmpty] using none
      simp [ChangeSet.applyTo, this, space]
    · split at h
      · cases h
      · cases h
        rfl

end Store
end Reconfig
