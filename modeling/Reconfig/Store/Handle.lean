/-
A store that may be open or closed.
-/
import Reconfig.Store.Backend

namespace Reconfig

structure Handle where
  /-- The file behind a log, if there is one. It stays when the log is closed. -/
  file : Option (List UInt8)
  opened : Option Store

namespace Handle

def memory : Handle := ⟨none, some .empty⟩

def absent : Handle := ⟨none, none⟩

/-- Takes over what the store has written. -/
def settle (h : Handle) (s : Store) : Handle :=
  { h with file := s.file? <|> h.file, opened := some s }

def close (h : Handle) : Handle := { h with opened := none }

/-- Opens the log, which is made if there is none. A log that cannot be read
stays closed. -/
def openLog (h : Handle) : Handle × Except Error ChangeLog :=
  match ChangeLog.openFile (h.file.getD []) with
  | .error fault => (h.close, .error fault.toError)
  | .ok frames => (h.settle (.log frames), .ok frames)

def withFile (h : Handle) (file : List UInt8) : Handle :=
  { h with file := some file, opened := h.opened.map (·.withFile file) }

end Handle
end Reconfig
