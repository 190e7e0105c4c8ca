/-
Passes of a coordinator over several nodes.

A pass is a tree: what a coordinator does next is a function of the answers it
has had so far. The tree says nothing about who answers or when, so the same
pass can be run to its end, stopped after any call, or run beside others.
-/
import Reconfig.Coordination.Analysis

namespace Reconfig

inductive Pass (α : Type) where
  | done (result : α)
  /-- Asks all nodes at once for their snapshots. -/
  | discover (nodes : List Address)
      (next : List (Address × Except CallError Snapshot) → Pass α)
  /-- Sends a mutating message to one node. -/
  | send (node : Address) (message : Message) (next : Except CallError Unit → Pass α)

namespace Pass

variable {α : Type} {β : Type}

def bind : Pass α → (α → Pass β) → Pass β
  | .done result, f => f result
  | .discover nodes next, f => .discover nodes fun answers => (next answers).bind f
  | .send node message next, f => .send node message fun answer => (next answer).bind f

instance : Monad Pass where
  pure := .done
  bind := bind

/-- One round of discovery. -/
def check (nodes : List Address) : Pass Report :=
  .discover nodes fun answers => .done (.ofAnswers answers)

def call (node : Address) (message : Message) : Pass (Except CallError Unit) :=
  .send node message .done

theorem bind_done (p : Pass α) : p.bind .done = p := by
  induction p with
  | done => rfl
  | discover nodes next ih => simp [bind, ih]
  | send node message next ih => simp [bind, ih]

theorem bind_assoc {γ : Type} (p : Pass α) (f : α → Pass β) (g : β → Pass γ) :
    (p.bind f).bind g = p.bind fun a => (f a).bind g := by
  induction p with
  | done => rfl
  | discover nodes next ih => simp [bind, ih]
  | send node message next ih => simp [bind, ih]

instance : LawfulMonad Pass :=
  LawfulMonad.mk' Pass (fun p => bind_done p) (fun _ _ => rfl) bind_assoc

end Pass
end Reconfig
