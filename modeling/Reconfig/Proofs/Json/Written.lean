/-
Records and tagged variants are read back from the documents that are written of them.

A record is written with each of its members once, and a variant with its tag in front.
-/
import Reconfig.Proofs.Json.Canonical
import Reconfig.Proofs.Json.RoundTrip

namespace Reconfig
namespace Json

variable {α : Type} {members : List (String × Json)}

theorem countP_name_le_one (distinct : (members.map (·.1)).Nodup) (name : String) :
    members.countP (·.1 == name) ≤ 1 := by
  have counted := List.nodup_iff_count.1 distinct name
  rw [List.count, List.countP_map] at counted
  exact counted

/-- The fields that an object has, if it repeats none. -/
def Fields.ofMembers (members : List (String × Json)) : Fields :=
  ⟨true, fun name => members.lookup name⟩

theorem fields?_obj (names : List String) (distinct : (members.map (·.1)).Nodup) :
    fields? names (.obj members) = some (.ofMembers members) := by
  rw [fields?, if_neg, Fields.ofMembers]
  simp only [List.any_eq_true, decide_eq_true_eq, not_exists, not_and, Nat.not_lt]
  exact fun name _ => countP_name_le_one distinct name

/-! A field is found behind the members that have other names, however it is read. -/

namespace Fields

variable {key name : String} {value : Json} {read : Json → Option α}

@[simp] theorem required?_head :
    (ofMembers ((name, value) :: members)).required? name read = read value := by
  simp [required?, ofMembers]

@[simp] theorem required?_tail (other : name ≠ key) :
    (ofMembers ((key, value) :: members)).required? name read =
      (ofMembers members).required? name read := by
  simp [required?, ofMembers, Dict.lookup_cons_ite, other]

@[simp] theorem optional?_head :
    (ofMembers ((name, value) :: members)).optional? name read = nullable? read value := by
  simp [optional?, ofMembers]

@[simp] theorem optional?_tail (other : name ≠ key) :
    (ofMembers ((key, value) :: members)).optional? name read =
      (ofMembers members).optional? name read := by
  simp [optional?, ofMembers, Dict.lookup_cons_ite, other]

@[simp] theorem defaulted?_head {default : α} :
    (ofMembers ((name, value) :: members)).defaulted? name read default = read value := by
  simp [defaulted?, ofMembers]

@[simp] theorem defaulted?_tail {default : α} (other : name ≠ key) :
    (ofMembers ((key, value) :: members)).defaulted? name read default =
      (ofMembers members).defaulted? name read default := by
  simp [defaulted?, ofMembers, Dict.lookup_cons_ite, other]

end Fields

theorem tagged?_cons {tag : String} (value : Json) (fresh : tag ∉ members.map (·.1)) :
    tagged? tag (.obj ((tag, value) :: members)) = some (value, .obj members) := by
  have others : ∀ m ∈ members, m.1 ≠ tag := fun m mem same =>
    fresh (same ▸ List.mem_map_of_mem mem)
  have none : members.filter (·.1 == tag) = [] := by
    rw [List.filter_eq_nil_iff]
    intro m mem
    simp [others m mem]
  have all : members.filter (·.1 != tag) = members := by
    rw [List.filter_eq_self]
    intro m mem
    simp [others m mem]
  simp [tagged?, none, all]

theorem nullable?_ofOption {read : Json → Option α} {write : α → Json} {a : Option α}
    (filled : ∀ b, write b ≠ .null) (back : ∀ b, a = some b → read (write b) = some b) :
    nullable? read (ofOption write a) = some a := by
  cases a with
  | none => rfl
  | some b =>
    rw [ofOption, nullable?, back b rfl]
    · rfl
    · exact filled b

/-- The value is read back from the compact text of its document, unless the document nests more
deeply than the reader follows. -/
def SurvivesText (write : α → Json) (read : Json → Option α) (a : α) : Prop :=
  (parse? (write a).text).bind read = if (write a).depth ≤ depthLimit then some a else none

/-- The value is what is read from the document that is written of it, and the document consists of
values that are read exactly. -/
structure Kept (write : α → Json) (read : Json → Option α) (a : α) : Prop where
  plain : (write a).Plain
  back : read (write a) = some a

theorem Kept.survivesText {write : α → Json} {read : Json → Option α} {a : α}
    (kept : Kept write read a) : SurvivesText write read a := by
  rw [SurvivesText, parse?_text kept.plain]
  by_cases fits : (write a).depth ≤ depthLimit
  · rw [if_pos fits, if_pos fits, Option.bind_some, kept.back]
  · rw [if_neg fits, if_neg fits, Option.bind_none]

theorem SurvivesText.shallow {write : α → Json} {read : Json → Option α} {a : α}
    (survives : SurvivesText write read a) (fits : (write a).depth ≤ depthLimit) :
    (parse? (write a).text).bind read = some a := by
  rw [survives, if_pos fits]

end Json
end Reconfig
