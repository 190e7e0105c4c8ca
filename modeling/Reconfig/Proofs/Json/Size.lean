/-
How many bytes the text of a document has.

A list has the bytes of its items and one more for each, and one more again, and an object has
those of its names and values likewise. So two documents that have most of their parts in common
are compared by the parts in which they differ.
-/
import Mathlib.Algebra.GroupWithZero.Nat
import Reconfig.Proofs.Json.Length

namespace Reconfig

/-! ## Characters -/

namespace Text

/-- The number of bytes of a text. -/
def extent (cs : List Char) : Nat := (cs.map Char.utf8Size).sum

theorem extent_append (as bs : List Char) : extent (as ++ bs) = extent as + extent bs := by
  rw [extent, List.map_append, List.sum_append, extent, extent]

theorem extent_cons (c : Char) (cs : List Char) : extent (c :: cs) = c.utf8Size + extent cs :=
  List.sum_cons

theorem length_flatMap_utf8EncodeChar (cs : List Char) :
    (cs.flatMap String.utf8EncodeChar).length = extent cs := by
  rw [List.length_flatMap]
  simp only [String.length_utf8EncodeChar, extent]

/-- One byte for each character. -/
theorem extent_of_ascii {cs : List Char} (ascii : ∀ c ∈ cs, c.utf8Size = 1) :
    extent cs = cs.length := by
  rw [extent, List.map_congr_left ascii, List.map_const', List.sum_replicate_nat, Nat.mul_one]

/-- A digit more at most. -/
theorem length_digits_succ_le (n : Nat) : (digits (n + 1)).length ≤ (digits n).length + 1 := by
  have positive : 0 < (digits n).length := List.length_pos_iff.2 (digits_ne_nil n)
  have below : n < 10 ^ (digits n).length :=
    (Nat.length_toDigits_le_iff (by decide) positive).1 (Nat.le_refl _)
  refine (Nat.length_toDigits_le_iff (by decide) (Nat.succ_pos _)).2 ?_
  calc n + 1
    _ ≤ 10 ^ (digits n).length := below
    _ < 10 ^ ((digits n).length + 1) := Nat.pow_lt_pow_right (by decide) (Nat.lt_succ_self _)

end Text

/-! ## Documents -/

namespace Json

def size (j : Json) : Nat := j.bytes.length

theorem size_eq (j : Json) : j.size = Text.extent j.chars := by
  rw [size, bytes_eq_flatMap, Text.length_flatMap_utf8EncodeChar]

theorem extent_itemsTail (items : List Json) :
    Text.extent (itemsTail items) = (items.map fun item => item.size + 1).sum + 1 := by
  induction items with
  | nil => rfl
  | cons item rest ih =>
    rw [itemsTail, Text.extent_cons, Text.extent_append, ih, List.map_cons, List.sum_cons, size_eq,
      show ','.utf8Size = 1 from rfl]
    omega

theorem extent_membersTail (members : List (String × Json)) : Text.extent (membersTail members) =
    (members.map fun member => (str member.1).size + member.2.size + 2).sum + 1 := by
  induction members with
  | nil => rfl
  | cons member rest ih =>
    rw [membersTail, Text.extent_cons, Text.extent_append, Text.extent_cons, Text.extent_append, ih,
      List.map_cons, List.sum_cons, size_eq, size_eq, chars, show ','.utf8Size = 1 from rfl,
      show ':'.utf8Size = 1 from rfl]
    omega

theorem size_arr {items : List Json} (filled : items ≠ []) :
    (arr items).size = (items.map fun item => item.size + 1).sum + 1 := by
  cases items with
  | nil => exact absurd rfl filled
  | cons item rest =>
    rw [← extent_itemsTail, size_eq, chars, itemsTail, Text.extent_cons, Text.extent_cons]
    rfl

theorem size_obj {members : List (String × Json)} (filled : members ≠ []) : (obj members).size =
    (members.map fun member => (str member.1).size + member.2.size + 2).sum + 1 := by
  cases members with
  | nil => exact absurd rfl filled
  | cons member rest =>
    rw [← extent_membersTail, size_eq, chars, membersTail, Text.extent_cons, Text.extent_cons]
    rfl

/-! ## Texts -/

/-- A character that is shown as it is, and in one byte. -/
def Narrow (c : Char) : Prop := escapeChar c = [c] ∧ c.utf8Size = 1

instance (c : Char) : Decidable (Narrow c) := inferInstanceAs (Decidable (_ ∧ _))

theorem narrow_of_isDigit {c : Char} (digit : c.isDigit = true) : Narrow c := by
  have other {d : Char} (letter : d.isDigit = false) : c ≠ d := by
    rintro rfl
    rw [digit] at letter
    cases letter
  have bounds : 48 ≤ c.toNat ∧ c.toNat ≤ 57 := by
    simpa [Char.isDigit, UInt32.le_iff_toNat_le] using digit
  constructor
  · rw [escapeChar, if_neg (other rfl), if_neg (other rfl), if_neg (other rfl), if_neg (other rfl),
      if_neg (other rfl), if_neg (other rfl), if_neg (other rfl), if_neg (by omega)]
  · have low : c.val ≤ 127 := UInt32.le_iff_toNat_le.2 (Nat.le_trans bounds.2 (by decide))
    rw [Char.utf8Size]
    exact if_pos low

theorem size_ofNat (n : Nat) : (ofNat n).size = (Text.digits n).length := by
  rw [size_eq]
  exact Text.extent_of_ascii fun c mem => (narrow_of_isDigit (Text.isDigit_of_mem_digits mem)).2

theorem size_str_of_narrow {s : String} (narrow : ∀ c ∈ s.toList, Narrow c) :
    (str s).size = s.toList.length + 2 := by
  have escaped (cs : List Char) (narrow : ∀ c ∈ cs, Narrow c) : cs.flatMap escapeChar = cs := by
    induction cs with
    | nil => rfl
    | cons c rest ih =>
      obtain ⟨first, narrow⟩ := List.forall_mem_cons.1 narrow
      rw [List.flatMap_cons, first.1, ih narrow]
      rfl
  rw [size_eq, chars, quote, escaped _ narrow, Text.extent_append, Text.extent_cons,
    Text.extent_of_ascii fun c mem => (narrow c mem).2, show '"'.utf8Size = 1 from rfl,
    show Text.extent ['"'] = 1 from rfl]
  omega

end Json
end Reconfig
