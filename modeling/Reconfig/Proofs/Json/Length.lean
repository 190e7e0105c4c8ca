/-
How long the text of a document is.

The texts in a document are taken apart nowhere: what is said about the length holds for
any of them, or it is a bound that only counts their bytes.
-/
import Reconfig.Proofs.Json.Extent

namespace Reconfig
namespace Json

theorem length_flatMap_le {α β : Type} {f : α → List β} {n : Nat}
    (each : ∀ a, (f a).length ≤ n) (as : List α) : (as.flatMap f).length ≤ n * as.length := by
  induction as with
  | nil => exact Nat.le_refl _
  | cons a as ih =>
    have := each a
    rw [List.flatMap_cons, List.length_append, List.length_cons, Nat.mul_succ]
    omega

theorem length_bytes_le (j : Json) : j.bytes.length ≤ 4 * j.chars.length := by
  rw [bytes_eq_flatMap]
  refine length_flatMap_le (fun c => ?_) _
  rw [String.length_utf8EncodeChar]
  exact c.utf8Size_le_four

theorem length_quote_le (s : String) : (quote s).length ≤ 6 * s.toList.length + 2 := by
  have escaped : (s.toList.flatMap escapeChar).length ≤ 6 * s.toList.length := by
    refine length_flatMap_le (fun c => ?_) _
    unfold escapeChar
    repeat' split
    all_goals simp
  rw [quote, List.length_append, List.length_cons, List.length_singleton]
  omega

/-- Two lists that differ in one item only. -/
theorem length_itemsTail (before after : List Json) (x y : Json) :
    (itemsTail (before ++ x :: after)).length + y.chars.length =
      (itemsTail (before ++ y :: after)).length + x.chars.length := by
  induction before with
  | nil =>
    simp only [List.nil_append, itemsTail, List.length_cons, List.length_append]
    omega
  | cons item before ih =>
    simp only [List.cons_append, itemsTail, List.length_cons, List.length_append]
    omega

/-! ## A bound -/

mutual

/-- A bound for the length of the text of a document, for which no text is taken apart. -/
def weight : Json → Nat
  | .null | .bool _ => 5
  | .int i => (intChars i).length
  | .float x => (Number.Layout.document.render x).length
  | .str s => 6 * s.utf8ByteSize + 2
  | .arr items => itemsWeight items + 2
  | .obj members => membersWeight members + 2

def itemsWeight : List Json → Nat
  | [] => 0
  | item :: items => weight item + itemsWeight items + 1

def membersWeight : List (String × Json) → Nat
  | [] => 0
  | (name, item) :: members =>
    6 * name.utf8ByteSize + 2 + weight item + membersWeight members + 2

end

theorem length_quote_le_size (s : String) : (quote s).length ≤ 6 * s.utf8ByteSize + 2 := by
  have size : s.toList.length ≤ s.utf8ByteSize := by
    simpa [Text.utf8] using Text.length_le_utf8 s
  have := length_quote_le s
  omega

mutual

theorem length_chars_le_weight (j : Json) : j.chars.length ≤ j.weight := by
  match j with
  | .null | .bool true | .bool false => decide
  | .int i => exact Nat.le_refl _
  | .float x => exact Nat.le_refl _
  | .str s => exact length_quote_le_size s
  | .arr [] => decide
  | .arr (item :: items) =>
    have first := length_chars_le_weight item
    have others := length_itemsTail_le items
    rw [chars, weight, itemsWeight, List.length_cons, List.length_append]
    omega
  | .obj [] => decide
  | .obj ((name, item) :: members) =>
    have named := length_quote_le_size name
    have first := length_chars_le_weight item
    have others := length_membersTail_le members
    simp only [chars, weight, membersWeight, List.length_cons, List.length_append]
    omega

theorem length_itemsTail_le (items : List Json) :
    (itemsTail items).length ≤ itemsWeight items + 1 := by
  match items with
  | [] => decide
  | item :: items =>
    have first := length_chars_le_weight item
    have others := length_itemsTail_le items
    rw [itemsTail, itemsWeight, List.length_cons, List.length_append]
    omega

theorem length_membersTail_le (members : List (String × Json)) :
    (membersTail members).length ≤ membersWeight members + 1 := by
  match members with
  | [] => decide
  | (name, item) :: members =>
    have named := length_quote_le_size name
    have first := length_chars_le_weight item
    have others := length_membersTail_le members
    simp only [membersTail, membersWeight, List.length_cons, List.length_append]
    omega

end

end Json
end Reconfig
