/-
The written form of an identity determines it and is read back.

The keys of a node's state are shorter than every written identity, so a
change request never takes the place of a part of the state.
-/
import Mathlib.Algebra.GroupWithZero.Nat
import Reconfig.Uuid

namespace Reconfig
namespace Uuid

/-- Digits are written as numbers. -/
instance digitBase : NeZero 16 := ⟨by decide⟩

theorem length_hyphenate (gs : List Nat) (cs : List Char) (h : cs.length = gs.sum) :
    (hyphenate gs cs).length = cs.length + (gs.length - 1) := by
  induction gs generalizing cs with
  | nil =>
    have : cs = [] := List.eq_nil_of_length_eq_zero (by simpa using h)
    simp [hyphenate, this]
  | cons n rest ih =>
    cases rest with
    | nil =>
      have whole : cs.length = n := by simpa using h
      simp [hyphenate, ← whole]
    | cons m rest =>
      have tail : (cs.drop n).length = (m :: rest).sum := by
        rw [List.length_drop, h, List.sum_cons]
        omega
      have := ih (cs.drop n) tail
      simp only [hyphenate, List.length_append, List.length_take, List.length_cons] at this ⊢
      rw [this, tail]
      simp only [List.sum_cons] at h tail ⊢
      omega

theorem unhyphenate?_hyphenate (gs : List Nat) (cs : List Char) (h : cs.length = gs.sum) :
    unhyphenate? gs (hyphenate gs cs) = some cs := by
  induction gs generalizing cs with
  | nil =>
    have : cs = [] := List.eq_nil_of_length_eq_zero (by simpa using h)
    simp [hyphenate, unhyphenate?, this]
  | cons n rest ih =>
    cases rest with
    | nil =>
      have whole : cs.length = n := by simpa using h
      simp [hyphenate, unhyphenate?, ← whole]
    | cons m rest =>
      have front : (cs.take n).length = n := by
        rw [List.length_take, h, List.sum_cons]
        omega
      have tail : (cs.drop n).length = (m :: rest).sum := by
        rw [List.length_drop, h, List.sum_cons]
        omega
      have parts : hyphenate (n :: m :: rest) cs =
          cs.take n ++ '-' :: hyphenate (m :: rest) (cs.drop n) := rfl
      have after : (hyphenate (n :: m :: rest) cs).drop n =
          '-' :: hyphenate (m :: rest) (cs.drop n) := by
        rw [parts, List.drop_left' front]
      have before : (hyphenate (n :: m :: rest) cs).take n = cs.take n := by
        rw [parts, List.take_left' front]
      simp only [unhyphenate?, after, before, ih (cs.drop n) tail]
      simp

def digitChars (u : Uuid) : List Char := u.digits.toList.map fun d => Text.hexDigit d.val

theorem length_digitChars (u : Uuid) : u.digitChars.length = 32 := by
  simp [digitChars]

theorem ofDigits?_digitChars (u : Uuid) : ofDigits? u.digitChars = some u := by
  have digit (d : Fin 16) : ((Text.hexValue? (Text.hexDigit d.val)).bind fun v =>
      if h : v < 16 then some (⟨v, h⟩ : Fin 16) else none) = some d := by
    simp [Text.hexValue?_hexDigit d.val d.isLt]
  have digits (ds : List (Fin 16)) :
      ((ds.map fun d => Text.hexDigit d.val).mapM fun c => (Text.hexValue? c).bind fun v =>
        if h : v < 16 then some (⟨v, h⟩ : Fin 16) else none) = some ds := by
    induction ds with
    | nil => rfl
    | cons d rest ih => simp [List.mapM_cons, digit, ih]
  simp only [ofDigits?, digitChars, Option.bind_eq_bind, digits]
  simp
  rfl

theorem length_chars (u : Uuid) : u.chars.length = 36 := by
  have := length_hyphenate groups u.digitChars (by rw [length_digitChars]; rfl)
  rw [length_digitChars] at this
  exact this

@[simp] theorem parse?_text (u : Uuid) : parse? u.text = some u := by
  have read : unhyphenate? groups u.chars = some u.digitChars :=
    unhyphenate?_hyphenate groups u.digitChars (by rw [length_digitChars]; rfl)
  simp [parse?, text, String.toList_ofList, length_chars, ofHyphenated?, read,
    ofDigits?_digitChars]

@[simp] theorem text_inj {u v : Uuid} : u.text = v.text ↔ u = v := by
  refine ⟨fun h => ?_, fun h => by rw [h]⟩
  have := parse?_text u
  rw [h, parse?_text] at this
  exact (Option.some.inj this).symm

/-- A text of another length than thirty-six is no written identity. -/
theorem text_ne {u : Uuid} {key : String} (h : key.length ≠ 36) : u.text ≠ key := by
  rintro rfl
  exact h (by rw [text, String.length_ofList, length_chars])

end Uuid
end Reconfig
