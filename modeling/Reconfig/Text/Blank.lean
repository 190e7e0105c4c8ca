/-
Blank characters and the text left when they are cut from both ends.
-/
namespace Reconfig
namespace Text

/-- The characters with the property White_Space. -/
def isBlank (c : Char) : Bool :=
  ('\t' ≤ c && c ≤ '\r') || c == ' ' || c == '\u0085' || c == '\u00a0' || c == '\u1680' ||
    ('\u2000' ≤ c && c ≤ '\u200a') || c == '\u2028' || c == '\u2029' || c == '\u202f' ||
    c == '\u205f' || c == '\u3000'

def trimStart (s : List Char) : List Char := s.dropWhile isBlank

def trimEnd (s : List Char) : List Char := (s.reverse.dropWhile isBlank).reverse

def trim (s : List Char) : List Char := trimEnd (trimStart s)

theorem dropWhile_eq_nil_iff {p : Char → Bool} {s : List Char} :
    s.dropWhile p = [] ↔ ∀ c ∈ s, p c = true := by
  induction s with
  | nil => simp
  | cons c rest ih => grind [List.dropWhile_cons]

theorem trimStart_eq_nil_iff {s : List Char} : trimStart s = [] ↔ ∀ c ∈ s, isBlank c = true :=
  dropWhile_eq_nil_iff

/-- What is left after cutting the start begins with a character that is not
blank, so cutting the end leaves that character. -/
theorem trim_eq_nil_iff {s : List Char} : trim s = [] ↔ ∀ c ∈ s, isBlank c = true := by
  rw [← trimStart_eq_nil_iff, trim, trimEnd, List.reverse_eq_nil_iff, dropWhile_eq_nil_iff]
  constructor
  · intro h
    cases shape : trimStart s with
    | nil => rfl
    | cons c rest =>
      have blank : isBlank c = true := h c (by simp [shape])
      have first := List.head?_dropWhile_not isBlank s
      rw [show s.dropWhile isBlank = c :: rest from shape] at first
      simp [blank] at first
  · intro h; simp [h]

end Text
end Reconfig
