/-
Reading back the text of a document.

The reader takes the compact text of a document apart again as the printer put it
together, and stops where the text of the document ends. Only the depth can stop
it: a document that nests more deeply than there is room for is refused, however
it was printed.
-/
import Reconfig.Json.Parser
import Reconfig.Json.Printer
import Reconfig.Text.Decimal

namespace Reconfig
namespace Json

mutual

/-- A document of texts and of whole numbers that are read exactly. -/
def Plain : Json → Prop
  | .int i => leastInt ≤ i ∧ i ≤ greatestInt
  | .float _ => False
  | .arr items => PlainItems items
  | .obj members => PlainMembers members
  | _ => True

def PlainItems : List Json → Prop
  | [] => True
  | item :: rest => item.Plain ∧ PlainItems rest

def PlainMembers : List (String × Json) → Prop
  | [] => True
  | (_, value) :: rest => value.Plain ∧ PlainMembers rest

end

/-- The text does not carry on a number that stands before it. -/
def Ends (rest : List Char) : Prop :=
  ∀ c ∈ rest.head?, c.isDigit = false ∧ c ≠ '.' ∧ c ≠ 'e' ∧ c ≠ 'E'

/-! ## Numbers -/

theorem le_ofDigitChars (digits : List Char) (value : Nat) :
    value ≤ Nat.ofDigitChars 10 digits value := by
  induction digits generalizing value with
  | nil => exact Nat.le_refl _
  | cons c digits ih =>
    have := ih (10 * value + (c.toNat - '0'.toNat))
    rw [Nat.ofDigitChars_cons]
    omega

theorem significantDigits_append {digits rest : List Char} {value : Nat}
    (every : ∀ c ∈ digits, c.isDigit = true) (ends : ∀ c ∈ rest.head?, c.isDigit = false)
    (fits : Nat.ofDigitChars 10 digits value < 2 ^ 64) :
    significantDigits value (digits ++ rest) = (Nat.ofDigitChars 10 digits value, 0, rest) := by
  induction digits generalizing value with
  | nil =>
    cases rest with
    | nil => rfl
    | cons c rest =>
      have := ends c rfl
      simp [significantDigits, this]
  | cons c digits ih =>
    rw [Nat.ofDigitChars_cons] at fits ⊢
    have next : value * 10 + (c.toNat - '0'.toNat) = 10 * value + (c.toNat - '0'.toNat) := by omega
    have below := le_ofDigitChars digits (10 * value + (c.toNat - '0'.toNat))
    have digit := every c List.mem_cons_self
    have small : 10 * value + (c.toNat - '0'.toNat) < 2 ^ 64 := by omega
    rw [List.cons_append, significantDigits, if_pos digit]
    dsimp only
    rw [next, if_pos small, ih (fun d mem => every d (List.mem_cons_of_mem _ mem)) fits]

theorem afterDigits_of_ends {rest : List Char} (ends : Ends rest) (negative : Bool)
    (digits : Nat) (exponent : Int) (whole : Json) :
    afterDigits negative digits exponent rest (some whole) = some (whole, rest) := by
  cases rest with
  | nil => rfl
  | cons c rest =>
    obtain ⟨-, -, lower, upper⟩ := ends c rfl
    unfold afterDigits
    split
    · rename_i same
      exact absurd (List.cons.inj same).1 lower
    · rename_i same
      exact absurd (List.cons.inj same).1 upper
    · rfl

theorem toDigits_eq_cons (n : Nat) : ∃ first more, Nat.toDigits 10 n = first :: more ∧
    first.isDigit = true ∧ (0 < n → first ≠ '0') := by
  induction n using Nat.strongRecOn with
  | _ n ih =>
  by_cases small : n < 10
  · refine ⟨n.digitChar, [], Nat.toDigits_of_lt_base small, ?_, ?_⟩
    · rw [Nat.isDigit_digitChar]
      exact decide_eq_true small
    · have : ∀ m < 10, 0 < m → m.digitChar ≠ '0' := by decide
      exact this n small
  · obtain ⟨first, more, shape, digit, nonzero⟩ := ih (n / 10) (by omega)
    refine ⟨first, more ++ [(n % 10).digitChar], ?_, digit, fun _ => nonzero (by omega)⟩
    rw [Nat.toDigits_of_base_le (by omega) (by omega), shape, List.cons_append]

/-- Digits that fit are read as they were written, up to what ends the number. -/
theorem unsignedNumber_toDigits {n : Nat} {rest : List Char} (fits : n < 2 ^ 64)
    (ends : Ends rest) (negative : Bool) :
    unsignedNumber negative (Nat.toDigits 10 n ++ rest) =
      some (wholeNumber negative n, rest) := by
  by_cases zero : n = 0
  · subst zero
    show unsignedNumber negative ('0' :: rest) = _
    cases rest with
    | nil => rfl
    | cons c rest =>
      have after := afterDigits_of_ends ends negative 0 0 (wholeNumber negative 0)
      obtain ⟨digit, point, -, -⟩ := ends c rfl
      simp only [unsignedNumber, digit, after]
      simp
  · obtain ⟨first, more, shape, digit, nonzero⟩ := toDigits_eq_cons n
    have every : ∀ c ∈ first :: more, c.isDigit = true := fun c mem =>
      Nat.isDigit_of_mem_toDigits (by decide) (by decide) (shape ▸ mem)
    have value : Nat.ofDigitChars 10 (first :: more) 0 = n := by
      rw [← shape, Nat.ofDigitChars_toDigits (by decide) (by decide)]
    have read : significantDigits 0 (first :: more ++ rest) = _ :=
      significantDigits_append every (fun c first => (ends c first).1) (by rw [value]; exact fits)
    rw [value, List.cons_append] at read
    rw [shape, List.cons_append]
    have after := afterDigits_of_ends ends negative n 0 (wholeNumber negative n)
    have notZero : first ≠ '0' := nonzero (by omega)
    unfold unsignedNumber
    split
    · rename_i same
      exact absurd (List.cons.inj same).1 notZero
    · rename_i same
      obtain ⟨rfl, rfl⟩ := List.cons.inj same
      rw [if_pos digit, read]
      dsimp only
      split
      · exact absurd rfl (ends '.' rfl).2.1
      · exact after
    · rename_i same
      cases same

/-- A whole number within the bounds is read back, up to what ends it. -/
theorem number_intChars {i : Int} {rest : List Char} (least : leastInt ≤ i)
    (greatest : i ≤ greatestInt) (ends : Ends rest) :
    number (intChars i ++ rest) = some (.int i, rest) := by
  unfold leastInt at least
  unfold greatestInt at greatest
  cases i with
  | ofNat n =>
    have fits : n < 2 ^ 64 := by
      have : (n : Int) ≤ 2 ^ 64 - 1 := greatest
      omega
    obtain ⟨first, more, shape, digit, -⟩ := toDigits_eq_cons n
    have read := unsignedNumber_toDigits fits ends false
    show number (Nat.toDigits 10 n ++ rest) = _
    rw [shape, List.cons_append] at read ⊢
    unfold number
    split
    · rename_i same
      rw [(List.cons.inj same).1] at digit
      cases digit
    · exact read
  | negSucc n =>
    have fits : n + 1 ≤ 2 ^ 63 := by
      have : -(2 ^ 63) ≤ Int.negSucc n := least
      omega
    have read : unsignedNumber true (Nat.toDigits 10 (n + 1) ++ rest) = _ :=
      unsignedNumber_toDigits (by omega) ends true
    have whole : wholeNumber true (n + 1) = .int (.negSucc n) := by
      unfold wholeNumber
      rw [if_pos rfl, if_neg (by omega)]
      rfl
    rw [whole] at read
    exact read

/-! ## Texts -/

theorem unit16_control (n : Nat) (small : n < 32) (rest : List Char) :
    unit16 ('0' :: '0' :: Nat.digitChar (n / 16) :: Nat.digitChar (n % 16) :: rest) =
      some (n, rest) := by
  have high : Text.hexValue? (Nat.digitChar (n / 16)) = some (n / 16) :=
    Text.hexValue?_hexDigit _ (by omega)
  have low : Text.hexValue? (Nat.digitChar (n % 16)) = some (n % 16) :=
    Text.hexValue?_hexDigit _ (by omega)
  have zero : Text.hexValue? '0' = some 0 := rfl
  have whole : ((0 * 16 + 0) * 16 + n / 16) * 16 + n % 16 = n := by omega
  simp only [unit16, high, low, zero, Option.bind_eq_bind, Option.bind_some, whole]
  rfl

/-- An escaped character is one step for the reader. -/
theorem stringChars_escapeChar (c : Char) (done rest : List Char) (fuel : Nat) :
    stringChars done (fuel + 1) (escapeChar c ++ rest) = stringChars (c :: done) fuel rest := by
  unfold escapeChar
  split
  · subst c
    rfl
  split
  · subst c
    rfl
  split
  · subst c
    rfl
  split
  · subst c
    rfl
  split
  · subst c
    rfl
  split
  · subst c
    rfl
  split
  · subst c
    rfl
  rename_i quote backslash _ _ _ _ _
  split
  · rename_i control
    have read := unit16_control c.toNat control rest
    have escaped : unicodeEscape ('0' :: '0' :: Nat.digitChar (c.toNat / 16) ::
        Nat.digitChar (c.toNat % 16) :: rest) = some (c, rest) := by
      unfold unicodeEscape
      rw [read]
      simp only [Option.bind_eq_bind, Option.bind_some]
      rw [if_neg (by omega), if_neg (by omega), Char.ofNat_toNat]
      rfl
    simp only [List.cons_append, List.nil_append, stringChars, escape, escaped,
      Option.bind_eq_bind, Option.bind_some]
  · rename_i printed
    rw [List.cons_append, List.nil_append, stringChars, if_neg printed]
    · exact fun same => quote same
    · exact fun same => backslash same

theorem length_escapeChar_pos (c : Char) : 0 < (escapeChar c).length := by
  unfold escapeChar
  repeat' split
  all_goals simp

theorem stringChars_flatMap (cs done rest : List Char) {fuel : Nat}
    (enough : (cs.flatMap escapeChar).length < fuel) :
    stringChars done fuel (cs.flatMap escapeChar ++ '"' :: rest) =
      some (done.reverse ++ cs, rest) := by
  induction cs generalizing done fuel with
  | nil =>
    obtain ⟨fuel, rfl⟩ := Nat.exists_eq_succ_of_ne_zero (Nat.ne_of_gt enough)
    rw [List.append_nil]
    rfl
  | cons c cs ih =>
    have taken := length_escapeChar_pos c
    rw [List.flatMap_cons, List.length_append] at enough
    obtain ⟨fuel, rfl⟩ := Nat.exists_eq_succ_of_ne_zero (show fuel ≠ 0 by omega)
    rw [List.flatMap_cons, List.append_assoc, stringChars_escapeChar, ih _ (by omega)]
    simp

theorem stringBody_quote (s : String) (rest : List Char) {fuel : Nat}
    (enough : (quote s).length ≤ fuel + 1) :
    stringBody fuel (s.toList.flatMap escapeChar ++ '"' :: rest) = some (s, rest) := by
  rw [quote, List.length_append, List.length_cons, List.length_singleton] at enough
  rw [stringBody, stringChars_flatMap _ _ _ (by omega)]
  simp

theorem quote_append (s : String) (rest : List Char) :
    quote s ++ rest = '"' :: (s.toList.flatMap escapeChar ++ '"' :: rest) := by
  simp [quote]

/-! ## Documents -/

theorem skipSpace_cons {c : Char} (visible : isSpace c = false) (rest : List Char) :
    skipSpace (c :: rest) = c :: rest := by
  rw [skipSpace, List.dropWhile_cons, if_neg (by simp [visible])]

theorem isSpace_of_isDigit {c : Char} (digit : c.isDigit = true) : isSpace c = false := by
  cases space : isSpace c with
  | false => rfl
  | true =>
    simp only [isSpace, Bool.or_eq_true, beq_iff_eq] at space
    rcases space with ((rfl | rfl) | rfl) | rfl <;> cases digit

/-- No blank stands before a document, and it does not look like the end of a list. -/
theorem chars_eq_cons {j : Json} (plain : j.Plain) :
    ∃ first more, j.chars = first :: more ∧ isSpace first = false ∧ first ≠ ']' := by
  cases j with
  | null => exact ⟨_, _, rfl, by decide, by decide⟩
  | bool b => cases b <;> exact ⟨_, _, rfl, by decide, by decide⟩
  | int i =>
    cases i with
    | ofNat n =>
      obtain ⟨first, more, shape, digit, -⟩ := toDigits_eq_cons n
      refine ⟨first, more, shape, isSpace_of_isDigit digit, ?_⟩
      rintro rfl
      cases digit
    | negSucc n => exact ⟨_, _, rfl, by decide, by decide⟩
  | float x => exact plain.elim
  | str s => exact ⟨_, _, rfl, by decide, by decide⟩
  | arr items => cases items <;> exact ⟨_, _, rfl, by decide, by decide⟩
  | obj members =>
    cases members with
    | nil => exact ⟨_, _, rfl, by decide, by decide⟩
    | cons member rest => exact ⟨_, _, rfl, by decide, by decide⟩

/-- What begins with a digit is read as a number. -/
theorem value_of_isDigit {c : Char} (digit : c.isDigit = true) (fuel room : Nat)
    (rest : List Char) : value (fuel + 1) room (c :: rest) = number (c :: rest) := by
  rw [value, skipSpace_cons (isSpace_of_isDigit digit)]
  have other : ∀ {d : Char} {more : List Char}, d.isDigit = false → c :: rest = d :: more →
      False := by
    intro d more notDigit same
    rw [(List.cons.inj same).1, notDigit] at digit
    cases digit
  split
  · rename_i same
    exact (other (by decide) same).elim
  · rename_i same
    exact (other (by decide) same).elim
  · rename_i same
    exact (other (by decide) same).elim
  · rename_i same
    exact (other (by decide) same).elim
  · rename_i same
    exact (other (by decide) same).elim
  · rename_i same
    exact (other (by decide) same).elim
  · rfl

theorem value_intChars (fuel room : Nat) (i : Int) (rest : List Char) :
    value (fuel + 1) room (intChars i ++ rest) = number (intChars i ++ rest) := by
  cases i with
  | ofNat n =>
    obtain ⟨first, more, shape, digit, -⟩ := toDigits_eq_cons n
    show value (fuel + 1) room (Nat.toDigits 10 n ++ rest) = number (Nat.toDigits 10 n ++ rest)
    rw [shape, List.cons_append, value_of_isDigit digit]
  | negSucc n =>
    show value (fuel + 1) room ('-' :: (Nat.toDigits 10 (n + 1) ++ rest)) = _
    rw [value, skipSpace_cons (by decide)]
    rfl

theorem ends_itemsTail (items : List Json) (rest : List Char) : Ends (itemsTail items ++ rest) := by
  intro c first
  cases items <;>
  · cases first
    decide

theorem ends_membersTail (members : List (String × Json)) (rest : List Char) :
    Ends (membersTail members ++ rest) := by
  intro c first
  cases members <;>
  · cases first
    decide

/-! Each bracket and comma is one step for the reader. -/

theorem value_no_room (fuel : Nat) {c : Char} (opens : c = '[' ∨ c = '{') (rest : List Char) :
    value (fuel + 1) 0 (c :: rest) = none := by
  rcases opens with rfl | rfl <;>
  · rw [value, skipSpace_cons (by decide)]
    rfl

theorem value_empty_array (fuel room : Nat) (rest : List Char) :
    value (fuel + 1) (room + 1) ('[' :: ']' :: rest) = some (.arr [], rest) := by
  rw [value, skipSpace_cons (by decide)]
  simp only [skipSpace_cons (show isSpace ']' = false by decide)]

theorem value_empty_object (fuel room : Nat) (rest : List Char) :
    value (fuel + 1) (room + 1) ('{' :: '}' :: rest) = some (.obj [], rest) := by
  rw [value, skipSpace_cons (by decide)]
  simp only [skipSpace_cons (show isSpace '}' = false by decide)]

theorem value_array (fuel room : Nat) {c : Char} (visible : isSpace c = false) (inner : c ≠ ']')
    (rest : List Char) : value (fuel + 1) (room + 1) ('[' :: c :: rest) = (do
      let (item, rest) ← value fuel room (c :: rest)
      let (items, rest) ← Json.items fuel room rest
      pure (.arr (item :: items), rest)) := by
  rw [value, skipSpace_cons (by decide)]
  simp only [skipSpace_cons visible]
  split
  · rename_i same
    exact absurd (List.cons.inj same).1 inner
  · rfl

theorem value_object (fuel room : Nat) (rest : List Char) :
    value (fuel + 1) (room + 1) ('{' :: '"' :: rest) = (do
      let (first, rest) ← member fuel room ('"' :: rest)
      let (members, rest) ← Json.members fuel room rest
      pure (.obj (first :: members), rest)) := by
  rw [value, skipSpace_cons (by decide)]
  simp only [skipSpace_cons (show isSpace '"' = false by decide)]
  rfl

theorem items_end (fuel room : Nat) (rest : List Char) :
    Json.items (fuel + 1) room (']' :: rest) = some ([], rest) := by
  rw [Json.items, skipSpace_cons (by decide)]
  rfl

theorem items_comma (fuel room : Nat) (rest : List Char) :
    Json.items (fuel + 1) room (',' :: rest) = (do
      let (item, rest) ← value fuel room rest
      let (more, rest) ← Json.items fuel room rest
      pure (item :: more, rest)) := by
  rw [Json.items, skipSpace_cons (by decide)]
  rfl

theorem members_end (fuel room : Nat) (rest : List Char) :
    Json.members (fuel + 1) room ('}' :: rest) = some ([], rest) := by
  rw [Json.members, skipSpace_cons (by decide)]
  rfl

theorem members_comma (fuel room : Nat) (rest : List Char) :
    Json.members (fuel + 1) room (',' :: rest) = (do
      let (first, rest) ← member fuel room rest
      let (more, rest) ← Json.members fuel room rest
      pure (first :: more, rest)) := by
  rw [Json.members, skipSpace_cons (by decide)]
  rfl

theorem member_quote (fuel room : Nat) (name : String) (rest : List Char)
    (enough : (quote name).length ≤ fuel + 1) :
    member (fuel + 1) room (quote name ++ ':' :: rest) =
      (value fuel room rest).map fun read => ((name, read.1), read.2) := by
  rw [quote_append, member, skipSpace_cons (by decide)]
  simp only [stringBody_quote name (':' :: rest) enough, Option.bind_eq_bind, Option.bind_some,
    skipSpace_cons (show isSpace ':' = false by decide)]
  cases value fuel room rest <;> rfl

/-- One thing and then another are read if there is room for both. -/
theorem read_both {α β γ : Type} {a b room : Nat} {first : Option (α × List Char)} {x : α}
    {between last : List Char} {second : List Char → Option (β × List Char)} {y : β}
    (join : α → β → γ)
    (readFirst : first = if a ≤ room then some (x, between) else none)
    (readSecond : second between = if b ≤ room then some (y, last) else none) :
    (do
      let (item, rest) ← first
      let (more, rest) ← second rest
      pure (join item more, rest)) =
      if max a b ≤ room then some (join x y, last) else none := by
  rw [readFirst]
  by_cases fitsFirst : a ≤ room
  · rw [if_pos fitsFirst, Option.bind_eq_bind, Option.bind_some]
    dsimp only
    rw [readSecond]
    by_cases fitsSecond : b ≤ room
    · rw [if_pos fitsSecond, if_pos (by omega)]
      rfl
    · rw [if_neg fitsSecond, if_neg (by omega)]
      rfl
  · rw [if_neg fitsFirst, if_neg (by omega)]
    rfl

/-! The induction is on the document. What is too deep is refused where it begins, so a
list is read if none of its items is. -/

mutual

/-- The text of a document is read back, up to where it ends, if there is room. -/
theorem value_chars (j : Json) (plain : j.Plain) {fuel : Nat} (room : Nat) {rest : List Char}
    (enough : j.chars.length ≤ fuel) (ends : Ends rest) :
    value fuel room (j.chars ++ rest) = if j.depth ≤ room then some (j, rest) else none := by
  obtain ⟨fuel, rfl⟩ : ∃ n, fuel = n + 1 := by
    obtain ⟨first, more, shape, -⟩ := chars_eq_cons plain
    rw [shape, List.length_cons] at enough
    exact ⟨fuel - 1, by omega⟩
  match j with
  | .null =>
    rw [if_pos (by simp [depth]), chars, List.cons_append, value, skipSpace_cons (by decide)]
    rfl
  | .bool true =>
    rw [if_pos (by simp [depth]), chars, List.cons_append, value, skipSpace_cons (by decide)]
    rfl
  | .bool false =>
    rw [if_pos (by simp [depth]), chars, List.cons_append, value, skipSpace_cons (by decide)]
    rfl
  | .int i =>
    rw [if_pos (by simp [depth]), chars, value_intChars, number_intChars plain.1 plain.2 ends]
  | .float x => exact plain.elim
  | .str s =>
    rw [chars] at enough
    rw [if_pos (by simp [depth]), chars, quote_append, value, skipSpace_cons (by decide)]
    simp only [stringBody_quote s rest enough, Option.bind_eq_bind, Option.bind_some]
    rfl
  | .arr [] =>
    have depth : (Json.arr []).depth = 1 := rfl
    cases room with
    | zero => exact value_no_room fuel (.inl rfl) _
    | succ room =>
      rw [if_pos (by omega)]
      exact value_empty_array fuel room rest
  | .arr (item :: items) =>
    obtain ⟨first, more, shape, visible, inner⟩ := chars_eq_cons plain.1
    have depth : (Json.arr (item :: items)).depth = max item.depth (itemsDepth items) + 1 := rfl
    rw [chars, List.length_cons, List.length_append] at enough
    rw [chars, List.cons_append, List.append_assoc]
    cases room with
    | zero =>
      rw [if_neg (by omega)]
      exact value_no_room fuel (.inl rfl) _
    | succ room =>
      have readItem : value fuel room (item.chars ++ (itemsTail items ++ rest)) = _ :=
        value_chars item plain.1 room (by omega) (ends_itemsTail items rest)
      have readRest : Json.items fuel room (itemsTail items ++ rest) = _ :=
        items_itemsTail items plain.2 room rest (by omega)
      rw [shape, List.cons_append] at readItem ⊢
      rw [value_array fuel room visible inner]
      refine (read_both (fun item items => Json.arr (item :: items)) readItem readRest).trans ?_
      by_cases fits : max item.depth (itemsDepth items) ≤ room
      · rw [if_pos fits, if_pos (by omega)]
      · rw [if_neg fits, if_neg (by omega)]
  | .obj [] =>
    have depth : (Json.obj []).depth = 1 := rfl
    cases room with
    | zero => exact value_no_room fuel (.inr rfl) _
    | succ room =>
      rw [if_pos (by omega)]
      exact value_empty_object fuel room rest
  | .obj ((name, item) :: members) =>
    have depth : (Json.obj ((name, item) :: members)).depth =
      max item.depth (membersDepth members) + 1 := rfl
    rw [chars, List.length_cons, List.length_append, List.length_cons, List.length_append] at enough
    rw [chars, List.cons_append, List.append_assoc, List.cons_append, List.append_assoc]
    cases room with
    | zero =>
      rw [if_neg (by omega)]
      exact value_no_room fuel (.inr rfl) _
    | succ room =>
      obtain ⟨fuel, rfl⟩ : ∃ n, fuel = n + 1 := ⟨fuel - 1, by omega⟩
      have readFirst : member (fuel + 1) room
          (quote name ++ ':' :: (item.chars ++ (membersTail members ++ rest))) =
          if item.depth ≤ room then some ((name, item), membersTail members ++ rest) else none := by
        rw [member_quote fuel room name _ (by omega), value_chars item plain.1 room (by omega)
          (ends_membersTail members rest)]
        split <;> rfl
      have readRest : Json.members (fuel + 1) room (membersTail members ++ rest) = _ :=
        members_membersTail members plain.2 room rest (by omega)
      rw [quote_append] at readFirst ⊢
      rw [value_object]
      refine (read_both (fun first members => Json.obj (first :: members)) readFirst
        readRest).trans ?_
      by_cases fits : max item.depth (membersDepth members) ≤ room
      · rw [if_pos fits, if_pos (by omega)]
      · rw [if_neg fits, if_neg (by omega)]

theorem items_itemsTail (items : List Json) (plain : PlainItems items) {fuel : Nat}
    (room : Nat) (rest : List Char) (enough : (itemsTail items).length ≤ fuel) :
    Json.items fuel room (itemsTail items ++ rest) =
      if itemsDepth items ≤ room then some (items, rest) else none := by
  match items with
  | [] =>
    rw [itemsTail, List.length_singleton] at enough
    obtain ⟨fuel, rfl⟩ : ∃ n, fuel = n + 1 := ⟨fuel - 1, by omega⟩
    rw [if_pos (show itemsDepth [] ≤ room from Nat.zero_le room)]
    exact items_end fuel room rest
  | item :: items =>
    have depth : itemsDepth (item :: items) = max item.depth (itemsDepth items) := rfl
    rw [itemsTail, List.length_cons, List.length_append] at enough
    rw [itemsTail, List.cons_append, List.append_assoc]
    obtain ⟨fuel, rfl⟩ : ∃ n, fuel = n + 1 := ⟨fuel - 1, by omega⟩
    have readItem : value fuel room (item.chars ++ (itemsTail items ++ rest)) = _ :=
      value_chars item plain.1 room (by omega) (ends_itemsTail items rest)
    have readRest : Json.items fuel room (itemsTail items ++ rest) = _ :=
      items_itemsTail items plain.2 room rest (by omega)
    rw [items_comma]
    exact read_both List.cons readItem readRest

theorem members_membersTail (members : List (String × Json)) (plain : PlainMembers members)
    {fuel : Nat} (room : Nat) (rest : List Char) (enough : (membersTail members).length ≤ fuel) :
    Json.members fuel room (membersTail members ++ rest) =
      if membersDepth members ≤ room then some (members, rest) else none := by
  match members with
  | [] =>
    rw [membersTail, List.length_singleton] at enough
    obtain ⟨fuel, rfl⟩ : ∃ n, fuel = n + 1 := ⟨fuel - 1, by omega⟩
    rw [if_pos (show membersDepth [] ≤ room from Nat.zero_le room)]
    exact members_end fuel room rest
  | (name, item) :: members =>
    rw [membersTail, List.length_cons, List.length_append, List.length_cons,
      List.length_append] at enough
    rw [membersTail, List.cons_append, List.append_assoc, List.cons_append, List.append_assoc]
    obtain ⟨fuel, rfl⟩ : ∃ n, fuel = n + 2 := ⟨fuel - 2, by omega⟩
    have readFirst : member (fuel + 1) room
        (quote name ++ ':' :: (item.chars ++ (membersTail members ++ rest))) =
        if item.depth ≤ room then some ((name, item), membersTail members ++ rest) else none := by
      rw [member_quote fuel room name _ (by omega), value_chars item plain.1 room (by omega)
        (ends_membersTail members rest)]
      split <;> rfl
    have readRest : Json.members (fuel + 1) room (membersTail members ++ rest) = _ :=
      members_membersTail members plain.2 room rest (by omega)
    rw [members_comma]
    exact read_both List.cons readFirst readRest

end

/-- Only its depth keeps the text of a plain document from being read back. -/
theorem parse?_text {j : Json} (plain : j.Plain) :
    parse? j.text = if j.depth ≤ depthLimit then some j else none := by
  have read : value (3 * j.chars.length + 3) depthLimit (j.chars ++ []) = _ :=
    value_chars j plain depthLimit (by omega) (by intro c first; cases first)
  rw [List.append_nil] at read
  rw [parse?, text, String.toList_ofList, front, read]
  by_cases fits : j.depth ≤ depthLimit
  · rw [if_pos fits, if_pos fits]
    rfl
  · rw [if_neg fits, if_neg fits]
    rfl

theorem ofBytes?_bytes {j : Json} (plain : j.Plain) :
    ofBytes? j.bytes = if j.depth ≤ depthLimit then some j else none := by
  rw [ofBytes?, bytes, Text.ofUtf8?_utf8, Option.bind_eq_bind, Option.bind_some, parse?_text plain]

end Json
end Reconfig
