/-
Where the text of an object ends.

It ends with the bracket that closes its first one, if those inside of quotes do not
count. Whoever prints an object stops there, and so does whoever reads one, whether or not
the two agree about what it says. So nobody takes the front of an object for an object,
or an object and more.
-/
import Reconfig.Proofs.Json.RoundTrip

namespace Reconfig
namespace Text

theorem utf8_ofList (cs : List Char) :
    utf8 (String.ofList cs) = cs.flatMap String.utf8EncodeChar := by
  simp [utf8, List.utf8Encode]

theorem length_le_utf8 (s : String) : s.toList.length ≤ (utf8 s).length := by
  rw [← String.ofList_toList (s := s), utf8_ofList, String.toList_ofList]
  induction s.toList with
  | nil => exact Nat.le_refl _
  | cons c rest ih =>
    have := c.utf8Size_pos
    rw [List.flatMap_cons, List.length_append, String.length_utf8EncodeChar, List.length_cons]
    omega

theorem utf8_append (s t : String) : utf8 (s ++ t) = utf8 s ++ utf8 t := by
  simp [utf8]

/-- A text whose bytes are the first ones of another is the front of that text. -/
theorem exists_append_of_utf8 {s t : String} {more : List UInt8} (same : utf8 s ++ more = utf8 t) :
    ∃ rest, t = s ++ rest ∧ more = utf8 rest := by
  have joined : s.toList.utf8Encode ++ ⟨more.toArray⟩ = t.toList.utf8Encode := by
    rw [String.utf8Encode_toList, String.utf8Encode_toList]
    apply ByteArray.ext
    rw [ByteArray.data_append]
    apply Array.ext'
    simpa [utf8] using same
  obtain ⟨rest, shape⟩ := List.isPrefix_of_utf8Encode_append_eq_utf8Encode _ joined
  have whole : t = s ++ String.ofList rest := by
    rw [← String.toList_inj, String.toList_append, String.toList_ofList, shape]
  refine ⟨String.ofList rest, whole, ?_⟩
  rw [whole, utf8_append] at same
  exact List.append_cancel_left same

theorem utf8_of_ofUtf8? {bytes : List UInt8} {s : String} (decoded : ofUtf8? bytes = some s) :
    bytes = utf8 s := by
  unfold ofUtf8? String.fromUTF8? at decoded
  split at decoded
  · cases decoded
    simp [utf8, String.fromUTF8]
  · cases decoded

/-- The bytes of a character that is no control character look like none. -/
theorem le_of_mem_utf8EncodeChar {b : UInt8} {c : Char} (visible : 32 ≤ c.toNat)
    (mem : b ∈ String.utf8EncodeChar c) : 32 ≤ b.toNat := by
  have visible : 32 ≤ c.val.toNat := visible
  unfold String.utf8EncodeChar at mem
  dsimp only at mem
  repeat' split at mem
  all_goals
    simp only [List.mem_cons, List.not_mem_nil, or_false] at mem
    rcases mem with rfl | rfl | rfl | rfl
  all_goals
    rw [UInt8.toNat_ofNat']
    omega

end Text

namespace Json

/-- A text is looked at character by character, also where a library goes over all the
characters there are. -/
local instance (priority := high) decidableText (p : Char → Prop) [DecidablePred p]
    (s : List Char) : Decidable (∀ c ∈ s, p c) :=
  List.decidableBAll p s

/-! ## Brackets -/

def opens (c : Char) : Bool := c == '{' || c == '['

def closes (c : Char) : Bool := c == '}' || c == ']'

/-- Where a character stands: outside of quotes, between them, or behind a backslash there. -/
inductive Place where
  | open
  | quoted
  | escaped

/-- What follows the bracket that closes the outermost of the brackets that are open, of
which there are one more than the number says. -/
def close : Nat → Place → List Char → Option (List Char)
  | _, _, [] => none
  | depth, .escaped, _ :: rest => close depth .quoted rest
  | depth, .quoted, c :: rest =>
    close depth (if c = '\\' then .escaped else if c = '"' then .open else .quoted) rest
  | depth, .open, c :: rest =>
    if c = '"' then close depth .quoted rest
    else if opens c then close (depth + 1) .open rest
    else if closes c then if depth = 0 then some rest else close (depth - 1) .open rest
    else close depth .open rest

/-- The text leaves the place and the open brackets as they are. -/
def Skipped (place : Place) (s : List Char) : Prop :=
  ∀ depth rest, close depth place (s ++ rest) = close depth place rest

/-- The character has no part in the structure of a document. -/
def isFlat (c : Char) : Bool := c != '"' && !opens c && !closes c

variable {s t : List Char} {place : Place}

theorem skipped_nil : Skipped place [] := fun _ _ => rfl

theorem Skipped.append (first : Skipped place s) (second : Skipped place t) :
    Skipped place (s ++ t) := by
  intro depth rest
  rw [List.append_assoc, first, second]

theorem Skipped.flat {c : Char} (flat : isFlat c = true) (skipped : Skipped .open s) :
    Skipped .open (c :: s) := by
  simp only [isFlat, Bool.and_eq_true, bne_iff_ne, Bool.not_eq_true'] at flat
  obtain ⟨⟨quote, opening⟩, closing⟩ := flat
  intro depth rest
  rw [List.cons_append, close, if_neg quote, opening, closing, if_neg Bool.false_ne_true,
    if_neg Bool.false_ne_true, skipped]

theorem skipped_of_flat (flat : ∀ c ∈ s, isFlat c = true) : Skipped .open s := by
  induction s with
  | nil => exact skipped_nil
  | cons c s ih =>
    obtain ⟨first, others⟩ := List.forall_mem_cons.1 flat
    exact (ih others).flat first

theorem Skipped.letter {c : Char} (backslash : c ≠ '\\') (quote : c ≠ '"')
    (skipped : Skipped .quoted s) : Skipped .quoted (c :: s) := by
  intro depth rest
  rw [List.cons_append, close, if_neg backslash, if_neg quote, skipped]

theorem Skipped.escape (c : Char) (skipped : Skipped .quoted s) :
    Skipped .quoted ('\\' :: c :: s) := by
  intro depth rest
  rw [List.cons_append, List.cons_append, close, if_pos rfl, close, skipped]

theorem Skipped.quote (skipped : Skipped .quoted s) : Skipped .open ('"' :: (s ++ ['"'])) := by
  intro depth rest
  rw [List.cons_append, List.append_assoc, close, if_pos rfl, skipped, List.cons_append, close,
    if_neg (by decide), if_pos rfl]
  rfl

theorem Skipped.enclosed {first last : Char} (opening : opens first = true)
    (closing : closes last = true) (skipped : Skipped .open s) :
    Skipped .open (first :: (s ++ [last])) := by
  have other : first ≠ '"' := by
    rintro rfl
    cases opening
  have other' : last ≠ '"' := by
    rintro rfl
    cases closing
  have shut : opens last = false := by
    simp only [closes, Bool.or_eq_true, beq_iff_eq] at closing
    rcases closing with rfl | rfl <;> rfl
  intro depth rest
  rw [List.cons_append, List.append_assoc, close, if_neg other, if_pos opening, skipped,
    List.cons_append, close, if_neg other', shut, if_neg Bool.false_ne_true, if_pos closing]
  rfl

theorem Skipped.close_eq (skipped : Skipped .open s) (rest : List Char) :
    close 0 .open (s ++ '}' :: rest) = some rest := by
  rw [skipped]
  rfl

/-! ## What is printed -/

/-- A character of a printed number. -/
def isNumeral (c : Char) : Bool := c.isDigit || ['-', '.', 'e', 'N', 'a', 'i', 'n', 'f'].contains c

theorem isNumeral_of_isDigit {c : Char} (digit : c.isDigit = true) : isNumeral c = true := by
  rw [isNumeral, digit, Bool.true_or]

theorem isNumeral_toDigits {n : Nat} : ∀ c ∈ Nat.toDigits 10 n, isNumeral c = true :=
  fun _ mem => isNumeral_of_isDigit (Nat.isDigit_of_mem_toDigits (by decide) (by decide) mem)

theorem isNumeral_intChars (i : Int) : ∀ c ∈ intChars i, isNumeral c = true := by
  cases i with
  | ofNat n => exact isNumeral_toDigits
  | negSucc n => exact List.forall_mem_cons.2 ⟨by decide, isNumeral_toDigits⟩

theorem isNumeral_toString (i : Int) : ∀ c ∈ (toString i).toList, isNumeral c = true := by
  cases i with
  | ofNat n =>
    show ∀ c ∈ (toString n).toList, isNumeral c = true
    rw [Text.toString_eq_ofList_digits, String.toList_ofList]
    exact isNumeral_toDigits
  | negSucc n =>
    show ∀ c ∈ ("-" ++ toString (n + 1)).toList, isNumeral c = true
    rw [Text.toString_eq_ofList_digits, String.toList_append]
    exact List.forall_mem_append.2 ⟨by decide, by
      rw [String.toList_ofList]
      exact isNumeral_toDigits⟩

open Number.Layout in
theorem isNumeral_write {digits : List Char} (numeral : ∀ c ∈ digits, isNumeral c = true)
    (exponent : Int) : ∀ c ∈ document.write digits exponent, isNumeral c = true := by
  have zeros (n : Int) : ∀ c ∈ zeros n, isNumeral c = true := by
    intro c mem
    rw [(List.mem_replicate.1 mem).2]
    decide
  simp only [write, document]
  split
  · split
    · have point : ∀ c ∈ (if true then ['.', '0'] else []), isNumeral c = true := by
        decide
      exact List.forall_mem_append.2 ⟨List.forall_mem_append.2 ⟨numeral, zeros exponent⟩, point⟩
    · split
      · exact List.forall_mem_append.2 ⟨fun c mem => numeral c (List.mem_of_mem_take mem),
          List.forall_mem_cons.2 ⟨by decide, fun c mem => numeral c (List.mem_of_mem_drop mem)⟩⟩
      · exact List.forall_mem_append.2 ⟨List.forall_mem_cons.2 ⟨by decide,
          List.forall_mem_cons.2 ⟨by decide, zeros _⟩⟩, numeral⟩
  · have power : ∀ c ∈ 'e' :: (toString ((digits.length + exponent : Int) - 1)).toList,
        isNumeral c = true := List.forall_mem_cons.2 ⟨by decide, isNumeral_toString _⟩
    split
    · obtain ⟨first, others⟩ := List.forall_mem_cons.1 numeral
      exact List.forall_mem_append.2
        ⟨List.forall_mem_cons.2 ⟨first, List.forall_mem_cons.2 ⟨by decide, others⟩⟩, power⟩
    · exact List.forall_mem_append.2 ⟨numeral, power⟩

theorem isNumeral_render (x : Number.Binary64) :
    ∀ c ∈ Number.Layout.document.render x, isNumeral c = true := by
  have sign : ∀ negative : Bool, ∀ c ∈ if negative then ['-'] else [], isNumeral c = true := by
    decide
  cases x with
  | nan => decide
  | infinite negative => exact List.forall_mem_append.2 ⟨sign negative, by decide⟩
  | finite negative m e =>
    rw [Number.Layout.render]
    dsimp only
    split
    · exact List.forall_mem_append.2 ⟨sign negative, by decide⟩
    · exact List.forall_mem_append.2 ⟨sign negative, isNumeral_write isNumeral_toDigits _⟩

theorem isFlat_of_isNumeral {c : Char} (numeral : isNumeral c = true) : isFlat c = true := by
  simp only [isFlat, opens, closes, Bool.and_eq_true, bne_iff_ne, Bool.not_eq_true',
    Bool.or_eq_false_iff, beq_eq_false_iff_ne]
  refine ⟨⟨?_, ?_, ?_⟩, ?_, ?_⟩ <;>
  · rintro rfl
    revert numeral
    decide

theorem visible_of_isNumeral {c : Char} (numeral : isNumeral c = true) : 32 ≤ c.toNat := by
  simp only [isNumeral, Bool.or_eq_true, List.contains_iff_mem, List.mem_cons,
    List.not_mem_nil, or_false] at numeral
  obtain digit | numeral := numeral
  · rw [Char.isDigit_iff_toNat] at digit
    exact Nat.le_trans (by decide) digit.1
  · rcases numeral with rfl | rfl | rfl | rfl | rfl | rfl | rfl | rfl <;> decide

theorem visible_escapeChar (c : Char) : ∀ d ∈ escapeChar c, 32 ≤ d.toNat := by
  unfold escapeChar
  split
  · decide
  split
  · decide
  split
  · decide
  split
  · decide
  split
  · decide
  split
  · decide
  split
  · decide
  split
  · have digit : ∀ n < 16, 32 ≤ (Nat.digitChar n).toNat := by decide
    have high := digit (c.toNat / 16) (by omega)
    have low := digit (c.toNat % 16) (by omega)
    simp [high, low]
  · next printed =>
    exact List.forall_mem_singleton.2 (Nat.not_lt.1 printed)

theorem visible_quote (s : String) : ∀ c ∈ quote s, 32 ≤ c.toNat := by
  rw [quote, List.forall_mem_append, List.forall_mem_cons]
  refine ⟨⟨by decide, fun c mem => ?_⟩, by decide⟩
  obtain ⟨d, -, mem⟩ := List.mem_flatMap.1 mem
  exact visible_escapeChar d c mem

theorem skipped_escapeChar (c : Char) : Skipped .quoted (escapeChar c) := by
  unfold escapeChar
  have named (d : Char) : Skipped .quoted ['\\', d] := skipped_nil.escape d
  split
  · exact named _
  split
  · exact named _
  split
  · exact named _
  split
  · exact named _
  split
  · exact named _
  split
  · exact named _
  split
  · exact named _
  rename_i quote backslash _ _ _ _ _
  split
  · have digit : ∀ n < 16, Nat.digitChar n ≠ '\\' ∧ Nat.digitChar n ≠ '"' := by decide
    obtain ⟨first, first'⟩ := digit (c.toNat / 16) (by omega)
    obtain ⟨last, last'⟩ := digit (c.toNat % 16) (by omega)
    exact .escape 'u' (.letter (by decide) (by decide) (.letter (by decide) (by decide)
      (.letter first first' (.letter last last' skipped_nil))))
  · exact .letter backslash quote skipped_nil

theorem skipped_quote (s : String) : Skipped .open (quote s) := by
  refine Skipped.quote ?_
  induction s.toList with
  | nil => exact skipped_nil
  | cons c rest ih =>
    rw [List.flatMap_cons]
    exact (skipped_escapeChar c).append ih

mutual

theorem skipped_chars (j : Json) : Skipped .open j.chars := by
  match j with
  | .null | .bool true | .bool false => exact skipped_of_flat (by decide)
  | .int i =>
    exact skipped_of_flat fun c mem => isFlat_of_isNumeral (isNumeral_intChars i c mem)
  | .float x =>
    exact skipped_of_flat fun c mem => isFlat_of_isNumeral (isNumeral_render x c mem)
  | .str s => exact skipped_quote s
  | .arr [] => exact skipped_nil.enclosed (by decide) (by decide)
  | .arr (item :: items) =>
    obtain ⟨inner, tail, skipped⟩ := itemsTail_closes items
    rw [chars, tail, ← List.append_assoc]
    exact ((skipped_chars item).append skipped).enclosed (by decide) (by decide)
  | .obj [] => exact skipped_nil.enclosed (by decide) (by decide)
  | .obj ((name, item) :: members) =>
    obtain ⟨inner, tail, skipped⟩ := membersTail_closes members
    rw [chars, tail]
    have shape : quote name ++ ':' :: (item.chars ++ (inner ++ ['}'])) =
        (quote name ++ ':' :: (item.chars ++ inner)) ++ ['}'] := by simp
    rw [shape]
    exact ((skipped_quote name).append (((skipped_chars item).append skipped).flat
      (by decide))).enclosed (by decide) (by decide)

theorem itemsTail_closes (items : List Json) :
    ∃ inner, itemsTail items = inner ++ [']'] ∧ Skipped .open inner := by
  match items with
  | [] => exact ⟨[], rfl, skipped_nil⟩
  | item :: items =>
    obtain ⟨inner, tail, skipped⟩ := itemsTail_closes items
    refine ⟨',' :: (item.chars ++ inner), ?_,
      ((skipped_chars item).append skipped).flat (by decide)⟩
    rw [itemsTail, tail, List.cons_append, List.append_assoc]

theorem membersTail_closes (members : List (String × Json)) :
    ∃ inner, membersTail members = inner ++ ['}'] ∧ Skipped .open inner := by
  match members with
  | [] => exact ⟨[], rfl, skipped_nil⟩
  | (name, item) :: members =>
    obtain ⟨inner, tail, skipped⟩ := membersTail_closes members
    refine ⟨',' :: (quote name ++ ':' :: (item.chars ++ inner)), ?_, ((skipped_quote name).append
      (((skipped_chars item).append skipped).flat (by decide))).flat (by decide)⟩
    rw [membersTail, tail]
    simp

end

/-! ## What is read -/

/-- The reader went on from one text to the other, and what it took in is skipped. -/
def Reads (place : Place) (s rest : List Char) : Prop :=
  ∃ read, s = read ++ rest ∧ Skipped place read

namespace Reads

variable {rest : List Char}

theorem refl (s : List Char) : Reads place s s := ⟨[], rfl, skipped_nil⟩

theorem trans (first : Reads place s t) (second : Reads place t rest) : Reads place s rest := by
  obtain ⟨read, rfl, skipped⟩ := first
  obtain ⟨more, rfl, skipped'⟩ := second
  exact ⟨read ++ more, (List.append_assoc ..).symm, skipped.append skipped'⟩

theorem flat {c : Char} (flat : isFlat c = true) (reads : Reads .open s rest) :
    Reads .open (c :: s) rest := by
  obtain ⟨read, rfl, skipped⟩ := reads
  exact ⟨c :: read, rfl, skipped.flat flat⟩

theorem dropWhile {p : Char → Bool} (flat : ∀ c, p c = true → isFlat c = true) (s : List Char) :
    Reads .open s (s.dropWhile p) :=
  ⟨s.takeWhile p, (List.takeWhile_append_dropWhile ..).symm,
    skipped_of_flat fun c mem => flat c (List.all_eq_true.1 List.all_takeWhile c mem)⟩

theorem letter {c : Char} (backslash : c ≠ '\\') (quote : c ≠ '"')
    (reads : Reads .quoted s rest) : Reads .quoted (c :: s) rest := by
  obtain ⟨read, rfl, skipped⟩ := reads
  exact ⟨c :: read, rfl, skipped.letter backslash quote⟩

theorem escape (c : Char) (reads : Reads .quoted s rest) :
    Reads .quoted ('\\' :: c :: s) rest := by
  obtain ⟨read, rfl, skipped⟩ := reads
  exact ⟨'\\' :: c :: read, rfl, skipped.escape c⟩

theorem quote (reads : Reads .quoted s ('"' :: rest)) : Reads .open ('"' :: s) rest := by
  obtain ⟨read, rfl, skipped⟩ := reads
  exact ⟨'"' :: (read ++ ['"']), by simp, skipped.quote⟩

theorem enclosed {first last : Char} (opening : opens first = true) (closing : closes last = true)
    (reads : Reads .open s (last :: rest)) : Reads .open (first :: s) rest := by
  obtain ⟨read, rfl, skipped⟩ := reads
  exact ⟨first :: (read ++ [last]), by simp, skipped.enclosed opening closing⟩

end Reads

theorem isFlat_of_isDigit {c : Char} (digit : c.isDigit = true) : isFlat c = true :=
  isFlat_of_isNumeral (isNumeral_of_isDigit digit)

theorem isFlat_of_isSpace {c : Char} (space : isSpace c = true) : isFlat c = true := by
  simp only [isSpace, Bool.or_eq_true, beq_iff_eq] at space
  rcases space with ((rfl | rfl) | rfl) | rfl <;> rfl

section Numbers

variable {negative : Bool} {digits : Nat} {exponent : Int} {j : Json} {rest : List Char}

theorem reads_significantDigits (value : Nat) (s : List Char) :
    Reads .open s (significantDigits value s).2.2 := by
  induction s generalizing value with
  | nil => exact .refl []
  | cons c s ih =>
    rw [significantDigits]
    split
    · next digit =>
      have first := isFlat_of_isDigit digit
      dsimp only
      split
      · exact (ih _).flat first
      · exact (Reads.dropWhile (fun _ => isFlat_of_isDigit) s).flat first
    · exact .refl _

theorem reads_of_exponentPart (read : exponentPart negative digits exponent s = some (j, rest)) :
    Reads .open s rest := by
  unfold exponentPart at read
  split at read
  rename_i down unsigned signed
  have sign : Reads .open s unsigned := by
    split at signed
    · cases signed
      exact (Reads.refl _).flat (by decide)
    · cases signed
      exact (Reads.refl _).flat (by decide)
    · cases signed
      exact .refl s
  have power : Reads .open unsigned (unsigned.dropWhile Char.isDigit) :=
    .dropWhile (fun _ => isFlat_of_isDigit) unsigned
  refine sign.trans ?_
  split at read
  · split at read
    · dsimp only at read
      split at read
      · obtain ⟨_, -, same⟩ := Option.bind_eq_some_iff.1 read
        cases same
        exact power
      · split at read
        · cases read
        · cases read
          exact power
    · cases read
  · cases read

theorem reads_of_afterDigits {whole : Option Json}
    (read : afterDigits negative digits exponent s whole = some (j, rest)) :
    Reads .open s rest := by
  unfold afterDigits at read
  split at read
  · exact (reads_of_exponentPart read).flat (by decide)
  · exact (reads_of_exponentPart read).flat (by decide)
  · obtain ⟨_, -, same⟩ := Option.map_eq_some_iff.1 read
    cases same
    exact .refl s

theorem reads_of_fraction (read : fraction negative digits exponent s = some (j, rest)) :
    Reads .open s rest := by
  unfold fraction at read
  split at read
  · split at read
    · exact (reads_significantDigits digits _).trans (reads_of_afterDigits read)
    · cases read
  · cases read

theorem reads_of_unsignedNumber (read : unsignedNumber negative s = some (j, rest)) :
    Reads .open s rest := by
  unfold unsignedNumber at read
  split at read
  · refine .flat (by decide) ?_
    split at read
    · exact (reads_of_fraction read).flat (by decide)
    · split at read
      · cases read
      · exact reads_of_afterDigits read
    · cases read
      exact .refl []
  · split at read
    · refine (reads_significantDigits 0 _).trans ?_
      dsimp only at read
      split at read
      · next after =>
        rw [after]
        exact (reads_of_fraction read).flat (by decide)
      · exact reads_of_afterDigits read
    · cases read
  · cases read

theorem reads_of_number (read : number s = some (j, rest)) : Reads .open s rest := by
  unfold number at read
  split at read
  · exact (reads_of_unsignedNumber read).flat (by decide)
  · exact reads_of_unsignedNumber read

end Numbers

section Texts

variable {rest : List Char}

theorem letter_of_hexValue? {c : Char} {n : Nat} (hex : Text.hexValue? c = some n)
    (reads : Reads .quoted s rest) : Reads .quoted (c :: s) rest := by
  have backslash : Text.hexValue? '\\' = none := by decide
  have quote : Text.hexValue? '"' = none := by decide
  refine reads.letter ?_ ?_
  · rintro rfl
    exact Option.some_ne_none n (hex.symm.trans backslash)
  · rintro rfl
    exact Option.some_ne_none n (hex.symm.trans quote)

theorem reads_of_unit16 {n : Nat} (read : unit16 s = some (n, rest)) : Reads .quoted s rest := by
  unfold unit16 at read
  split at read
  · simp only [Option.bind_eq_bind, Option.bind_eq_some_iff, Option.pure_def, Option.some.injEq,
      Prod.mk.injEq] at read
    obtain ⟨_, first, _, second, _, third, _, fourth, -, rfl⟩ := read
    exact letter_of_hexValue? first (letter_of_hexValue? second (letter_of_hexValue? third
      (letter_of_hexValue? fourth (.refl _))))
  · cases read

theorem reads_of_unicodeEscape {c : Char} (read : unicodeEscape s = some (c, rest)) :
    Reads .quoted s rest := by
  obtain ⟨⟨high, after⟩, first, read⟩ := Option.bind_eq_some_iff.1 read
  refine (reads_of_unit16 first).trans ?_
  dsimp only at read
  split at read
  · split at read
    · obtain ⟨⟨low, after⟩, second, read⟩ := Option.bind_eq_some_iff.1 read
      dsimp only at read
      split at read
      · obtain ⟨-, rfl⟩ := Prod.mk.inj (Option.some.inj read)
        exact (reads_of_unit16 second).escape 'u'
      · cases read
    · cases read
  · split at read
    · cases read
    · obtain ⟨-, rfl⟩ := Prod.mk.inj (Option.some.inj read)
      exact .refl _

theorem reads_of_escape {c : Char} (read : Json.escape s = some (c, rest)) :
    Reads .quoted ('\\' :: s) rest := by
  unfold Json.escape at read
  split at read
  case h_9 => exact (reads_of_unicodeEscape read).escape 'u'
  case h_10 => cases read
  all_goals
    cases read
    exact (Reads.refl _).escape _

theorem reads_of_stringChars {done cs : List Char} {fuel : Nat}
    (read : stringChars done fuel s = some (cs, rest)) : Reads .quoted s ('"' :: rest) := by
  induction fuel generalizing done s with
  | zero => cases read
  | succ fuel ih =>
    unfold stringChars at read
    split at read
    · cases read
    · cases read
    · cases read
      exact .refl _
    · next _ _ _ same =>
      cases same
      obtain ⟨⟨c, after⟩, escaped, read⟩ := Option.bind_eq_some_iff.1 read
      exact (reads_of_escape escaped).trans (ih read)
    · next _ _ _ _ _ quote backslash same =>
      cases same
      split at read
      · cases read
      · exact (ih read).letter backslash quote

theorem reads_of_stringBody {text : String} {fuel : Nat}
    (read : stringBody fuel s = some (text, rest)) : Reads .open ('"' :: s) rest := by
  obtain ⟨⟨cs, after⟩, read, same⟩ := Option.bind_eq_some_iff.1 read
  cases same
  exact (reads_of_stringChars read).quote

end Texts

/-! ## Where objects end -/

theorem reads_of_expect {cs rest : List Char} (read : expect cs s = some rest)
    (flat : ∀ c ∈ cs, isFlat c = true) : Reads .open s rest := by
  induction cs generalizing s with
  | nil =>
    cases read
    exact .refl _
  | cons c cs ih =>
    obtain ⟨first, others⟩ := List.forall_mem_cons.1 flat
    cases s with
    | nil => cases read
    | cons d s =>
      rw [expect] at read
      split at read
      · next same => exact same ▸ (ih read others).flat first
      · cases read

/-- What the readers with so much fuel take in. -/
structure Extent (fuel : Nat) : Prop where
  value {room : Nat} {s rest : List Char} {j : Json} :
    Json.value fuel room s = some (j, rest) → Reads .open s rest
  items {room : Nat} {s rest : List Char} {js : List Json} :
    Json.items fuel room s = some (js, rest) → Reads .open s (']' :: rest)
  member {room : Nat} {s rest : List Char} {m : String × Json} :
    Json.member fuel room s = some (m, rest) → Reads .open s rest
  members {room : Nat} {s rest : List Char} {ms : List (String × Json)} :
    Json.members fuel room s = some (ms, rest) → Reads .open s ('}' :: rest)

theorem reads_of_skipSpace {rest : List Char} (reads : Reads .open (skipSpace s) rest) :
    Reads .open s rest :=
  (Reads.dropWhile (fun _ => isFlat_of_isSpace) s).trans reads

theorem reads_of_word {cs rest : List Char} {word j : Json}
    (read : (expect cs s).bind (fun after => some (word, after)) = some (j, rest))
    (flat : ∀ c ∈ cs, isFlat c = true) : Reads .open s rest := by
  obtain ⟨after, read, same⟩ := Option.bind_eq_some_iff.1 read
  cases same
  exact reads_of_expect read flat

theorem Extent.array {fuel room : Nat} {rest : List Char} {j : Json} (extent : Extent fuel)
    (shape : skipSpace s = '[' :: t)
    (read : Json.value (fuel + 1) room s = some (j, rest)) : Reads .open t (']' :: rest) := by
  unfold Json.value at read
  rw [shape] at read
  split at read
  case h_5 same =>
    cases same
    refine reads_of_skipSpace ?_
    split at read
    · cases read
    · split at read
      · next shape =>
        cases read
        exact shape ▸ .refl _
      · obtain ⟨⟨item, after⟩, first, read⟩ := Option.bind_eq_some_iff.1 read
        obtain ⟨⟨items, last⟩, others, same⟩ := Option.bind_eq_some_iff.1 read
        cases same
        exact (extent.value first).trans (extent.items others)
  case h_7 none _ => exact (none t rfl).elim
  -- the other branches read texts that begin with something else
  all_goals
    rename_i same
    exact absurd (List.cons.inj same).1 (by decide)

theorem Extent.object {fuel room : Nat} {rest : List Char} {j : Json} (extent : Extent fuel)
    (shape : skipSpace s = '{' :: t)
    (read : Json.value (fuel + 1) room s = some (j, rest)) : Reads .open t ('}' :: rest) := by
  unfold Json.value at read
  rw [shape] at read
  split at read
  case h_6 same =>
    cases same
    refine reads_of_skipSpace ?_
    split at read
    · cases read
    · split at read
      · next shape =>
        cases read
        exact shape ▸ .refl _
      · obtain ⟨⟨m, after⟩, first, read⟩ := Option.bind_eq_some_iff.1 read
        obtain ⟨⟨ms, last⟩, others, same⟩ := Option.bind_eq_some_iff.1 read
        cases same
        exact (extent.member first).trans (extent.members others)
  case h_7 none => exact (none t rfl).elim
  -- as in an array
  all_goals
    rename_i same
    exact absurd (List.cons.inj same).1 (by decide)

theorem extent_zero : Extent 0 := by
  refine ⟨?_, ?_, ?_, ?_⟩
  · intro room s rest j read
    rw [Json.value] at read
    cases read
  · intro room s rest js read
    rw [Json.items] at read
    cases read
  · intro room s rest m read
    rw [Json.member] at read
    cases read
  · intro room s rest ms read
    rw [Json.members] at read
    cases read

theorem Extent.step {fuel : Nat} (extent : Extent fuel) : Extent (fuel + 1) := by
  refine ⟨?_, ?_, ?_, ?_⟩
  · intro room s rest j read
    have whole := read
    refine reads_of_skipSpace ?_
    unfold Json.value at read
    split at read
    case h_1 shape => exact shape ▸ (reads_of_word read (by decide)).flat (by decide)
    case h_2 shape => exact shape ▸ (reads_of_word read (by decide)).flat (by decide)
    case h_3 shape => exact shape ▸ (reads_of_word read (by decide)).flat (by decide)
    case h_4 shape =>
      obtain ⟨⟨text, after⟩, read, same⟩ := Option.bind_eq_some_iff.1 read
      cases same
      exact shape ▸ reads_of_stringBody read
    case h_5 shape =>
      exact shape ▸ (extent.array shape whole).enclosed (by decide) (by decide)
    case h_6 shape =>
      exact shape ▸ (extent.object shape whole).enclosed (by decide) (by decide)
    case h_7 => exact reads_of_number read
  · intro room s rest js read
    refine reads_of_skipSpace ?_
    unfold Json.items at read
    split at read
    · next shape =>
      cases read
      exact shape ▸ .refl _
    · next shape =>
      obtain ⟨⟨item, after⟩, first, read⟩ := Option.bind_eq_some_iff.1 read
      obtain ⟨⟨items, last⟩, others, same⟩ := Option.bind_eq_some_iff.1 read
      cases same
      exact shape ▸ ((extent.value first).trans (extent.items others)).flat (by decide)
    · cases read
  · intro room s rest m read
    refine reads_of_skipSpace ?_
    unfold Json.member at read
    split at read
    · next shape =>
      obtain ⟨⟨name, after⟩, first, read⟩ := Option.bind_eq_some_iff.1 read
      dsimp only at read
      split at read
      · next shape' =>
        obtain ⟨⟨item, last⟩, second, same⟩ := Option.bind_eq_some_iff.1 read
        cases same
        have content := (extent.value second).flat (show isFlat ':' = true by decide)
        rw [← shape'] at content
        exact shape ▸ (reads_of_stringBody first).trans (reads_of_skipSpace content)
      · cases read
    · cases read
  · intro room s rest ms read
    refine reads_of_skipSpace ?_
    unfold Json.members at read
    split at read
    · next shape =>
      cases read
      exact shape ▸ .refl _
    · next shape =>
      obtain ⟨⟨m, after⟩, first, read⟩ := Option.bind_eq_some_iff.1 read
      obtain ⟨⟨ms, last⟩, others, same⟩ := Option.bind_eq_some_iff.1 read
      cases same
      exact shape ▸ ((extent.member first).trans (extent.members others)).flat (by decide)
    · cases read

theorem extent (fuel : Nat) : Extent fuel := by
  -- all four readers at once, since they call each other with one less
  induction fuel with
  | zero => exact extent_zero
  | succ fuel ih => exact ih.step

theorem chars_obj (members : List (String × Json)) :
    ∃ inner, (Json.obj members).chars = '{' :: (inner ++ ['}']) ∧ Skipped .open inner := by
  cases members with
  | nil => exact ⟨[], rfl, skipped_nil⟩
  | cons m rest =>
    obtain ⟨name, item⟩ := m
    obtain ⟨inner, tail, skipped⟩ := membersTail_closes rest
    refine ⟨quote name ++ ':' :: (item.chars ++ inner), ?_,
      (skipped_quote name).append (((skipped_chars item).append skipped).flat (by decide))⟩
    rw [chars, tail]
    simp

/-- Whoever reads a printed object stops where it ends, also if not all of it is given or if
more is. -/
theorem front_obj {members : List (String × Json)} {more extra rest : List Char} {j : Json}
    (read : front s = some (j, rest))
    (same : s ++ more = (Json.obj members).chars ++ extra) : rest ++ more = extra := by
  obtain ⟨inner, shape, skipped⟩ := chars_obj members
  rw [shape, List.cons_append, List.append_assoc] at same
  cases s with
  | nil =>
    rw [front, Json.value] at read
    cases read
  | cons c s =>
    obtain ⟨rfl, after⟩ := List.cons_eq_cons.1 same
    obtain ⟨inner', rfl, skipped'⟩ := (extent _).object (skipSpace_cons (by decide) s) read
    have after : inner' ++ '}' :: (rest ++ more) = inner ++ '}' :: extra := by simpa using after
    have first := skipped.close_eq extra
    have second := skipped'.close_eq (rest ++ more)
    rw [after] at second
    exact Option.some.inj (second.symm.trans first)

/-! ## Bytes -/

theorem bytes_eq_flatMap (j : Json) : j.bytes = j.chars.flatMap String.utf8EncodeChar :=
  Text.utf8_ofList j.chars

theorem length_chars_le (j : Json) : j.chars.length ≤ j.bytes.length := by
  have size := Text.length_le_utf8 j.text
  rwa [text, String.toList_ofList] at size

variable {members : List (String × Json)} {j : Json} {part more extra : List UInt8}

theorem ofBytes?_eq_some (document : ofBytes? part = some j) : ∃ text rest,
    part = Text.utf8 text ∧ front text.toList = some (j, rest) ∧ ∀ c ∈ rest, isSpace c = true := by
  obtain ⟨text, decoded, parsed⟩ := Option.bind_eq_some_iff.1 document
  obtain ⟨⟨j', rest⟩, read, ended⟩ := Option.bind_eq_some_iff.1 parsed
  dsimp only at ended
  split at ended
  · next blank =>
    cases ended
    have all : rest.takeWhile isSpace = rest := by
      have split := List.takeWhile_append_dropWhile (p := isSpace) (l := rest)
      rwa [← skipSpace, List.isEmpty_iff.1 blank, List.append_nil] at split
    exact ⟨text, rest, Text.utf8_of_ofUtf8? decoded, read, fun c mem =>
      List.all_eq_true.1 List.all_takeWhile c (all.symm ▸ mem)⟩
  · cases ended

/-- No part of a printed object is a document. -/
theorem eq_nil_of_ofBytes?_part (document : ofBytes? part = some j)
    (same : part ++ more = (Json.obj members).bytes) : more = [] := by
  obtain ⟨text, rest, rfl, read, -⟩ := ofBytes?_eq_some document
  obtain ⟨after, whole, rfl⟩ := Text.exists_append_of_utf8 same
  have shape : text.toList ++ after.toList = (Json.obj members).chars ++ [] := by
    rw [← String.toList_append, ← whole, Json.text, String.toList_ofList, List.append_nil]
  have none := (List.append_eq_nil_iff.1 (front_obj read shape)).2
  rw [← String.ofList_toList (s := after), none]
  rfl

theorem le_of_mem_blanks {blanks : List Char} (blank : ∀ c ∈ blanks, isSpace c = true) {b : UInt8}
    (mem : b ∈ Text.utf8 (String.ofList blanks)) : b.toNat ≤ 32 := by
  rw [Text.utf8_ofList] at mem
  obtain ⟨c, inside, mem⟩ := List.mem_flatMap.1 mem
  have space := blank c inside
  simp only [isSpace, Bool.or_eq_true, beq_iff_eq] at space
  have small : ([' ', '\n', '\t', '\r'].flatMap String.utf8EncodeChar).all (·.toNat ≤ 32) := by
    decide
  have listed : b ∈ [' ', '\n', '\t', '\r'].flatMap String.utf8EncodeChar :=
    List.mem_flatMap.2 ⟨c, by simpa [or_assoc] using space, mem⟩
  exact of_decide_eq_true (List.all_eq_true.1 small b listed)

/-- Behind a printed object there can only be blanks. -/
theorem isSpace_of_ofBytes?_append
    (document : ofBytes? ((Json.obj members).bytes ++ extra) = some j) :
    ∃ blanks, (∀ c ∈ blanks, isSpace c = true) ∧ extra = Text.utf8 (String.ofList blanks) := by
  obtain ⟨text, rest, same, read, blank⟩ := ofBytes?_eq_some document
  obtain ⟨after, whole, rfl⟩ := Text.exists_append_of_utf8 same
  have shape : text.toList ++ [] = (Json.obj members).chars ++ after.toList := by
    rw [whole, String.toList_append, Json.text, String.toList_ofList, List.append_nil]
  have ended := front_obj read shape
  rw [List.append_nil] at ended
  exact ⟨rest, blank, by rw [ended, String.ofList_toList]⟩

/-! ## No control characters -/

mutual

theorem visible_chars (j : Json) : ∀ c ∈ j.chars, 32 ≤ c.toNat := by
  match j with
  | .null | .bool true | .bool false => decide
  | .int i => exact fun c mem => visible_of_isNumeral (isNumeral_intChars i c mem)
  | .float x => exact fun c mem => visible_of_isNumeral (isNumeral_render x c mem)
  | .str s => exact visible_quote s
  | .arr [] => decide
  | .arr (item :: items) =>
    rw [chars, List.forall_mem_cons, List.forall_mem_append]
    exact ⟨by decide, visible_chars item, visible_itemsTail items⟩
  | .obj [] => decide
  | .obj ((name, item) :: members) =>
    rw [chars, List.forall_mem_cons, List.forall_mem_append, List.forall_mem_cons,
      List.forall_mem_append]
    exact ⟨by decide, visible_quote name, by decide, visible_chars item,
      visible_membersTail members⟩

theorem visible_itemsTail (items : List Json) : ∀ c ∈ itemsTail items, 32 ≤ c.toNat := by
  match items with
  | [] => decide
  | item :: items =>
    rw [itemsTail, List.forall_mem_cons, List.forall_mem_append]
    exact ⟨by decide, visible_chars item, visible_itemsTail items⟩

theorem visible_membersTail (members : List (String × Json)) :
    ∀ c ∈ membersTail members, 32 ≤ c.toNat := by
  match members with
  | [] => decide
  | (name, item) :: members =>
    rw [membersTail, List.forall_mem_cons, List.forall_mem_append, List.forall_mem_cons,
      List.forall_mem_append]
    exact ⟨by decide, visible_quote name, by decide, visible_chars item,
      visible_membersTail members⟩

end

theorem visible_bytes (j : Json) : ∀ b ∈ j.bytes, 32 ≤ b.toNat := by
  intro b mem
  rw [bytes_eq_flatMap] at mem
  obtain ⟨c, inside, mem⟩ := List.mem_flatMap.1 mem
  exact Text.le_of_mem_utf8EncodeChar (visible_chars j c inside) mem

end Json
end Reconfig
