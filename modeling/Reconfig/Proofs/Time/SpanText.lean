/-
Which texts are lengths of time, and which lengths they are.

A length of time is written as a number and its unit with nothing in between, and blanks may stand
around the two. The reader takes the last character for the unit, and the last two where they are
the unit of two letters. No unit but that one ends in its last letter after its first, and digits
are no letters, so the reader takes the text apart as it was put together. The seconds are a product
of words that wraps, so a text may be read that says more than a length of time can.
-/
import Mathlib.Data.Nat.Digits.Defs
import Reconfig.Error
import Reconfig.Proofs.Outcome
import Reconfig.Proofs.Time.DocumentText

namespace Reconfig

namespace Text

/-! ## Blanks around a text -/

theorem trimStart_of_filled {s : List Char} (filled : ∀ c ∈ s, isBlank c = false) :
    trimStart s = s := by
  cases s with
  | nil => rfl
  | cons c rest => exact trimStart_cons (filled c List.mem_cons_self) rest

theorem trimEnd_append {s after : List Char} (blank : ∀ c ∈ after, isBlank c = true) :
    trimEnd (s ++ after) = trimEnd s := by
  rw [trimEnd, List.reverse_append,
    List.dropWhile_append_of_pos fun c mem => blank c (List.mem_reverse.1 mem), trimEnd]

theorem trimEnd_of_filled {s : List Char} (filled : ∀ c ∈ s, isBlank c = false) :
    trimEnd s = s := by
  have turned : trimStart s.reverse = s.reverse :=
    trimStart_of_filled fun c mem => filled c (List.mem_reverse.1 mem)
  rw [trimEnd, ← trimStart, turned, List.reverse_reverse]

theorem trim_append {before s after : List Char} (blankBefore : ∀ c ∈ before, isBlank c = true)
    (filled : ∀ c ∈ s, isBlank c = false) (blankAfter : ∀ c ∈ after, isBlank c = true) :
    trim (before ++ (s ++ after)) = s := by
  rw [trim, trimStart, List.dropWhile_append_of_pos blankBefore]
  cases s with
  | nil =>
    rw [List.nil_append, dropWhile_eq_nil_iff.2 blankAfter]
    rfl
  | cons c rest =>
    have first : isBlank c = false := filled c List.mem_cons_self
    rw [List.cons_append, ← trimStart, trimStart_cons first, ← List.cons_append,
      trimEnd_append blankAfter, trimEnd_of_filled filled]

theorem exists_trim (s : List Char) : ∃ before after, s = before ++ (trim s ++ after) ∧
    (∀ c ∈ before, isBlank c = true) ∧ (∀ c ∈ after, isBlank c = true) := by
  refine ⟨s.takeWhile isBlank, ((trimStart s).reverse.takeWhile isBlank).reverse, ?_, ?_, ?_⟩
  · rw [trim, trimEnd, ← List.reverse_append, List.takeWhile_append_dropWhile,
      List.reverse_reverse, trimStart, List.takeWhile_append_dropWhile]
  · exact List.all_eq_true.1 List.all_takeWhile
  · exact fun c mem => List.all_eq_true.1 List.all_takeWhile c (List.mem_reverse.1 mem)

/-! ## Numbers -/

/-- The number that the digits stand for. -/
def decimal (digits : List Char) : Nat :=
  Nat.ofDigits 10 (digits.reverse.map fun c => c.toNat - '0'.toNat)

theorem ofDigitChars_eq (digits : List Char) (n : Nat) :
    Nat.ofDigitChars 10 digits n = decimal digits + 10 ^ digits.length * n := by
  induction digits generalizing n with
  | nil => simp [Nat.ofDigitChars, decimal]
  | cons c rest ih =>
    rw [Nat.ofDigitChars_cons, ih, decimal, decimal, List.reverse_cons, List.map_append,
      Nat.ofDigits_append, List.length_map, List.length_reverse, List.length_cons, Nat.pow_succ,
      List.map_singleton, Nat.ofDigits_singleton]
    ring

/-- One or more digits that stand for the number, after a plus sign or nothing. -/
def Numeral (s : List Char) (n : Nat) : Prop :=
  ∃ sign digits, s = sign ++ digits ∧ (sign = [] ∨ sign = ['+']) ∧ digits ≠ [] ∧
    (∀ c ∈ digits, c.isDigit = true) ∧ decimal digits = n

theorem Numeral.isBlank_eq_false {s : List Char} {n : Nat} (numeral : Numeral s n) :
    ∀ c ∈ s, isBlank c = false := by
  obtain ⟨sign, digits, rfl, signed, -, each, -⟩ := numeral
  intro c mem
  rcases List.mem_append.1 mem with mem | mem
  · rcases signed with rfl | rfl
    · cases mem
    · cases List.mem_singleton.1 mem
      rfl
  · exact isBlank_of_isDigit (each c mem)

/-- The last character of a number is a digit. -/
theorem Numeral.reverse {s : List Char} {n : Nat} (numeral : Numeral s n) :
    ∃ c rest, s.reverse = c :: rest ∧ c.isDigit = true := by
  obtain ⟨sign, digits, rfl, -, filled, each, -⟩ := numeral
  obtain ⟨c, rest, turned⟩ := List.exists_cons_of_ne_nil (mt List.reverse_eq_nil_iff.1 filled)
  refine ⟨c, rest ++ sign.reverse, ?_, ?_⟩
  · rw [List.reverse_append, turned, List.cons_append]
  · exact each c (List.mem_reverse.1 (turned ▸ List.mem_cons_self))

theorem ofDigits?_eq_some_iff {s : List Char} {n : Nat} :
    ofDigits? s = some n ↔ s ≠ [] ∧ (∀ c ∈ s, c.isDigit = true) ∧ decimal s = n := by
  have value : Nat.ofDigitChars 10 s 0 = decimal s := by
    rw [ofDigitChars_eq, Nat.mul_zero, Nat.add_zero]
  rw [ofDigits?, value]
  by_cases empty : s = []
  · simp [empty]
  · by_cases digits : s.all Char.isDigit = true
    · simp [empty, digits, ← List.all_eq_true]
    · simp [empty, digits, ← List.all_eq_true]

theorem readNat?_eq_some_iff {bound n : Nat} {s : List Char} :
    readNat? bound s = some n ↔ Numeral s n ∧ n < bound := by
  have known (unsigned : List Char) : (ofDigits? unsigned).filter (· < bound) = some n ↔
      (unsigned ≠ [] ∧ (∀ c ∈ unsigned, c.isDigit = true) ∧ decimal unsigned = n) ∧ n < bound := by
    rw [Option.filter_eq_some_iff, ofDigits?_eq_some_iff, decide_eq_true_eq]
  unfold readNat?
  split
  · rename_i rest
    rw [known]
    refine and_congr_left fun _ => ⟨fun digits => ⟨['+'], rest, rfl, .inr rfl, digits⟩, ?_⟩
    rintro ⟨sign, digits, parts, rfl | rfl, filled, each, value⟩
    · -- a sign is no digit
      rw [List.nil_append] at parts
      exact absurd (each '+' (parts ▸ List.mem_cons_self)) (by decide)
    · obtain rfl : rest = digits := List.cons_inj_right '+' |>.1 parts
      exact ⟨filled, each, value⟩
  · rename_i unsigned
    rw [known]
    refine and_congr_left fun _ => ⟨fun digits => ⟨[], s, rfl, .inl rfl, digits⟩, ?_⟩
    rintro ⟨sign, digits, rfl, rfl | rfl, filled⟩
    · exact filled
    · exact absurd rfl (unsigned digits)

end Text

/-- The units that a length of time may have. -/
inductive TimeUnit where
  | millisecond
  | second
  | minute
  | hour
  | day

namespace TimeUnit

def text : TimeUnit → String
  | .millisecond => "ms"
  | .second => "s"
  | .minute => "m"
  | .hour => "h"
  | .day => "d"

def millis : TimeUnit → Nat
  | .millisecond => 1
  | .second => 1000
  | .minute => 60 * 1000
  | .hour => 60 * 60 * 1000
  | .day => 24 * 60 * 60 * 1000

theorem isBlank_eq_false (unit : TimeUnit) : ∀ c ∈ unit.text.toList, Text.isBlank c = false := by
  have filled : unit.text.toList.any Text.isBlank = false := by cases unit <;> decide
  exact fun c mem => Bool.eq_false_of_not_eq_true (List.any_eq_false.1 filled c mem)

end TimeUnit

namespace Span

theorem ofUnits?_eq_some {n : UInt64} {s : List Char} {span : Span}
    (known : ofUnits? n s = some span) : ∃ unit : TimeUnit, unit.text.toList = s := by
  unfold ofUnits? at known
  split at known
  · exact ⟨.millisecond, rfl⟩
  · exact ⟨.second, rfl⟩
  · exact ⟨.minute, rfl⟩
  · exact ⟨.hour, rfl⟩
  · exact ⟨.day, rfl⟩
  · cases known

theorem exists_ofUnits? (n : UInt64) (unit : TimeUnit) :
    ∃ span, ofUnits? n unit.text.toList = some span := by
  cases unit <;> exact ⟨_, rfl⟩

/-- The seconds do not wrap as long as they are a number of sixty-four bits. -/
theorem ofSeconds_ofNat_mul {n scale : Nat} (small : n * (scale * 1000) < 2 ^ 64 * 1000) :
    ofSeconds (.ofNat n * .ofNat scale) = ⟨n * (scale * 1000)⟩ := by
  rw [← Nat.mul_assoc] at small ⊢
  have seconds : n * scale < 2 ^ 64 := Nat.lt_of_mul_lt_mul_right small
  rw [ofSeconds, ← UInt64.ofNat_mul, UInt64.toNat_ofNat_of_lt' seconds]

theorem ofUnits?_eq_exact {n : Nat} {unit : TimeUnit} (small : n < 2 ^ 64)
    (exact : n * unit.millis < 2 ^ 64 * 1000) :
    ofUnits? (.ofNat n) unit.text.toList = some ⟨n * unit.millis⟩ := by
  have value : (UInt64.ofNat n).toNat = n := UInt64.toNat_ofNat_of_lt' small
  cases unit with
  | millisecond =>
    exact congrArg (fun millis => some (Span.mk millis)) (value.trans (n.mul_one).symm)
  | second => exact congrArg (fun seconds => some (Span.mk (seconds * 1000))) value
  | minute => exact congrArg some (ofSeconds_ofNat_mul exact)
  | hour => exact congrArg some (ofSeconds_ofNat_mul exact)
  | day => exact congrArg some (ofSeconds_ofNat_mul exact)

/-- With more the seconds begin again. -/
example : ofUnits? 307445734561825861 ['m'] = some ⟨44000⟩ := by
  decide

/-! ## The number and the unit -/

theorem splitUnit_append (s : List Char) : (splitUnit s).1 ++ (splitUnit s).2 = s := by
  unfold splitUnit
  split
  · rename_i rest shape
    rw [← List.reverse_inj, shape]
    simp
  · rename_i c rest _ shape
    rw [← List.reverse_inj, shape]
    simp
  · rename_i shape
    rw [← List.reverse_inj, shape]
    rfl

theorem splitUnit_concat {front : List Char} {c : Char}
    (single : c = 's' → ∀ rest, front.reverse ≠ 'm' :: rest) :
    splitUnit (front ++ [c]) = (front, [c]) := by
  simp only [splitUnit, List.reverse_append, List.reverse_singleton, List.singleton_append]
  split
  · rename_i rest shape
    obtain ⟨rfl, longer⟩ := List.cons.inj shape
    exact absurd longer (single rfl rest)
  · rename_i shape
    obtain ⟨rfl, rfl⟩ := List.cons.inj shape
    rw [List.reverse_reverse]
  · rename_i shape
    cases shape

/-- A unit stands behind a digit, which is no first letter of a longer unit. -/
theorem splitUnit_of_numeral {number : List Char} {n : Nat} (numeral : Text.Numeral number n)
    (unit : TimeUnit) : splitUnit (number ++ unit.text.toList) = (number, unit.text.toList) := by
  have single : ∀ rest, number.reverse ≠ 'm' :: rest := by
    obtain ⟨c, rest, turned, digit⟩ := numeral.reverse
    rintro other shape
    obtain ⟨rfl, -⟩ := List.cons.inj (turned.symm.trans shape)
    cases digit
  cases unit with
  | millisecond => simp [splitUnit, TimeUnit.text]
  | second => exact splitUnit_concat fun _ => single
  | minute => exact splitUnit_concat fun other => by cases other
  | hour => exact splitUnit_concat fun other => by cases other
  | day => exact splitUnit_concat fun other => by cases other

/-- The text is a number and a unit, with blanks around the two or nothing. -/
def Written (text : String) (n : Nat) (unit : TimeUnit) : Prop :=
  ∃ before number after,
    text.toList = before ++ (number ++ unit.text.toList ++ after) ∧
    (∀ c ∈ before, Text.isBlank c = true) ∧ (∀ c ∈ after, Text.isBlank c = true) ∧
    Text.Numeral number n

theorem written_iff {text : String} {n : Nat} {unit : TimeUnit} : Written text n unit ↔
    ∃ number, Text.trim text.toList = number ++ unit.text.toList ∧ Text.Numeral number n := by
  constructor
  · rintro ⟨before, number, after, parts, blankBefore, blankAfter, numeral⟩
    refine ⟨number, ?_, numeral⟩
    rw [parts]
    refine Text.trim_append blankBefore (fun c mem => ?_) blankAfter
    rcases List.mem_append.1 mem with mem | mem
    · exact numeral.isBlank_eq_false c mem
    · exact unit.isBlank_eq_false c mem
  · rintro ⟨number, trimmed, numeral⟩
    obtain ⟨before, after, parts, blankBefore, blankAfter⟩ := Text.exists_trim text.toList
    rw [trimmed] at parts
    exact ⟨before, number, after, parts, blankBefore, blankAfter, numeral⟩

theorem parse_eq (text : String) : parse text =
    if (Text.trim text.toList).isEmpty then .error .empty
    else match Text.readNat? Text.word64 (splitUnit (Text.trim text.toList)).1 with
      | none => .error (.malformed (String.ofList (Text.trim text.toList)))
      | some n => match ofUnits? (.ofNat n) (splitUnit (Text.trim text.toList)).2 with
        | none => .error (.unknownUnit (String.ofList (splitUnit (Text.trim text.toList)).2))
        | some span => .ok span := rfl

theorem parse_of_written {text : String} {n : Nat} {unit : TimeUnit} {span : Span}
    (written : Written text n unit) (small : n < 2 ^ 64)
    (long : ofUnits? (.ofNat n) unit.text.toList = some span) : parse text = .ok span := by
  obtain ⟨number, trimmed, numeral⟩ := written_iff.1 written
  have filled : (Text.trim text.toList).isEmpty = false := by
    rw [trimmed]
    cases unit <;> simp [TimeUnit.text]
  have value : Text.readNat? Text.word64 number = some n :=
    Text.readNat?_eq_some_iff.2 ⟨numeral, small⟩
  rw [parse_eq, filled, trimmed, splitUnit_of_numeral numeral]
  dsimp only
  rw [value]
  dsimp only
  rw [long]
  rfl

theorem written_of_parse {text : String} {span : Span} (parsed : parse text = .ok span) :
    ∃ n unit, Written text n unit ∧ n < 2 ^ 64 := by
  rw [parse_eq] at parsed
  split at parsed
  · cases parsed
  · split at parsed
    · cases parsed
    · rename_i n number
      split at parsed
      · cases parsed
      · rename_i known
        obtain ⟨numeral, small⟩ := Text.readNat?_eq_some_iff.1 number
        obtain ⟨unit, letters⟩ := ofUnits?_eq_some known
        refine ⟨n, unit, written_iff.2 ⟨_, ?_, numeral⟩, small⟩
        rw [letters, splitUnit_append]

/-- A length of time is read from just the texts that are a number of sixty-four bits and a unit,
and every other text is refused. The length is exact as long as its seconds are such a number
too. -/
theorem read_exact (text : String) :
    ((∃ span, read text = .ok span) ↔ ∃ n unit, Written text n unit ∧ n < 2 ^ 64) ∧
    (∀ n unit, Written text n unit → n < 2 ^ 64 → n * unit.millis < 2 ^ 64 * 1000 →
      read text = .ok ⟨n * unit.millis⟩) ∧
    ((¬ ∃ n unit, Written text n unit ∧ n < 2 ^ 64) →
      ∃ fault : Fault, read text = .error (.invalidConfig fault.message)) := by
  have reads : ∀ {n unit span}, Written text n unit → n < 2 ^ 64 →
      ofUnits? (.ofNat n) unit.text.toList = some span → read text = .ok span := by
    intro n unit span written small long
    rw [read, parse_of_written written small long]
    rfl
  refine ⟨⟨?_, ?_⟩, fun n unit written small exact => ?_, fun never => ?_⟩
  · rintro ⟨span, taken⟩
    exact written_of_parse (Outcome.mapError_eq_ok.1 taken)
  · rintro ⟨n, unit, written, small⟩
    obtain ⟨span, long⟩ := exists_ofUnits? (.ofNat n) unit
    exact ⟨span, reads written small long⟩
  · exact reads written small (ofUnits?_eq_exact small exact)
  · cases parsed : parse text with
    | ok span => exact absurd (written_of_parse parsed) never
    | error fault =>
      refine ⟨fault, ?_⟩
      rw [read, parsed]
      rfl

/-- Blanks of any kind may stand around a length of time. A last character of several bytes is no
unit. -/
theorem minutes_read_exact :
    Written "\u3000+090m\n" 90 .minute ∧ read "\u3000+090m\n" = .ok ⟨5400000⟩ ∧
    (¬ ∃ n unit, Written "5\u00b5" n unit ∧ n < 2 ^ 64) ∧
    ∃ fault : Fault, read "5\u00b5" = .error (.invalidConfig fault.message) := by
  have written : Written "\u3000+090m\n" 90 .minute := by
    refine ⟨['\u3000'], ['+', '0', '9', '0'], ['\n'], by decide, ?_, ?_, ?_⟩
    · exact List.all_eq_true.1 rfl
    · exact List.all_eq_true.1 rfl
    · exact ⟨['+'], ['0', '9', '0'], rfl, .inr rfl, by decide, List.all_eq_true.1 rfl, by decide⟩
  have never : ¬ ∃ n unit, Written "5\u00b5" n unit ∧ n < 2 ^ 64 := by
    rintro ⟨n, unit, written, -⟩
    obtain ⟨number, trimmed, -⟩ := written_iff.1 written
    have last : (number ++ unit.text.toList).getLast? = some '\u00b5' := by
      rw [← trimmed]
      decide
    cases unit <;> simp [TimeUnit.text] at last
  have small : 90 * TimeUnit.minute.millis < 2 ^ 64 * 1000 := by decide
  exact ⟨written, (read_exact _).2.1 90 .minute written (by decide) small, never,
    (read_exact _).2.2 never⟩

end Span
end Reconfig
