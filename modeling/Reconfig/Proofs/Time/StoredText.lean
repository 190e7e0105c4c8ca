/-
A point in time is read back from the form that it has in the store.

The form has four digits for the year, so it serves the years from 0 to 9999.
-/
import Reconfig.Time.Timestamp

namespace Reconfig
namespace Timestamp

/-- A point in time that has a date, a time of day and a year of four digits. -/
structure Storable (t : Timestamp) : Prop where
  date : isDate t.year t.month t.day = true
  year : 0 ≤ t.year ∧ t.year ≤ 9999
  hour : t.hour < 24
  minute : t.minute < 60
  second : t.second ≤ 60
  nanos : t.nanos < 10 ^ 9

instance (t : Timestamp) : Decidable t.Storable :=
  decidable_of_iff (isDate t.year t.month t.day = true ∧ (0 ≤ t.year ∧ t.year ≤ 9999) ∧
      t.hour < 24 ∧ t.minute < 60 ∧ t.second ≤ 60 ∧ t.nanos < 10 ^ 9)
    ⟨fun ⟨date, year, hour, minute, second, nanos⟩ => ⟨date, year, hour, minute, second, nanos⟩,
      fun h => ⟨h.date, h.year, h.hour, h.minute, h.second, h.nanos⟩⟩

/-! ## Numbers of fixed width -/

theorem length_digits_le {width n : Nat} (positive : 0 < width) (fits : n < 10 ^ width) :
    (Text.digits n).length ≤ width := by
  rw [Text.digits, Nat.length_toDigits_le_iff (by decide) positive]
  exact fits

theorem length_padded {width n : Nat} (positive : 0 < width) (fits : n < 10 ^ width) :
    (padded width n).length = width := by
  have := length_digits_le positive fits
  simp [padded]
  omega

theorem isDigit_of_mem_padded {width n : Nat} {c : Char} (h : c ∈ padded width n) :
    c.isDigit = true := by
  rcases List.mem_append.1 h with h | h
  · rw [(List.mem_replicate.1 h).2]
    rfl
  · exact Text.isDigit_of_mem_digits h

theorem ofDigitChars_zeros (count : Nat) (cs : List Char) :
    Nat.ofDigitChars 10 (List.replicate count '0' ++ cs) 0 = Nat.ofDigitChars 10 cs 0 := by
  induction count with
  | zero => rfl
  | succ count ih =>
    rw [List.replicate_succ, List.cons_append, Nat.ofDigitChars_cons]
    exact ih

theorem ofDigitChars_padded (width n : Nat) : Nat.ofDigitChars 10 (padded width n) 0 = n := by
  rw [padded, ofDigitChars_zeros, Text.digits, Nat.ofDigitChars_toDigits (by decide) (by decide)]

theorem takeWhile_padded (width n : Nat) {rest : List Char}
    (stop : rest.takeWhile Char.isDigit = []) :
    (padded width n ++ rest).takeWhile Char.isDigit = padded width n := by
  rw [List.takeWhile_append_of_pos fun c h => isDigit_of_mem_padded h, stop, List.append_nil]

theorem number?_padded {least width n : Nat} (wide : least ≤ width) (positive : 0 < width)
    (fits : n < 10 ^ width) (rest : List Char) :
    number? least width (padded width n ++ rest) = some (n, rest) := by
  have size := length_padded positive fits
  have shown : ((padded width n ++ rest).take width).takeWhile Char.isDigit = padded width n := by
    have := takeWhile_padded width n (show [].takeWhile Char.isDigit = [] from rfl)
    rw [List.append_nil] at this
    rw [List.take_left' size, this]
  have left : (padded width n ++ rest).drop width = rest := List.drop_left' size
  simp only [number?, shown, size, left, Nat.not_lt.2 wide, if_false, ofDigitChars_padded]

/-! ## Fractions of a second -/

/-- A fraction of so many digits that stands in front of the zone. -/
theorem fraction?_padded {width n : Nat} {rest : List Char} (positive : 0 < width)
    (narrow : width ≤ 9) (fits : n < 10 ^ width)
    (stop : ∀ k, (rest.take k).takeWhile Char.isDigit = [])
    (stay : rest.dropWhile Char.isDigit = rest) :
    fraction? ('.' :: (padded width n ++ rest)) = some (n * 10 ^ (9 - width), rest) := by
  have size := length_padded positive fits
  have shown : ((padded width n ++ rest).take 9).takeWhile Char.isDigit = padded width n := by
    rw [List.take_append, List.take_of_length_le (by omega)]
    exact takeWhile_padded width n (stop _)
  have left : (padded width n ++ rest).drop width = rest := List.drop_left' size
  have filled : (padded width n).isEmpty = false := by
    cases same : padded width n with
    | nil => rw [same] at size; simp at size; omega
    | cons => rfl
  simp only [fraction?, shown, filled, size, left, stay, ofDigitChars_padded, Bool.false_eq_true,
    if_false]
  rfl

/-- The fraction ends at the first character of the zone. -/
theorem fraction?_fractionChars {nanos : Nat} (bound : nanos < 10 ^ 9) {mark : Char}
    (rest : List Char) (letter : mark.isDigit = false) (other : mark ≠ '.') :
    fraction? (fractionChars nanos ++ mark :: rest) = some (nanos, mark :: rest) := by
  have stop : ∀ k, ((mark :: rest).take k).takeWhile Char.isDigit = [] := by
    intro k
    cases k with
    | zero => rfl
    | succ k => simp [letter]
  have stay : (mark :: rest).dropWhile Char.isDigit = mark :: rest := by simp [letter]
  unfold fractionChars
  split
  · rename_i none
    rw [none, List.nil_append, fraction?]
    rintro _ ⟨⟩
    exact other rfl
  · split
    · rename_i _ millis
      rw [List.cons_append, fraction?_padded (by decide) (by decide) (by omega) stop stay]
      simp only [Option.some.injEq, Prod.mk.injEq, and_true]
      omega
    · split
      · rename_i _ _ micros
        rw [List.cons_append, fraction?_padded (by decide) (by decide) (by omega) stop stay]
        simp only [Option.some.injEq, Prod.mk.injEq, and_true]
        omega
      · rw [List.cons_append, fraction?_padded (by decide) (by decide) (by omega) stop stay]
        simp

def zoneChars : List Char := ['+', '0', '0', ':', '0', '0']

theorem fraction?_zoneChars {nanos : Nat} (bound : nanos < 10 ^ 9) :
    fraction? (fractionChars nanos ++ zoneChars) = some (nanos, zoneChars) :=
  fraction?_fractionChars bound _ rfl (by decide)

theorem literal?_self (c : Char) (rest : List Char) : literal? c (c :: rest) = some rest :=
  if_pos rfl

theorem separator?_mark (rest : List Char) : separator? ('T' :: rest) = some rest := rfl

/-! ## The whole form -/

theorem checked?_utc {t : Timestamp} (storable : t.Storable) : checked? t 0 = some t := by
  obtain ⟨date, -, hour, minute, second, -⟩ := storable
  have today : ¬ ((t.hour : Int) * 60 + t.minute - 0 < 0) := by omega
  have sameDay : (t.hour : Int) * 60 + t.minute - 0 < 1440 := by omega
  have rest : (((t.hour : Int) * 60 + t.minute - 0) % 1440).toNat = t.hour * 60 + t.minute := by
    omega
  have hours : (t.hour * 60 + t.minute) / 60 = t.hour := by omega
  have minutes : (t.hour * 60 + t.minute) % 60 = t.minute := by omega
  simp only [checked?, ofLocal?, date, hour, minute, second, today, sameDay, rest, hours, minutes,
    decide_true, Bool.and_self, if_true, if_false, Int.natAbs_zero]
  rfl

theorem yearChars_of_storable {t : Timestamp} (storable : t.Storable) :
    yearChars t.year = padded 4 t.year.toNat := by
  rw [yearChars, if_pos storable.year]

theorem month_bounds {t : Timestamp} (storable : t.Storable) :
    t.month < 10 ^ 2 ∧ t.day < 10 ^ 2 := by
  have date := storable.date
  have days : daysIn t.year t.month ≤ 31 := by
    unfold daysIn
    split <;> (try split) <;> decide
  simp only [isDate, Bool.and_eq_true, decide_eq_true_eq] at date
  omega

/-- A point in time is read back from the form in which it is stored. -/
theorem parseStrict?_storedText {t : Timestamp} (storable : t.Storable) :
    parseStrict? t.storedText = some t := by
  have two : 0 < 2 := by decide
  have ⟨month, day⟩ := month_bounds storable
  have ⟨yearLow, yearHigh⟩ := storable.year
  have year : t.year.toNat < 10 ^ 4 := by omega
  have hour : t.hour < 10 ^ 2 := Nat.lt_trans storable.hour (by decide)
  have minute : t.minute < 10 ^ 2 := Nat.lt_trans storable.minute (by decide)
  have second : t.second < 10 ^ 2 := Nat.lt_of_le_of_lt storable.second (by decide)
  have same : (⟨(t.year.toNat : Int), t.month, t.day, t.hour, t.minute, t.second, t.nanos⟩ :
      Timestamp) = t := by
    rw [Int.toNat_of_nonneg yearLow]
  simp only [parseStrict?, storedText, String.toList_ofList, chars, yearChars_of_storable storable,
    List.append_assoc, List.cons_append, ← zoneChars.eq_1]
  -- the reader takes one part after the other from the front
  refine Option.bind_eq_some_iff.2 ⟨_, number?_padded (Nat.le_refl 4) (by decide) year _, ?_⟩
  refine Option.bind_eq_some_iff.2 ⟨_, literal?_self '-' _, ?_⟩
  refine Option.bind_eq_some_iff.2 ⟨_, number?_padded (Nat.le_refl 2) two month _, ?_⟩
  refine Option.bind_eq_some_iff.2 ⟨_, literal?_self '-' _, ?_⟩
  refine Option.bind_eq_some_iff.2 ⟨_, number?_padded (Nat.le_refl 2) two day _, ?_⟩
  refine Option.bind_eq_some_iff.2 ⟨_, separator?_mark _, ?_⟩
  refine Option.bind_eq_some_iff.2 ⟨_, number?_padded (Nat.le_refl 2) two hour _, ?_⟩
  refine Option.bind_eq_some_iff.2 ⟨_, literal?_self ':' _, ?_⟩
  refine Option.bind_eq_some_iff.2 ⟨_, number?_padded (Nat.le_refl 2) two minute _, ?_⟩
  refine Option.bind_eq_some_iff.2 ⟨_, literal?_self ':' _, ?_⟩
  refine Option.bind_eq_some_iff.2 ⟨_, number?_padded (Nat.le_refl 2) two second _, ?_⟩
  refine Option.bind_eq_some_iff.2 ⟨_, fraction?_zoneChars storable.nanos, ?_⟩
  have zone : offset? (literal? ':') zoneChars = some (0, []) := rfl
  refine Option.bind_eq_some_iff.2 ⟨_, zone, ?_⟩
  simp only [List.isEmpty_nil, if_true, same, checked?_utc storable]

end Timestamp
end Reconfig
