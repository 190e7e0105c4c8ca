/-
A point in time is read back from the form that it has in documents.

The reader of documents passes over blanks between the fields and takes shorter fields. The form
that is written has no blanks, and its fields have their full width.
-/
import Reconfig.Proofs.Time.StoredText

namespace Reconfig

namespace Text

theorem isBlank_of_isDigit {c : Char} (digit : c.isDigit = true) : isBlank c = false := by
  cases blank : isBlank c with
  | false => rfl
  | true =>
    have ⟨low, high⟩ : '0' ≤ c ∧ c ≤ '9' := by
      simp only [Char.isDigit, Bool.and_eq_true, decide_eq_true_eq] at digit
      exact digit
    simp only [isBlank, Bool.or_eq_true, Bool.and_eq_true, decide_eq_true_eq, beq_iff_eq] at blank
    -- blanks stand below the digits and above them
    rcases blank with (((((((((⟨-, early⟩ | rfl) | rfl) | rfl) | rfl) | ⟨late, -⟩) | rfl) | rfl) |
      rfl) | rfl) | rfl
    · exact absurd (Char.le_trans low early) (by decide)
    · cases digit
    · cases digit
    · cases digit
    · cases digit
    · exact absurd (Char.le_trans late high) (by decide)
    · cases digit
    · cases digit
    · cases digit
    · cases digit
    · cases digit

theorem trimStart_cons {c : Char} (filled : isBlank c = false) (rest : List Char) :
    trimStart (c :: rest) = c :: rest := by
  rw [trimStart, List.dropWhile_cons, filled]
  rfl

end Text

namespace Timestamp

theorem padded_eq_cons {width n : Nat} (positive : 0 < width) (fits : n < 10 ^ width) :
    ∃ c rest, padded width n = c :: rest ∧ c.isDigit = true := by
  have size := length_padded positive fits
  cases shape : padded width n with
  | nil =>
    rw [shape] at size
    exact absurd size.symm (Nat.ne_of_gt positive)
  | cons c rest =>
    have mem : c ∈ padded width n := by
      rw [shape]
      exact List.mem_cons_self
    exact ⟨c, rest, rfl, isDigit_of_mem_padded mem⟩

theorem trimStart_padded {width n : Nat} (positive : 0 < width) (fits : n < 10 ^ width)
    (rest : List Char) : Text.trimStart (padded width n ++ rest) = padded width n ++ rest := by
  obtain ⟨c, more, shape, digit⟩ := padded_eq_cons positive fits
  rw [shape, List.cons_append, Text.trimStart_cons (Text.isBlank_of_isDigit digit)]

/-- A year of four digits stands without a sign. -/
theorem signedYear?_padded {n : Nat} (fits : n < 10 ^ 4) (rest : List Char) :
    signedYear? (padded 4 n ++ rest) = some ((n : Int), rest) := by
  have read := number?_padded (show 1 ≤ 4 by decide) (by decide) fits rest
  obtain ⟨c, more, shape, digit⟩ := padded_eq_cons (by decide) fits
  rw [shape, List.cons_append] at read ⊢
  unfold signedYear?
  split
  · rename_i same
    cases same
    cases digit
  · rename_i same
    cases same
    cases digit
  · rw [read]
    rfl

/-- A part that is not blank follows without a gap. -/
theorem number?_trimStart_padded {n : Nat} (fits : n < 10 ^ 2) (rest : List Char) :
    number? 1 2 (Text.trimStart (padded 2 n ++ rest)) = some (n, rest) := by
  rw [trimStart_padded (by decide) fits, number?_padded (by decide) (by decide) fits]

theorem literal?_trimStart {mark : Char} (filled : Text.isBlank mark = false) (rest : List Char) :
    literal? mark (Text.trimStart (mark :: rest)) = some rest := by
  rw [Text.trimStart_cons filled, literal?_self]

/-- A point in time is read back from the form in which it is written. -/
theorem parseLoose?_documentText {t : Timestamp} (storable : t.Storable) :
    parseLoose? t.documentText = some t := by
  have ⟨month, day⟩ := month_bounds storable
  have ⟨yearLow, yearHigh⟩ := storable.year
  have year : t.year.toNat < 10 ^ 4 := by omega
  have hour : t.hour < 10 ^ 2 := Nat.lt_trans storable.hour (by decide)
  have minute : t.minute < 10 ^ 2 := Nat.lt_trans storable.minute (by decide)
  have second : t.second < 10 ^ 2 := Nat.lt_of_le_of_lt storable.second (by decide)
  have same : (⟨(t.year.toNat : Int), t.month, t.day, t.hour, t.minute, t.second, t.nanos⟩ :
      Timestamp) = t := by
    rw [Int.toNat_of_nonneg yearLow]
  simp only [parseLoose?, documentText, String.toList_ofList, chars,
    yearChars_of_storable storable, List.append_assoc, List.cons_append,
    trimStart_padded (show 0 < 4 by decide) year]
  -- the reader takes one part after the other from the front
  refine Option.bind_eq_some_iff.2 ⟨_, signedYear?_padded year _, ?_⟩
  refine Option.bind_eq_some_iff.2 ⟨_, literal?_trimStart rfl _, ?_⟩
  refine Option.bind_eq_some_iff.2 ⟨_, number?_trimStart_padded month _, ?_⟩
  refine Option.bind_eq_some_iff.2 ⟨_, literal?_trimStart rfl _, ?_⟩
  refine Option.bind_eq_some_iff.2 ⟨_, number?_trimStart_padded day _, ?_⟩
  refine Option.bind_eq_some_iff.2 ⟨_, separator?_mark _, ?_⟩
  refine Option.bind_eq_some_iff.2 ⟨_, number?_trimStart_padded hour _, ?_⟩
  refine Option.bind_eq_some_iff.2 ⟨_, literal?_trimStart rfl _, ?_⟩
  refine Option.bind_eq_some_iff.2 ⟨_, number?_trimStart_padded minute _, ?_⟩
  refine Option.bind_eq_some_iff.2 ⟨_, literal?_trimStart rfl _, ?_⟩
  refine Option.bind_eq_some_iff.2 ⟨_, number?_trimStart_padded second _, ?_⟩
  have letter : 'Z'.isDigit = false := rfl
  refine Option.bind_eq_some_iff.2
    ⟨_, fraction?_fractionChars storable.nanos [] letter (by decide), ?_⟩
  have zone : zone? (Text.trimStart ['Z']) = some (0, []) := rfl
  refine Option.bind_eq_some_iff.2 ⟨_, zone, ?_⟩
  have done : (Text.trimStart []).isEmpty = true := rfl
  simp only [done, if_true, same, checked?_utc storable]

end Timestamp
end Reconfig
