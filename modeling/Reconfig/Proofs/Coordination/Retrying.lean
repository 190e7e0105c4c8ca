/-
How often a call is made again, how it comes out, and how long that takes.

An outcome is conclusive if it is a success or an error that will not pass. The calls go on up to
the first conclusive outcome or the last call that is allowed, and the outcome of the last call that
is made is the result, so the error for too many calls is left for the case that no call is allowed.
Since each pause is as long as all earlier ones and the first one together, the pauses add up to one
less than a power of two.
-/
import Mathlib.Order.Bounds.Defs
import Reconfig.Coordination.Retry

namespace Reconfig

variable {α : Type}

/-- A success, or an error that will not pass. -/
def Conclusive : Except Error α → Prop
  | .ok _ => True
  | .error e => e.isRetryable = false

namespace RetryEnd

variable {call : Nat → Except Error α} {calls waited delay left : Nat}

/-! ## One call -/

theorem run_last (stops : Conclusive (call (calls + 1)) ∨ left = 0) :
    run call calls waited delay (left + 1) = ⟨call (calls + 1), calls + 1, waited⟩ := by
  rw [run]
  cases outcome : call (calls + 1) with
  | ok a => rfl
  | error e =>
    have ends : ¬ (e.isRetryable && left != 0) = true := by
      rw [outcome] at stops
      rcases stops with fatal | rfl
      · rw [show e.isRetryable = false from fatal, Bool.false_and]
        exact Bool.false_ne_true
      · simp
    exact if_neg ends

theorem run_again (again : ¬ Conclusive (call (calls + 1))) (more : left ≠ 0) :
    run call calls waited delay (left + 1) =
      run call (calls + 1) (waited + delay) (2 * delay) left := by
  rw [run]
  cases outcome : call (calls + 1) with
  | ok a =>
    rw [outcome] at again
    exact absurd trivial again
  | error e =>
    rw [outcome] at again
    have passes : e.isRetryable = true := Bool.of_not_eq_false again
    have goesOn : (e.isRetryable && left != 0) = true := by simp [passes, more]
    exact if_pos goesOn

/-! ## All calls -/

/-- The calls after the given number end with one that has a conclusive outcome or is the last one
allowed, and its outcome is the result. -/
structure Stops (call : Nat → Except Error α) (calls waited delay left : Nat)
    (ended : RetryEnd α) : Prop where
  made : calls < ended.calls
  allowed : ended.calls ≤ calls + left
  inconclusive : ∀ n, calls < n → n < ended.calls → ¬ Conclusive (call n)
  stops : Conclusive (call ended.calls) ∨ ended.calls = calls + left
  result : ended.result = call ended.calls
  waited : ended.waited = waited + delay * (2 ^ (ended.calls - calls - 1) - 1)

theorem stops_now (stops : Conclusive (call (calls + 1)) ∨ left = 0) :
    Stops call calls waited delay (left + 1) ⟨call (calls + 1), calls + 1, waited⟩ where
  made := Nat.lt_succ_self calls
  allowed := Nat.add_le_add_left (Nat.le_add_left 1 left) calls
  inconclusive := fun n above below => absurd below (Nat.not_lt.2 above)
  stops := stops.imp_right fun spent => by rw [spent]
  result := rfl
  waited := by simp

/-- A first pause and then pauses that start with twice its length. -/
theorem pauses_succ (delay pauses : Nat) :
    delay + 2 * delay * (2 ^ pauses - 1) = delay * (2 ^ (pauses + 1) - 1) := by
  have power : 0 < 2 ^ pauses := Nat.two_pow_pos pauses
  calc delay + 2 * delay * (2 ^ pauses - 1) = delay * (1 + 2 * (2 ^ pauses - 1)) := by
        rw [Nat.mul_add, Nat.mul_one, Nat.mul_comm 2 delay, Nat.mul_assoc]
    _ = delay * (2 ^ (pauses + 1) - 1) := by
        congr 1
        rw [Nat.pow_succ]
        omega

theorem stops_later {ended : RetryEnd α} (again : ¬ Conclusive (call (calls + 1)))
    (stops : Stops call (calls + 1) (waited + delay) (2 * delay) left ended) :
    Stops call calls waited delay (left + 1) ended where
  made := Nat.lt_of_succ_lt stops.made
  allowed := by
    have := stops.allowed
    omega
  inconclusive := fun n above below => by
    rcases Nat.eq_or_lt_of_le (Nat.succ_le_of_lt above) with rfl | later
    · exact again
    · exact stops.inconclusive n later below
  stops := stops.stops.imp_right fun last => by omega
  result := stops.result
  waited := by
    have made := stops.made
    have one : ended.calls - calls - 1 = ended.calls - (calls + 1) - 1 + 1 := by omega
    rw [stops.waited, Nat.add_assoc, pauses_succ, one]

theorem run_stops (call : Nat → Except Error α) (calls waited delay left : Nat) :
    Stops call calls waited delay (left + 1) (run call calls waited delay (left + 1)) := by
  induction left generalizing calls waited delay with
  | zero =>
    rw [run_last (.inr rfl)]
    exact stops_now (.inr rfl)
  | succ left ih =>
    by_cases last : Conclusive (call (calls + 1))
    · rw [run_last (.inl last)]
      exact stops_now (.inl last)
    · rw [run_again last (Nat.succ_ne_zero left)]
      exact stops_later last (ih (calls + 1) (waited + delay) (2 * delay))

end RetryEnd

/-- How calls are made again, in closed form. The first conclusive outcome and the number of calls
that are allowed say how many there are, and that says the rest. -/
theorem retryTicks_closed_form (call : Nat → Except Error α) (most delay : Nat) :
    (most = 0 → retryTicks call most delay = ⟨.error (.internal "Max retries exceeded"), 0, 0⟩) ∧
    (0 < most →
      (∀ k, IsLeast {n | 0 < n ∧ Conclusive (call n)} k →
        (retryTicks call most delay).calls = min k most) ∧
      ((∀ n, 0 < n → ¬ Conclusive (call n)) → (retryTicks call most delay).calls = most) ∧
      (retryTicks call most delay).result = call (retryTicks call most delay).calls ∧
      (retryTicks call most delay).waited =
        delay * (2 ^ ((retryTicks call most delay).calls - 1) - 1)) := by
  refine ⟨?_, fun positive => ?_⟩
  · rintro rfl
    rfl
  · obtain ⟨left, rfl⟩ := Nat.exists_eq_add_one.2 positive
    have run := RetryEnd.run_stops call 0 0 delay left
    rw [← retryTicks] at run
    have made := run.made
    have allowed := run.allowed
    refine ⟨fun k least => ?_, fun never => ?_, run.result, ?_⟩
    · obtain ⟨⟨first, conclusive⟩, below⟩ := least
      have notAfter : (retryTicks call (left + 1) delay).calls ≤ k := by
        refine Nat.le_of_not_lt fun after => ?_
        exact run.inconclusive k first after conclusive
      rcases run.stops with last | last
      · have := below ⟨made, last⟩
        omega
      · omega
    · rcases run.stops with last | last
      · exact absurd last (never _ made)
      · omega
    · rw [run.waited, Nat.zero_add, Nat.sub_zero]

/-- The third call is the first that succeeds. -/
def thirdTime (n : Nat) : Except Error Nat :=
  if n < 3 then .error (.timeout "late") else .ok n

theorem thirdTime_closed_form : 0 < 5 ∧
    IsLeast {n | 0 < n ∧ Conclusive (thirdTime n)} 3 ∧
    (retryTicks thirdTime 5 100).calls = 3 ∧
    (retryTicks thirdTime 5 100).result = .ok 3 ∧
    (retryTicks thirdTime 5 100).waited = 300 := by
  have least : IsLeast {n | 0 < n ∧ Conclusive (thirdTime n)} 3 := by
    refine ⟨⟨by decide, trivial⟩, fun n ⟨_, conclusive⟩ => Nat.le_of_not_lt fun below => ?_⟩
    rw [thirdTime, if_pos below] at conclusive
    cases conclusive
  obtain ⟨-, closed⟩ := retryTicks_closed_form thirdTime 5 100
  obtain ⟨calls, -, result, waited⟩ := closed (by decide)
  have three : (retryTicks thirdTime 5 100).calls = 3 := calls 3 least
  rw [three] at result waited
  exact ⟨by decide, least, three, result, waited⟩

end Reconfig
