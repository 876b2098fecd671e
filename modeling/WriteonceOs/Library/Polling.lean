import Mathlib.Order.Basic

/-!
# Polling until a deadline

Something is probed again and again.  A result ends it, and so does a failure, unless the failure
may pass and the clock, read behind the probe, is still before the deadline.

* `poll_eq_some_iff` — where the polling ends;
* `poll_eq_none_iff` — when that many probes do not end it;
* `exists_poll` — on a clock that reaches the deadline it ends.
-/

namespace WriteonceOs.Library.Polling

variable {ε α τ : Type*} [LT τ]

/-- The number of the probe that ends the polling, if one of the next `fuel` does. -/
def poll [DecidableLT τ] (transient : ε → Bool) (probe : ℕ → Except ε α) (tested : ℕ → τ)
    (deadline : τ) : ℕ → ℕ → Option ℕ
  | 0, _ => none
  | fuel + 1, i =>
    match probe i with
    | .ok _ => some i
    | .error e =>
      if transient e = true ∧ tested i < deadline then
        poll transient probe tested deadline fuel (i + 1)
      else some i

/-- The probe fails in a way that may pass, and before the deadline. -/
def Retried (transient : ε → Bool) (probe : ℕ → Except ε α) (tested : ℕ → τ) (deadline : τ)
    (i : ℕ) : Prop :=
  ∃ e, probe i = .error e ∧ transient e = true ∧ tested i < deadline

variable [DecidableLT τ] {transient : ε → Bool} {probe : ℕ → Except ε α} {tested : ℕ → τ}
  {deadline : τ}

theorem poll_of_retried {i : ℕ} (h : Retried transient probe tested deadline i) (fuel : ℕ) :
    poll transient probe tested deadline (fuel + 1) i =
      poll transient probe tested deadline fuel (i + 1) := by
  obtain ⟨e, hprobe, hguard⟩ := h
  rw [poll, hprobe]
  exact if_pos hguard

theorem poll_of_not_retried {i : ℕ} (h : ¬ Retried transient probe tested deadline i) (fuel : ℕ) :
    poll transient probe tested deadline (fuel + 1) i = some i := by
  rw [poll]
  cases hprobe : probe i with
  | ok a => rfl
  | error e => exact if_neg fun hguard => h ⟨e, hprobe, hguard⟩

/-- **Where the polling ends**: at the first probe that is not retried. -/
theorem poll_eq_some_iff {fuel i k : ℕ} :
    poll transient probe tested deadline fuel i = some k ↔
      i ≤ k ∧ k < i + fuel ∧ (∀ j, i ≤ j → j < k → Retried transient probe tested deadline j) ∧
        ¬ Retried transient probe tested deadline k := by
  induction fuel generalizing i with
  | zero =>
    refine ⟨fun h => (by cases h), fun h => ?_⟩
    omega
  | succ fuel ih =>
    by_cases hi : Retried transient probe tested deadline i
    · rw [poll_of_retried hi, ih]
      constructor
      · intro h
        obtain ⟨hle, hlt, hbefore, hend⟩ := h
        refine ⟨by omega, by omega, fun j hij hjk => ?_, hend⟩
        rcases Nat.eq_or_lt_of_le hij with rfl | hij
        · exact hi
        · exact hbefore j hij hjk
      · intro h
        obtain ⟨hle, hlt, hbefore, hend⟩ := h
        have hne : i ≠ k := fun heq => hend (heq ▸ hi)
        exact ⟨by omega, by omega, fun j hij hjk => hbefore j (by omega) hjk, hend⟩
    · rw [poll_of_not_retried hi, Option.some.injEq]
      constructor
      · intro h
        subst h
        exact ⟨Nat.le_refl _, by omega, fun j hij hji => absurd hji (by omega), hi⟩
      · intro h
        obtain ⟨hle, -, hbefore, -⟩ := h
        by_contra hne
        exact hi (hbefore i (Nat.le_refl _) (by omega))

/-- That many probes do not end it when each of them is retried. -/
theorem poll_eq_none_iff {fuel i : ℕ} :
    poll transient probe tested deadline fuel i = none ↔
      ∀ j, i ≤ j → j < i + fuel → Retried transient probe tested deadline j := by
  induction fuel generalizing i with
  | zero => exact ⟨fun _ j hij hji => absurd hji (by omega), fun _ => rfl⟩
  | succ fuel ih =>
    by_cases hi : Retried transient probe tested deadline i
    · rw [poll_of_retried hi, ih]
      constructor
      · intro h j hij hjk
        rcases Nat.eq_or_lt_of_le hij with rfl | hij
        · exact hi
        · exact h j hij (by omega)
      · intro h j hij hjk
        exact h j (by omega) (by omega)
    · rw [poll_of_not_retried hi]
      refine ⟨fun h => (by cases h), fun h => ?_⟩
      exact absurd (h i (Nat.le_refl _) (by omega)) hi

/-- **On a clock that reaches the deadline the polling ends.** -/
theorem exists_poll {k : ℕ} (h : ¬ tested k < deadline) :
    ∃ n, n ≤ k ∧ poll transient probe tested deadline (k + 1) 0 = some n := by
  cases hpoll : poll transient probe tested deadline (k + 1) 0 with
  | none =>
    obtain ⟨-, -, -, hlt⟩ := poll_eq_none_iff.mp hpoll k (Nat.zero_le k) (by omega)
    exact absurd hlt h
  | some n =>
    have hbound := (poll_eq_some_iff.mp hpoll).2.1
    exact ⟨n, by omega, rfl⟩

end WriteonceOs.Library.Polling
