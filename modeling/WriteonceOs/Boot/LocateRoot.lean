import WriteonceOs.Boot.Discover
import WriteonceOs.Library.Polling

/-!
# Waiting for the root device

The devices appear while the initramfs is already running, so the search is repeated every 100 ms
until the time of `writeonce.rootwait` is over.  The clock is read once before the first poll, and
then behind each poll that found nothing.

* `locateRoot_eq` — the loop is a polling until the deadline;
* `made_iff` — the polls that are made;
* `locateRoot_waits` — what is returned, and when.
-/

namespace WriteonceOs.Boot

open WriteonceOs.Library
open Svc (Duration Instant addDuration addDuration_of_le addDuration_of_lt fromMillis fromSecs)

/-! ### The loop -/

/-- What the polls meet: the devices that the `i`-th one sees, and a clock that never goes back, at
its beginning and where it is read behind a miss. -/
structure Attempts where
  start : Instant
  devices : ℕ → Devices
  began : ℕ → Instant
  tested : ℕ → Instant
  start_le : start ≤ began 0
  began_le : ∀ i, began i ≤ tested i
  tested_le : ∀ i, tested i ≤ began (i + 1)

/-- What is printed on the way; the counts are `u32`. -/
inductive Message where
  | waiting (timeoutSecs : ℕ)
  | found (attempt millis : UInt32)
  deriving DecidableEq, Repr

inductive Located where
  | returned (result : Except DiscoverError Text) (said : List Message)
  | panicked
  -- another poll is to be made
  | polling
  deriving DecidableEq, Repr

def DiscoverError.isNotFound : DiscoverError → Bool
  | .notFound _ => true
  | _ => false

namespace Attempts

variable (a : Attempts)

/-- What the `i`-th poll gives. -/
def once (spec : RootSpec) (i : ℕ) : Except DiscoverError Text := locateRootOnce (a.devices i) spec

/-- The loop from the `i`-th poll on.  The counter wraps around in a release build. -/
def locateLoop (spec : RootSpec) (timeoutSecs : ℕ) (deadline : Instant) :
    ℕ → ℕ → UInt32 → List Message → Located
  | 0, _, _, _ => .polling
  | fuel + 1, i, attempt, said =>
    match a.once spec i with
    | .ok dev =>
      .returned (.ok dev)
        (if 0 < attempt then said ++ [.found attempt (attempt * 100)] else said)
    | .error e =>
      if e.isNotFound = true ∧ a.tested i < deadline then
        locateLoop spec timeoutSecs deadline fuel (i + 1) (attempt + 1)
          (if attempt = 0 then said ++ [.waiting timeoutSecs] else said)
      else .returned (.error e) said

/-- The search with at most `fuel` polls. -/
def locateRoot (fuel : ℕ) (spec : RootSpec) (timeoutSecs : ℕ) : Located :=
  (addDuration a.start (fromSecs timeoutSecs)).elim .panicked fun deadline =>
    a.locateLoop spec timeoutSecs deadline fuel 0 0 []

/-- After `k` polls it goes on to another one. -/
def Made (spec : RootSpec) (timeoutSecs k : ℕ) : Prop := a.locateRoot k spec timeoutSecs = .polling

/-- The poll finds no device. -/
def Missed (spec : RootSpec) (i : ℕ) : Prop := ∃ s, a.once spec i = .error (.notFound s)

/-- The deadline can be computed. -/
def Fits (timeoutSecs : ℕ) : Prop := a.start + fromSecs timeoutSecs < fromSecs (2 ^ 63)

variable {a} {spec : RootSpec} {timeoutSecs fuel k : ℕ}

/-! ### The loop is a polling -/

/-- Where the loop ends. -/
def ending (a : Attempts) (spec : RootSpec) (deadline : Instant) (fuel i : ℕ) : Option ℕ :=
  Polling.poll DiscoverError.isNotFound (a.once spec) a.tested deadline fuel i

theorem locateLoop_eq {deadline : Instant} (fuel i : ℕ) (attempt : UInt32)
    (said : List Message) :
    match a.ending spec deadline fuel i with
    | none => a.locateLoop spec timeoutSecs deadline fuel i attempt said = .polling
    | some k => ∃ said', a.locateLoop spec timeoutSecs deadline fuel i attempt said =
        .returned (a.once spec k) said' := by
  induction fuel generalizing i attempt said with
  | zero => rfl
  | succ fuel ih =>
    rw [ending, Polling.poll, locateLoop]
    cases honce : a.once spec i with
    | ok dev => exact ⟨_, by rw [honce]⟩
    | error e =>
      by_cases hguard : e.isNotFound = true ∧ a.tested i < deadline
      · simp only [if_pos hguard]
        exact ih (i + 1) _ _
      · simp only [if_neg hguard]
        exact ⟨_, by rw [honce]⟩

/-- **The loop is a polling until the deadline.** -/
theorem locateRoot_eq (hfits : a.Fits timeoutSecs) (spec : RootSpec) (fuel : ℕ) :
    match a.ending spec (a.start + fromSecs timeoutSecs) fuel 0 with
    | none => a.locateRoot fuel spec timeoutSecs = .polling
    | some k => ∃ said, a.locateRoot fuel spec timeoutSecs = .returned (a.once spec k) said := by
  rw [locateRoot, addDuration_of_lt (Nat.not_le_of_lt hfits), Option.elim_some]
  exact locateLoop_eq fuel 0 0 []

theorem retried_iff {deadline : Instant} {i : ℕ} :
    Polling.Retried DiscoverError.isNotFound (a.once spec) a.tested deadline i ↔
      a.Missed spec i ∧ a.tested i < deadline := by
  constructor
  · intro h
    obtain ⟨e, honce, htransient, hlt⟩ := h
    cases e with
    | notFound s => exact ⟨⟨s, honce⟩, hlt⟩
    | unsupported s => cases htransient
    | io e => cases htransient
  · intro h
    obtain ⟨⟨s, honce⟩, hlt⟩ := h
    exact ⟨.notFound s, honce, rfl, hlt⟩

/-! ### The polls that are made -/

/-- **Another poll is made** when the polls so far have missed before the deadline. -/
theorem made_iff (hfits : a.Fits timeoutSecs) :
    a.Made spec timeoutSecs k ↔
      ∀ j < k, a.Missed spec j ∧ a.tested j < a.start + fromSecs timeoutSecs := by
  have hnone : a.Made spec timeoutSecs k ↔
      a.ending spec (a.start + fromSecs timeoutSecs) k 0 = none := by
    have heq := locateRoot_eq hfits spec k
    rw [Made]
    cases hend : a.ending spec (a.start + fromSecs timeoutSecs) k 0 with
    | none =>
      rw [hend] at heq
      simp [heq]
    | some n =>
      rw [hend] at heq
      obtain ⟨said, heq⟩ := heq
      simp [heq]
  rw [hnone, ending, Polling.poll_eq_none_iff]
  constructor
  · intro h j hj
    exact retried_iff.mp (h j (Nat.zero_le j) (by omega))
  · intro h j _ hj
    exact retried_iff.mpr (h j (by omega))

/-- **What is returned** is the result of the last poll, the first that is no miss before the
deadline. -/
theorem returned_iff (hfits : a.Fits timeoutSecs) {result : Except DiscoverError Text} :
    (∃ said, a.locateRoot fuel spec timeoutSecs = .returned result said) ↔
      ∃ n < fuel, a.Made spec timeoutSecs n ∧ a.once spec n = result ∧
        ¬ (a.Missed spec n ∧ a.tested n < a.start + fromSecs timeoutSecs) := by
  have heq := locateRoot_eq hfits spec fuel
  have hend (n : ℕ) : a.ending spec (a.start + fromSecs timeoutSecs) fuel 0 = some n ↔
      n < fuel ∧ a.Made spec timeoutSecs n ∧
        ¬ (a.Missed spec n ∧ a.tested n < a.start + fromSecs timeoutSecs) := by
    rw [ending, Polling.poll_eq_some_iff, made_iff hfits, retried_iff]
    constructor
    · intro h
      obtain ⟨-, hlt, hbefore, hlast⟩ := h
      exact ⟨by omega, fun j hj => retried_iff.mp (hbefore j (Nat.zero_le j) hj), hlast⟩
    · intro h
      obtain ⟨hlt, hbefore, hlast⟩ := h
      exact ⟨Nat.zero_le n, by omega, fun j _ hj => retried_iff.mpr (hbefore j hj), hlast⟩
  constructor
  · intro h
    obtain ⟨said, h⟩ := h
    cases hpoll : a.ending spec (a.start + fromSecs timeoutSecs) fuel 0 with
    | none =>
      rw [hpoll] at heq
      rw [heq] at h
      cases h
    | some n =>
      rw [hpoll] at heq
      obtain ⟨said', heq⟩ := heq
      rw [heq] at h
      obtain ⟨hlt, hmade, hlast⟩ := (hend n).mp hpoll
      cases h
      exact ⟨n, hlt, hmade, rfl, hlast⟩
  · intro h
    obtain ⟨n, hlt, hmade, rfl, hlast⟩ := h
    rw [(hend n).mpr ⟨hlt, hmade, hlast⟩] at heq
    exact heq

/-- The clock at the beginning of a poll is not behind an earlier reading. -/
theorem tested_le_began {i j : ℕ} (h : i < j) : a.tested i ≤ a.began j := by
  induction j, h using Nat.le_induction with
  | base => exact a.tested_le i
  | succ j _ ih => exact ih.trans ((a.began_le j).trans (a.tested_le j))

/-! ### Waiting -/

/-- What the search promises as long as it waits. -/
structure Waits (a : Attempts) (spec : RootSpec) (timeoutSecs : ℕ) : Prop where
  /-- A first poll is made. -/
  atLeastOnce : a.Made spec timeoutSecs 0
  /-- What is returned is what the last of the polls made gave, behind misses only. -/
  lastPoll : ∀ fuel result said, a.locateRoot fuel spec timeoutSecs = .returned result said →
    ∃ k < fuel, a.Made spec timeoutSecs k ∧ a.once spec k = result ∧ ∀ j < k, a.Missed spec j
  found : ∀ k dev, a.Made spec timeoutSecs k → a.once spec k = .ok dev → ∀ fuel, k < fuel →
    ∃ said, a.locateRoot fuel spec timeoutSecs = .returned (.ok dev) said
  failed : ∀ k e, a.Made spec timeoutSecs k → a.once spec k = .error e → e.isNotFound = false →
    ∀ fuel, k < fuel → ∃ said, a.locateRoot fuel spec timeoutSecs = .returned (.error e) said
  missing : ∀ fuel s said,
    a.locateRoot fuel spec timeoutSecs = .returned (.error (.notFound s)) said →
    ∃ k < fuel, a.Made spec timeoutSecs k ∧ a.once spec k = .error (.notFound s) ∧
      a.start + fromSecs timeoutSecs ≤ a.tested k
  /-- A device that a poll before the deadline sees is not reported missing. -/
  present : ∀ k dev, a.once spec k = .ok dev → a.began k < a.start + fromSecs timeoutSecs →
    ∀ fuel s said, a.locateRoot fuel spec timeoutSecs ≠ .returned (.error (.notFound s)) said

/-- **Waiting for the root device**, with a timeout whose deadline can be computed. -/
theorem locateRoot_waits (a : Attempts) (spec : RootSpec) {timeoutSecs : ℕ}
    (hfits : a.Fits timeoutSecs) : a.Waits spec timeoutSecs where
  atLeastOnce := (made_iff hfits).mpr fun j hj => absurd hj (Nat.not_lt_zero j)
  lastPoll := by
    intro fuel result said h
    obtain ⟨k, hlt, hmade, honce, -⟩ := (returned_iff hfits).mp ⟨said, h⟩
    exact ⟨k, hlt, hmade, honce, fun j hj => ((made_iff hfits).mp hmade j hj).1⟩
  found := by
    intro k dev hmade honce fuel hlt
    refine (returned_iff hfits).mpr ⟨k, hlt, hmade, honce, fun hmiss => ?_⟩
    obtain ⟨⟨s, hs⟩, -⟩ := hmiss
    rw [honce] at hs
    cases hs
  failed := by
    intro k e hmade honce he fuel hlt
    refine (returned_iff hfits).mpr ⟨k, hlt, hmade, honce, fun hmiss => ?_⟩
    obtain ⟨⟨s, hs⟩, -⟩ := hmiss
    rw [honce] at hs
    cases hs
    cases he
  missing := by
    intro fuel s said h
    obtain ⟨k, hlt, hmade, honce, hlast⟩ := (returned_iff hfits).mp ⟨said, h⟩
    exact ⟨k, hlt, hmade, honce, Nat.le_of_not_lt fun hbefore => hlast ⟨⟨s, honce⟩, hbefore⟩⟩
  present := by
    intro k dev honce hbefore fuel s said h
    obtain ⟨n, -, hmade, hmiss, hlast⟩ := (returned_iff hfits).mp ⟨said, h⟩
    have hpast : a.start + fromSecs timeoutSecs ≤ a.tested n :=
      Nat.le_of_not_lt fun hlt => hlast ⟨⟨s, hmiss⟩, hlt⟩
    -- the poll that saw the device is not the last one, was not before it and would not come after
    rcases Nat.lt_trichotomy k n with hk | rfl | hk
    · obtain ⟨⟨s', hs⟩, -⟩ := (made_iff hfits).mp hmade k hk
      rw [honce] at hs
      cases hs
    · rw [honce] at hmiss
      cases hmiss
    · exact absurd (hpast.trans (tested_le_began hk)) (Nat.not_le_of_lt hbefore)

/-! ### The search ends -/

/-- Every sleep lasts at least 100 ms. -/
def Sleeps (a : Attempts) : Prop := ∀ i, a.tested i + fromMillis 100 ≤ a.began (i + 1)

theorem fromMillis_succ (i : ℕ) :
    fromMillis (100 * (i + 1)) = fromMillis (100 * i) + fromMillis 100 :=
  Nat.add_mul (100 * i) 100 1000000

theorem fromSecs_eq_fromMillis (n : ℕ) : fromSecs n = fromMillis (100 * (10 * n)) := by
  show (n * 1000000000 : ℕ) = 100 * (10 * n) * 1000000
  omega

theorem Sleeps.le_began (h : a.Sleeps) (i : ℕ) : a.start + fromMillis (100 * i) ≤ a.began i := by
  induction i with
  | zero => exact a.start_le
  | succ i ih =>
    calc a.start + fromMillis (100 * (i + 1))
        = a.start + fromMillis (100 * i) + fromMillis 100 := by
          rw [fromMillis_succ, Nat.add_assoc]
      _ ≤ a.began i + fromMillis 100 := Nat.add_le_add_right ih _
      _ ≤ a.tested i + fromMillis 100 := Nat.add_le_add_right (a.began_le i) _
      _ ≤ a.began (i + 1) := h i

/-- **The search ends**, after ten polls a second at most. -/
theorem returned_of_sleeps (hsleep : a.Sleeps) (hfits : a.Fits timeoutSecs) :
    ∃ result said,
      a.locateRoot (10 * timeoutSecs + 1) spec timeoutSecs = .returned result said := by
  have hpast : a.start + fromSecs timeoutSecs ≤ a.tested (10 * timeoutSecs) := by
    rw [fromSecs_eq_fromMillis]
    exact (hsleep.le_began (10 * timeoutSecs)).trans (a.began_le _)
  have hend : ∃ n, n ≤ 10 * timeoutSecs ∧
      a.ending spec (a.start + fromSecs timeoutSecs) (10 * timeoutSecs + 1) 0 = some n :=
    Polling.exists_poll (Nat.not_lt_of_le hpast)
  obtain ⟨n, -, hend⟩ := hend
  have heq := locateRoot_eq hfits spec (10 * timeoutSecs + 1)
  rw [hend] at heq
  obtain ⟨said, heq⟩ := heq
  exact ⟨_, said, heq⟩

/-- Without a deadline the search does not even begin. -/
theorem locateRoot_of_not_fits (hfits : ¬ a.Fits timeoutSecs) (fuel : ℕ) :
    a.locateRoot fuel spec timeoutSecs = .panicked := by
  rw [locateRoot, addDuration_of_le (Nat.le_of_not_lt hfits), Option.elim_none]

theorem locateRoot_ne_panicked (hfits : a.Fits timeoutSecs) (fuel : ℕ) :
    a.locateRoot fuel spec timeoutSecs ≠ .panicked := by
  have heq := locateRoot_eq hfits spec fuel
  intro hpanic
  cases hend : a.ending spec (a.start + fromSecs timeoutSecs) fuel 0 with
  | none =>
    rw [hend, hpanic] at heq
    cases heq
  | some n =>
    rw [hend, hpanic] at heq
    obtain ⟨said, heq⟩ := heq
    cases heq

/-- A disk that the third poll sees, with ten seconds to wait. -/
def slowDisk : Attempts where
  start := fromSecs 1
  devices i := ⟨.ok [], fun _ => decide (2 ≤ i)⟩
  began i := fromSecs 1 + fromMillis (100 * i)
  tested i := fromSecs 1 + fromMillis (100 * i)
  start_le := Nat.le_refl _
  began_le _ := Nat.le_refl _
  tested_le i := Nat.add_le_add_left (Nat.mul_le_mul_right _ (by omega)) _

theorem locateRoot_waits_slowDisk : slowDisk.Waits (.device "/dev/sda2".toList) 10 :=
  locateRoot_waits slowDisk (.device "/dev/sda2".toList)
    (show fromSecs 1 + fromSecs 10 < fromSecs (2 ^ 63) by decide)

example : slowDisk.locateRoot 3 (.device "/dev/sda2".toList) 10 =
    .returned (.ok "/dev/sda2".toList) [.waiting 10, .found 2 200] := by
  decide +kernel

end Attempts

end WriteonceOs.Boot
