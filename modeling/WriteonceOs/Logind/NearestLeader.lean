import WriteonceOs.Logind.SessionTable

/-!
# The session of a process

`find_session_by_pid` climbs from a process to its ancestors, at most 32 processes, and stops at
PID 0, PID 1 or a process that is gone.  The parents are any partial function: a chain may end early
or run in a circle.

* `findFrom_some_iff`, `findFrom_none_iff` — the climb from any process, for any number of steps;
* `findSessionByPid_nearest` — a process belongs to the session of the nearest leader.
-/

namespace WriteonceOs.Logind

open WriteonceOs.Svc (HashOrder)

/-! ### Ancestors -/

section Ancestors

variable (ppid : UInt32 → Option UInt32)

/-- The `k`-th process of the chain that begins with `p`. -/
def ancestor : ℕ → UInt32 → Option UInt32
  | 0, p => some p
  | k + 1, p => (ppid p).bind (ancestor k)

/-- The `k`-th process of the chain is `q`, and up to it there is neither PID 0 nor PID 1. -/
def Climbs (k : ℕ) (p q : UInt32) : Prop :=
  ancestor ppid k p = some q ∧ ∀ j ≤ k, ∀ r, ancestor ppid j p = some r → r ≠ 0 ∧ r ≠ 1

variable {ppid}

theorem climbs_zero {p q : UInt32} : Climbs ppid 0 p q ↔ p = q ∧ p ≠ 0 ∧ p ≠ 1 := by
  constructor
  · intro h
    obtain ⟨hq, hroot⟩ := h
    exact ⟨Option.some.inj hq, hroot 0 le_rfl p rfl⟩
  · intro h
    obtain ⟨rfl, hroot⟩ := h
    refine ⟨rfl, fun j hj r hr => ?_⟩
    rw [Nat.le_zero.mp hj] at hr
    exact Option.some.inj hr ▸ hroot

theorem climbs_succ {k : ℕ} {p q : UInt32} :
    Climbs ppid (k + 1) p q ↔
      (p ≠ 0 ∧ p ≠ 1) ∧ ∃ parent, ppid p = some parent ∧ Climbs ppid k parent q := by
  constructor
  · intro h
    obtain ⟨hq, hroot⟩ := h
    refine ⟨hroot 0 (Nat.zero_le _) p rfl, ?_⟩
    obtain ⟨parent, hparent, hq⟩ := Option.bind_eq_some_iff.mp hq
    refine ⟨parent, hparent, hq, fun j hj r hr => ?_⟩
    refine hroot (j + 1) (Nat.succ_le_succ hj) r ?_
    rw [ancestor, hparent]
    exact hr
  · intro h
    obtain ⟨hp, parent, hparent, hq, hroot⟩ := h
    refine ⟨by rw [ancestor, hparent]; exact hq, fun j hj r hr => ?_⟩
    cases j with
    | zero => exact Option.some.inj hr ▸ hp
    | succ j =>
      rw [ancestor, hparent] at hr
      exact hroot j (Nat.le_of_succ_le_succ hj) r hr

theorem Climbs.not_root {k : ℕ} {p q : UInt32} (h : Climbs ppid k p q) : q ≠ 0 ∧ q ≠ 1 :=
  h.2 k le_rfl q h.1

end Ancestors

namespace SessionState

variable (st : SessionState)

/-- Some session is led by the process. -/
def Led (q : UInt32) : Prop := ∃ id s, st.sessions.lookup id = some s ∧ s.leaderPid = q

/-- No two sessions share a leader. -/
def LeadersDistinct : Prop :=
  ∀ id id' s s', st.sessions.lookup id = some s → st.sessions.lookup id' = some s' →
    s.leaderPid = s'.leaderPid → id = id'

/-- The leader of `s` is the `k`-th process of the chain from `p`, and none before it leads a
session. -/
def Nearest (ppid : UInt32 → Option UInt32) (k : ℕ) (p : UInt32) (s : SessionInfo) : Prop :=
  Climbs ppid k p s.leaderPid ∧ (∃ id, st.sessions.lookup id = some s) ∧
    ∀ j < k, ∀ q, Climbs ppid j p q → ¬ st.Led q

variable {st} {ord : HashOrder SessionInfo} {ppid : UInt32 → Option UInt32}

theorem LeadersDistinct.eq (h : st.LeadersDistinct) {id id' : String} {s s' : SessionInfo}
    (hs : st.sessions.lookup id = some s) (hs' : st.sessions.lookup id' = some s')
    (heq : s.leaderPid = s'.leaderPid) : s = s' := by
  have hid := h id id' s s' hs hs' heq
  rw [hid, hs'] at hs
  exact (Option.some.inj hs).symm

theorem nearest_zero {p : UInt32} {s : SessionInfo} :
    st.Nearest ppid 0 p s ↔
      s.leaderPid = p ∧ (p ≠ 0 ∧ p ≠ 1) ∧ ∃ id, st.sessions.lookup id = some s := by
  rw [Nearest, climbs_zero]
  constructor
  · intro h
    exact ⟨h.1.1.symm, h.1.2, h.2.1⟩
  · intro h
    exact ⟨⟨h.1.symm, h.2.1⟩, h.2.2, fun j hj => absurd hj (Nat.not_lt_zero j)⟩

theorem nearest_succ {k : ℕ} {p : UInt32} {s : SessionInfo} :
    st.Nearest ppid (k + 1) p s ↔ (p ≠ 0 ∧ p ≠ 1) ∧ ¬ st.Led p ∧
      ∃ parent, ppid p = some parent ∧ st.Nearest ppid k parent s := by
  rw [Nearest, climbs_succ]
  constructor
  · intro h
    obtain ⟨⟨hp, parent, hparent, hclimb⟩, hs, hbefore⟩ := h
    refine ⟨hp, hbefore 0 (Nat.succ_pos k) p (climbs_zero.mpr ⟨rfl, hp⟩), parent, hparent, hclimb,
      hs, fun j hj q hq => ?_⟩
    exact hbefore (j + 1) (Nat.succ_lt_succ hj) q (climbs_succ.mpr ⟨hp, parent, hparent, hq⟩)
  · intro h
    obtain ⟨hp, hled, parent, hparent, hclimb, hs, hbefore⟩ := h
    refine ⟨⟨hp, parent, hparent, hclimb⟩, hs, fun j hj q hq => ?_⟩
    cases j with
    | zero => exact (climbs_zero.mp hq).1 ▸ hled
    | succ j =>
      obtain ⟨-, parent', hparent', hq⟩ := climbs_succ.mp hq
      rw [hparent, Option.some.injEq] at hparent'
      exact hbefore j (Nat.lt_of_succ_lt_succ hj) q (hparent' ▸ hq)

theorem Nearest.not_root {k : ℕ} {p : UInt32} {s : SessionInfo} (h : st.Nearest ppid k p s) :
    p ≠ 0 ∧ p ≠ 1 := by
  cases k with
  | zero => exact (nearest_zero.mp h).2.1
  | succ k => exact (nearest_succ.mp h).1

/-- A leader is the nearest one to itself. -/
theorem exists_nearest_of_leader (hleaders : st.LeadersDistinct) {n : ℕ} {p : UInt32}
    {s t : SessionInfo} (hp : p ≠ 0 ∧ p ≠ 1) {id : String} (hid : st.sessions.lookup id = some t)
    (hleader : t.leaderPid = p) : (∃ k < n + 1, st.Nearest ppid k p s) ↔ t = s := by
  constructor
  · intro h
    obtain ⟨k, -, hk⟩ := h
    cases k with
    | zero =>
      obtain ⟨hleader', -, id', hid'⟩ := nearest_zero.mp hk
      exact hleaders.eq hid hid' (hleader.trans hleader'.symm)
    | succ k => exact absurd ⟨id, t, hid, hleader⟩ (nearest_succ.mp hk).2.1
  · intro h
    subst h
    exact ⟨0, Nat.succ_pos n, nearest_zero.mpr ⟨hleader, hp, id, hid⟩⟩

/-- From any other process the nearest leader is its parent's. -/
theorem exists_nearest_of_not_led {n : ℕ} {p : UInt32} {s : SessionInfo} (hp : p ≠ 0 ∧ p ≠ 1)
    (hled : ¬ st.Led p) :
    (∃ k < n + 1, st.Nearest ppid k p s) ↔
      ∃ parent, ppid p = some parent ∧ ∃ k < n, st.Nearest ppid k parent s := by
  constructor
  · intro h
    obtain ⟨k, hk, hnear⟩ := h
    cases k with
    | zero =>
      obtain ⟨hleader, -, id, hid⟩ := nearest_zero.mp hnear
      exact absurd ⟨id, s, hid, hleader⟩ hled
    | succ k =>
      obtain ⟨-, -, parent, hparent, hnear⟩ := nearest_succ.mp hnear
      exact ⟨parent, hparent, k, Nat.lt_of_succ_lt_succ hk, hnear⟩
  · intro h
    obtain ⟨parent, hparent, k, hk, hnear⟩ := h
    exact ⟨k + 1, Nat.succ_lt_succ hk, nearest_succ.mpr ⟨hp, hled, parent, hparent, hnear⟩⟩

/-! ### The climb -/

theorem find_leader_some {p : UInt32} {s : SessionInfo}
    (h : (st.values ord).find? (·.leaderPid = p) = some s) :
    s.leaderPid = p ∧ ∃ id, st.sessions.lookup id = some s := by
  have hp := List.find?_some h
  exact ⟨of_decide_eq_true hp, mem_values.mp (List.mem_of_find?_eq_some h)⟩

theorem find_leader_none {p : UInt32}
    (h : (st.values ord).find? (·.leaderPid = p) = none) : ¬ st.Led p := by
  intro hled
  obtain ⟨id, s, hs, hp⟩ := hled
  have hno := List.find?_eq_none.mp h s (mem_values.mpr ⟨id, hs⟩)
  exact hno (decide_eq_true hp)

/-- What the climb finds is the session of the nearest leader in reach. -/
theorem findFrom_some_iff (hleaders : st.LeadersDistinct) {n : ℕ} {p : UInt32} {s : SessionInfo} :
    st.findFrom ord ppid n p = some s ↔ ∃ k < n, st.Nearest ppid k p s := by
  induction n generalizing p with
  | zero => simp [findFrom]
  | succ n ih =>
    rw [findFrom]
    by_cases hroot : p = 0 ∨ p = 1
    · -- neither PID 0 nor PID 1 is climbed from
      rw [if_pos hroot]
      simp only [reduceCtorEq, false_iff, not_exists, not_and]
      intro k _ hk
      exact hroot.elim hk.not_root.1 hk.not_root.2
    · rw [if_neg hroot]
      have hp : p ≠ 0 ∧ p ≠ 1 := not_or.mp hroot
      cases hfind : (st.values ord).find? (·.leaderPid = p) with
      | some t =>
        obtain ⟨hleader, id, hid⟩ := find_leader_some hfind
        rw [exists_nearest_of_leader hleaders hp hid hleader]
        exact Option.some.injEq t s ▸ Iff.rfl
      | none =>
        rw [exists_nearest_of_not_led hp (find_leader_none hfind)]
        cases hparent : ppid p with
        | none => simp
        | some parent =>
          dsimp only
          rw [ih]
          simp

/-- In reach of the climb there is a nearest leader as soon as there is any. -/
theorem exists_nearest (st : SessionState) (ppid : UInt32 → Option UInt32) (n : ℕ) (p : UInt32) :
    (∃ k < n, ∃ s, st.Nearest ppid k p s) ↔ ∃ k < n, ∃ q, Climbs ppid k p q ∧ st.Led q := by
  constructor
  · intro h
    obtain ⟨k, hk, s, hclimb, ⟨id, hid⟩, -⟩ := h
    exact ⟨k, hk, s.leaderPid, hclimb, id, s, hid, rfl⟩
  · intro h
    classical
    have hex : ∃ k, ∃ q, Climbs ppid k p q ∧ st.Led q := by
      obtain ⟨k, -, hk⟩ := h
      exact ⟨k, hk⟩
    obtain ⟨q, hclimb, id, s, hid, rfl⟩ := Nat.find_spec hex
    obtain ⟨k, hk, hq⟩ := h
    refine ⟨Nat.find hex, (Nat.find_min' hex hq).trans_lt hk, s, hclimb, ⟨id, hid⟩, ?_⟩
    intro j hj q' hq' hled
    exact Nat.find_min hex hj ⟨q', hq', hled⟩

/-- Nothing is found exactly when no process in reach leads a session. -/
theorem findFrom_none_iff (hleaders : st.LeadersDistinct) {n : ℕ} {p : UInt32} :
    st.findFrom ord ppid n p = none ↔ ∀ k < n, ∀ q, Climbs ppid k p q → ¬ st.Led q := by
  rw [Option.eq_none_iff_forall_ne_some]
  simp only [ne_eq, findFrom_some_iff hleaders]
  have hnearest := exists_nearest st ppid n p
  grind

/-- **A process belongs to the session of its nearest leader.**  The search returns the session
whose leader is the first on the chain of ancestors, among 32 processes and before PID 0, PID 1 and
a process that is gone; it returns none exactly when no process there leads a session, and never a
session led by PID 0 or 1. -/
theorem findSessionByPid_nearest (st : SessionState) (ord : HashOrder SessionInfo)
    (proc : UInt32 → Option (List Char)) (pid : UInt32) (hleaders : st.LeadersDistinct) :
    let parent := fun p => readPpid (proc p)
    (∀ s, st.findSessionByPid ord proc pid = some s ↔ ∃ k < 32, st.Nearest parent k pid s) ∧
      (st.findSessionByPid ord proc pid = none ↔
        ∀ k < 32, ∀ q, Climbs parent k pid q → ¬ st.Led q) ∧
      ∀ s, st.findSessionByPid ord proc pid = some s → s.leaderPid ≠ 0 ∧ s.leaderPid ≠ 1 := by
  refine ⟨fun s => findFrom_some_iff hleaders, findFrom_none_iff hleaders, fun s hs => ?_⟩
  obtain ⟨k, -, hclimb, -⟩ := (findFrom_some_iff hleaders).mp hs
  exact hclimb.not_root

/-- A login, and a session nested in it. -/
def nested : SessionState :=
  ⟨((∅ : AList (fun _ : String => SessionInfo)).insert "c1"
      ((Shim.localUser 1000 100).sessionInfo "c1" {})).insert "c2"
      ((Shim.localUser 1000 200).sessionInfo "c2" {}), 3⟩

/-- A shell in the nested session. -/
def nestedProcs (p : UInt32) : Option (List Char) :=
  if p = 300 then some "Name:\tbash\nPPid:\t200\n".toList
  else if p = 200 then some "Name:\tsu\nPPid:\t100\n".toList
  else if p = 100 then some "Name:\tlogin\nPPid:\t1\n".toList
  else none

theorem nested_leadersDistinct : nested.LeadersDistinct := by
  have hcases (id : String) (s : SessionInfo) (h : nested.sessions.lookup id = some s) :
      id = "c1" ∧ s.leaderPid = 100 ∨ id = "c2" ∧ s.leaderPid = 200 := by
    by_cases hc2 : id = "c2"
    · rw [hc2, nested, AList.lookup_insert, Option.some.injEq] at h
      exact Or.inr ⟨hc2, h ▸ rfl⟩
    · rw [nested, AList.lookup_insert_ne hc2] at h
      by_cases hc1 : id = "c1"
      · rw [hc1, AList.lookup_insert, Option.some.injEq] at h
        exact Or.inl ⟨hc1, h ▸ rfl⟩
      · rw [AList.lookup_insert_ne hc1] at h
        cases h
  intro id id' s s' hs hs' heq
  rcases hcases id s hs with ⟨rfl, h⟩ | ⟨rfl, h⟩ <;>
    rcases hcases id' s' hs' with ⟨rfl, h'⟩ | ⟨rfl, h'⟩ <;> simp_all

/-- The shell belongs to the inner of the two sessions. -/
theorem findSessionByPid_nearest_nested :
    ∃ k < 32, nested.Nearest (fun p => readPpid (nestedProcs p)) k 300
      ((Shim.localUser 1000 200).sessionInfo "c2" {}) :=
  ((findSessionByPid_nearest nested .inserted nestedProcs 300 nested_leadersDistinct).1 _).mp
    (by decide +kernel)

end SessionState

end WriteonceOs.Logind
