import WriteonceOs.Svc.StateSpec

/-!
# What an activation leads to

A plan on a fresh supervisor.  A unit fails when it fails by itself, or when one of its hard
requirements stands before it in the plan and fails: `Doomed` is the least such set.

* `activation_run` — the loop invariant: the failed units are the doomed ones, every other unit
  reached its own state, and the PID table holds the services left running;
* `activation_outcome` — with every hard requirement ordered, the outcome of a plan;
* `activation_no_active_over_failed_iff` — without that, exactly when no unit comes up over a failed
  hard requirement.
-/

namespace WriteonceOs.Svc

open WriteonceOs.Library

/-- The supervisor called `spawn` for the unit. -/
def SpawnCalled (trace : List Effect) (u : UnitId) : Prop :=
  (∃ p, Effect.spawned u p ∈ trace) ∨ Effect.spawnFailed u ∈ trace

/-- The unit fails: by itself, or with a hard requirement that the plan starts before it. -/
inductive Doomed (reg : UnitRegistry) (answers : UnitId → StartAnswer) (order : List UnitId) :
    UnitId → Prop where
  | own {u : UnitId} (h : ownState (reg.get u).file (answers u) = .failed) :
      Doomed reg answers order u
  | held {u v : UnitId} (hreq : reg.HardRequires u v) (hbefore : Before order v u)
      (hv : Doomed reg answers order v) : Doomed reg answers order u

/-- A hard requirement that the plan starts before the unit fails. -/
def HeldBack (reg : UnitRegistry) (answers : UnitId → StartAnswer) (order : List UnitId)
    (u : UnitId) : Prop :=
  ∃ v, reg.HardRequires u v ∧ Before order v u ∧ Doomed reg answers order v

theorem doomed_iff {reg : UnitRegistry} {answers : UnitId → StartAnswer} {order : List UnitId}
    {u : UnitId} : Doomed reg answers order u ↔
      ownState (reg.get u).file (answers u) = .failed ∨
        HeldBack reg answers order u := by
  constructor
  · intro h
    cases h with
    | own h => exact Or.inl h
    | held hreq hbefore hv => exact Or.inr ⟨_, hreq, hbefore, hv⟩
  · intro h'
    rcases h' with h | ⟨v, hreq, hbefore, hv⟩
    · exact .own h
    · exact .held hreq hbefore hv

/-- The state of an activation after the starts of `done`. -/
structure ActivationInv (reg : UnitRegistry) (answers : UnitId → StartAnswer)
    (order done : List UnitId) (s : SupervisorState) : Prop where
  registry : s.registry = reg
  failed : ∀ u ∈ done, (s.units u).state = .failed ↔ Doomed reg answers order u
  up : ∀ u ∈ done, ¬ Doomed reg answers order u →
    (s.units u).state = ownState (reg.get u).file (answers u)
  waiting : ∀ u, u ∉ done → s.units u = {}
  tracked : s.Tracked
  spawnCalled : ∀ u, SpawnCalled s.trace u → u ∈ done ∧ ¬ HeldBack reg answers order u
  byPid : ∀ p u, s.byPid.lookup p = some u ↔ .spawned u p ∈ s.trace ∧ ¬ reg.IsOneshot u

section Activation

variable {alloc : PidAllocator} {reg : UnitRegistry} {answers : UnitId → StartAnswer}
  {order done rest : List UnitId} {s : SupervisorState} {u : UnitId}

theorem ActivationInv.init (fake : Bool) :
    ActivationInv reg answers order [] (SupervisorState.new reg fake) where
  registry := rfl
  failed := by simp
  up := by simp
  waiting := by simp [SupervisorState.new]
  tracked := SupervisorState.Tracked.new reg fake
  spawnCalled := by simp [SpawnCalled, SupervisorState.new]
  byPid := by simp [SupervisorState.new]

/-- A unit is held back exactly when the start attempt finds a failed hard requirement. -/
theorem ActivationInv.failedDep_iff (h : ActivationInv reg answers order done s)
    (horder : order = done ++ u :: rest) (hnd : order.Nodup) :
    s.failedDep u = none ↔ ¬ HeldBack reg answers order u := by
  have hbefore : ∀ v, Before order v u ↔ v ∈ done := by
    intro v
    rw [horder]
    exact before_middle_iff (horder ▸ hnd)
  rw [SupervisorState.failedDep, List.find?_eq_none, h.registry]
  simp only [decide_eq_true_eq, reg.mem_hardRequirementTargets, HeldBack, not_exists, not_and,
    hbefore]
  constructor
  · intro hall v hreq hv hdoomed
    exact hall v hreq ((h.failed v hv).mpr hdoomed)
  · intro hall v hreq hfailed
    by_cases hv : v ∈ done
    · exact hall v hreq hv ((h.failed v hv).mp hfailed)
    · rw [h.waiting v hv] at hfailed
      cases hfailed

/-- What an attempt enters in the history and in the PID table. -/
theorem ActivationInv.step_process (alloc : PidAllocator)
    (h : ActivationInv reg answers order done s) (hu : u ∉ done)
    (hdep : s.failedDep u = none ↔ ¬ HeldBack reg answers order u) :
    (∀ w, SpawnCalled (s.startUnitInternal alloc u (answers u)).trace w →
      w ∈ done ++ [u] ∧ ¬ HeldBack reg answers order w) ∧
    ∀ p w, (s.startUnitInternal alloc u (answers u)).byPid.lookup p = some w ↔
      .spawned w p ∈ (s.startUnitInternal alloc u (answers u)).trace ∧ ¬ reg.IsOneshot w := by
  have hold : ∀ w, SpawnCalled s.trace w → w ∈ done ++ [u] ∧ ¬ HeldBack reg answers order w :=
    fun w hw => ⟨List.mem_append_left _ (h.spawnCalled w hw).1, (h.spawnCalled w hw).2⟩
  have hnew : s.failedDep u = none → u ∈ done ++ [u] ∧ ¬ HeldBack reg answers order u :=
    fun hnone => ⟨by simp, hdep.mp hnone⟩
  cases SupervisorState.StartStep.of_start alloc s u (answers u) with
  | idle _ hbyPid _ htrace =>
    rcases htrace with htrace | ⟨hnone, htrace⟩
    · rw [hbyPid, htrace]
      exact ⟨hold, h.byPid⟩
    · rw [hbyPid, htrace]
      refine ⟨fun w hw => ?_, fun p w => by rw [h.byPid]; simp⟩
      simp only [SpawnCalled, List.mem_append, List.mem_singleton, reduceCtorEq, or_false,
        Effect.spawnFailed.injEq] at hw
      rcases hw with hw | hw | rfl
      · exact hold w (Or.inl hw)
      · exact hold w (Or.inr hw)
      · exact hnew hnone
  | running hspawn hkind hbyPid _ htrace =>
    rw [hbyPid, htrace]
    rw [h.registry] at hkind
    constructor
    · intro w hw
      simp only [SpawnCalled, List.mem_append, List.mem_singleton, reduceCtorEq, or_false,
        Effect.spawned.injEq, exists_or] at hw
      rcases hw with (hw | ⟨p, rfl, -⟩) | hw
      · exact hold w (Or.inl hw)
      · exact hnew hspawn.1
      · exact hold w (Or.inr hw)
    · intro p w
      rw [SupervisorState.lookup_insert_iff, h.byPid, List.mem_append, List.mem_singleton,
        Effect.spawned.injEq]
      constructor
      · intro h'
        rcases h' with ⟨rfl, rfl⟩ | ⟨-, hmem, hw⟩
        · exact ⟨Or.inr ⟨rfl, rfl⟩, hkind⟩
        · exact ⟨Or.inl hmem, hw⟩
      · intro h'
        obtain ⟨hmem | ⟨rfl, rfl⟩, hw⟩ := h'
        · refine Or.inr ⟨?_, hmem, hw⟩
          intro heq
          subst heq
          exact alloc.fresh _ (h.tracked _ w ((h.byPid _ w).mpr ⟨hmem, hw⟩))
        · exact Or.inl ⟨rfl, rfl⟩
  | oneshot hspawn hkind hbyPid _ es hes htrace =>
    rw [hbyPid, htrace]
    rw [h.registry] at hkind
    have hmem : ∀ w p, .spawned w p ∈ s.trace ++
        (.spawned u (alloc.next s.trace) :: es ++ [.reaped (alloc.next s.trace)]) ↔
        .spawned w p ∈ s.trace ∨ (w = u ∧ p = alloc.next s.trace) := by
      intro w p
      rcases hes with rfl | rfl <;> simp
    have hmemFailed : ∀ w, .spawnFailed w ∈ s.trace ++
        (.spawned u (alloc.next s.trace) :: es ++ [.reaped (alloc.next s.trace)]) ↔
        .spawnFailed w ∈ s.trace := by
      intro w
      rcases hes with rfl | rfl <;> simp
    constructor
    · intro w hw
      simp only [SpawnCalled, hmem, hmemFailed, exists_or] at hw
      rcases hw with (hw | ⟨p, rfl, -⟩) | hw
      · exact hold w (Or.inl hw)
      · exact hnew hspawn.1
      · exact hold w (Or.inr hw)
    · intro p w
      rw [h.tracked.oneshot_lookup, h.byPid, hmem]
      constructor
      · intro h'
        obtain ⟨hw, hone⟩ := h'
        exact ⟨Or.inl hw, hone⟩
      · intro h'
        obtain ⟨hw | ⟨rfl, -⟩, hone⟩ := h'
        · exact ⟨hw, hone⟩
        · exact absurd hkind hone

/-- **One start attempt of the plan.** -/
theorem ActivationInv.step (h : ActivationInv reg answers order done s)
    (horder : order = done ++ u :: rest) (hnd : order.Nodup) :
    ActivationInv reg answers order (done ++ [u]) (s.startUnitInternal alloc u (answers u)) := by
  have hu : u ∉ done := by
    have hsplit := List.nodup_append.mp (horder ▸ hnd)
    exact fun hmem => hsplit.2.2 u hmem u List.mem_cons_self rfl
  have hdep := h.failedDep_iff horder hnd
  have hframe := SupervisorState.start_frame alloc s u (answers u)
  have hstate := SupervisorState.start_state alloc s u (answers u)
  rw [h.registry] at hstate
  obtain ⟨hspawn, hbyPid⟩ := h.step_process alloc hu hdep
  have hcases : ∀ w, w ∈ done ++ [u] → (w ∈ done ∧ w ≠ u) ∨ w = u := by
    intro w hw
    rcases List.mem_append.mp hw with hd | hd
    · refine Or.inl ⟨hd, ?_⟩
      intro heq
      subst heq
      exact hu hd
    · exact Or.inr (List.mem_singleton.mp hd)
  refine ⟨hframe.registry.trans h.registry, ?_, ?_, ?_, h.tracked.start, hspawn, hbyPid⟩
  · intro w hw
    rcases hcases w hw with ⟨hw, hne⟩ | rfl
    · rw [hframe.state w hne]
      exact h.failed w hw
    · rw [hstate, doomed_iff]
      by_cases hheld : HeldBack reg answers order w
      · rw [if_neg (fun hnone => hdep.mp hnone hheld)]
        simp [hheld]
      · rw [if_pos (hdep.mpr hheld), or_iff_left hheld]
  · intro w hw hdoomed
    rcases hcases w hw with ⟨hw, hne⟩ | rfl
    · rw [hframe.state w hne]
      exact h.up w hw hdoomed
    · rw [hstate, if_pos (hdep.mpr fun hheld => hdoomed (doomed_iff.mpr (Or.inr hheld)))]
  · intro w hw
    rw [List.mem_append, List.mem_singleton, not_or] at hw
    rw [← h.waiting w hw.1]
    exact UnitMeta.ext (hframe.state w hw.2) (hframe.pid w hw.2) (hframe.history w)

/-- **The whole plan.** -/
theorem activation_run (hnd : order.Nodup) :
    ∀ (rest done : List UnitId) (s : SupervisorState), order = done ++ rest →
      ActivationInv reg answers order done s →
      ActivationInv reg answers order order
        (s.startEach alloc (fun _ _ => false) (rest.map fun u => (u, answers u))) := by
  intro rest
  induction rest with
  | nil =>
    intro done s horder h
    rw [List.append_nil] at horder
    subst horder
    exact h
  | cons u rest ih =>
    intro done s horder h
    refine ih (done ++ [u]) _ (by simp [horder]) ?_
    exact h.step horder hnd

end Activation

/-! ### The outcome of a plan -/

section Outcome

variable {alloc : PidAllocator} {ords : HashOrders} {reg : UnitRegistry} {fake : Bool}
  {anchor : String} {plan : List Job} {answers : UnitId → StartAnswer}

/-- The supervisor after the plan of an anchor. -/
def activated (alloc : PidAllocator) (reg : UnitRegistry) (fake : Bool) (plan : List Job)
    (answers : UnitId → StartAnswer) : SupervisorState :=
  (SupervisorState.new reg fake).activatePlan alloc (plan.map fun job => (job, answers job.unit))

theorem plan_units (sorted : List UnitId) :
    (sorted.map (fun u => (⟨u, .start, .waiting⟩ : Job))).map (·.unit) = sorted := by
  induction sorted with
  | nil => rfl
  | cons u sorted ih => rw [List.map_cons, List.map_cons, ih]

/-- Every job of a built plan is started. -/
theorem plan_starts (sorted : List UnitId) :
    ((((sorted.map (fun u => (⟨u, .start, .waiting⟩ : Job))).map fun job =>
      (job, answers job.unit)).filter (fun p => p.1.state = .waiting)).map fun p =>
        (p.1.unit, p.2)) = sorted.map fun u => (u, answers u) := by
  induction sorted with
  | nil => rfl
  | cons u sorted ih => simp only [List.map_cons, List.filter_cons, decide_true, if_true, ih]

theorem activated_inv (alloc : PidAllocator) (fake : Bool) (answers : UnitId → StartAnswer)
    (hplan : reg.buildTransaction ords anchor = .ok plan) :
    ActivationInv reg answers (plan.map (·.unit)) (plan.map (·.unit))
      (activated alloc reg fake plan answers) := by
  obtain ⟨id, sorted, -, rfl, -, hnd, -⟩ := reg.buildTransaction_ok hplan
  rw [plan_units, activated, SupervisorState.activatePlan, plan_starts]
  exact activation_run hnd sorted [] _ rfl (ActivationInv.init fake)

/-- A service that requires a database and starts after it, when the database cannot be spawned. -/
def shopUnits : List LoadedUnit :=
  [⟨"db.service", { service := some { execStart := "/bin/db" } }⟩,
    ⟨"shop.service",
      { unit := { after := ["db.service"], requires := ["db.service"] }
        service := some { execStart := "/bin/shop" } }⟩]

def dbBroken : UnitId → StartAnswer
  | 0 => { spawn := .error "unknown user: db" }
  | _ => {}

/-- **When no unit comes up over a failed hard requirement**: exactly when no unit that the plan
starts before a doomed hard requirement reaches the active state. -/
theorem activation_no_active_over_failed_iff (alloc : PidAllocator) (fake : Bool)
    (answers : UnitId → StartAnswer) (hplan : reg.buildTransaction ords anchor = .ok plan) :
    (∀ u ∈ plan.map (·.unit), ∀ v, reg.HardRequires u v →
      ((activated alloc reg fake plan answers).units v).state = .failed →
      ((activated alloc reg fake plan answers).units u).state ≠ .active) ↔
    ∀ u v, reg.HardRequires u v → Before (plan.map (·.unit)) u v →
      Doomed reg answers (plan.map (·.unit)) v →
      Doomed reg answers (plan.map (·.unit)) u ∨
        ownState (reg.get u).file (answers u) ≠ .active := by
  have h := activated_inv alloc fake answers hplan
  obtain ⟨id, sorted, hid, rfl, hperm, hnd, -⟩ := reg.buildTransaction_ok hplan
  rw [plan_units] at h ⊢
  constructor
  · intro hall u v hreq hbefore hv
    by_contra hno
    rw [not_or, not_not] at hno
    refine hall u hbefore.left_mem v hreq ((h.failed v hbefore.right_mem).mpr hv) ?_
    rw [h.up u hbefore.left_mem hno.1]
    exact hno.2
  · intro hall u hu v hreq hfailed hactive
    have hlt := reg.lookup_lt hid
    have hv : v ∈ sorted := by
      rw [hperm.mem_iff, reg.mem_startClosure hlt] at hu ⊢
      exact hu.tail hreq.requires
    have hdoomed : ¬ Doomed reg answers sorted u := by
      intro hd
      rw [(h.failed u hu).mpr hd] at hactive
      cases hactive
    have hne : u ≠ v := by
      intro heq
      subst heq
      rw [hfailed] at hactive
      cases hactive
    rcases before_or_before hu hv hne with huv | hvu
    · rcases hall u v hreq huv ((h.failed v hv).mp hfailed) with hd | hown
      · exact hdoomed hd
      · rw [h.up u hu hdoomed] at hactive
        exact hown hactive
    · exact hdoomed (.held hreq hvu ((h.failed v hv).mp hfailed))

/-- A service required by a target, with no ordering between the two. -/
def sshdUnits : List LoadedUnit :=
  [⟨"multi-user.target", {}⟩,
    ⟨"sshd.service",
      { service := some { execStart := "/usr/sbin/sshd" }
        install := { requiredBy := ["multi-user.target"] } }⟩]

def sshdBroken : UnitId → StartAnswer
  | 1 => { spawn := .error "fork failed" }
  | _ => {}

/-- The target comes up first and stays up when the service it requires fails. -/
theorem target_active_over_failed_service :
    ¬ ∀ (alloc : PidAllocator) (ords : HashOrders) (reg : UnitRegistry) (fake : Bool)
        (anchor : String) (plan : List Job) (answers : UnitId → StartAnswer),
      reg.buildTransaction ords anchor = .ok plan →
      ∀ u ∈ plan.map (·.unit), ∀ v, reg.HardRequires u v →
        ((activated alloc reg fake plan answers).units v).state = .failed →
        ((activated alloc reg fake plan answers).units u).state ≠ .active := by
  intro h
  exact h .counting ⟨.inserted, .inserted⟩ (.fromLoaded sshdUnits) true "multi-user.target"
    [⟨0, .start, .waiting⟩, ⟨1, .start, .waiting⟩] sshdBroken (by decide) 0 (by decide) 1
    ((UnitRegistry.mem_hardRequirementTargets _).mp (by decide)) (by decide) (by decide)

theorem activation_no_active_over_failed_iff_sshdUnits :
    ¬ ∀ u v, (UnitRegistry.fromLoaded sshdUnits).HardRequires u v →
      Before [0, 1] u v →
      Doomed (.fromLoaded sshdUnits) sshdBroken [0, 1] v →
      Doomed (.fromLoaded sshdUnits) sshdBroken [0, 1] u ∨
        ownState ((UnitRegistry.fromLoaded sshdUnits).get u).file
          (sshdBroken u) ≠ .active := by
  intro h
  have hplan : (UnitRegistry.fromLoaded sshdUnits).buildTransaction ⟨.inserted, .inserted⟩
      "multi-user.target" = .ok [⟨0, .start, .waiting⟩, ⟨1, .start, .waiting⟩] := by decide
  exact (activation_no_active_over_failed_iff .counting true sshdBroken hplan).mpr h 0 (by decide) 1
    ((UnitRegistry.mem_hardRequirementTargets _).mp (by decide)) (by decide) (by decide)

end Outcome

end WriteonceOs.Svc
