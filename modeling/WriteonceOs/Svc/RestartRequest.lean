import WriteonceOs.Svc.Activation
import WriteonceOs.Svc.Bystanders
import WriteonceOs.Svc.Signals

/-!
# What a restart request brings back

A restart request is a stop followed by a start of the same unit.  The stop takes down everything
that depends on the unit, the start brings up everything that the unit needs, so a dependent comes
back only when the unit needs it in turn.

* `stop_states` — the states that the stop leaves behind when nothing exits by itself;
* `startNamed_active_iff` — what a start makes of the states that it finds;
* `restart_restores_iff` — exactly which active units are active again after a restart.
-/

namespace WriteonceOs.Svc

open WriteonceOs.Library

/-! ### A start over the states that it finds -/

/-- The start of a plan leaves the unit failed: it is not active, and it fails by itself, over a
hard requirement that was failed and has not been started yet, or over one that the plan starts
before it and leaves failed. -/
inductive Refused (reg : UnitRegistry) (answers : UnitId → StartAnswer) (order : List UnitId)
    (found : UnitId → UnitActiveState) : UnitId → Prop where
  | own {u : UnitId} (hdown : found u ≠ .active)
      (h : ownState (reg.get u).file (answers u) = .failed) : Refused reg answers order found u
  | stale {u v : UnitId} (hdown : found u ≠ .active) (hreq : reg.HardRequires u v)
      (hlate : ¬ Before order v u) (hv : found v = .failed) : Refused reg answers order found u
  | held {u v : UnitId} (hdown : found u ≠ .active) (hreq : reg.HardRequires u v)
      (hbefore : Before order v u) (hv : Refused reg answers order found v) :
      Refused reg answers order found u

/-- A hard requirement is failed when the plan comes to the unit. -/
def Barred (reg : UnitRegistry) (answers : UnitId → StartAnswer) (order : List UnitId)
    (found : UnitId → UnitActiveState) (u : UnitId) : Prop :=
  ∃ v, reg.HardRequires u v ∧ ((Before order v u ∧ Refused reg answers order found v) ∨
    (¬ Before order v u ∧ found v = .failed))

theorem refused_iff {reg : UnitRegistry} {answers : UnitId → StartAnswer} {order : List UnitId}
    {found : UnitId → UnitActiveState} {u : UnitId} (hdown : found u ≠ .active) :
    Refused reg answers order found u ↔
      ownState (reg.get u).file (answers u) = .failed ∨ Barred reg answers order found u := by
  constructor
  · intro h
    cases h with
    | own _ h => exact Or.inl h
    | stale _ hreq hlate hv => exact Or.inr ⟨_, hreq, Or.inr ⟨hlate, hv⟩⟩
    | held _ hreq hbefore hv => exact Or.inr ⟨_, hreq, Or.inl ⟨hbefore, hv⟩⟩
  · intro h
    rcases h with h | ⟨v, hreq, ⟨hbefore, hv⟩ | ⟨hlate, hv⟩⟩
    · exact .own hdown h
    · exact .held hdown hreq hbefore hv
    · exact .stale hdown hreq hlate hv

namespace SupervisorState

variable {alloc : PidAllocator} {s t q : SupervisorState} {answers : UnitId → StartAnswer}
  {order done rest : List UnitId} {u : UnitId}

/-- The start of a plan, after the units of `done`, from the state `t`. -/
structure StartInv (t : SupervisorState) (answers : UnitId → StartAnswer)
    (order done : List UnitId) (q : SupervisorState) : Prop where
  registry : q.registry = t.registry
  waiting : ∀ u, u ∉ done → (q.units u).state = (t.units u).state
  kept : ∀ u, (t.units u).state = .active → (q.units u).state = .active
  failed : ∀ u ∈ done, (t.units u).state ≠ .active →
    ((q.units u).state = .failed ↔
      Refused t.registry answers order (fun v => (t.units v).state) u)
  up : ∀ u ∈ done, (t.units u).state ≠ .active →
    ¬ Refused t.registry answers order (fun v => (t.units v).state) u →
    (q.units u).state = ownState (t.registry.get u).file (answers u)

theorem StartInv.init : StartInv t answers order [] t where
  registry := rfl
  waiting := fun _ _ => rfl
  kept := fun _ h => h
  failed := by simp
  up := by simp

/-- An attempt is held back exactly when a hard requirement is failed at that moment. -/
theorem StartInv.failedDep_iff (h : StartInv t answers order done q)
    (horder : order = done ++ u :: rest) (hnd : order.Nodup) :
    q.failedDep u = none ↔ ¬ Barred t.registry answers order (fun v => (t.units v).state) u := by
  have hbefore : ∀ v, Before order v u ↔ v ∈ done := by
    intro v
    rw [horder]
    exact before_middle_iff (horder ▸ hnd)
  -- a unit of `done` is failed exactly when it was refused, every other one is as it was found
  have hfailed : ∀ v, (q.units v).state = .failed ↔
      (v ∈ done ∧ Refused t.registry answers order (fun v => (t.units v).state) v) ∨
        (v ∉ done ∧ (t.units v).state = .failed) := by
    intro v
    by_cases hv : v ∈ done
    · by_cases hup : (t.units v).state = .active
      · have hrefused : ¬ Refused t.registry answers order (fun v => (t.units v).state) v := by
          intro hrefused
          cases hrefused with
          | own hdown => exact hdown hup
          | stale hdown => exact hdown hup
          | held hdown => exact hdown hup
        simp [hv, hrefused, h.kept v hup]
      · simp [hv, h.failed v hv hup]
    · simp [hv, h.waiting v hv]
  rw [failedDep, List.find?_eq_none, h.registry]
  simp only [decide_eq_true_eq, UnitRegistry.mem_hardRequirementTargets, Barred, hbefore, hfailed,
    not_exists, not_and]

/-- **One unit of the plan.**  An active one is skipped. -/
theorem StartInv.step (h : StartInv t answers order done q)
    (horder : order = done ++ u :: rest) (hnd : order.Nodup) :
    StartInv t answers order (done ++ [u])
      (if decide ((q.units u).state = .active) then q
        else q.startUnitInternal alloc u (answers u)) := by
  have hu : u ∉ done := by
    have hsplit := List.nodup_append.mp (horder ▸ hnd)
    exact fun hmem => hsplit.2.2 u hmem u List.mem_cons_self rfl
  have hfound := h.waiting u hu
  have hcases : ∀ w, w ∈ done ++ [u] → (w ∈ done ∧ w ≠ u) ∨ w = u := by
    intro w hw
    rcases List.mem_append.mp hw with hd | hd
    · exact Or.inl ⟨hd, fun heq => hu (heq ▸ hd)⟩
    · exact Or.inr (List.mem_singleton.mp hd)
  by_cases hup : (t.units u).state = .active
  · rw [if_pos (by simp [hfound, hup])]
    refine ⟨h.registry, fun w hw => h.waiting w fun hd => hw (List.mem_append_left _ hd), h.kept,
      fun w hw hdown => ?_, fun w hw hdown => ?_⟩
    · rcases hcases w hw with ⟨hw, -⟩ | rfl
      · exact h.failed w hw hdown
      · exact absurd hup hdown
    · rcases hcases w hw with ⟨hw, -⟩ | rfl
      · exact h.up w hw hdown
      · exact absurd hup hdown
  · rw [if_neg (by simp [hfound, hup])]
    have hframe := start_frame alloc q u (answers u)
    have hstate := start_state alloc q u (answers u)
    have hdep := h.failedDep_iff horder hnd
    rw [h.registry] at hstate
    refine ⟨hframe.registry.trans h.registry, fun w hw => ?_, fun w hw => ?_, fun w hw hdown => ?_,
      fun w hw hdown hrefused => ?_⟩
    · rw [List.mem_append, List.mem_singleton, not_or] at hw
      rw [hframe.state w hw.2, h.waiting w hw.1]
    · have hne : w ≠ u := fun heq => hup (heq ▸ hw)
      rw [hframe.state w hne]
      exact h.kept w hw
    · rcases hcases w hw with ⟨hw, hne⟩ | rfl
      · rw [hframe.state w hne]
        exact h.failed w hw hdown
      · rw [hstate, refused_iff hdown]
        by_cases hbarred : Barred t.registry answers order (fun v => (t.units v).state) w
        · rw [if_neg (fun hnone => hdep.mp hnone hbarred)]
          simp [hbarred]
        · rw [if_pos (hdep.mpr hbarred), or_iff_left hbarred]
    · rcases hcases w hw with ⟨hw, hne⟩ | rfl
      · rw [hframe.state w hne]
        exact h.up w hw hdown hrefused
      · rw [refused_iff hdown, not_or] at hrefused
        rw [hstate, if_pos (hdep.mpr hrefused.2)]

/-- **The whole plan.** -/
theorem startInv_run (hnd : order.Nodup) :
    ∀ (rest done : List UnitId) (q : SupervisorState), order = done ++ rest →
      StartInv t answers order done q →
      StartInv t answers order order (q.startEach alloc
        (fun s id => decide ((s.units id).state = .active))
        (rest.map fun u => (u, answers u))) := by
  intro rest
  induction rest with
  | nil =>
    intro done q horder h
    rw [List.append_nil] at horder
    subst horder
    exact h
  | cons u rest ih =>
    intro done q horder h
    refine ih (done ++ [u]) _ (by simp [horder]) ?_
    exact h.step horder hnd

/-- The units of a plan after the start. -/
theorem startNamed_inv (alloc : PidAllocator) (answers : UnitId → StartAnswer) {name : String}
    {ords : HashOrders} {plan : List Job}
    (hplan : t.registry.buildTransaction ords name = .ok plan) :
    StartInv t answers (plan.map (·.unit)) (plan.map (·.unit))
      (t.startNamed alloc name ords answers).1 := by
  obtain ⟨id, sorted, -, rfl, -, hnd, -⟩ := t.registry.buildTransaction_ok hplan
  have hstarts : (sorted.map (fun u => (⟨u, .start, .waiting⟩ : Job))).map
      (fun job => (job.unit, answers job.unit)) = sorted.map fun u => (u, answers u) := by
    rw [List.map_map]
    rfl
  simp only [startNamed, hplan]
  rw [plan_units, hstarts]
  exact startInv_run hnd sorted [] t rfl .init

/-- **The state of a unit after a start.**  An active unit stays so; any other unit of the plan
reaches its own state unless it is refused; the rest is as it was. -/
theorem startNamed_active_iff {name : String} {ords : HashOrders} {plan : List Job}
    (hplan : t.registry.buildTransaction ords name = .ok plan) :
    ((t.startNamed alloc name ords answers).1.units u).state = .active ↔
      (t.units u).state = .active ∨ (u ∈ plan.map (·.unit) ∧
        ownState (t.registry.get u).file (answers u) = .active ∧
        ¬ Refused t.registry answers (plan.map (·.unit)) (fun v => (t.units v).state) u) := by
  have h := startNamed_inv alloc answers hplan
  by_cases hup : (t.units u).state = .active
  · exact iff_of_true (h.kept u hup) (Or.inl hup)
  · rw [or_iff_right hup]
    by_cases hu : u ∈ plan.map (·.unit)
    · by_cases hrefused :
          Refused t.registry answers (plan.map (·.unit)) (fun v => (t.units v).state) u
      · rw [(h.failed u hu hup).mpr hrefused]
        simp [hrefused]
      · rw [h.up u hu hup hrefused]
        exact ⟨fun hown => ⟨hu, hown, hrefused⟩, fun hown => hown.2.1⟩
    · rw [h.waiting u hu]
      exact iff_of_false hup fun hown => hu hown.1

/-! ### The states that a stop leaves behind -/

/-- A unit of the plan without a process is inactive once the plan is signalled; the PIDs stay. -/
theorem termUnits_idle (plan : List UnitId) (s : SupervisorState) (u : UnitId) :
    ((plan.foldl termUnit s).units u).pid = (s.units u).pid ∧
      ((s.units u).pid = none → u ∈ plan ∨ (s.units u).state = .inactive →
        ((plan.foldl termUnit s).units u).state = .inactive) := by
  induction plan generalizing s with
  | nil => exact ⟨rfl, fun _ h => h.resolve_left (by simp)⟩
  | cons id plan ih =>
    obtain ⟨hpid, hidle⟩ := ih (s.termUnit id)
    rw [termUnit_pid] at hpid hidle
    rw [List.foldl_cons]
    refine ⟨hpid, fun hnone h => hidle hnone ?_⟩
    rcases termUnit_cases s id with ⟨pid, hsome, heq⟩ | ⟨-, heq⟩
    · have hne : u ≠ id := by
        intro hu
        rw [hu, hsome] at hnone
        cases hnone
      rw [List.mem_cons, or_iff_right hne] at h
      rw [heq]
      simpa [hne] using h
    · rw [heq]
      by_cases hu : u = id
      · exact Or.inr (by simp [hu])
      · rw [List.mem_cons, or_iff_right hu] at h
        simpa [hu] using h

/-- A unit of a plan that is signalled has no process, or one to wait for. -/
theorem signalled_units (s : SupervisorState) {plan : List UnitId} {u : UnitId} (hu : u ∈ plan) :
    (((plan.foldl termUnit ((s.setShuttingDown true).emit (.stopping plan))).units u).state =
        .inactive ∧
      ((plan.foldl termUnit ((s.setShuttingDown true).emit (.stopping plan))).units u).pid =
        none) ∨
    ∃ p ∈ s.expectedPids plan,
      ((plan.foldl termUnit ((s.setShuttingDown true).emit (.stopping plan))).units u).pid =
        some p := by
  obtain ⟨hpid, hidle⟩ := termUnits_idle plan ((s.setShuttingDown true).emit (.stopping plan)) u
  cases hp : (s.units u).pid with
  | none => exact .inl ⟨hidle hp (.inl hu), hpid.trans hp⟩
  | some p => exact .inr ⟨p, mem_expectedPids.mpr ⟨u, hu, hp⟩, hpid.trans hp⟩

/-- A stop on its way: every unit of its plan is inactive or has a process that is waited for. -/
def Stopping (s : SupervisorState) (plan : List UnitId) (expected : List Pid)
    (t : SupervisorState) : Prop :=
  Waiting expected t ∧ t.shuttingDown = true ∧ t.registry = s.registry ∧
    ∀ u ∈ plan, (t.units u).state = .inactive ∨ ∃ p ∈ expected, (t.units u).pid = some p

theorem Stopping.emit {plan : List UnitId} {expected : List Pid} (h : Stopping s plan expected t)
    {e : Effect} (he : Waiting expected (t.emit e)) : Stopping s plan expected (t.emit e) :=
  ⟨he, h.2⟩

theorem Stopping.reap {plan : List UnitId} {expected : List Pid} (h : Stopping s plan expected t)
    (r : Reap) : Stopping s plan (expected.filter (· ≠ r.pid)) (t.reapChild r) := by
  obtain ⟨hwaiting, hflag, hregistry, hplan⟩ := h
  refine ⟨hwaiting.reap r, (reap_shuttingDown t r).trans hflag, (reap_registry t r).trans hregistry,
    fun u hu => ?_⟩
  by_cases hw : t.table r.pid = some u
  · rw [(reap_flagged r hflag hw).1]
    exact Or.inl rfl
  · rw [(reap_other r hw).1]
    rcases hplan u hu with hidle | ⟨p, hp, hpid⟩
    · exact Or.inl hidle
    · refine Or.inr ⟨p, List.mem_filter.mpr ⟨hp, ?_⟩, hpid⟩
      have htable := hwaiting.1.table u p hpid
      refine decide_eq_true fun heq => hw ?_
      rw [← heq]
      exact htable

/-- Nothing exits during the stop but what it sent SIGTERM. -/
def OnlyStopped (s : SupervisorState) (anchor : String) (ans : StopAnswer) : Prop :=
  ∀ r ∈ s.stopReaps anchor ans, ∃ u ∈ s.stopPlan anchor ans, (s.units u).pid = some r.pid

theorem exitsOf_eq_nil {w : UnitId} {rs : List Reap} {table : Pid → Option UnitId}
    {now : Instant} (h : ∀ r ∈ rs, table r.pid ≠ some w) : exitsOf w table now rs = [] := by
  induction rs generalizing table now with
  | nil => rfl
  | cons r rs ih =>
    rw [List.forall_mem_cons] at h
    rw [exitsOf, if_neg h.1]
    refine ih fun r' hr' => ?_
    by_cases hp : r'.pid = r.pid
    · simp [hp]
    · rw [Function.update_of_ne hp]
      exact h.2 r' hr'

/-- **The states after a stop.**  The units of the plan are inactive, every other unit is as it
was. -/
theorem stop_states (h : s.Aimed) {anchor : String} {ans : StopAnswer}
    (honly : s.OnlyStopped anchor ans) (hstop : s.stopUnit anchor ans = .ok (t, .ok ())) :
    t.registry = s.registry ∧ ∀ u, (t.units u).state =
      if u ∈ s.stopPlan anchor ans then .inactive else (s.units u).state := by
  have hparts := stopUnit_expected_inv s anchor ans (P := fun _ => True)
    (M := fun plan => Stopping s plan) (fun _ _ _ _ => trivial) fun plan _ => by
      refine ⟨⟨?_, ?_, ?_, fun u hu => ?_⟩, ?_, fun expected t pid hpid ht =>
        ht.emit (ht.1.kill .kill (ht.1.2 pid hpid)), fun _ _ r _ ht => ht.reap r,
        fun t id ht => ht.emit (ht.1.emit (by simp) (by simp) (by simp))⟩
      · exact h.waiting_signalled plan
      · exact (termUnits_frame plan _).1
      · exact (termUnits_frame plan _).2
      · exact (s.signalled_units hu).imp_left And.left
      · intro expected t dt ht
        obtain ⟨hwaiting, hrest⟩ := ht
        exact ⟨⟨hwaiting.1.congr rfl rfl (fun _ => rfl) rfl, hwaiting.2⟩, hrest⟩
  rcases hparts with ⟨e, -, heq⟩ | ⟨plan, hplan, ⟨t', left, -, heq⟩ | ⟨t', ht, heq⟩⟩
  · rw [hstop] at heq
    cases heq
  · rw [hstop] at heq
    cases heq
  · have heq' := heq
    rw [hstop, Except.ok.injEq, Prod.mk.injEq] at heq'
    have hstopPlan : s.stopPlan anchor ans = plan := by rw [stopPlan, hplan]
    refine ⟨heq'.1 ▸ ht.2.2.1, fun u => ?_⟩
    by_cases hu : u ∈ s.stopPlan anchor ans
    · rw [if_pos hu, heq'.1]
      exact (ht.2.2.2 u (hstopPlan ▸ hu)).resolve_right (by simp)
    · have hexits : s.stopExits anchor ans u = [] := by
        refine exitsOf_eq_nil fun r hr htable => hu ?_
        obtain ⟨v, hv, hpid⟩ := honly r hr
        have hlookup := h.table v r.pid hpid
        rw [table, hlookup, Option.some.injEq] at htable
        exact htable ▸ hv
      rw [if_neg hu, (stop_bystander hstop hu).1, hexits]
      rfl

/-! ### The request -/

/-- The states that the start half of a restart finds. -/
def afterStop (s : SupervisorState) (anchor : String) (ans : StopAnswer) (u : UnitId) :
    UnitActiveState :=
  if u ∈ s.stopPlan anchor ans then .inactive else (s.units u).state

/-- The units that the start half of a restart is for. -/
def startPlan (s : SupervisorState) (name : String) (ords : HashOrders) : List UnitId :=
  match s.registry.buildTransaction ords name with
  | .error _ => []
  | .ok plan => plan.map (·.unit)

/-- **What a restart brings back.**  Of the active units, those outside the stop plan stay active;
one that was stopped is active again exactly when the unit of the request needs it, nothing that it
requires is failed at its turn, and it comes up by itself. -/
theorem restart_restores_iff (alloc : PidAllocator) (reg : UnitRegistry) (fake : Bool)
    (ops : List Op) {ans : ControlAnswer} {name : String} {s' : SupervisorState}
    (hreach : Library.run (SupervisorState.step alloc) (SupervisorState.new reg fake) ops = .ok s)
    (hserved : Control.restart alloc s ans (some name) = .ok (s', .ok ()))
    (honly : s.OnlyStopped name ans.stop) (hactive : (s.units u).state = .active) :
    (s'.units u).state = .active ↔
      u ∉ s.stopPlan name ans.stop ∨ (u ∈ s.startPlan name ans.ords ∧
        ownState (s.registry.get u).file (ans.starts u) = .active ∧
        ¬ Refused s.registry ans.starts (s.startPlan name ans.ords)
          (s.afterStop name ans.stop) u) := by
  have h : s.Aimed := by
    have hrun : (reached (Library.run (SupervisorState.step alloc) (.new reg fake) ops)).Aimed :=
      aimed_run (Aimed.new reg fake) ops
    rw [hreach] at hrun
    exact hrun
  rw [Control.restart] at hserved
  cases hstop : s.stopUnit name ans.stop with
  | error t =>
    rw [hstop] at hserved
    cases hserved
  | ok out =>
    obtain ⟨t, res⟩ := out
    cases res with
    | error e =>
      rw [hstop] at hserved
      cases hserved
    | ok _ =>
      rw [hstop, Except.ok.injEq] at hserved
      obtain ⟨hregistry, hstates⟩ := stop_states h honly hstop
      have hfound : (fun v => (t.units v).state) = s.afterStop name ans.stop := funext hstates
      cases hplan : t.registry.buildTransaction ans.ords name with
      | error e =>
        rw [startNamed, hplan] at hserved
        cases hserved
      | ok plan =>
        have hstart : s.startPlan name ans.ords = plan.map (·.unit) := by
          rw [startPlan, ← hregistry, hplan]
        have hiff : ((t.startNamed alloc name ans.ords ans.starts).1.units u).state = .active ↔ _ :=
          startNamed_active_iff hplan
        rw [hserved, hfound, hregistry, hstates] at hiff
        rw [hiff, hstart]
        by_cases hu : u ∈ s.stopPlan name ans.stop
        · simp [hu]
        · simp [hu, hactive]

/-- A service and the database that it requires are started. -/
def startApp : List Op := [.startNamed "app.service" ⟨.inserted, .inserted⟩ (fun _ => {})]

/-- Both exit when the database is restarted. -/
def restartDb : ControlAnswer where
  stop := ⟨⟨.inserted, .inserted⟩, .inserted, [⟨0, [⟨0, 2, .exited 0⟩, ⟨0, 1, .exited 0⟩]⟩]⟩

/-- The service that requires the database stays down. -/
theorem restart_leaves_dependent_down :
    ¬ ∀ (alloc : PidAllocator) (reg : UnitRegistry) (fake : Bool) (ops : List Op)
        (s : SupervisorState) (ans : ControlAnswer) (name : String) (s' : SupervisorState),
      Library.run (SupervisorState.step alloc) (SupervisorState.new reg fake) ops = .ok s →
      Control.restart alloc s ans (some name) = .ok (s', .ok ()) →
      (∀ u, (ans.starts u).spawn = .ok ()) → s.OnlyStopped name ans.stop →
      ∀ u, (s.units u).state = .active → (s'.units u).state = .active := by
  intro h
  exact absurd (h .counting (.fromLoaded appUnits) true startApp _ restartDb "db.service" _ rfl rfl
    (fun _ => rfl) (by unfold OnlyStopped; decide) 0 (by decide)) (by decide)

theorem restart_restores_iff_appUnits :
    let s := reached (Library.run (SupervisorState.step .counting)
      (SupervisorState.new (.fromLoaded appUnits) true) startApp)
    1 ∉ s.stopPlan "db.service" restartDb.stop ∨ (1 ∈ s.startPlan "db.service" restartDb.ords ∧
      ownState (s.registry.get 1).file (restartDb.starts 1) = .active ∧
      ¬ Refused s.registry restartDb.starts (s.startPlan "db.service" restartDb.ords)
        (s.afterStop "db.service" restartDb.stop) 1) := by
  intro s
  exact (restart_restores_iff .counting (.fromLoaded appUnits) true startApp rfl rfl
    (by unfold OnlyStopped; decide) (by decide)).mp (by decide)

end SupervisorState

end WriteonceOs.Svc
