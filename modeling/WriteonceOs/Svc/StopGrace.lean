import WriteonceOs.Svc.StopUnit

/-!
# The grace time of a stop

A stop sends all its SIGTERMs at once, waits, and sends SIGKILL to what is left.  How long it waits
is the longest stop timeout of its plan; a timeout that does not parse counts as ten seconds for its
own unit, but not in that maximum.

* `sigkills_stop` — the SIGKILLs of a stop, with their times;
* `drainKills_late` — none goes out within the grace time;
* `no_early_kill_iff` — when every process gets the time of its own unit.
-/

namespace WriteonceOs.Svc

open WriteonceOs.Library

/-! ### Timeouts -/

/-- A parsed duration is a number of milliseconds. -/
theorem parseDuration_millis {text : String} {d : Duration} (h : parseDuration text = some d) :
    ∃ n, d = fromMillis n := by
  have hsecs (n : ℕ) : ∃ k, fromSecs n = fromMillis k := ⟨n * 1000, by
    rw [fromSecs, fromMillis, Nat.mul_assoc]⟩
  unfold parseDuration at h
  simp only at h
  split at h
  · obtain ⟨n, -, rfl⟩ := Option.map_eq_some_iff.mp h
    exact ⟨n, rfl⟩
  · split at h
    · obtain ⟨n, -, rfl⟩ := Option.map_eq_some_iff.mp h
      exact hsecs _
    · split at h
      · obtain ⟨n, -, rfl⟩ := Option.map_eq_some_iff.mp h
        exact hsecs _
      · split at h
        · obtain ⟨n, -, rfl⟩ := Option.map_eq_some_iff.mp h
          exact hsecs _
        · obtain ⟨n, -, rfl⟩ := Option.map_eq_some_iff.mp h
          exact hsecs _

/-- A number of milliseconds that is at most a nanosecond short of ten seconds is not short. -/
theorem tenSecs_le {n : ℕ} (h : 10 * 1000000000 ≤ n * 1000000 + 1) :
    fromSecs 10 ≤ fromMillis n := by
  have hle : 10 * 1000000000 ≤ n * 1000000 := by grind
  exact hle

/-- The stop timeout of a service: what its string says, or ten seconds. -/
def ownTimeout (service : ServiceSection) : Duration :=
  (parseDuration service.timeoutStopSec).getD (fromSecs 10)

/-- A unit of the plan has a stop timeout that parses. -/
def Gives (reg : UnitRegistry) (plan : List UnitId) (d : Duration) : Prop :=
  ∃ u ∈ plan, ∃ service, (reg.get u).file.service = some service ∧
    parseDuration service.timeoutStopSec = some d

/-- A unit of the plan gives ten seconds or more, or none gives any time. -/
def Covers (reg : UnitRegistry) (plan : List UnitId) : Prop :=
  (∃ d, Gives reg plan d ∧ fromSecs 10 ≤ d) ∨ ∀ d, ¬ Gives reg plan d

namespace SupervisorState

variable {s t : SupervisorState} {plan : List UnitId} {killOrder : HashOrder Pid}
  {grace : Duration} {start : Instant}

/-- The grace time is the greatest time given, or ten seconds. -/
theorem stopGrace_cases (s : SupervisorState) (plan : List UnitId) :
    (Gives s.registry plan (s.stopGrace plan) ∧
        ∀ d, Gives s.registry plan d → d ≤ s.stopGrace plan) ∨
      ((∀ d, ¬ Gives s.registry plan d) ∧ s.stopGrace plan = fromSecs 10) := by
  have hgives (d : Duration) : d ∈ (plan.filterMap fun id =>
      (s.registry.get id).file.service).filterMap (fun service =>
        parseDuration service.timeoutStopSec) ↔ Gives s.registry plan d := by
    simp only [List.mem_filterMap, Gives]
    constructor
    · rintro ⟨service, ⟨u, hu, hservice⟩, hd⟩
      exact ⟨u, hu, service, hservice, hd⟩
    · rintro ⟨u, hu, service, hservice, hd⟩
      exact ⟨service, ⟨u, hu, hservice⟩, hd⟩
  unfold stopGrace
  cases hmax : ((plan.filterMap fun id => (s.registry.get id).file.service).filterMap
      fun service => parseDuration service.timeoutStopSec).max? with
  | none =>
    rw [List.max?_eq_none_iff] at hmax
    refine .inr ⟨fun d hd => ?_, rfl⟩
    rw [← hgives, hmax] at hd
    exact List.not_mem_nil hd
  | some grace =>
    obtain ⟨hmem, hle⟩ := List.max?_eq_some_iff.mp hmax
    exact .inl ⟨(hgives grace).mp hmem, fun d hd => hle d ((hgives d).mpr hd)⟩

/-! ### The SIGKILLs of a drain -/

/-- The PIDs that were sent SIGKILL, in order. -/
def sigkills (trace : List Effect) : List Pid :=
  trace.filterMap fun
    | .kill pid .kill => some pid
    | _ => none

@[simp] theorem sigkills_append (t t' : List Effect) :
    sigkills (t ++ t') = sigkills t ++ sigkills t' := List.filterMap_append

/-- The SIGKILLs of a drain, with their times. -/
def drainKills (killOrder : HashOrder Pid) (grace : Duration) (start : Instant) :
    List DrainRound → Bool → List Pid → SupervisorState → List (Pid × Instant)
  | _, _, [], _ => []
  | [], _, _ :: _, _ => []
  | round :: rounds, escalated, pid :: expected, s =>
    let s := s.advance round.dt
    let escalate := !escalated && decide (grace < s.clock - start)
    let kills := if escalate then killOrder.enum (pid :: expected) else []
    let acc := round.reaped.foldl drainReap (pid :: expected, s.killAll kills)
    kills.map (fun p => (p, s.clock)) ++
      drainKills killOrder grace start rounds (escalated || escalate) acc.1 acc.2

theorem killAll_trace (pids : List Pid) (s : SupervisorState) :
    (s.killAll pids).trace = s.trace ++ pids.map fun pid => .kill pid .kill := by
  unfold killAll
  induction pids generalizing s with
  | nil => exact (List.append_nil _).symm
  | cons pid pids ih =>
    rw [List.foldl_cons, ih, emit_trace, List.append_assoc]
    rfl

theorem sigkills_killAll (pids : List Pid) (s : SupervisorState) :
    sigkills (s.killAll pids).trace = sigkills s.trace ++ pids := by
  have hsent : sigkills (pids.map fun pid => .kill pid .kill) = pids := by
    rw [sigkills, List.filterMap_map]
    exact List.filterMap_some
  rw [killAll_trace, sigkills_append, hsent]

theorem sigkills_reap (s : SupervisorState) (r : Reap) :
    sigkills (s.reapChild r).trace = sigkills s.trace := by
  obtain ⟨es, htrace, hes⟩ := reap_trace s r
  have hnone : sigkills (.reaped r.pid :: es) = [] := by
    rw [sigkills, List.filterMap_eq_nil_iff]
    refine List.forall_mem_cons.mpr ⟨rfl, fun e he => ?_⟩
    have hnote := hes e he
    cases e with
    | kill p signal => cases hnote
    | _ => rfl
  rw [htrace, sigkills_append, hnone, List.append_nil]

theorem sigkills_drainReap (rs : List Reap) (acc : List Pid × SupervisorState) :
    sigkills (rs.foldl drainReap acc).2.trace = sigkills acc.2.trace := by
  refine foldl_frame (fun acc : List Pid × SupervisorState => sigkills acc.2.trace)
    (fun acc r => ?_) acc rs
  rw [drainReap_eq]
  exact sigkills_reap acc.2 r

/-- **The history of a drain shows these SIGKILLs.** -/
theorem sigkills_drain (killOrder : HashOrder Pid) (grace : Duration) (start : Instant)
    (rounds : List DrainRound) (escalated : Bool) (expected : List Pid) (t : SupervisorState) :
    sigkills (reached (drain killOrder grace start rounds escalated expected t)).trace =
      sigkills t.trace ++
        (drainKills killOrder grace start rounds escalated expected t).map Prod.fst := by
  induction rounds generalizing escalated expected t with
  | nil =>
    cases expected with
    | nil => simp [drain_nil, drainKills]
    | cons pid expected => simp [drain_waiting, drainKills]
  | cons round rounds ih =>
    cases expected with
    | nil => simp [drain_nil, drainKills]
    | cons pid expected =>
      have hkill (escalate : Bool) (u : SupervisorState) :
          (if escalate then u.killAll (killOrder.enum (pid :: expected)) else u) =
            u.killAll (if escalate then killOrder.enum (pid :: expected) else []) := by
        cases escalate with
        | false => rfl
        | true => rfl
      simp only [drain_cons, drainKills, hkill]
      rw [ih, sigkills_drainReap, sigkills_killAll, List.map_append, List.map_map,
        ← List.append_assoc, advance_trace]
      congr 2
      exact (List.map_id' _).symm

/-- What is left to wait for was waited for before. -/
theorem drainReap_subset (rs : List Reap) (acc : List Pid × SupervisorState) :
    (rs.foldl drainReap acc).1 ⊆ acc.1 := by
  induction rs generalizing acc with
  | nil => exact fun _ h => h
  | cons r rs ih =>
    rw [List.foldl_cons, drainReap_eq]
    exact fun p hp => (List.mem_filter.mp (ih _ hp)).1

/-- **No SIGKILL goes out within the grace time**, and none but to the expected children. -/
theorem drainKills_late (rounds : List DrainRound) (escalated : Bool) (expected : List Pid)
    (t : SupervisorState) :
    ∀ k ∈ drainKills killOrder grace start rounds escalated expected t,
      k.1 ∈ expected ∧ grace < k.2 - start := by
  induction rounds generalizing escalated expected t with
  | nil =>
    cases expected with
    | nil => exact fun k hk => absurd hk List.not_mem_nil
    | cons pid expected => exact fun k hk => absurd hk List.not_mem_nil
  | cons round rounds ih =>
    cases expected with
    | nil => exact fun k hk => absurd hk List.not_mem_nil
    | cons pid expected =>
      intro k hk
      simp only [drainKills, List.mem_append, List.mem_map] at hk
      rcases hk with ⟨p, hp, rfl⟩ | hk
      · split at hp
        case isTrue hescalate =>
          rw [Bool.and_eq_true, decide_eq_true_eq] at hescalate
          exact ⟨(killOrder.perm _).mem_iff.mp hp, hescalate.2⟩
        case isFalse => exact absurd hp List.not_mem_nil
      · obtain ⟨hmem, hlate⟩ := ih _ _ _ k hk
        exact ⟨drainReap_subset _ _ hmem, hlate⟩

/-! ### The SIGKILLs of a stop -/

/-- The state in which a stop starts to wait. -/
def termPlan (s : SupervisorState) (plan : List UnitId) : SupervisorState :=
  plan.foldl termUnit ((s.setShuttingDown true).emit (.stopping plan))

theorem termPlan_clock (s : SupervisorState) (plan : List UnitId) :
    (s.termPlan plan).clock = s.clock := by
  refine foldl_frame (fun t : SupervisorState => t.clock) (fun t id => ?_)
    ((s.setShuttingDown true).emit (.stopping plan)) plan
  rcases termUnit_cases t id with ⟨pid, -, heq⟩ | ⟨-, heq⟩
  · rw [heq]
    rfl
  · rw [heq]
    rfl

/-- The SIGKILLs of a stop, with their times. -/
def stopKills (s : SupervisorState) (plan : List UnitId) (killOrder : HashOrder Pid)
    (rounds : List DrainRound) : List (Pid × Instant) :=
  drainKills killOrder (s.stopGrace plan) s.clock rounds false (s.expectedPids plan)
    (s.termPlan plan)

theorem sigkills_termPlan (s : SupervisorState) (plan : List UnitId) :
    sigkills (s.termPlan plan).trace = sigkills s.trace := by
  rw [termPlan, termUnits_trace, sigkills_append, emit_trace, sigkills_append]
  simp [sigkills, termsTo, List.filterMap_map]

theorem sigkills_reapCgroups (plan : List UnitId) (t : SupervisorState) :
    sigkills (plan.foldl reapCgroup t).trace = sigkills t.trace := by
  refine foldl_frame (fun t : SupervisorState => sigkills t.trace) (fun t id => ?_) t plan
  rcases reapCgroup_cases t id with heq | heq
  · rw [heq]
  · rw [heq, emit_trace, sigkills_append]
    exact List.append_nil _

/-- **The history of a stop shows these SIGKILLs and no others.** -/
theorem sigkills_stop {alloc : PidAllocator} {anchor : String} {ans : StopAnswer}
    (hok : s.registry.buildStopTransaction ans.ords anchor = .ok plan) :
    sigkills (reached (s.step alloc (.stopUnit anchor ans))).trace =
      sigkills s.trace ++ (s.stopKills plan ans.killOrder ans.rounds).map Prod.fst := by
  have hdrain := sigkills_drain ans.killOrder (s.stopGrace plan) (s.termPlan plan).clock ans.rounds
    false (s.expectedPids plan) (s.termPlan plan)
  rw [sigkills_termPlan] at hdrain
  rw [stopKills, ← termPlan_clock s plan, ← hdrain]
  rw [step, stopUnit_planned hok]
  cases hres : drain ans.killOrder (s.stopGrace plan) (s.termPlan plan).clock ans.rounds false
    (s.expectedPids plan) (s.termPlan plan) with
  | error t =>
    simp only [termPlan] at hres
    simp only [hres, Except.map, reached_error]
  | ok t =>
    simp only [termPlan] at hres
    simp only [hres, Except.map, reached_ok, setShuttingDown_trace, sigkills_reapCgroups]

/-! ### The time of a unit -/

/-- Whatever exits and when, a process of the plan is sent SIGKILL at the earliest when the timeout
of its unit has passed since the SIGTERM. -/
def NoEarlyKill (s : SupervisorState) (plan : List UnitId) : Prop :=
  ∀ killOrder rounds, ∀ k ∈ s.stopKills plan killOrder rounds, ∀ u ∈ plan, ∀ service,
    (s.units u).pid = some k.1 → (s.registry.get u).file.service = some service →
      s.clock + ownTimeout service ≤ k.2

/-- Every running unit of the plan whose timeout does not parse is covered by the others. -/
def MalformedCovered (s : SupervisorState) (plan : List UnitId) : Prop :=
  ∀ u ∈ plan, ∀ service, (s.units u).pid ≠ none → (s.registry.get u).file.service = some service →
    parseDuration service.timeoutStopSec = none → Covers s.registry plan

/-- A stop that nothing exits from escalates as soon as the grace time is over. -/
theorem stopKills_quiet (s : SupervisorState) (plan : List UnitId) {p : Pid}
    (hp : p ∈ s.expectedPids plan) :
    (p, s.clock + (s.stopGrace plan + 1)) ∈
      s.stopKills plan .inserted [⟨s.stopGrace plan + 1, []⟩] := by
  unfold stopKills
  cases hexpected : s.expectedPids plan with
  | nil => rw [hexpected] at hp; exact absurd hp List.not_mem_nil
  | cons q expected =>
    have hlate : s.stopGrace plan < s.clock + (s.stopGrace plan + 1) - s.clock := by
      rw [Nat.add_sub_cancel_left]
      exact Nat.lt_succ_self _
    simp only [drainKills, advance_clock, termPlan_clock, hlate, decide_true, Bool.not_false,
      Bool.and_true, if_true]
    refine List.mem_append_left _ (List.mem_map.mpr ⟨p, ?_, rfl⟩)
    rw [← hexpected]
    exact hp

theorem no_early_kill_of_covered (h : s.MalformedCovered plan) : s.NoEarlyKill plan := by
  intro killOrder rounds k hk u hu service hpid hservice
  have hlate := (drainKills_late _ _ _ _ k hk).2
  suffices hle : ownTimeout service ≤ s.stopGrace plan by
    have hafter : s.clock ≤ k.2 := Nat.le_of_lt (Nat.lt_of_sub_pos (Nat.zero_lt_of_lt hlate))
    exact (Nat.le_sub_iff_add_le' hafter).mp (hle.trans hlate.le)
  unfold ownTimeout
  cases hparse : parseDuration service.timeoutStopSec with
  | some d =>
    have hgives : Gives s.registry plan d := ⟨u, hu, service, hservice, hparse⟩
    rcases s.stopGrace_cases plan with ⟨-, hmax⟩ | ⟨hnone, -⟩
    · exact hmax d hgives
    · exact absurd hgives (hnone d)
  | none =>
    have hcovers := h u hu service (by simp [hpid]) hservice hparse
    rcases s.stopGrace_cases plan with ⟨hgrace, hmax⟩ | ⟨-, heq⟩
    · rcases hcovers with ⟨d, hd, hle⟩ | hnone
      · exact hle.trans (hmax d hd)
      · exact absurd hgrace (hnone _)
    · exact heq.ge

/-- A shorter grace time ends at least a millisecond before the ten seconds. -/
theorem covered_of_no_early_kill (h : s.NoEarlyKill plan) : s.MalformedCovered plan := by
  intro u hu service hrunning hservice hparse
  obtain ⟨p, hpid⟩ := Option.ne_none_iff_exists'.mp hrunning
  have hmem : p ∈ s.expectedPids plan := mem_expectedPids.mpr ⟨u, hu, hpid⟩
  have hkill := h .inserted _ _ (s.stopKills_quiet plan hmem) u hu service hpid hservice
  rw [ownTimeout, hparse, Option.getD_none] at hkill
  rcases s.stopGrace_cases plan with ⟨hgrace, -⟩ | ⟨hnone, -⟩
  · have hgives := hgrace
    obtain ⟨_, -, _, -, hd⟩ := hgives
    obtain ⟨n, hn⟩ := parseDuration_millis hd
    have hten : 10 * 1000000000 ≤ n * 1000000 + 1 := by
      rw [fromMillis] at hn
      rw [← hn]
      exact Nat.le_of_add_le_add_left hkill
    refine .inl ⟨_, hgrace, ?_⟩
    rw [hn]
    exact tenSecs_le hten
  · exact .inr hnone

/-- **When a stop gives every process the time of its own unit**: exactly when every running unit
of the plan whose timeout does not parse is covered by a longer one, or no timeout of the plan
parses. -/
theorem no_early_kill_iff {anchor : String} {ords : HashOrders}
    (hok : s.registry.buildStopTransaction ords anchor = .ok plan) :
    (∀ alloc killOrder rounds,
      sigkills (reached (s.step alloc (.stopUnit anchor ⟨ords, killOrder, rounds⟩))).trace =
        sigkills s.trace ++ (s.stopKills plan killOrder rounds).map Prod.fst) ∧
      (s.NoEarlyKill plan ↔ s.MalformedCovered plan) :=
  ⟨fun _ _ _ => sigkills_stop hok, covered_of_no_early_kill, no_early_kill_of_covered⟩

/-! ### A minute that does not parse -/

/-- A service that asks for a minute in a spelling that is not read, and the database that it
requires. -/
def slowUnits : List LoadedUnit :=
  [⟨"app.service",
      { unit := { requires := ["db.service"] }
        service := some { execStart := "/bin/app", timeoutStopSec := "1min" } }⟩,
    ⟨"db.service", { service := some { execStart := "/bin/db", timeoutStopSec := "2s" } }⟩]

/-- The service and the database are running. -/
def slowState : SupervisorState :=
  reached (run (step .counting) (SupervisorState.new (.fromLoaded slowUnits) true)
    [.startNamed "app.service" ⟨.inserted, .inserted⟩ (fun _ => {})])

/-- The service gets the two seconds of the database. -/
theorem killed_after_two_seconds :
    slowState.registry.buildStopTransaction ⟨.inserted, .inserted⟩ "db.service" = .ok [1, 0] ∧
      (slowState.units 0).pid = some 1 ∧
      slowState.stopKills [1, 0] .inserted [⟨fromMillis 2050, []⟩] =
        [(2, fromMillis 2050), (1, fromMillis 2050)] ∧
      ¬ slowState.NoEarlyKill [1, 0] := by
  have hkills : slowState.stopKills [1, 0] .inserted [⟨fromMillis 2050, []⟩] =
      [(2, fromMillis 2050), (1, fromMillis 2050)] := by
    decide +kernel
  have hpid : (slowState.units 0).pid = some 1 := by decide +kernel
  refine ⟨by decide +kernel, hpid, hkills, fun h => ?_⟩
  have hkill : (1, fromMillis 2050) ∈
      slowState.stopKills [1, 0] .inserted [⟨fromMillis 2050, []⟩] := by
    rw [hkills]
    exact List.mem_cons_of_mem _ List.mem_cons_self
  have hlate := h .inserted [⟨fromMillis 2050, []⟩] (1, fromMillis 2050) hkill 0
    (by decide) { execStart := "/bin/app", timeoutStopSec := "1min" } hpid (by decide +kernel)
  revert hlate
  decide +kernel

theorem no_early_kill_iff_dbus :
    runningDbus.NoEarlyKill [0] ↔ runningDbus.MalformedCovered [0] := by
  have hplan : runningDbus.registry.buildStopTransaction ⟨.inserted, .inserted⟩ "dbus.service" =
      .ok [0] := by
    decide +kernel
  exact (no_early_kill_iff hplan).2

end SupervisorState

end WriteonceOs.Svc
