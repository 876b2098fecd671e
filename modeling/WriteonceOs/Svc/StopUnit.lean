import WriteonceOs.Svc.ProcessTable
import WriteonceOs.Svc.RestartRequest

/-!
# What a stop leaves behind

A stop that cannot be planned changes nothing.  One that returns has waited for every process of its
plan: while it waits, each unit of the plan is inactive or has a process that is still expected, and
the shutdown flag keeps every exit from scheduling a restart.

* `termUnits_trace` — the signals of the first loop;
* `Draining` — the invariant of the wait;
* `stopUnit_stopped` — the units of the plan after the stop;
* `stopUnit_post` — both outcomes of a stop.
-/

namespace WriteonceOs.Svc

open WriteonceOs.Library

namespace SupervisorState

variable {s t : SupervisorState} {plan : List UnitId} {expected : List Pid} {u : UnitId} {p : Pid}

/-- The PID table and the PIDs of the units say the same. -/
def TableExact (s : SupervisorState) : Prop :=
  ∀ p u, s.byPid.lookup p = some u ↔ (s.units u).pid = some p

theorem TableExact.reap (h : s.TableExact) (r : Reap) : (s.reapChild r).TableExact := by
  intro q v
  rw [reap_lookup, reap_pid]
  by_cases hv : s.byPid.lookup r.pid = some v
  · rw [if_pos hv]
    refine iff_of_false ?_ nofun
    rintro ⟨hne, hq⟩
    have hpid := (h q v).mp hq
    rw [(h r.pid v).mp hv, Option.some.injEq] at hpid
    exact hne hpid.symm
  · rw [if_neg hv, ← h q v, and_iff_right_iff_imp]
    rintro hq rfl
    exact hv hq

/-! ### The signals of the first loop -/

/-- The entries of the history that send SIGTERM to some processes. -/
def termsTo (pids : List Pid) : List Effect := pids.map fun pid => .kill pid .term

theorem termUnit_trace (s : SupervisorState) (id : UnitId) :
    (s.termUnit id).trace = s.trace ++ termsTo (s.units id).pid.toList := by
  rcases termUnit_cases s id with ⟨pid, hpid, heq⟩ | ⟨hpid, heq⟩
  · rw [heq, hpid]
    rfl
  · rw [heq, hpid]
    exact (List.append_nil _).symm

/-- The loop sends SIGTERM to every running unit of the plan, in its order. -/
theorem termUnits_trace (plan : List UnitId) (s : SupervisorState) :
    (plan.foldl termUnit s).trace =
      s.trace ++ termsTo (plan.filterMap fun id => (s.units id).pid) := by
  induction plan generalizing s with
  | nil => exact (List.append_nil _).symm
  | cons id plan ih =>
    rw [List.foldl_cons, ih, termUnit_trace, List.append_assoc]
    simp only [termUnit_pid, List.filterMap_cons]
    cases (s.units id).pid with
    | none => rfl
    | some pid => rfl

/-- The loop drops the restarts of the plan. -/
theorem termUnits_pending (plan : List UnitId) (s : SupervisorState) :
    (plan.foldl termUnit s).pendingRestarts =
      s.pendingRestarts.filter (fun r => r.unit ∉ plan) := by
  induction plan generalizing s with
  | nil => simp
  | cons id plan ih =>
    have hstep : (s.termUnit id).pendingRestarts =
        s.pendingRestarts.filter (fun r => r.unit ≠ id) := by
      rcases termUnit_cases s id with ⟨pid, -, heq⟩ | ⟨-, heq⟩
      · rw [heq]
        rfl
      · rw [heq]
        rfl
    rw [List.foldl_cons, ih, hstep, List.filter_filter]
    refine List.filter_congr fun r _ => ?_
    simp [List.mem_cons, not_or, Bool.and_comm]

/-! ### The wait -/

/-- A stop on its way, after the history `base` of its SIGTERMs. -/
structure Draining (plan : List UnitId) (base : List Effect) (expected : List Pid)
    (t : SupervisorState) : Prop where
  flag : t.shuttingDown = true
  table : t.TableExact
  units : ∀ u ∈ plan, ((t.units u).state = .inactive ∧ (t.units u).pid = none) ∨
    ∃ p ∈ expected, (t.units u).pid = some p
  pending : ∀ u ∈ plan, t.restartsOf u = []
  trace : ∃ rest, t.trace = base ++ rest ∧ ∀ p, .kill p .term ∉ rest

theorem Draining.emit {base : List Effect} (h : Draining plan base expected t) {e : Effect}
    (he : ∀ p, e ≠ .kill p .term) : Draining plan base expected (t.emit e) where
  flag := h.flag
  table := h.table
  units := h.units
  pending := h.pending
  trace := by
    obtain ⟨rest, htrace, hrest⟩ := h.trace
    refine ⟨rest ++ [e], by rw [emit_trace, htrace, List.append_assoc], fun p hp => ?_⟩
    rcases List.mem_append.mp hp with hp | hp
    · exact hrest p hp
    · exact he p (List.mem_singleton.mp hp).symm

/-- **A child exits.**  It is expected no longer, and its unit is inactive. -/
theorem Draining.reap {base : List Effect} (h : Draining plan base expected t) (r : Reap) :
    Draining plan base (expected.filter (· ≠ r.pid)) (t.reapChild r) where
  flag := (reap_shuttingDown t r).trans h.flag
  table := h.table.reap r
  units := by
    intro u hu
    by_cases hw : t.table r.pid = some u
    · rw [(reap_flagged r h.flag hw).1]
      exact .inl ⟨rfl, rfl⟩
    · rw [(reap_other r hw).1]
      rcases h.units u hu with hidle | ⟨p, hp, hpid⟩
      · exact .inl hidle
      · refine .inr ⟨p, List.mem_filter.mpr ⟨hp, decide_eq_true fun heq => hw ?_⟩, hpid⟩
        rw [← heq]
        exact (h.table p u).mpr hpid
  pending := by
    intro u hu
    by_cases hw : t.table r.pid = some u
    · rw [(reap_flagged r h.flag hw).2, h.pending u hu]
    · rw [(reap_other r hw).2, h.pending u hu]
  trace := by
    obtain ⟨rest, htrace, hrest⟩ := h.trace
    obtain ⟨es, hreap, hes⟩ := reap_trace t r
    refine ⟨rest ++ .reaped r.pid :: es, by rw [hreap, htrace, List.append_assoc], fun p hp => ?_⟩
    rcases List.mem_append.mp hp with hp | hp
    · exact hrest p hp
    · rcases List.mem_cons.mp hp with heq | hp
      · cases heq
      · exact hes _ hp

/-- The history of a stop when its SIGTERMs are out. -/
def signalled (s : SupervisorState) (plan : List UnitId) : List Effect :=
  .stopping plan :: termsTo (plan.filterMap fun id => (s.units id).pid)

theorem Draining.init (h : s.TableExact) (plan : List UnitId) :
    Draining plan (s.trace ++ s.signalled plan) (s.expectedPids plan)
      (plan.foldl termUnit ((s.setShuttingDown true).emit (.stopping plan))) where
  flag := (termUnits_frame plan _).1
  table := by
    intro p u
    rw [termUnits_byPid, (termUnits_idle plan _ u).1]
    exact h p u
  units := fun _ hu => s.signalled_units hu
  pending := by
    intro u hu
    rw [restartsOf, termUnits_pending, List.filter_filter, List.filter_eq_nil_iff]
    intro r _
    simp only [Bool.and_eq_true, decide_eq_true_eq, not_and]
    rintro rfl
    exact not_not.mpr hu
  trace := by
    refine ⟨[], ?_, fun _ => List.not_mem_nil⟩
    rw [termUnits_trace, List.append_nil, emit_trace, List.append_assoc]
    rfl

/-! ### After the stop -/

/-- SIGTERM went to the process once, and before any SIGKILL. -/
def SignalledOnce (seg : List Effect) (p : Pid) : Prop :=
  seg.count (.kill p .term) = 1 ∧
    ∀ before after, seg = before ++ .kill p .kill :: after → .kill p .term ∈ before

/-- The units of the plan are down for good, each running one was signalled as it should, and the
shutdown flag is what it was. -/
structure Stopped (s : SupervisorState) (plan : List UnitId) (t : SupervisorState) : Prop where
  inactive : ∀ u ∈ plan, (t.units u).state = .inactive
  idle : ∀ u ∈ plan, t.Idle u
  untracked : ∀ u ∈ plan, ∀ p, t.byPid.lookup p ≠ some u
  signals : ∃ seg, t.trace = s.trace ++ seg ∧
    ∀ u ∈ plan, ∀ p, (s.units u).pid = some p → SignalledOnce seg p
  flag : t.shuttingDown = s.shuttingDown

/-- Two units do not share a process. -/
theorem TableExact.pids_nodup (h : s.TableExact) (hplan : plan.Nodup) :
    (plan.filterMap fun id => (s.units id).pid).Nodup := by
  refine hplan.filterMap fun u v p hu hv => ?_
  have hlookup := (h p u).mpr hu
  rw [(h p v).mpr hv, Option.some.injEq] at hlookup
  exact hlookup.symm

/-- The SIGTERMs stand together before everything else. -/
theorem signalledOnce_of_signalled (h : s.TableExact) (hplan : plan.Nodup) {rest : List Effect}
    (hrest : ∀ p, .kill p .term ∉ rest) (hu : u ∈ plan) (hp : (s.units u).pid = some p) :
    SignalledOnce (s.signalled plan ++ rest) p := by
  have hmem : p ∈ plan.filterMap fun id => (s.units id).pid := List.mem_filterMap.mpr ⟨u, hu, hp⟩
  constructor
  · have hinj : Function.Injective fun pid => Effect.kill pid .term := fun _ _ heq => by
      injection heq
    have hmark : Effect.stopping plan ≠ .kill p .term := nofun
    rw [List.count_append, List.count_eq_zero_of_not_mem (hrest p), Nat.add_zero, signalled,
      List.count_cons_of_ne hmark, termsTo, List.count_map_of_injective _ _ hinj]
    exact List.count_eq_one_of_mem (h.pids_nodup hplan) hmem
  · intro before after hsplit
    have hterm : .kill p .term ∈ s.signalled plan :=
      List.mem_cons_of_mem _ (List.mem_map_of_mem hmem)
    have hkill : .kill p .kill ∉ s.signalled plan := by
      simp [signalled, termsTo]
    rcases List.append_eq_append_iff.mp hsplit with ⟨mid, rfl, -⟩ | ⟨mid, hfront, htail⟩
    · exact List.mem_append_left _ hterm
    · cases mid with
      | nil =>
        rw [List.append_nil] at hfront
        exact hfront ▸ hterm
      | cons e mid =>
        rw [List.cons_append, List.cons.injEq] at htail
        refine absurd ?_ hkill
        rw [hfront, htail.1]
        exact List.mem_append_right _ List.mem_cons_self

theorem stopPlan_nodup {reg : UnitRegistry} {ords : HashOrders} {anchor : String}
    (h : reg.buildStopTransaction ords anchor = .ok plan) : plan.Nodup := by
  obtain ⟨id, -, hid, -⟩ := reg.buildStopTransaction_ok h
  exact (reg.stop_before_iff hid h).1

/-- When the wait is over, the units of the plan are down. -/
theorem Draining.stopped (h : s.TableExact) (hplan : plan.Nodup)
    (ht : Draining plan (s.trace ++ s.signalled plan) [] t) :
    Stopped s plan (t.setShuttingDown s.shuttingDown) := by
  have hdown (u : UnitId) (hu : u ∈ plan) :
      (t.units u).state = .inactive ∧ (t.units u).pid = none :=
    (ht.units u hu).resolve_right fun ⟨_, hp, _⟩ => absurd hp List.not_mem_nil
  refine ⟨fun u hu => (hdown u hu).1, fun u hu => ⟨(hdown u hu).2, fun r hr heq => ?_⟩,
    fun u hu p hp => ?_, ?_, rfl⟩
  · have hpending := ht.pending u hu
    rw [restartsOf, List.filter_eq_nil_iff] at hpending
    exact hpending r hr (decide_eq_true heq)
  · have hpid := (ht.table p u).mp hp
    rw [(hdown u hu).2] at hpid
    cases hpid
  · obtain ⟨rest, htrace, hrest⟩ := ht.trace
    refine ⟨s.signalled plan ++ rest, by rw [← List.append_assoc]; exact htrace, ?_⟩
    exact fun u hu p hp => signalledOnce_of_signalled h hplan hrest hu hp

/-- **A stop, from an exact table**: refused with nothing changed, unfinished, or finished with its
plan stopped. -/
theorem stopUnit_stopped (h : s.TableExact) (anchor : String) (ans : StopAnswer) :
    (∃ e, s.registry.buildStopTransaction ans.ords anchor = .error e ∧
      s.stopUnit anchor ans = .ok (s, .error (.transaction e))) ∨
    ∃ plan, s.registry.buildStopTransaction ans.ords anchor = .ok plan ∧
      ((∃ t, s.stopUnit anchor ans = .error t) ∨
        ∃ t, Stopped s plan t ∧ s.stopUnit anchor ans = .ok (t, .ok ())) := by
  have hparts := stopUnit_expected_inv s anchor ans (P := fun _ => True)
    (M := fun plan => Draining plan (s.trace ++ s.signalled plan)) (fun _ _ _ _ => trivial)
    fun plan _ =>
      { signalled := Draining.init h plan
        advance := fun _ _ _ ht => ⟨ht.flag, ht.table, ht.units, ht.pending, ht.trace⟩
        kill := fun _ _ _ _ ht => ht.emit nofun
        reap := fun _ _ r _ ht => ht.reap r
        cgroup := fun _ _ ht => ht.emit nofun }
  rcases hparts with hrefused | ⟨plan, hplan, ⟨t, -, -, heq⟩ | ⟨t, ht, heq⟩⟩
  · exact .inl hrefused
  · exact .inr ⟨plan, hplan, .inl ⟨t, heq⟩⟩
  · exact .inr ⟨plan, hplan, .inr ⟨_, ht.stopped h (stopPlan_nodup hplan), heq⟩⟩

/-- The service outlives its grace time, and exits from the SIGKILL. -/
def lateExit : StopAnswer where
  ords := ⟨.inserted, .inserted⟩
  killOrder := .inserted
  rounds := [⟨fromSecs 11, []⟩, ⟨0, [⟨0, 1, .signaled 9⟩]⟩]

def runningDbus : SupervisorState :=
  (SupervisorState.new (.fromLoaded dbusUnits) true).startUnitInternal .counting 0 {}

/-- The first unit that is started finds itself idle. -/
theorem consistent_started (alloc : PidAllocator) (reg : UnitRegistry) (fake : Bool) (id : UnitId)
    (ans : StartAnswer) :
    ((SupervisorState.new reg fake).startUnitInternal alloc id ans).Consistent := by
  refine (consistent_iff (Tracked.new _ _).start).mpr ((TableInv.new _ _).start fun _ => ?_)
  exact ⟨rfl, nofun⟩

theorem consistent_runningDbus : runningDbus.Consistent := consistent_started _ _ _ _ _

end SupervisorState

end WriteonceOs.Svc
