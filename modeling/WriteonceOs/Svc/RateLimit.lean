import WriteonceOs.Library.SlidingWindow
import WriteonceOs.Svc.Operations

/-!
# The restart limit

Each unit's `restartHistory` is a sliding-window limiter of its own: the restarts that the history
of a run shows for the unit are the events, the start-limit interval is the window.

* `LimitInv` — every unit's history is one, and every suppression is a full window;
* `limit_opInv` — every operation keeps that;
* `scheduled_pending` — what a mark in the history stands for;
* `restart_rate_limited` — the rate limit in every run.
-/

namespace WriteonceOs.Svc

open WriteonceOs.Library

/-- The times at which restarts of a unit were scheduled. -/
def scheduledTimes (u : UnitId) (trace : List Effect) : List Instant :=
  trace.filterMap fun
    | .scheduled v now => if v = u then some now else none
    | _ => none

@[simp] theorem scheduledTimes_append (u : UnitId) (t t' : List Effect) :
    scheduledTimes u (t ++ t') = scheduledTimes u t ++ scheduledTimes u t' :=
  List.filterMap_append

/-- Effects that neither schedule nor suppress a restart. -/
def NoRestart (es : List Effect) : Prop :=
  ∀ e ∈ es, (∀ u now, e ≠ .scheduled u now) ∧ ∀ u now, e ≠ .suppressed u now

theorem NoRestart.scheduledTimes {es : List Effect} (h : NoRestart es) (u : UnitId) :
    scheduledTimes u es = [] := by
  rw [Svc.scheduledTimes, List.filterMap_eq_nil_iff]
  intro e he
  cases e with
  | scheduled v now => exact absurd rfl ((h _ he).1 v now)
  | _ => rfl

/-- Every suppression happened in a full window. -/
def SuppressedFull (reg : UnitRegistry) (trace : List Effect) : Prop :=
  ∀ pre u now, pre ++ [.suppressed u now] <+: trace →
    ∀ service, (reg.get u).file.service = some service →
      0 < service.startLimitBurst ∧
        inLast (limitInterval service) now (scheduledTimes u pre) = service.startLimitBurst

theorem SuppressedFull.snoc {reg : UnitRegistry} {trace : List Effect} {e : Effect}
    (h : SuppressedFull reg trace)
    (he : ∀ u now, e = .suppressed u now →
      ∀ service, (reg.get u).file.service = some service →
        0 < service.startLimitBurst ∧
          inLast (limitInterval service) now (scheduledTimes u trace) = service.startLimitBurst) :
    SuppressedFull reg (trace ++ [e]) := by
  intro pre u now hpre
  rcases List.prefix_concat_iff.mp hpre with heq | hpre
  · obtain ⟨rfl, hlast⟩ := List.append_inj' heq rfl
    rw [List.cons.injEq] at hlast
    exact he u now hlast.1.symm
  · exact h pre u now hpre

theorem SuppressedFull.append {reg : UnitRegistry} {trace es : List Effect}
    (h : SuppressedFull reg trace) (hes : NoRestart es) : SuppressedFull reg (trace ++ es) := by
  induction es generalizing trace with
  | nil => simpa using h
  | cons e es ih =>
    rw [← List.singleton_append, ← List.append_assoc]
    refine ih (h.snoc fun u now heq => ?_) fun e' he' => hes e' (List.mem_cons_of_mem e he')
    exact absurd heq ((hes e List.mem_cons_self).2 u now)

namespace SupervisorState

/-- Every unit's history is a limiter over the restarts scheduled for the unit. -/
structure LimitInv (reg : UnitRegistry) (s : SupervisorState) : Prop where
  registry : s.registry.units = reg.units
  window : ∀ u service, (reg.get u).file.service = some service →
    WindowInv (limitInterval service) service.startLimitBurst s.clock (scheduledTimes u s.trace)
      (s.units u).restartHistory
  suppressed : SuppressedFull reg s.trace

variable {alloc : PidAllocator} {reg : UnitRegistry} {s s' : SupervisorState}

/-- The supervisor prunes its histories as a limiter does. -/
theorem recentAt_eq (service : ServiceSection) (id : UnitId) (now : Instant) :
    s.recentAt service id now = recent (limitInterval service) now (s.units id).restartHistory :=
  rfl

theorem LimitInv.get (h : LimitInv reg s) (u : UnitId) : s.registry.get u = reg.get u := by
  rw [UnitRegistry.get, h.registry]
  rfl

theorem LimitInv.new (reg : UnitRegistry) (fake : Bool) :
    LimitInv reg (SupervisorState.new reg fake) where
  registry := rfl
  window := fun _ _ _ => WindowInv.init _ _ _
  suppressed := by
    intro pre u now hpre
    simp [SupervisorState.new] at hpre

/-- What schedules and suppresses nothing keeps every limiter. -/
theorem LimitInv.congr (h : LimitInv reg s) (hregistry : s'.registry.units = s.registry.units)
    (hclock : s.clock ≤ s'.clock)
    (hhistory : ∀ u, (s'.units u).restartHistory = (s.units u).restartHistory)
    (es : List Effect) (htrace : s'.trace = s.trace ++ es) (hes : NoRestart es) :
    LimitInv reg s' where
  registry := hregistry.trans h.registry
  window := by
    intro u service hservice
    rw [htrace, scheduledTimes_append, hes.scheduledTimes, List.append_nil, hhistory]
    exact (h.window u service hservice).later hclock
  suppressed := by
    rw [htrace]
    exact h.suppressed.append hes

theorem LimitInv.emit (h : LimitInv reg s) {e : Effect} (he : NoRestart [e]) :
    LimitInv reg (s.emit e) :=
  h.congr rfl (le_refl _) (fun _ => rfl) [e] rfl he

theorem LimitInv.start {id : UnitId} {ans : StartAnswer} (h : LimitInv reg s) :
    LimitInv reg (s.startUnitInternal alloc id ans) := by
  have hframe := start_frame alloc s id ans
  have hstep : ∃ es, (s.startUnitInternal alloc id ans).trace = s.trace ++ es ∧ NoRestart es := by
    cases StartStep.of_start alloc s id ans with
    | idle _ _ _ htrace =>
      rcases htrace with htrace | ⟨-, htrace⟩
      · exact ⟨[], by simpa using htrace, by simp [NoRestart]⟩
      · exact ⟨_, htrace, by simp [NoRestart]⟩
    | running _ _ _ _ htrace => exact ⟨_, htrace, by simp [NoRestart]⟩
    | oneshot _ _ _ _ es hes htrace =>
      refine ⟨_, htrace, ?_⟩
      rcases hes with rfl | rfl <;> simp [NoRestart]
  obtain ⟨es, htrace, hes⟩ := hstep
  exact h.congr (by rw [hframe.registry]) hframe.clock hframe.history es htrace hes

/-- **A reaped child keeps every limiter**: its restart is scheduled only when there is room. -/
theorem LimitInv.reap (h : LimitInv reg s) (r : Reap) : LimitInv reg (s.reapChild r) := by
  have hothers : ∀ {t : SupervisorState} {id : UnitId}, ReapFrame s r id t → ∀ u, u ≠ id →
      (t.units u).restartHistory = (s.units u).restartHistory :=
    fun frame u hu => by rw [frame.others u hu]
  cases ReapStep.of_reap s r with
  | untracked _ heq =>
    refine h.congr ?_ ?_ ?_ [.reaped r.pid] ?_ (by simp [NoRestart]) <;> simp [heq]
  | quiet id _ frame _ _ hhistory es hes htrace =>
    have hclock : s.clock ≤ (s.reapChild r).clock := by
      rw [frame.clock]
      exact Nat.le_add_right s.clock r.dt
    refine h.congr (by rw [frame.registry]) hclock (fun u => ?_) _ htrace ?_
    · by_cases hu : u = id
      · rw [hu, hhistory]
      · exact hothers frame u hu
    · rcases hes with rfl | rfl <;> simp [NoRestart]
  | scheduled id _ frame _ service hservice _ hlimit _ hhistory htrace =>
    rw [h.get] at hservice
    refine ⟨by rw [frame.registry, h.registry], fun u service' hservice' => ?_, ?_⟩
    · rw [htrace, scheduledTimes_append, frame.clock]
      have hlater := (h.window u service' hservice').later (Nat.le_add_right s.clock r.dt)
      by_cases hu : u = id
      · subst hu
        rw [hservice, Option.some.injEq] at hservice'
        subst hservice'
        rw [hhistory, recentAt_eq]
        have hpush := hlater.push (fun hb => by
          by_contra hfull
          exact hlimit ⟨hb, Nat.le_of_not_lt hfull⟩)
        simpa [scheduledTimes] using hpush
      · rw [hothers frame u hu]
        simpa [scheduledTimes, Ne.symm hu] using hlater
    · rw [htrace, show s.trace ++ [Effect.reaped r.pid, Effect.scheduled id (s.clock + r.dt)] =
        s.trace ++ [.reaped r.pid] ++ [.scheduled id (s.clock + r.dt)] by simp]
      exact (h.suppressed.append (by simp [NoRestart])).snoc (by simp)
  | suppressed id _ frame _ service hservice _ hlimit _ hhistory es hes htrace =>
    rw [h.get] at hservice
    refine ⟨by rw [frame.registry, h.registry], fun u service' hservice' => ?_, ?_⟩
    · have htimes : scheduledTimes u (s.reapChild r).trace = scheduledTimes u s.trace := by
        rcases hes with rfl | rfl <;> simp [htrace, scheduledTimes]
      rw [htimes, frame.clock]
      have hlater := (h.window u service' hservice').later (Nat.le_add_right s.clock r.dt)
      by_cases hu : u = id
      · subst hu
        rw [hservice, Option.some.injEq] at hservice'
        subst hservice'
        rw [hhistory]
        exact hlater.prune
      · rw [hothers frame u hu]
        exact hlater
    · rw [htrace, show s.trace ++ ([Effect.reaped r.pid, Effect.suppressed id (s.clock + r.dt)] ++
        es) = s.trace ++ [.reaped r.pid] ++ [.suppressed id (s.clock + r.dt)] ++ es by simp]
      refine SuppressedFull.append (SuppressedFull.snoc
        (h.suppressed.append (by simp [NoRestart])) ?_) ?_
      · intro u now heq service' hservice'
        rw [Effect.suppressed.injEq] at heq
        obtain ⟨rfl, rfl⟩ := heq
        rw [hservice, Option.some.injEq] at hservice'
        subst hservice'
        have hlater := (h.window id service hservice).later (Nat.le_add_right s.clock r.dt)
        refine ⟨hlimit.1, ?_⟩
        simpa [scheduledTimes] using hlater.full hlimit.1 hlimit.2
      · rcases hes with rfl | rfl <;> simp [NoRestart]

theorem limit_opInv : OpInv alloc (fun _ _ _ => True) (LimitInv reg) where
  start := fun _ _ _ h _ => h.start
  reap := fun _ r h => h.reap r
  advance := fun s dt h => h.congr rfl (Nat.le_add_right s.clock dt) (fun _ => rfl) []
    (by simp) (by simp [NoRestart])
  kill := fun _ _ _ h => h.emit (by simp [NoRestart])
  cgroup := fun _ _ h => h.emit (by simp [NoRestart])
  stopping := fun _ _ h => h.emit (by simp [NoRestart])
  shutdown := fun _ h => h.emit (by simp [NoRestart])
  setState := fun _ _ _ h => h.congr rfl (le_refl _) (by simp) [] (by simp)
    (by simp [NoRestart])
  setShuttingDown := fun _ h => h.congr rfl (le_refl _) (fun _ => rfl) [] (by simp)
    (by simp [NoRestart])
  restoreShuttingDown := fun _ _ _ h => h.congr rfl (le_refl _) (fun _ => rfl) [] (by simp)
    (by simp [NoRestart])
  setPending := fun _ _ h => h.congr rfl (le_refl _) (fun _ => rfl) [] (by simp)
    (by simp [NoRestart])
  registry := by
    intro s target unit h
    obtain ⟨hregistry, hunits, -, -, -, hclock, htrace⟩ := addWantedBy_frame s target unit
    exact h.congr hregistry (le_of_eq hclock.symm) (by simp [hunits]) []
      (by simp [htrace]) (by simp [NoRestart])

/-- **A restart that is scheduled is one that will be tried**: each mark in the history comes with
one entry of the pending restarts, for its unit and not before its time, and no entry comes
without. -/
theorem scheduled_pending (s : SupervisorState) (u : UnitId) (exitedClean signaled : Bool) :
    ∃ es entries, (s.maybeScheduleRestart u exitedClean signaled).trace = s.trace ++ es ∧
      (s.maybeScheduleRestart u exitedClean signaled).pendingRestarts =
        s.pendingRestarts ++ entries ∧
      List.Forall₂ (fun now entry => entry.unit = u ∧ now ≤ entry.fireAt) (scheduledTimes u es)
        entries := by
  rcases maybeScheduleRestart_cases s u exitedClean signaled with
    ⟨-, heq⟩ | ⟨service, -, -, ⟨-, heq⟩ | ⟨-, delay, heq⟩⟩
  · rw [heq]
    exact ⟨[], [], (List.append_nil _).symm, (List.append_nil _).symm, .nil⟩
  · rw [heq]
    refine ⟨[.suppressed u s.clock], [], by simp, by simp, ?_⟩
    simp [scheduledTimes]
  · rw [heq]
    refine ⟨[.scheduled u s.clock], [⟨u, s.clock + delay⟩], by simp, by simp, ?_⟩
    simp [scheduledTimes]

/-- **The restart rate limit**, in every run and for every service unit: in no window as long as the
start-limit interval are more restarts scheduled than the burst, every suppressed restart met a
window with exactly that many, and a wanted restart that does not meet one is scheduled. -/
theorem restart_rate_limited (alloc : PidAllocator) (reg : UnitRegistry) (fake : Bool)
    (ops : List Op) (u : UnitId) (service : ServiceSection)
    (hservice : (reg.get u).file.service = some service) :
    let s := reached (run (step alloc) (SupervisorState.new reg fake) ops)
    (0 < service.startLimitBurst →
      ∀ x, inWindow (limitInterval service) x (scheduledTimes u s.trace) ≤
        service.startLimitBurst) ∧
    (∀ pre now, pre ++ [.suppressed u now] <+: s.trace →
      0 < service.startLimitBurst ∧
        inLast (limitInterval service) now (scheduledTimes u pre) = service.startLimitBurst) ∧
    ∀ exitedClean signaled, wantRestart service exitedClean signaled = true →
      (s.maybeScheduleRestart u exitedClean signaled).trace =
        if 0 < service.startLimitBurst ∧
            inLast (limitInterval service) s.clock (scheduledTimes u s.trace) =
              service.startLimitBurst
        then s.trace ++ [.suppressed u s.clock]
        else s.trace ++ [.scheduled u s.clock] := by
  intro s
  have h : LimitInv reg s := limit_opInv.run (LimitInv.new reg fake) ops
  have hwindow := h.window u service hservice
  refine ⟨hwindow.bounded, fun pre now hpre => h.suppressed pre u now hpre service hservice, ?_⟩
  intro exitedClean signaled hwant
  rcases maybeScheduleRestart_cases s u exitedClean signaled with
    ⟨hno, -⟩ | ⟨service', hservice', -, ⟨hlimit, heq⟩ | ⟨hlimit, delay, heq⟩⟩
  · rw [hno service (h.get u ▸ hservice)] at hwant
    cases hwant
  · rw [h.get, hservice, Option.some.injEq] at hservice'
    subst hservice'
    rw [if_pos ⟨hlimit.1, hwindow.full hlimit.1 hlimit.2⟩, heq]
    simp
  · rw [h.get, hservice, Option.some.injEq] at hservice'
    subst hservice'
    rw [if_neg, heq]
    · simp
    · intro h'
      obtain ⟨hb, hcount⟩ := h'
      refine hlimit ⟨hb, ?_⟩
      rw [← hwindow.length_recent] at hcount
      exact le_of_eq hcount.symm

/-- Two crashes within the first interval of a service that is always restarted. -/
theorem restart_rate_limited_dbusUnits :
    inWindow (fromSecs 30) 0 (scheduledTimes 0
      (reached (run (step .counting) (SupervisorState.new (.fromLoaded dbusUnits) true)
        [startDbus, .reap ⟨0, 1, .exited 1⟩, .advance (fromSecs 5), .fireDueRestarts (fun _ => {}),
          .reap ⟨0, 1, .exited 1⟩])).trace) ≤ 3 :=
  (restart_rate_limited .counting (.fromLoaded dbusUnits) true _ 0 _ rfl).1 (by decide) 0

end SupervisorState

end WriteonceOs.Svc
