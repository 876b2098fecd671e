import WriteonceOs.Svc.EventLoop
import WriteonceOs.Svc.PendingRestarts
import WriteonceOs.Svc.Shutdown

/-!
# The restart timer

Between two wake-ups the loop sleeps until the first pending restart is due, for a minute at most,
and the timeout is cut down to whole milliseconds, so that the loop wakes up too early rather than
too late.  How late a restart can be is then a matter of how late `epoll_wait` returns, and of how
long the work of a wake-up takes, since a stop or a oneshot holds up the loop.

* `computeTimeout` — how long the loop sleeps;
* `computeTimeout_le` — no sleep is too long for a pending restart;
* `Prompt` — a run in which no sleep and no work takes longer than allowed;
* `iteration_onTime` — one turn of the loop leaves no restart overdue;
* `restarts_on_time` — how late the restarts of a run are attempted.
-/

namespace WriteonceOs.Svc

open WriteonceOs.Library

namespace SupervisorState

variable {alloc : PidAllocator} {s t : SupervisorState} {slack work : Duration}

/-! ### How long the loop sleeps -/

def nextRestartDeadline (s : SupervisorState) : Option Instant :=
  (s.pendingRestarts.map (·.fireAt)).min?

/-- The timeout in milliseconds; a negative one is none. -/
def computeTimeout (s : SupervisorState) : ℤ :=
  match s.nextRestartDeadline with
  | none => if s.shuttingDown then 100 else -1
  | some deadline =>
    if deadline ≤ s.clock then 0
    else (BitVec.ofNat 32 (min (deadline - s.clock) (fromMillis 60000) / 1000000)).toInt

/-- The cap keeps the timeout in the range of a C integer. -/
theorem toInt_capped (d : Duration) :
    (BitVec.ofNat 32 (min d (fromMillis 60000) / 1000000)).toInt =
      (min d (fromMillis 60000) / 1000000 : ℕ) := by
  have hcap : min d (fromMillis 60000) / 1000000 ≤ 60000 :=
    Nat.div_le_of_le_mul (Nat.min_le_right _ _)
  have hbound : min d (fromMillis 60000) / 1000000 < 2 ^ 32 := hcap.trans_lt (by norm_num)
  rw [BitVec.toInt_eq_toNat_cond, BitVec.toNat_ofNat, Nat.mod_eq_of_lt hbound, if_pos]
  exact (Nat.mul_le_mul_left 2 hcap).trans_lt (by norm_num)

/-- **No sleep is too long** for a pending restart. -/
theorem computeTimeout_le {r : PendingRestart} (h : r ∈ s.pendingRestarts) :
    0 ≤ s.computeTimeout ∧ s.clock + fromMillis s.computeTimeout.toNat ≤ max s.clock r.fireAt := by
  obtain ⟨deadline, hdeadline⟩ : ∃ deadline, s.nextRestartDeadline = some deadline :=
    Option.isSome_iff_exists.mp (List.isSome_min?_of_mem (List.mem_map_of_mem h))
  have hle : deadline ≤ r.fireAt :=
    (List.min?_eq_some_iff.mp hdeadline).2 _ (List.mem_map_of_mem h)
  rw [computeTimeout, hdeadline]
  dsimp only
  split
  · exact ⟨le_rfl, le_max_left _ _⟩
  · next hlater =>
    rw [toInt_capped]
    refine ⟨Int.natCast_nonneg _, (?_ : _ ≤ r.fireAt).trans (le_max_right _ _)⟩
    have hdown : fromMillis (min (deadline - s.clock) (fromMillis 60000) / 1000000) ≤
        deadline - s.clock := (Nat.div_mul_le_self _ _).trans (Nat.min_le_left _ _)
    rw [Int.toNat_natCast]
    have hlate : s.clock ≤ deadline := (Nat.lt_of_not_le hlater).le
    calc s.clock + _ ≤ s.clock + (deadline - s.clock) := Nat.add_le_add_left hdown _
      _ = deadline := Nat.add_sub_cancel' hlate
      _ ≤ r.fireAt := hle

/-! ### What is promised -/

/-- What `epoll_wait` promises of its timeout: it returns at most `slack` after it has passed, and a
signal interrupts it before that. -/
def Awaits (slack : Duration) (timeout : ℤ) : Wake → Prop
  | .interrupted dt => 0 ≤ timeout → dt ≤ fromMillis timeout.toNat
  | .ready dt _ _ => 0 ≤ timeout → dt ≤ fromMillis timeout.toNat + slack
  | .failed _ => True

/-- The events are handled within `work`, and so are the restarts that are due then. -/
def Brisk (alloc : PidAllocator) (work : Duration) (s : SupervisorState) : Wake → Prop
  | .ready dt events restarts =>
    ∀ res, (s.advance dt).handleEvents alloc events = .ok res → res.2 = .running →
      res.1.clock ≤ (s.advance dt).clock + work ∧
        (res.1.fireDueRestarts alloc restarts).clock ≤ res.1.clock + work
  | _ => True

/-- A run in which every sleep and all the work keep to their times. -/
def Prompt (alloc : PidAllocator) (slack work : Duration) : SupervisorState → List Wake → Prop
  | _, [] => True
  | s, wake :: wakes => Awaits slack s.computeTimeout wake ∧ Brisk alloc work s wake ∧
    ∀ res, s.iteration alloc wake = .ok res → res.2 = .running →
      Prompt alloc slack work res.1 wakes

instance decidableAwaits (slack : Duration) (timeout : ℤ) :
    ∀ wake, Decidable (Awaits slack timeout wake)
  | .interrupted dt => inferInstanceAs (Decidable (0 ≤ timeout → dt ≤ fromMillis timeout.toNat))
  | .ready dt _ _ =>
    inferInstanceAs (Decidable (0 ≤ timeout → dt ≤ fromMillis timeout.toNat + slack))
  | .failed _ => inferInstanceAs (Decidable True)

instance decidableBrisk (alloc : PidAllocator) (work : Duration) (s : SupervisorState) :
    ∀ wake, Decidable (Brisk alloc work s wake)
  | .ready dt events restarts =>
    inferInstanceAs (Decidable (∀ res, (s.advance dt).handleEvents alloc events = .ok res →
      res.2 = .running → res.1.clock ≤ (s.advance dt).clock + work ∧
        (res.1.fireDueRestarts alloc restarts).clock ≤ res.1.clock + work))
  | .interrupted _ => inferInstanceAs (Decidable True)
  | .failed _ => inferInstanceAs (Decidable True)

instance decidablePrompt (alloc : PidAllocator) (slack work : Duration) :
    ∀ (s : SupervisorState) (wakes : List Wake), Decidable (Prompt alloc slack work s wakes)
  | _, [] => inferInstanceAs (Decidable True)
  | s, wake :: wakes =>
    have : ∀ t, Decidable (Prompt alloc slack work t wakes) := fun t =>
      decidablePrompt alloc slack work t wakes
    inferInstanceAs (Decidable (_ ∧ _ ∧ ∀ res, s.iteration alloc wake = .ok res →
      res.2 = .running → Prompt alloc slack work res.1 wakes))

/-! ### The events of a wake-up -/

/-- A restart that was scheduled since is due later. -/
structure Since (s t : SupervisorState) : Prop where
  clock : s.clock ≤ t.clock
  pending : ∀ r ∈ t.pendingRestarts, r ∈ s.pendingRestarts ∨ s.clock ≤ r.fireAt

theorem since_opInv (alloc : PidAllocator) (s : SupervisorState) :
    OpInv alloc (fun _ _ _ => True) s.Since where
  start := fun t id ans h _ =>
    ⟨h.clock.trans (start_frame alloc t id ans).clock,
      (start_frame alloc t id ans).pendingRestarts ▸ h.pending⟩
  reap := fun t r h => by
    have hlater : s.clock ≤ t.clock + r.dt := h.clock.trans (Nat.le_add_right _ _)
    cases ReapStep.of_reap t r with
    | untracked _ heq =>
      rw [heq]
      exact ⟨hlater, h.pending⟩
    | quiet id _ frame _ hpending => exact ⟨frame.clock ▸ hlater, hpending ▸ h.pending⟩
    | suppressed id _ frame _ _ _ _ _ hpending =>
      exact ⟨frame.clock ▸ hlater, hpending ▸ h.pending⟩
    | scheduled id _ frame _ _ _ _ _ hpending =>
      obtain ⟨delay, hpending⟩ := hpending
      refine ⟨frame.clock ▸ hlater, fun r' hr' => ?_⟩
      rw [hpending] at hr'
      rcases List.mem_append.mp hr' with hr' | hr'
      · exact h.pending r' hr'
      · obtain rfl := List.mem_singleton.mp hr'
        exact .inr (hlater.trans (Nat.le_add_right _ _))
  advance := fun t dt h => ⟨h.clock.trans (Nat.le_add_right _ _), h.pending⟩
  kill := fun _ _ _ h => ⟨h.clock, h.pending⟩
  cgroup := fun _ _ h => ⟨h.clock, h.pending⟩
  stopping := fun _ _ h => ⟨h.clock, h.pending⟩
  shutdown := fun _ h => ⟨h.clock, h.pending⟩
  setState := fun _ _ _ h => ⟨h.clock, h.pending⟩
  setShuttingDown := fun _ h => ⟨h.clock, h.pending⟩
  restoreShuttingDown := fun _ _ _ h => ⟨h.clock, h.pending⟩
  setPending := fun _ _ h => ⟨h.clock, fun r hr => h.pending r (List.mem_of_mem_filter hr)⟩
  registry := fun t target unit h => by
    obtain ⟨-, -, -, hpending, -, hclock, -⟩ := addWantedBy_frame t target unit
    exact ⟨hclock ▸ h.clock, hpending ▸ h.pending⟩

theorem since_handleEvents {events : List Event} {status : LoopStatus}
    (h : s.handleEvents alloc events = .ok (t, status)) : Since s t := by
  have hrun : run (step alloc) s (s.eventsOps alloc events) =
      (s.handleEvents alloc events).map Prod.fst := handleEvents_run events s
  have hinv := (since_opInv alloc s).run ⟨le_rfl, fun r hr => .inl hr⟩ (s.eventsOps alloc events)
  rw [hrun, h] at hinv
  exact hinv

/-- The timer attempts no restart that was due more than `late` ago. -/
def FiresWithin (late : Duration) (s : SupervisorState) : Op → Prop
  | .fireDueRestarts _ => ∀ r ∈ s.dueEntries, s.clock ≤ r.fireAt + late
  | _ => True

/-- Only the turn of the loop itself asks the timer. -/
def Untimed : Op → Prop
  | .fireDueRestarts _ => False
  | _ => True

theorem Untimed.firesWithin {op : Op} (h : Untimed op) {late : Duration} :
    FiresWithin late s op := by
  cases op with
  | fireDueRestarts answers => exact h.elim
  | _ => trivial

theorem untimed_nil : ∀ op ∈ ([] : List Op), Untimed op := List.forall_mem_nil _

theorem untimed_cons {op : Op} {ops : List Op} (hop : Untimed op) (hops : ∀ op ∈ ops, Untimed op) :
    ∀ op' ∈ op :: ops, Untimed op' := List.forall_mem_cons.mpr ⟨hop, hops⟩

theorem untimed_append {ops ops' : List Op} (h : ∀ op ∈ ops, Untimed op)
    (h' : ∀ op ∈ ops', Untimed op) : ∀ op ∈ ops ++ ops', Untimed op :=
  List.forall_mem_append.mpr ⟨h, h'⟩

theorem untimed_signalOps (reads : List SignalRead) : ∀ op ∈ signalOps reads, Untimed op := by
  induction reads with
  | nil => exact untimed_nil
  | cons read reads ih =>
    cases read with
    | failed => exact untimed_nil
    | child reaps =>
      have hreaps : ∀ op ∈ reaps.map Op.reap, Untimed op :=
        List.forall_mem_map.mpr fun _ _ => trivial
      exact untimed_append hreaps ih
    | terminate => exact untimed_cons trivial ih
    | interrupt => exact untimed_cons trivial ih
    | hangup => exact ih
    | other signo => exact ih

theorem untimed_requestOps (s : SupervisorState) (ans : ControlAnswer) (req : Request) :
    ∀ op ∈ Control.requestOps s ans req, Untimed op := by
  unfold Control.requestOps
  split
  -- a start, a stop and a disable perform one operation or none
  case h_1 | h_2 | h_5 =>
    split
    · exact untimed_nil
    · exact untimed_cons trivial untimed_nil
  -- a restart
  case h_3 =>
    refine untimed_cons trivial ?_
    split
    · exact untimed_cons trivial untimed_nil
    · exact untimed_nil
  -- an enable
  case h_4 =>
    split
    · refine untimed_cons trivial ?_
      split
      · exact untimed_nil
      · exact untimed_cons trivial untimed_nil
    · exact untimed_nil
  case h_6 => exact untimed_nil

theorem untimed_readyOps (accepts : List Accepted) (s : SupervisorState) :
    ∀ op ∈ s.readyOps alloc accepts, Untimed op := by
  induction accepts generalizing s with
  | nil => exact untimed_nil
  | cons a accepts ih =>
    refine untimed_append (untimed_cons trivial (untimed_requestOps _ _ _)) ?_
    split
    · exact untimed_nil
    · exact ih _

theorem untimed_eventsOps (events : List Event) (s : SupervisorState) :
    ∀ op ∈ s.eventsOps alloc events, Untimed op := by
  induction events generalizing s with
  | nil => exact untimed_nil
  | cons event events ih =>
    refine untimed_append ?_ ?_
    · cases event with
      | signalFd reads => exact untimed_signalOps reads
      | listener accepts =>
        refine untimed_append (untimed_readyOps accepts s) ?_
        split
        · exact untimed_cons trivial untimed_nil
        · exact untimed_nil
      | unknown => exact untimed_nil
    · split
      · exact ih _
      · exact untimed_nil

/-! ### A turn of the loop -/

/-- No pending restart is overdue by more than `work`. -/
def OnTime (work : Duration) (s : SupervisorState) : Prop :=
  ∀ r ∈ s.pendingRestarts, s.clock ≤ r.fireAt + work

/-- The sleep ends in time for what was pending. -/
theorem awake_le {dt : Duration} (h : s.OnTime work)
    (hdt : 0 ≤ s.computeTimeout → dt ≤ fromMillis s.computeTimeout.toNat + slack) :
    ∀ r ∈ s.pendingRestarts, s.clock + dt ≤ r.fireAt + work + slack := by
  intro r hr
  obtain ⟨hnonneg, hle⟩ := computeTimeout_le hr
  have hwork : s.clock ≤ r.fireAt + work := h r hr
  have hmax : max s.clock r.fireAt ≤ r.fireAt + work := max_le hwork (Nat.le_add_right _ _)
  calc s.clock + dt ≤ s.clock + (fromMillis s.computeTimeout.toNat + slack) :=
        Nat.add_le_add_left (hdt hnonneg) _
    _ = s.clock + fromMillis s.computeTimeout.toNat + slack := (Nat.add_assoc _ _ _).symm
    _ ≤ r.fireAt + work + slack := Nat.add_le_add_right (hle.trans hmax) _

/-- **The timer of a turn** finds nothing that was due too long ago. -/
theorem iteration_fires {wake : Wake} (h : s.OnTime work)
    (hawaits : Awaits slack s.computeTimeout wake) (hbrisk : Brisk alloc work s wake) :
    Guarded (step alloc) (FiresWithin (slack + 2 * work)) s (s.iterationOps alloc wake) := by
  cases wake with
  | interrupted dt => exact ⟨trivial, fun _ _ => trivial⟩
  | failed dt => exact ⟨trivial, fun _ _ => trivial⟩
  | ready dt events restarts =>
    refine ⟨trivial, fun t ht => ?_⟩
    cases ht
    refine guarded_append.mpr ⟨guarded_of_forall (fun op hop _ =>
      (untimed_eventsOps events _ op hop).firesWithin) _, fun t ht => ?_⟩
    rw [handleEvents_run] at ht
    cases hevents : (s.advance dt).handleEvents alloc events with
    | error u => trivial
    | ok res =>
      obtain ⟨u, status⟩ := res
      rw [hevents] at ht
      cases ht
      cases status with
      | returned => trivial
      | failed => trivial
      | running =>
        refine ⟨fun r hr => ?_, fun _ _ => trivial⟩
        show u.clock ≤ r.fireAt + (slack + 2 * work)
        have hlate : u.clock ≤ s.clock + dt + work := (hbrisk _ hevents rfl).1
        rcases (since_handleEvents hevents).pending r (List.mem_filter.mp hr).1 with hold | hnew
        · have hawake := awake_le h hawaits r hold
          grind
        · have hlater : s.clock + dt ≤ r.fireAt := hnew
          grind

/-- A turn that leaves the loop running has handled its events and asked the timer. -/
theorem iteration_ready_running {dt : Duration} {events : List Event}
    {restarts : ℕ → StartAnswer}
    (h : s.iteration alloc (.ready dt events restarts) = .ok (t, .running)) :
    ∃ u, (s.advance dt).handleEvents alloc events = .ok (u, .running) ∧
      t = u.fireDueRestarts alloc restarts := by
  rw [iteration] at h
  cases hevents : (s.advance dt).handleEvents alloc events with
  | error u =>
    rw [hevents] at h
    cases h
  | ok res =>
    obtain ⟨u, status⟩ := res
    rw [hevents] at h
    cases status with
    | returned => cases h
    | failed => cases h
    | running =>
      simp only [Except.ok.injEq, Prod.mk.injEq] at h
      exact ⟨u, rfl, h.1.symm⟩

/-- **A turn leaves nothing overdue.** -/
theorem iteration_onTime {wake : Wake} (h : s.OnTime work)
    (hawaits : Awaits slack s.computeTimeout wake) (hbrisk : Brisk alloc work s wake)
    (hturn : s.iteration alloc wake = .ok (t, .running)) : t.OnTime work := by
  cases wake with
  | interrupted dt =>
    cases hturn
    have hdt : 0 ≤ s.computeTimeout → dt ≤ fromMillis s.computeTimeout.toNat + 0 :=
      fun hnonneg => (hawaits hnonneg).trans (Nat.le_add_right _ _)
    exact fun r hr => awake_le h hdt r hr
  | failed dt => cases hturn
  | ready dt events restarts =>
    obtain ⟨u, hevents, rfl⟩ := iteration_ready_running hturn
    intro r hr
    -- what is left was not due when the timer looked
    have hsame : SameEntries u.registry
        (u.setPending (u.pendingRestarts.filter (fun r => ¬ r.fireAt ≤ u.clock)))
        (u.fireDueRestarts alloc restarts) := startEach_entries _ _ _
    have hleft : (u.fireDueRestarts alloc restarts).pendingRestarts =
        u.pendingRestarts.filter (fun r => ¬ r.fireAt ≤ u.clock) := hsame.pending
    rw [hleft] at hr
    have hlater : ¬ r.fireAt ≤ u.clock := of_decide_eq_true (List.mem_filter.mp hr).2
    have hlate : (u.fireDueRestarts alloc restarts).clock ≤ u.clock + work :=
      (hbrisk _ hevents rfl).2
    show (u.fireDueRestarts alloc restarts).clock ≤ r.fireAt + work
    grind

/-! ### Runs -/

/-- The restarts of a run of the loop are attempted within `late` of their times, and none is
overdue by more than `work` when the loop goes to sleep. -/
structure Punctual (alloc : PidAllocator) (late work : Duration) (s : SupervisorState)
    (wakes : List Wake) : Prop where
  fires : Guarded (step alloc) (FiresWithin late) s (s.loopOps alloc wakes)
  waits : ∀ n t, s.eventLoop alloc (wakes.take n) = .ok (t, .running) → t.OnTime work

theorem eventLoop_cons_running {wake : Wake} {wakes : List Wake}
    (h : s.eventLoop alloc (wake :: wakes) = .ok (t, .running)) :
    ∃ u, s.iteration alloc wake = .ok (u, .running) ∧
      u.eventLoop alloc wakes = .ok (t, .running) := by
  rw [eventLoop] at h
  cases hturn : s.iteration alloc wake with
  | error u =>
    rw [hturn] at h
    cases h
  | ok res =>
    obtain ⟨u, status⟩ := res
    rw [hturn] at h
    cases status with
    | returned => cases h
    | failed => cases h
    | running => exact ⟨u, rfl, h⟩

theorem OnTime.punctual {wakes : List Wake} (h : s.OnTime work)
    (hprompt : Prompt alloc slack work s wakes) :
    Punctual alloc (slack + 2 * work) work s wakes := by
  induction wakes generalizing s with
  | nil =>
    refine ⟨trivial, fun n t ht => ?_⟩
    rw [List.take_nil] at ht
    cases ht
    exact h
  | cons wake wakes ih =>
    obtain ⟨hawaits, hbrisk, hrest⟩ := hprompt
    refine ⟨guarded_append.mpr ⟨iteration_fires h hawaits hbrisk, fun t ht => ?_⟩, fun n t ht => ?_⟩
    · rw [iteration_run] at ht
      cases hturn : s.iteration alloc wake with
      | error u => trivial
      | ok res =>
        obtain ⟨u, status⟩ := res
        rw [hturn] at ht
        cases ht
        cases status with
        | returned => trivial
        | failed => trivial
        | running => exact (ih (iteration_onTime h hawaits hbrisk hturn) (hrest _ hturn rfl)).fires
    · cases n with
      | zero =>
        cases ht
        exact h
      | succ n =>
        rw [List.take_succ_cons] at ht
        obtain ⟨u, hturn, hloop⟩ := eventLoop_cons_running ht
        exact (ih (iteration_onTime h hawaits hbrisk hturn) (hrest _ hturn rfl)).waits n t hloop

/-- Nothing is pending when the loop is entered. -/
theorem boot_pendingRestarts {loaded : List LoadedUnit} {fake : Bool} {enabledUnits : List String}
    {defaultTarget : String} {ords : HashOrders} {answers : UnitId → StartAnswer}
    (h : boot alloc loaded fake enabledUnits defaultTarget ords answers = .ok s) :
    s.pendingRestarts = [] := by
  rw [boot] at h
  generalize builtRegistry loaded (enabledUnits.map fun unit => ("multi-user.target", unit)) = reg
    at h
  cases hplan : reg.buildTransaction ords defaultTarget with
  | error e =>
    simp only [SupervisorState.new, hplan] at h
    cases h
  | ok plan =>
    simp only [SupervisorState.new, hplan] at h
    cases h
    have hsame : SameEntries reg (.new reg fake) (activatePlan alloc (.new reg fake)
        (plan.map fun job => (job, answers job.unit))) := startEach_entries _ _ _
    exact hsame.pending

/-- **Restarts are on time**: in every run of the event loop in which `epoll_wait` returns within
`slack` of its timeout, and the events of a wake-up and the restarts after them take `work` at most,
the timer attempts every restart within `slack + 2 * work` of its time, and the loop never goes to
sleep with a restart that is overdue by more than `work`. -/
theorem restarts_on_time {loaded : List LoadedUnit} {fake : Bool} {enabledUnits : List String}
    {defaultTarget : String} {ords : HashOrders} {answers : UnitId → StartAnswer}
    (hboot : boot alloc loaded fake enabledUnits defaultTarget ords answers = .ok s)
    {wakes : List Wake} (hwakes : Prompt alloc slack work s wakes) :
    Punctual alloc (slack + 2 * work) work s wakes := by
  refine OnTime.punctual (fun r hr => ?_) hwakes
  rw [boot_pendingRestarts hboot] at hr
  exact absurd hr List.not_mem_nil

/-- A service crashes and comes back after five seconds, half a second late. -/
def crashAndSleep : List Wake :=
  [.ready (fromSecs 3) [.signalFd [.child [⟨0, 1, .exited 1⟩]]] (fun _ => {}),
    .ready (fromSecs 5 + fromMillis 500) [] (fun _ => {})]

theorem restarts_on_time_crashed :
    Punctual .counting (fromMillis 500 + 2 * 0) 0
      ((SupervisorState.new (.fromLoaded twoServices) true).activatePlan .counting
        [(⟨0, .start, .waiting⟩, {})]) crashAndSleep := by
  have hboot : boot .counting twoServices true [] "dbus.service" ⟨.inserted, .inserted⟩
      (fun _ => {}) = .ok _ := rfl
  exact restarts_on_time hboot (by decide)

end SupervisorState

end WriteonceOs.Svc
