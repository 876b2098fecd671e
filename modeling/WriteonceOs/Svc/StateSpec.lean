import WriteonceOs.Library.Run
import WriteonceOs.Svc.State

/-!
# What the supervisor's operations change

One statement per operation, from which every invariant of the development is derived.

* `start_frame`, `StartStep.of_start` — a start attempt: what it leaves alone, and the three things
  it can do to the process table;
* `start_state` — the state it leaves the unit in; `oneshotState_wait` — that of a oneshot;
* `ReapFrame`, `ReapStep.of_reap` — a reaped child: what it leaves alone, and what it schedules;
* `reap_lookup`, `reap_pid`, `reap_trace` — the same for the process table and the history alone;
* `startEach_inv`, `drain_expected_inv`, `stopUnit_expected_inv`, `stopUnit_inv` — invariants of the
  loops.
-/

namespace WriteonceOs.Svc

open WriteonceOs.Library

/-- A oneshot service. -/
def UnitRegistry.IsOneshot (reg : UnitRegistry) (id : UnitId) : Prop :=
  ∃ service, (reg.get id).file.service = some service ∧ service.kind = .oneshot

/-- How a oneshot ends. -/
inductive OneshotEnd where
  | exited (status : ExitStatus)
  -- there is no such child
  | gone
  | timedOut
  deriving DecidableEq, Repr

def WaitPoll.isRunning : WaitPoll → Bool
  | .running _ => true
  | .exited _ _ | .error _ => false

def WaitPoll.dt : WaitPoll → Duration
  | .running dt | .exited dt _ | .error dt => dt

/-- What the first poll says that does not find the oneshot running. -/
def endFound : List WaitPoll → OneshotEnd
  | [] => .timedOut
  | .running _ :: polls => endFound polls
  | .exited _ status :: _ => .exited status
  | .error _ :: _ => .gone

/-- The time from the first poll to the last one in a row that finds the oneshot running. -/
def waited (polls : List WaitPoll) : Duration :=
  (polls.takeWhile WaitPoll.isRunning).foldr (fun poll total => poll.dt + total) 0

/-- A oneshot ends as it is found, unless it is found running when the time is up. -/
def oneshotEnd (timeout : Duration) (polls : List WaitPoll) : OneshotEnd :=
  if polls.takeWhile WaitPoll.isRunning ≠ [] ∧ timeout ≤ waited polls then .timedOut
  else endFound polls

/-- **The states that the ends of a oneshot lead to.** -/
def OneshotEnd.state (remainAfterExit : Bool) : OneshotEnd → UnitActiveState
  | .exited (.exited code) =>
    if code = 0 then (if remainAfterExit then .active else .inactive) else .failed
  | .exited (.signaled _) => .failed
  | .gone => .failed
  | .timedOut => .failed

def OneshotEnd.outcome : OneshotEnd → OneshotOutcome
  | .exited status => if status.clean then .clean else .failed
  | .gone => .failed
  | .timedOut => .timedOut

theorem oneshotState_outcome (service : ServiceSection) (e : OneshotEnd) :
    oneshotState service e.outcome = e.state service.remainAfterExit := by
  cases e with
  | exited status =>
    cases status with
    | exited code =>
      by_cases hcode : code = 0
      · simp [OneshotEnd.outcome, OneshotEnd.state, ExitStatus.clean, oneshotState, hcode]
      · simp [OneshotEnd.outcome, OneshotEnd.state, ExitStatus.clean, oneshotState, hcode]
    | signaled signal => rfl
  | gone => rfl
  | timedOut => rfl

theorem OneshotEnd.state_cases (remainAfterExit : Bool) (e : OneshotEnd) :
    e.state remainAfterExit = .failed ∨ e.state remainAfterExit = .active ∨
      e.state remainAfterExit = .inactive := by
  unfold OneshotEnd.state
  split
  · split
    · cases remainAfterExit with
      | true => exact .inr (.inl rfl)
      | false => exact .inr (.inr rfl)
    · exact .inl rfl
  · exact .inl rfl
  · exact .inl rfl
  · exact .inl rfl

/-- The state a unit reaches by itself when nothing holds it back. -/
def ownState (file : UnitFile) (ans : StartAnswer) : UnitActiveState :=
  match file.service with
  | none => .active
  | some service =>
    match ans.spawn with
    | .error _ => .failed
    | .ok _ =>
      match service.kind with
      | .oneshot =>
        (oneshotEnd ((parseDuration service.timeoutStartSec).getD (fromSecs 30)) ans.polls).state
          service.remainAfterExit
      | _ => .active

/-- What an exit may note in the history. -/
def Effect.IsNote : Effect → Prop
  | .removeCgroup _ | .scheduled _ _ | .suppressed _ _ => True
  | _ => False

namespace SupervisorState

variable {alloc : PidAllocator} {s : SupervisorState} {id : UnitId} {ans : StartAnswer}

/-! ### Start attempts -/

/-- The start attempt gets to the spawn, and the spawn succeeds. -/
def Spawns (s : SupervisorState) (id : UnitId) (ans : StartAnswer) : Prop :=
  s.failedDep id = none ∧ (s.registry.get id).file.service ≠ none ∧ ans.spawn = .ok ()

instance (s : SupervisorState) (id : UnitId) (ans : StartAnswer) : Decidable (s.Spawns id ans) :=
  inferInstanceAs (Decidable (_ ∧ _ ∧ _))

/-- What a start attempt leaves alone. -/
structure StartFrame (s s' : SupervisorState) (id : UnitId) : Prop where
  registry : s'.registry = s.registry
  pendingRestarts : s'.pendingRestarts = s.pendingRestarts
  shuttingDown : s'.shuttingDown = s.shuttingDown
  fake : s'.fake = s.fake
  history : ∀ u, (s'.units u).restartHistory = (s.units u).restartHistory
  state : ∀ u, u ≠ id → (s'.units u).state = (s.units u).state
  pid : ∀ u, u ≠ id → (s'.units u).pid = (s.units u).pid
  clock : s.clock ≤ s'.clock

/-- The unit of a start attempt, after the attempt: nothing spawned, a process left running, or a
oneshot that came and went. -/
inductive StartStep (alloc : PidAllocator) (s : SupervisorState) (id : UnitId) (ans : StartAnswer)
    (s' : SupervisorState) : Prop where
  | idle (hspawn : ¬ s.Spawns id ans) (hbyPid : s'.byPid = s.byPid)
      (hpid : (s'.units id).pid = (s.units id).pid)
      (htrace : s'.trace = s.trace ∨
        (s.failedDep id = none ∧ s'.trace = s.trace ++ [.spawnFailed id]))
  | running (hspawn : s.Spawns id ans) (hkind : ¬ s.registry.IsOneshot id)
      (hbyPid : s'.byPid = s.byPid.insert (alloc.next s.trace) id)
      (hpid : (s'.units id).pid = some (alloc.next s.trace))
      (htrace : s'.trace = s.trace ++ [.spawned id (alloc.next s.trace)])
  | oneshot (hspawn : s.Spawns id ans) (hkind : s.registry.IsOneshot id)
      (hbyPid : s'.byPid = (s.byPid.insert (alloc.next s.trace) id).erase (alloc.next s.trace))
      (hpid : (s'.units id).pid = none) (es : List Effect)
      (hes : es = [] ∨ es = [.kill (alloc.next s.trace) .kill])
      (htrace : s'.trace =
        s.trace ++ (.spawned id (alloc.next s.trace) :: es ++ [.reaped (alloc.next s.trace)]))

section Start

theorem StartFrame.trans {s₁ s₂ s₃ : SupervisorState} (h : StartFrame s₁ s₂ id)
    (h' : StartFrame s₂ s₃ id) : StartFrame s₁ s₃ id where
  registry := h'.registry.trans h.registry
  pendingRestarts := h'.pendingRestarts.trans h.pendingRestarts
  shuttingDown := h'.shuttingDown.trans h.shuttingDown
  fake := h'.fake.trans h.fake
  history := fun u => (h'.history u).trans (h.history u)
  state := fun u hu => (h'.state u hu).trans (h.state u hu)
  pid := fun u hu => (h'.pid u hu).trans (h.pid u hu)
  clock := h.clock.trans h'.clock

/-- The wait for a oneshot ends as a poll, or the wait behind its SIGKILL, ends it. -/
theorem finishOneshot_end (s : SupervisorState) (id : UnitId) (pid : Pid)
    (service : ServiceSection) (polls : List WaitPoll) :
    s.finishOneshot id pid service polls =
      let wait := waitOneshot (s.clock + startTimeout service) s.clock polls
      let t := { s with clock := wait.2 }
      ((if wait.1 = .timedOut then t.emit (.kill pid .kill) else t).emit
        (.reaped pid)).endOneshot id pid service wait.1 := rfl

/-- The wait takes no time back. -/
theorem le_waitOneshot (deadline now : Instant) (polls : List WaitPoll) :
    now ≤ (waitOneshot deadline now polls).2 := by
  induction polls generalizing now with
  | nil => exact le_max_left _ _
  | cons poll polls ih =>
    cases poll with
    | exited dt status => exact Nat.le_add_right now dt
    | error dt => exact Nat.le_add_right now dt
    | running dt =>
      rw [waitOneshot]
      split
      · exact Nat.le_add_right now dt
      · exact (Nat.le_add_right now dt).trans (ih (now + dt))

theorem finishOneshot_frame (pid : Pid) (service : ServiceSection) (polls : List WaitPoll) :
    StartFrame s (s.finishOneshot id pid service polls) id := by
  rw [finishOneshot_end]
  have hclock := le_waitOneshot (s.clock + startTimeout service) s.clock polls
  dsimp only [endOneshot]
  split <;> constructor <;> simp +contextual [hclock]

theorem start_frame (alloc : PidAllocator) (s : SupervisorState) (id : UnitId) (ans : StartAnswer) :
    StartFrame s (s.startUnitInternal alloc id ans) id := by
  unfold startUnitInternal startUnitInternalClocked
  cases s.failedDep id with
  | some dep => constructor <;> simp +contextual
  | none =>
    dsimp only
    cases (s.registry.get id).file.service with
    | none => constructor <;> simp +contextual
    | some service =>
      dsimp only
      cases ans.spawn with
      | error e => constructor <;> simp +contextual
      | ok _ =>
        dsimp only
        cases service.kind with
        | oneshot =>
          refine StartFrame.trans ?_ (finishOneshot_frame _ _ _)
          constructor <;> simp +contextual
        | simple => constructor <;> simp +contextual
        | forking => constructor <;> simp +contextual
        | notify => constructor <;> simp +contextual

theorem finishOneshot_trace (s : SupervisorState) (id : UnitId) (pid : Pid)
    (service : ServiceSection) (polls : List WaitPoll) :
    ∃ es, (es = [] ∨ es = [.kill pid .kill]) ∧
      (s.finishOneshot id pid service polls).trace = s.trace ++ (es ++ [.reaped pid]) := by
  rw [finishOneshot_end]
  dsimp only [endOneshot]
  split
  · exact ⟨[.kill pid .kill], Or.inr rfl, by simp⟩
  · exact ⟨[], Or.inl rfl, by simp⟩

theorem finishOneshot_byPid (pid : Pid) (service : ServiceSection) (polls : List WaitPoll) :
    (s.finishOneshot id pid service polls).byPid = s.byPid.erase pid := by
  rw [finishOneshot_end]
  dsimp only [endOneshot]
  split <;> simp

theorem finishOneshot_pid (pid : Pid) (service : ServiceSection) (polls : List WaitPoll) :
    ((s.finishOneshot id pid service polls).units id).pid = none := by
  rw [finishOneshot_end]
  dsimp only [endOneshot]
  split <;> simp

theorem finishOneshot_state (pid : Pid) (service : ServiceSection) (polls : List WaitPoll) :
    ((s.finishOneshot id pid service polls).units id).state =
      oneshotState service (waitOneshot (s.clock + startTimeout service) s.clock polls).1 := by
  rw [finishOneshot_end]
  dsimp only [endOneshot]
  split <;> simp

/-- **A oneshot is waited for to its end**, some time having passed. -/
theorem waitOneshot_end (deadline now : Instant) (polls : List WaitPoll) :
    (waitOneshot deadline now polls).1 =
      (if polls.takeWhile WaitPoll.isRunning ≠ [] ∧ deadline ≤ now + waited polls then
        OneshotEnd.timedOut else endFound polls).outcome := by
  induction polls generalizing now with
  | nil => rfl
  | cons poll polls ih =>
    cases poll with
    | exited dt status => rfl
    | error dt => rfl
    | running dt =>
      have hwaited : now + waited (.running dt :: polls) = now + dt + waited polls :=
        (Nat.add_assoc now dt (waited polls)).symm
      have hruns : (WaitPoll.running dt :: polls).takeWhile WaitPoll.isRunning ≠ [] := nofun
      rw [hwaited, waitOneshot]
      by_cases hup : deadline ≤ now + dt
      · rw [if_pos hup, if_pos ⟨hruns, hup.trans (Nat.le_add_right _ _)⟩]
        rfl
      · rw [if_neg hup, ih]
        have hiff :
            polls.takeWhile WaitPoll.isRunning ≠ [] ∧ deadline ≤ now + dt + waited polls ↔
              (WaitPoll.running dt :: polls).takeWhile WaitPoll.isRunning ≠ [] ∧
                deadline ≤ now + dt + waited polls := by
          refine ⟨fun h => ⟨hruns, h.2⟩, fun h => ⟨fun hnil => hup ?_, h.2⟩⟩
          rw [waited, hnil] at h
          exact h.2
        rw [if_congr hiff rfl rfl]
        rfl

/-- **The outcome of a oneshot is that of the table.** -/
theorem oneshotState_wait (service : ServiceSection) (now : Instant) (polls : List WaitPoll) :
    oneshotState service (waitOneshot (now + startTimeout service) now polls).1 =
      (oneshotEnd ((parseDuration service.timeoutStartSec).getD (fromSecs 30)) polls).state
        service.remainAfterExit := by
  rw [waitOneshot_end, oneshotEnd, startTimeout]
  simp only [Nat.add_le_add_iff_left]
  exact oneshotState_outcome service _

/-- **A start attempt does one of three things to the process table.** -/
theorem StartStep.of_start (alloc : PidAllocator) (s : SupervisorState) (id : UnitId)
    (ans : StartAnswer) : StartStep alloc s id ans (s.startUnitInternal alloc id ans) := by
  unfold startUnitInternal startUnitInternalClocked
  cases hdep : s.failedDep id with
  | some dep =>
    exact .idle (by simp [Spawns, hdep]) (by simp) (by simp) (Or.inl (by simp))
  | none =>
    dsimp only
    cases hservice : (s.registry.get id).file.service with
    | none => exact .idle (by simp [Spawns, hservice]) (by simp) (by simp) (Or.inl (by simp))
    | some service =>
      dsimp only
      cases hspawn : ans.spawn with
      | error e =>
        exact .idle (by simp [Spawns, hspawn]) (by simp) (by simp) (Or.inr ⟨hdep, by simp⟩)
      | ok _ =>
        have hspawns : s.Spawns id ans := ⟨hdep, by simp [hservice], hspawn⟩
        have hone : s.registry.IsOneshot id ↔ service.kind = .oneshot := by
          simp [UnitRegistry.IsOneshot, hservice]
        dsimp only
        cases hkind : service.kind with
        | oneshot =>
          obtain ⟨es, hes, htrace⟩ := finishOneshot_trace
            ((((s.setState id .activating).emit (.spawned id (alloc.next s.trace))).setPid id
              (some (alloc.next s.trace))).track (alloc.next s.trace) id)
            id (alloc.next s.trace) service ans.polls
          refine .oneshot hspawns (hone.mpr hkind) ?_ ?_ es hes ?_
          · simp [finishOneshot_byPid]
          · simp [finishOneshot_pid]
          · simpa using htrace
        | simple =>
          exact .running hspawns (by simp [hone, hkind]) (by simp) (by simp) (by simp)
        | forking =>
          exact .running hspawns (by simp [hone, hkind]) (by simp) (by simp) (by simp)
        | notify =>
          exact .running hspawns (by simp [hone, hkind]) (by simp) (by simp) (by simp)

/-- A failed hard requirement fails the unit; otherwise it reaches its own state. -/
theorem start_state (alloc : PidAllocator) (s : SupervisorState) (id : UnitId) (ans : StartAnswer) :
    ((s.startUnitInternal alloc id ans).units id).state =
    if s.failedDep id = none then ownState (s.registry.get id).file ans else .failed := by
  unfold startUnitInternal startUnitInternalClocked ownState
  cases s.failedDep id with
  | some dep => simp
  | none =>
    dsimp only
    rw [if_pos rfl]
    cases (s.registry.get id).file.service with
    | none => simp
    | some service =>
      dsimp only
      cases ans.spawn with
      | error e => simp
      | ok _ =>
        dsimp only
        cases service.kind with
        | oneshot => simp [finishOneshot_state, oneshotState_wait]
        | simple => simp
        | forking => simp
        | notify => simp

/-- The attempts of a loop, with the state each one finds. -/
def StartsMeet (alloc : PidAllocator) (skip : SupervisorState → UnitId → Bool)
    (G : SupervisorState → UnitId → StartAnswer → Prop) :
    SupervisorState → List (UnitId × StartAnswer) → Prop
  | _, [] => True
  | s, (id, ans) :: starts =>
    (skip s id = false → G s id ans) ∧
      StartsMeet alloc skip G (if skip s id then s else s.startUnitInternal alloc id ans) starts

instance decidableStartsMeet (skip : SupervisorState → UnitId → Bool)
    (G : SupervisorState → UnitId → StartAnswer → Prop) [∀ s id ans, Decidable (G s id ans)] :
    ∀ (s : SupervisorState) (starts : List (UnitId × StartAnswer)),
      Decidable (StartsMeet alloc skip G s starts)
  | _, [] => inferInstanceAs (Decidable True)
  | s, (id, ans) :: starts =>
    have := decidableStartsMeet skip G
      (if skip s id then s else s.startUnitInternal alloc id ans) starts
    inferInstanceAs (Decidable (_ ∧ _))

/-- What every attempt of a loop preserves, the loop preserves. -/
theorem startEach_inv {skip : SupervisorState → UnitId → Bool}
    {G : SupervisorState → UnitId → StartAnswer → Prop} {I : SupervisorState → Prop}
    (hstart : ∀ s id ans, I s → G s id ans → I (s.startUnitInternal alloc id ans))
    (starts : List (UnitId × StartAnswer)) (s : SupervisorState) (hI : I s)
    (hG : StartsMeet alloc skip G s starts) : I (s.startEach alloc skip starts) := by
  induction starts generalizing s with
  | nil => exact hI
  | cons start starts ih =>
    obtain ⟨id, ans⟩ := start
    obtain ⟨hg, hrest⟩ := hG
    refine ih _ ?_ hrest
    split
    · exact hI
    · rename_i hskip
      exact hstart s id ans hI (hg (by simpa using hskip))

end Start

theorem lookup_insert_iff {m : PidMap} {p q : Pid} {u v : UnitId} :
    (m.insert p u).lookup q = some v ↔ (q = p ∧ u = v) ∨ (q ≠ p ∧ m.lookup q = some v) := by
  by_cases h : q = p
  · subst h
    simp
  · simp [AList.lookup_insert_ne h, h]

theorem lookup_erase_iff {m : PidMap} {p q : Pid} {v : UnitId} :
    (m.erase p).lookup q = some v ↔ q ≠ p ∧ m.lookup q = some v := by
  by_cases h : q = p
  · subst h
    simp
  · simp [AList.lookup_erase_ne h, h]

/-! ### Reaped children -/

/-- The restarts scheduled within the last start-limit interval before `now`. -/
def recentAt (s : SupervisorState) (service : ServiceSection) (id : UnitId) (now : Instant) :
    List Instant :=
  (s.units id).restartHistory.filter (fun t => now - t ≤ limitInterval service)

/-- What a reaped child of unit `id` leaves alone, and what it takes from the process table. -/
structure ReapFrame (s : SupervisorState) (r : Reap) (id : UnitId) (s' : SupervisorState) :
    Prop where
  registry : s'.registry = s.registry
  shuttingDown : s'.shuttingDown = s.shuttingDown
  fake : s'.fake = s.fake
  clock : s'.clock = s.clock + r.dt
  byPid : s'.byPid = s.byPid.erase r.pid
  pid : (s'.units id).pid = none
  others : ∀ u, u ≠ id → s'.units u = s.units u

/-- A reaped child: not one of a unit; or one of unit `id`, whose restart is not wanted, scheduled
or suppressed. -/
inductive ReapStep (s : SupervisorState) (r : Reap) (s' : SupervisorState) : Prop where
  | untracked (hlookup : s.byPid.lookup r.pid = none)
      (h : s' = (s.advance r.dt).emit (.reaped r.pid))
  | quiet (id : UnitId) (hlookup : s.byPid.lookup r.pid = some id) (frame : ReapFrame s r id s')
      (hquiet : s.shuttingDown = true ∨ ∀ service, (s.registry.get id).file.service = some service →
        wantRestart service r.status.clean r.status.isSignaled = false)
      (hpending : s'.pendingRestarts = s.pendingRestarts)
      (hhistory : (s'.units id).restartHistory = (s.units id).restartHistory)
      (es : List Effect) (hes : es = [] ∨ es = [.removeCgroup id])
      (htrace : s'.trace = s.trace ++ (.reaped r.pid :: es))
  | scheduled (id : UnitId) (hlookup : s.byPid.lookup r.pid = some id) (frame : ReapFrame s r id s')
      (hflag : s.shuttingDown = false) (service : ServiceSection)
      (hservice : (s.registry.get id).file.service = some service)
      (hwant : wantRestart service r.status.clean r.status.isSignaled = true)
      (hlimit : ¬ (0 < service.startLimitBurst ∧
        service.startLimitBurst ≤ (s.recentAt service id (s.clock + r.dt)).length))
      (hpending : ∃ delay,
        s'.pendingRestarts = s.pendingRestarts ++ [⟨id, s.clock + r.dt + delay⟩])
      (hhistory : (s'.units id).restartHistory =
        s.recentAt service id (s.clock + r.dt) ++ [s.clock + r.dt])
      (htrace : s'.trace = s.trace ++ [.reaped r.pid, .scheduled id (s.clock + r.dt)])
  | suppressed (id : UnitId) (hlookup : s.byPid.lookup r.pid = some id)
      (frame : ReapFrame s r id s') (hflag : s.shuttingDown = false) (service : ServiceSection)
      (hservice : (s.registry.get id).file.service = some service)
      (hwant : wantRestart service r.status.clean r.status.isSignaled = true)
      (hlimit : 0 < service.startLimitBurst ∧
        service.startLimitBurst ≤ (s.recentAt service id (s.clock + r.dt)).length)
      (hpending : s'.pendingRestarts = s.pendingRestarts)
      (hhistory : (s'.units id).restartHistory = s.recentAt service id (s.clock + r.dt))
      (es : List Effect) (hes : es = [] ∨ es = [.removeCgroup id])
      (htrace : s'.trace =
        s.trace ++ ([.reaped r.pid, .suppressed id (s.clock + r.dt)] ++ es))

section Reap

variable {r : Reap}

@[simp] theorem setState_units_of_ne {u : UnitId} (h : u ≠ id) (state : UnitActiveState) :
    (s.setState id state).units u = s.units u :=
  Function.update_of_ne h _ _

@[simp] theorem setPid_units_of_ne {u : UnitId} (h : u ≠ id) (pid : Option Pid) :
    (s.setPid id pid).units u = s.units u :=
  Function.update_of_ne h _ _

@[simp] theorem setHistory_units_of_ne {u : UnitId} (h : u ≠ id) (history : List Instant) :
    (s.setHistory id history).units u = s.units u :=
  Function.update_of_ne h _ _

/-- Removing a control group is at most a mark in the history. -/
theorem reapCgroup_cases (s : SupervisorState) (id : UnitId) :
    s.reapCgroup id = s ∨ s.reapCgroup id = s.emit (.removeCgroup id) := by
  unfold reapCgroup
  split
  · exact Or.inl rfl
  · exact Or.inr rfl

/-- The last step of an exit: the control group of a unit that stays down is removed. -/
theorem cgroup_tail (s : SupervisorState) (id : UnitId) (b : Bool) :
    ∃ es, (es = [] ∨ es = [.removeCgroup id]) ∧
      (if b then s.reapCgroup id else s) = { s with trace := s.trace ++ es } := by
  cases b with
  | false => exact ⟨[], Or.inl rfl, by simp⟩
  | true =>
    rcases reapCgroup_cases s id with h | h
    · exact ⟨[], Or.inl rfl, by simp [h]⟩
    · exact ⟨[.removeCgroup id], Or.inr rfl, by simp [h, emit]⟩

/-- A wanted restart is suppressed when the recent ones fill the burst, else scheduled. -/
theorem maybeScheduleRestart_cases (s : SupervisorState) (id : UnitId) (clean signaled : Bool) :
    ((∀ service, (s.registry.get id).file.service = some service →
        wantRestart service clean signaled = false) ∧
      s.maybeScheduleRestart id clean signaled = s) ∨
    ∃ service, (s.registry.get id).file.service = some service ∧
      wantRestart service clean signaled = true ∧
      (((0 < service.startLimitBurst ∧
            service.startLimitBurst ≤ (s.recentAt service id s.clock).length) ∧
          s.maybeScheduleRestart id clean signaled =
            (((s.setHistory id (s.recentAt service id s.clock)).setState id .failed).emit
              (.suppressed id s.clock))) ∨
        (¬ (0 < service.startLimitBurst ∧
            service.startLimitBurst ≤ (s.recentAt service id s.clock).length) ∧
          ∃ delay, s.maybeScheduleRestart id clean signaled =
            ((((s.setHistory id (s.recentAt service id s.clock)).setHistory id
              (s.recentAt service id s.clock ++ [s.clock])).setPending
                (s.pendingRestarts ++ [⟨id, s.clock + delay⟩])).emit
                  (.scheduled id s.clock)))) := by
  unfold maybeScheduleRestart maybeScheduleRestartClocked
  cases hservice : (s.registry.get id).file.service with
  | none => exact Or.inl ⟨fun _ h => (by cases h), rfl⟩
  | some service =>
    simp only [Calling.value_ite, Calling.value_pure, Calling.value_bind, value_plus]
    cases hwant : wantRestart service clean signaled with
    | false =>
      refine Or.inl ⟨fun service' h => ?_, by simp⟩
      cases h
      exact hwant
    | true =>
      refine Or.inr ⟨service, rfl, hwant, ?_⟩
      by_cases hlimit : 0 < service.startLimitBurst ∧
          service.startLimitBurst ≤ (s.recentAt service id s.clock).length
      · refine Or.inl ⟨hlimit, ?_⟩
        rw [if_pos rfl]
        exact if_pos hlimit
      · refine Or.inr ⟨hlimit, restartDelay service, ?_⟩
        rw [if_pos rfl]
        exact if_neg hlimit

/-- An orphaned grandchild. -/
theorem reapChild_untracked (h : s.byPid.lookup r.pid = none) :
    s.reapChild r = (s.advance r.dt).emit (.reaped r.pid) := by
  rw [reapChild, onChildExit, onChildExitClocked, emit_byPid, advance_byPid, h]
  rfl

/-- A unit whose process is gone. -/
def afterExit (s : SupervisorState) (id : UnitId) (r : Reap) : SupervisorState :=
  ((((s.advance r.dt).emit (.reaped r.pid)).untrack r.pid).setPid id none).setState id
    (if s.shuttingDown then .inactive else if r.status.clean then .inactive else .failed)

/-- Then the restart policy is consulted, and the control group is removed if none is to come. -/
theorem reapChild_tracked (h : s.byPid.lookup r.pid = some id) :
    s.reapChild r =
      let t := if s.shuttingDown then s.afterExit id r
        else (s.afterExit id r).maybeScheduleRestart id r.status.clean r.status.isSignaled
      let restarting := t.pendingRestarts.any (fun r => r.unit = id)
      if !t.shuttingDown && !restarting then t.reapCgroup id else t := by
  rw [reapChild, onChildExit, onChildExitClocked, emit_byPid, advance_byPid, h]
  simp only [Calling.value_bind, Calling.value_ite, Calling.value_pure,
    value_maybeScheduleRestartClocked]
  rfl

/-- **A reaped child does one of four things.** -/
theorem ReapStep.of_reap (s : SupervisorState) (r : Reap) : ReapStep s r (s.reapChild r) := by
  cases hlookup : s.byPid.lookup r.pid with
  | none => exact .untracked hlookup (reapChild_untracked hlookup)
  | some id =>
    rw [reapChild_tracked hlookup]
    -- the state in which the restart policy is consulted
    generalize hs₀ : s.afterExit id r = s₀
    rw [afterExit] at hs₀
    have hregistry : s₀.registry = s.registry := by rw [← hs₀]; simp
    have hflag : s₀.shuttingDown = s.shuttingDown := by rw [← hs₀]; simp
    have hclock : s₀.clock = s.clock + r.dt := by rw [← hs₀]; simp
    have hpending : s₀.pendingRestarts = s.pendingRestarts := by rw [← hs₀]; simp
    have hhistory : (s₀.units id).restartHistory = (s.units id).restartHistory := by
      rw [← hs₀]; simp
    have htrace : s₀.trace = s.trace ++ [.reaped r.pid] := by rw [← hs₀]; simp
    have hframe : ReapFrame s r id s₀ := by
      rw [← hs₀]
      constructor <;> simp +contextual
    have hrecent : ∀ service, s₀.recentAt service id s₀.clock =
        s.recentAt service id (s.clock + r.dt) := by
      intro service
      rw [recentAt, hhistory, hclock, recentAt]
    cases hshut : s.shuttingDown with
    | true =>
      refine .quiet id hlookup ?_ (Or.inl hshut) ?_ ?_ [] (Or.inl rfl) ?_
      all_goals simp only [hflag, hshut, if_true, Bool.not_true, Bool.false_and,
        Bool.false_eq_true, if_false]
      · exact hframe
      · exact hpending
      · exact hhistory
      · exact htrace
    | false =>
      simp only [Bool.false_eq_true, if_false]
      rcases maybeScheduleRestart_cases s₀ id r.status.clean r.status.isSignaled with
        ⟨hno, heq⟩ | ⟨service, hservice, hwant, ⟨hlimit, heq⟩ | ⟨hlimit, delay, heq⟩⟩
      · rw [heq]
        obtain ⟨es, hes, htail⟩ := cgroup_tail s₀ id
          (!s₀.shuttingDown && !s₀.pendingRestarts.any (fun r => r.unit = id))
        rw [htail]
        refine .quiet id hlookup ?_ (Or.inr (hregistry ▸ hno)) hpending hhistory es hes ?_
        · exact ⟨hframe.1, hframe.2, hframe.3, hframe.4, hframe.5, hframe.6, hframe.7⟩
        · simp [htrace]
      · rw [heq]
        obtain ⟨es, hes, htail⟩ := cgroup_tail
          (((s₀.setHistory id (s₀.recentAt service id s₀.clock)).setState id .failed).emit
            (.suppressed id s₀.clock)) id
          (!s₀.shuttingDown && !s₀.pendingRestarts.any (fun r => r.unit = id))
        simp only [emit_shuttingDown, setState_shuttingDown, setHistory_shuttingDown,
          emit_pendingRestarts, setState_pendingRestarts, setHistory_pendingRestarts]
        rw [htail]
        rw [hregistry] at hservice
        rw [hrecent] at hlimit
        refine .suppressed id hlookup ?_ hshut service hservice hwant hlimit ?_ ?_ es hes ?_
        · refine ⟨hframe.1, hframe.2, hframe.3, hframe.4, hframe.5, ?_, fun u hu => ?_⟩
          · simpa using hframe.6
          · simpa [hu] using hframe.7 u hu
        · simpa using hpending
        · simp [hrecent]
        · simp [htrace, hclock]
      · rw [heq]
        simp only [emit_shuttingDown, setPending_shuttingDown, setHistory_shuttingDown,
          emit_pendingRestarts, setPending_pendingRestarts, List.any_append, List.any_cons,
          decide_true, Bool.true_or, Bool.or_true, Bool.not_true, Bool.and_false,
          Bool.false_eq_true, if_false]
        rw [hregistry] at hservice
        rw [hrecent] at hlimit
        refine .scheduled id hlookup ?_ hshut service hservice hwant hlimit ⟨delay, ?_⟩ ?_ ?_
        · refine ⟨hframe.1, hframe.2, hframe.3, hframe.4, hframe.5, ?_, fun u hu => ?_⟩
          · simpa using hframe.6
          · simpa [hu] using hframe.7 u hu
        · simp [hpending, hclock]
        · rw [← hrecent service, ← hclock]
          simp
        · simp [htrace, hclock]

theorem reap_registry (s : SupervisorState) (r : Reap) :
    (s.reapChild r).registry = s.registry := by
  cases ReapStep.of_reap s r with
  | untracked _ heq => rw [heq, emit_registry, advance_registry]
  | quiet _ _ frame => exact frame.registry
  | scheduled _ _ frame => exact frame.registry
  | suppressed _ _ frame => exact frame.registry

theorem reap_shuttingDown (s : SupervisorState) (r : Reap) :
    (s.reapChild r).shuttingDown = s.shuttingDown := by
  cases ReapStep.of_reap s r with
  | untracked _ heq => rw [heq, emit_shuttingDown, advance_shuttingDown]
  | quiet _ _ frame => exact frame.shuttingDown
  | scheduled _ _ frame => exact frame.shuttingDown
  | suppressed _ _ frame => exact frame.shuttingDown

/-- The table loses the entry of the child, if it had one. -/
theorem reap_lookup (s : SupervisorState) (r : Reap) (p : Pid) (u : UnitId) :
    (s.reapChild r).byPid.lookup p = some u ↔ p ≠ r.pid ∧ s.byPid.lookup p = some u := by
  cases ReapStep.of_reap s r with
  | untracked hlookup heq =>
    rw [heq, emit_byPid, advance_byPid, iff_and_self]
    intro hp heq
    rw [heq, hlookup] at hp
    cases hp
  | quiet _ _ frame => rw [frame.byPid, lookup_erase_iff]
  | scheduled _ _ frame => rw [frame.byPid, lookup_erase_iff]
  | suppressed _ _ frame => rw [frame.byPid, lookup_erase_iff]

/-- The unit of the child loses its PID. -/
theorem reap_pid (s : SupervisorState) (r : Reap) (u : UnitId) :
    ((s.reapChild r).units u).pid =
      if s.byPid.lookup r.pid = some u then none else (s.units u).pid := by
  have hframe : ∀ {t : SupervisorState} {id : UnitId}, s.byPid.lookup r.pid = some id →
      ReapFrame s r id t → (t.units u).pid =
        if s.byPid.lookup r.pid = some u then none else (s.units u).pid := by
    intro t id hlookup frame
    by_cases hu : u = id
    · rw [if_pos (hu ▸ hlookup), hu, frame.pid]
    · rw [if_neg, frame.others u hu]
      intro hlost
      rw [hlookup, Option.some.injEq] at hlost
      exact hu hlost.symm
  cases ReapStep.of_reap s r with
  | untracked hlookup heq => simp [heq, hlookup]
  | quiet _ hlookup frame => exact hframe hlookup frame
  | scheduled _ hlookup frame => exact hframe hlookup frame
  | suppressed _ hlookup frame => exact hframe hlookup frame

/-- The history shows the wait, and notes about the unit behind it. -/
theorem reap_trace (s : SupervisorState) (r : Reap) :
    ∃ es, (s.reapChild r).trace = s.trace ++ (.reaped r.pid :: es) ∧ ∀ e ∈ es, e.IsNote := by
  cases ReapStep.of_reap s r with
  | untracked _ heq => exact ⟨[], by simp [heq], by simp⟩
  | quiet _ _ _ _ _ _ es hes htrace =>
    exact ⟨es, htrace, by rcases hes with rfl | rfl <;> simp [Effect.IsNote]⟩
  | scheduled _ _ _ _ _ _ _ _ _ _ htrace => exact ⟨_, htrace, by simp [Effect.IsNote]⟩
  | suppressed id _ _ _ _ _ _ _ _ _ es hes htrace =>
    exact ⟨_, htrace, by rcases hes with rfl | rfl <;> simp [Effect.IsNote]⟩

end Reap

/-! ### Stopping and shutting down -/

section Stop

variable {s' : SupervisorState}

/-- The loop body of a stop, by whether the unit has a process. -/
theorem termUnit_cases (s : SupervisorState) (id : UnitId) :
    (∃ pid, (s.units id).pid = some pid ∧ s.termUnit id =
      (((s.setPending (s.pendingRestarts.filter (fun r => r.unit ≠ id))).setState id
        .deactivating).emit (.kill pid .term))) ∨
    ((s.units id).pid = none ∧ s.termUnit id =
      (s.setPending (s.pendingRestarts.filter (fun r => r.unit ≠ id))).setState id .inactive) := by
  unfold termUnit
  simp only [setPending_units]
  cases (s.units id).pid with
  | none => exact Or.inr ⟨rfl, rfl⟩
  | some pid => exact Or.inl ⟨pid, rfl, rfl⟩

/-- The loop of a stop leaves the flag and the registry alone. -/
theorem termUnits_frame (plan : List UnitId) (s : SupervisorState) :
    (plan.foldl termUnit s).shuttingDown = s.shuttingDown ∧
      (plan.foldl termUnit s).registry = s.registry := by
  have hstep : ∀ (t : SupervisorState) (id : UnitId),
      (t.termUnit id).shuttingDown = t.shuttingDown ∧ (t.termUnit id).registry = t.registry := by
    intro t id
    rcases termUnit_cases t id with ⟨pid, -, heq⟩ | ⟨-, heq⟩
    · rw [heq]
      exact ⟨rfl, rfl⟩
    · rw [heq]
      exact ⟨rfl, rfl⟩
  exact ⟨foldl_frame (·.shuttingDown) (fun t id => (hstep t id).1) s plan,
    foldl_frame (·.registry) (fun t id => (hstep t id).2) s plan⟩

theorem termUnits_byPid (plan : List UnitId) (s : SupervisorState) :
    (plan.foldl termUnit s).byPid = s.byPid := by
  refine foldl_frame (·.byPid) (fun t id => ?_) s plan
  rcases termUnit_cases t id with ⟨pid, -, heq⟩ | ⟨-, heq⟩
  · rw [heq]
    rfl
  · rw [heq]
    rfl

theorem termIfRunning_cases (s : SupervisorState) (id : UnitId) :
    (∃ pid, (s.units id).pid = some pid ∧ s.termIfRunning id = s.emit (.kill pid .term)) ∨
      ((s.units id).pid = none ∧ s.termIfRunning id = s) := by
  unfold termIfRunning
  cases (s.units id).pid with
  | none => exact Or.inr ⟨rfl, rfl⟩
  | some pid => exact Or.inl ⟨pid, rfl, rfl⟩

variable (killOrder : HashOrder Pid) (grace : Duration) (start : Instant)

/-- A drain ends when no child is expected any more. -/
theorem drain_nil (rounds : List DrainRound) (escalated : Bool) (t : SupervisorState) :
    drain killOrder grace start rounds escalated [] t = .ok t := by
  unfold drain
  cases rounds with
  | nil => rfl
  | cons round rounds => rfl

theorem drain_waiting (escalated : Bool) (pid : Pid) (expected : List Pid) (t : SupervisorState) :
    drain killOrder grace start [] escalated (pid :: expected) t = .error t := rfl

/-- One pass of a drain. -/
theorem drain_cons (round : DrainRound) (rounds : List DrainRound) (escalated : Bool) (pid : Pid)
    (expected : List Pid) (s : SupervisorState) :
    drain killOrder grace start (round :: rounds) escalated (pid :: expected) s =
      let s := s.advance round.dt
      let escalate := !escalated && decide (grace < s.clock - start)
      let s := if escalate then s.killAll (killOrder.enum (pid :: expected)) else s
      let acc := round.reaped.foldl drainReap (pid :: expected, s)
      drain killOrder grace start rounds (escalated || escalate) acc.1 acc.2 := by
  unfold drain
  rw [drainClocked, Calling.value_bind, Calling.value_foldlM]
  rfl

/-- What a drain preserves of the expected children, in the state it returns or still waits in. -/
def DrainEnds (M : List Pid → SupervisorState → Prop) :
    Except SupervisorState SupervisorState → Prop
  | .ok t => M [] t
  | .error t => ∃ left, M left t

/-- What passes of the drain, SIGKILLs to expected children and reaped children preserve, the drain
preserves; a reaped child is expected no longer. -/
theorem drain_expected_inv {M : List Pid → SupervisorState → Prop} {P : Reap → Prop}
    (killOrder : HashOrder Pid) (grace : Duration) (start : Instant)
    (hadvance : ∀ expected t dt, M expected t → M expected (t.advance dt))
    (hkill : ∀ expected t, ∀ pid ∈ expected, M expected t → M expected (t.emit (.kill pid .kill)))
    (hreap : ∀ expected t r, P r → M expected t →
      M (expected.filter (· ≠ r.pid)) (t.reapChild r)) :
    ∀ (rounds : List DrainRound) (escalated : Bool) (expected : List Pid) (t : SupervisorState),
      (∀ round ∈ rounds, ∀ r ∈ round.reaped, P r) → M expected t →
      DrainEnds M (drain killOrder grace start rounds escalated expected t) := by
  intro rounds
  induction rounds with
  | nil =>
    intro escalated expected t _ ht
    cases expected with
    | nil => simpa [drain_nil, DrainEnds] using ht
    | cons pid expected => exact ⟨pid :: expected, ht⟩
  | cons round rounds ih =>
    intro escalated expected t hP ht
    cases expected with
    | nil => simpa [drain_nil, DrainEnds] using ht
    | cons pid expected =>
      rw [List.forall_mem_cons] at hP
      rw [drain_cons]
      refine ih _ _ _ hP.2 ?_
      refine List.foldlRecOn (motive := fun acc => M acc.1 acc.2) round.reaped drainReap ?_ ?_
      · dsimp only
        split
        · refine List.foldlRecOn (motive := M (pid :: expected)) _ _ (hadvance _ t round.dt ht)
            fun t ht q hq => hkill _ t q ?_ ht
          exact (killOrder.perm _).mem_iff.mp hq
        · exact hadvance _ t round.dt ht
      · intro acc hacc r hr
        rw [drainReap_eq]
        exact hreap acc.1 acc.2 r (hP.1 r hr) hacc

/-- The children a stop waits for. -/
def expectedPids (s : SupervisorState) (plan : List UnitId) : List Pid :=
  (plan.filterMap fun id => (s.units id).pid).dedup

theorem mem_expectedPids {s : SupervisorState} {plan : List UnitId} {p : Pid} :
    p ∈ s.expectedPids plan ↔ ∃ u ∈ plan, (s.units u).pid = some p := by
  rw [expectedPids, List.mem_dedup, List.mem_filterMap]

/-- What the parts of a stop establish and preserve of the children it still expects. -/
structure StopExpectedInv (s : SupervisorState) (plan : List UnitId) (P : Reap → Prop)
    (M : List Pid → SupervisorState → Prop) : Prop where
  signalled : M (s.expectedPids plan)
    (plan.foldl termUnit ((s.setShuttingDown true).emit (.stopping plan)))
  advance : ∀ expected t dt, M expected t → M expected (t.advance dt)
  kill : ∀ expected t, ∀ pid ∈ expected, M expected t → M expected (t.emit (.kill pid .kill))
  reap : ∀ expected t r, P r → M expected t → M (expected.filter (· ≠ r.pid)) (t.reapChild r)
  cgroup : ∀ t id, M [] t → M [] (t.emit (.removeCgroup id))

/-- What the parts of a stop establish and preserve. -/
structure StopInv (s : SupervisorState) (plan : List UnitId) (P : Reap → Prop)
    (M : SupervisorState → Prop) : Prop where
  signalled : M (plan.foldl termUnit ((s.setShuttingDown true).emit (.stopping plan)))
  advance : ∀ t dt, M t → M (t.advance dt)
  kill : ∀ t pid, M t → M (t.emit (.kill pid .kill))
  reap : ∀ t r, P r → M t → M (t.reapChild r)
  cgroup : ∀ t id, M t → M (t.emit (.removeCgroup id))

theorem stopUnit_refused {s : SupervisorState} {anchor : String} {ans : StopAnswer}
    {e : TransactionError} (h : s.registry.buildStopTransaction ans.ords anchor = .error e) :
    s.stopUnit anchor ans = .ok (s, .error (.transaction e)) := by
  rw [stopUnit, stopUnitClocked, h]
  rfl

/-- A stop with a plan signals, drains and cleans up. -/
theorem stopUnit_planned {s : SupervisorState} {anchor : String} {ans : StopAnswer}
    {plan : List UnitId} (h : s.registry.buildStopTransaction ans.ords anchor = .ok plan) :
    s.stopUnit anchor ans =
      let t := plan.foldl termUnit ((s.setShuttingDown true).emit (.stopping plan))
      (drain ans.killOrder (s.stopGrace plan) t.clock ans.rounds false (s.expectedPids plan) t).map
        fun t => ((plan.foldl reapCgroup t).setShuttingDown s.shuttingDown, .ok ()) := by
  rw [stopUnit, stopUnitClocked, h]
  exact Calling.value_bind clockSum _ _

/-- A stop, up to the end of its drain: refused with nothing changed, unfinished, or finished, with
no child expected any more; what is left are the control groups and the flag. -/
theorem stopUnit_drained (s : SupervisorState) (anchor : String) (ans : StopAnswer)
    {P : Reap → Prop} {M : List UnitId → List Pid → SupervisorState → Prop}
    (hP : ∀ round ∈ ans.rounds, ∀ r ∈ round.reaped, P r)
    (hM : ∀ plan, s.registry.buildStopTransaction ans.ords anchor = .ok plan →
      StopExpectedInv s plan P (M plan)) :
    (∃ e, s.registry.buildStopTransaction ans.ords anchor = .error e ∧
      s.stopUnit anchor ans = .ok (s, .error (.transaction e))) ∨
    ∃ plan, s.registry.buildStopTransaction ans.ords anchor = .ok plan ∧
      ((∃ t left, M plan left t ∧ s.stopUnit anchor ans = .error t) ∨
        ∃ t, M plan [] t ∧ s.stopUnit anchor ans =
          .ok ((plan.foldl reapCgroup t).setShuttingDown s.shuttingDown, .ok ())) := by
  cases hplan : s.registry.buildStopTransaction ans.ords anchor with
  | error e => exact Or.inl ⟨e, rfl, stopUnit_refused hplan⟩
  | ok plan =>
    have h := hM plan hplan
    rw [stopUnit_planned hplan]
    generalize hs₁ : plan.foldl termUnit ((s.setShuttingDown true).emit (.stopping plan)) = s₁
    have hdrain := drain_expected_inv (M := M plan) ans.killOrder (s.stopGrace plan) s₁.clock
      h.advance h.kill h.reap ans.rounds false (s.expectedPids plan) s₁ hP (hs₁ ▸ h.signalled)
    refine Or.inr ⟨plan, rfl, ?_⟩
    cases hd : drain ans.killOrder (s.stopGrace plan) s₁.clock ans.rounds false
        (s.expectedPids plan) s₁ with
    | error t =>
      rw [hd] at hdrain
      obtain ⟨left, ht⟩ := hdrain
      exact Or.inl ⟨t, left, ht, congrArg (Except.map _) hd⟩
    | ok t =>
      rw [hd] at hdrain
      exact Or.inr ⟨t, hdrain, congrArg (Except.map _) hd⟩

/-- **A stop, from its parts**: refused with nothing changed, unfinished, or finished, with no child
expected any more and the flag put back. -/
theorem stopUnit_expected_inv (s : SupervisorState) (anchor : String) (ans : StopAnswer)
    {P : Reap → Prop} {M : List UnitId → List Pid → SupervisorState → Prop}
    (hP : ∀ round ∈ ans.rounds, ∀ r ∈ round.reaped, P r)
    (hM : ∀ plan, s.registry.buildStopTransaction ans.ords anchor = .ok plan →
      StopExpectedInv s plan P (M plan)) :
    (∃ e, s.registry.buildStopTransaction ans.ords anchor = .error e ∧
      s.stopUnit anchor ans = .ok (s, .error (.transaction e))) ∨
    ∃ plan, s.registry.buildStopTransaction ans.ords anchor = .ok plan ∧
      ((∃ t left, M plan left t ∧ s.stopUnit anchor ans = .error t) ∨
        ∃ t, M plan [] t ∧
          s.stopUnit anchor ans = .ok (t.setShuttingDown s.shuttingDown, .ok ())) := by
  rcases stopUnit_drained s anchor ans hP hM with herror | ⟨plan, hplan, hopen | ⟨t, ht, heq⟩⟩
  · exact Or.inl herror
  · exact Or.inr ⟨plan, hplan, Or.inl hopen⟩
  · refine Or.inr ⟨plan, hplan, Or.inr ⟨plan.foldl reapCgroup t, ?_, heq⟩⟩
    refine List.foldlRecOn (motive := M plan []) _ _ ht (fun t ht id _ => ?_)
    rcases reapCgroup_cases t id with h' | h'
    · rw [h']
      exact ht
    · rw [h']
      exact (hM plan hplan).cgroup t id ht

/-- The same for what does not depend on the expected children. -/
theorem stopUnit_inv (s : SupervisorState) (anchor : String) (ans : StopAnswer) {P : Reap → Prop}
    {M : List UnitId → SupervisorState → Prop} (hP : ∀ round ∈ ans.rounds, ∀ r ∈ round.reaped, P r)
    (hM : ∀ plan, s.registry.buildStopTransaction ans.ords anchor = .ok plan →
      StopInv s plan P (M plan)) :
    (∃ e, s.registry.buildStopTransaction ans.ords anchor = .error e ∧
      s.stopUnit anchor ans = .ok (s, .error (.transaction e))) ∨
    ∃ plan t, s.registry.buildStopTransaction ans.ords anchor = .ok plan ∧ M plan t ∧
      (s.stopUnit anchor ans = .error t ∨
        s.stopUnit anchor ans = .ok (t.setShuttingDown s.shuttingDown, .ok ())) := by
  have hstop := stopUnit_expected_inv s anchor ans (P := P) (M := fun plan _ => M plan) hP
    fun plan hplan => ⟨(hM plan hplan).signalled, fun _ => (hM plan hplan).advance,
      fun _ t pid _ => (hM plan hplan).kill t pid, fun _ => (hM plan hplan).reap,
      (hM plan hplan).cgroup⟩
  rcases hstop with he | ⟨plan, hplan, ⟨t, -, ht, heq⟩ | ⟨t, ht, heq⟩⟩
  · exact Or.inl he
  · exact Or.inr ⟨plan, t, hplan, ht, Or.inl heq⟩
  · exact Or.inr ⟨plan, t, hplan, ht, Or.inr heq⟩

/-- A stop that returns, from its parts. -/
theorem stopUnit_ok_inv {anchor : String} {ans : StopAnswer} {res : Except RequestError Unit}
    {P : Reap → Prop} {M : List UnitId → SupervisorState → Prop}
    (hP : ∀ round ∈ ans.rounds, ∀ r ∈ round.reaped, P r)
    (hM : ∀ plan, s.registry.buildStopTransaction ans.ords anchor = .ok plan →
      StopInv s plan P (M plan))
    (h : s.stopUnit anchor ans = .ok (s', res)) :
    s' = s ∨ ∃ plan t, s.registry.buildStopTransaction ans.ords anchor = .ok plan ∧ M plan t ∧
      s' = t.setShuttingDown s.shuttingDown := by
  rcases stopUnit_inv s anchor ans hP hM with ⟨e, -, heq⟩ | ⟨plan, t, hplan, ht, heq | heq⟩
  · rw [heq, Except.ok.injEq, Prod.mk.injEq] at h
    exact Or.inl h.1.symm
  · rw [heq] at h
    cases h
  · rw [heq, Except.ok.injEq, Prod.mk.injEq] at h
    exact Or.inr ⟨plan, t, hplan, ht, h.1.symm⟩

end Stop

/-! ### Tracked processes are children -/

@[simp] theorem childrenOf_spawned (t : List Effect) (u : UnitId) (p : Pid) :
    childrenOf (t ++ [.spawned u p]) = p :: childrenOf t := by
  rw [childrenOf_append]
  rfl

@[simp] theorem childrenOf_reaped (t : List Effect) (p : Pid) :
    childrenOf (t ++ [.reaped p]) = (childrenOf t).filter (· ≠ p) := by
  rw [childrenOf_append]
  rfl

/-- Only forks and waits change the children. -/
theorem childrenOf_other (t : List Effect) {e : Effect} (hs : ∀ u p, e ≠ .spawned u p)
    (hr : ∀ p, e ≠ .reaped p) : childrenOf (t ++ [e]) = childrenOf t := by
  rw [childrenOf_append]
  cases e with
  | spawned u p => exact absurd rfl (hs u p)
  | reaped p => exact absurd rfl (hr p)
  | _ => rfl

theorem childrenOf_notes (t : List Effect) {es : List Effect} (hes : ∀ e ∈ es, e.IsNote) :
    childrenOf (t ++ es) = childrenOf t := by
  rw [childrenOf_append]
  refine List.foldlRecOn (motive := fun children => children = childrenOf t) _ _ rfl
    fun children h e he => ?_
  have hnote := hes e he
  cases e with
  | removeCgroup u => exact h
  | scheduled u now => exact h
  | suppressed u now => exact h
  | _ => cases hnote

/-- Every tracked process is a child that was not waited for. -/
def Tracked (s : SupervisorState) : Prop :=
  ∀ p u, s.byPid.lookup p = some u → p ∈ childrenOf s.trace

theorem Tracked.new (reg : UnitRegistry) (fake : Bool) :
    (SupervisorState.new reg fake).Tracked := by
  intro p u h
  simp [SupervisorState.new] at h

/-- A tracked process does not have the PID of the next fork. -/
theorem Tracked.lookup_next (h : s.Tracked) : s.byPid.lookup (alloc.next s.trace) = none := by
  cases hlookup : s.byPid.lookup (alloc.next s.trace) with
  | none => rfl
  | some u => exact absurd (h _ u hlookup) (alloc.fresh s.trace)

/-- What the oneshot's own entry leaves behind is the table without it. -/
theorem Tracked.oneshot_lookup (h : s.Tracked) (q : Pid) :
    ((s.byPid.insert (alloc.next s.trace) id).erase (alloc.next s.trace)).lookup q =
      s.byPid.lookup q := by
  by_cases hq : q = alloc.next s.trace
  · rw [hq, AList.lookup_erase, h.lookup_next]
  · rw [AList.lookup_erase_ne hq, AList.lookup_insert_ne hq]

theorem childrenOf_oneshot (t : List Effect) (id : UnitId) (p : Pid) (es : List Effect)
    (hes : es = [] ∨ es = [.kill p .kill]) :
    childrenOf (t ++ (.spawned id p :: es ++ [.reaped p])) = (childrenOf t).filter (· ≠ p) := by
  rw [childrenOf_append]
  rcases hes with rfl | rfl
  · simp [Effect.onChildren]
  · simp [Effect.onChildren]

theorem Tracked.start (h : s.Tracked) : (s.startUnitInternal alloc id ans).Tracked := by
  intro p u hlookup
  cases StartStep.of_start alloc s id ans with
  | idle _ hbyPid _ htrace =>
    rw [hbyPid] at hlookup
    rcases htrace with htrace | ⟨-, htrace⟩
    · rw [htrace]
      exact h p u hlookup
    · rw [htrace, childrenOf_other _ (by simp) (by simp)]
      exact h p u hlookup
  | running _ _ hbyPid _ htrace =>
    rw [hbyPid, lookup_insert_iff] at hlookup
    rw [htrace, childrenOf_spawned]
    rcases hlookup with ⟨rfl, -⟩ | ⟨-, hlookup⟩
    · exact List.mem_cons_self
    · exact List.mem_cons_of_mem _ (h p u hlookup)
  | oneshot _ _ hbyPid _ es hes htrace =>
    rw [hbyPid, h.oneshot_lookup] at hlookup
    rw [htrace, childrenOf_oneshot _ _ _ _ hes, List.mem_filter]
    have hmem := h p u hlookup
    refine ⟨hmem, ?_⟩
    simp only [ne_eq, decide_not, Bool.not_eq_eq_eq_not, Bool.not_true, decide_eq_false_iff_not]
    intro heq
    subst heq
    exact alloc.fresh s.trace hmem

end SupervisorState

end WriteonceOs.Svc
