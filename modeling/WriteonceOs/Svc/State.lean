import WriteonceOs.Library.Calls
import WriteonceOs.Svc.Transaction

/-!
# The supervisor state machine

Unit states, the PID table, pending restarts and the shutdown flag, with the operations the event
loop and the control socket call.  The operating system enters through arguments: what a spawn and
the polls of a oneshot return, which children `waitpid` reports and how much time passes.  The
history `trace` records what the supervisor did; the forked children not yet waited for are a
function of it, and a fork returns a PID that is not one of them.

A deadline is the sum of an instant and a duration, and the clock cannot hold every sum.  The
operations that add are `Clocked` programs; under their own names stand their values where no sum
overflows.

* `startUnitInternal` — one start attempt;
* `onChildExit`, `maybeScheduleRestart`, `fireDueRestarts` — exits and restarts;
* `stopUnit` — SIGTERM along the stop transaction, then the synchronous drain;
* `startNamed`, `activatePlan`, `initiateShutdown`, `allUnitsQuiet`.
-/

namespace WriteonceOs.Svc

open WriteonceOs.Library (Calling)

abbrev Pid := ℕ

inductive UnitActiveState where
  | inactive | activating | active | deactivating | failed
  deriving DecidableEq, Repr

@[ext]
structure UnitMeta where
  state : UnitActiveState := .inactive
  pid : Option Pid := none
  restartHistory : List Instant := []
  deriving DecidableEq, Repr

structure PendingRestart where
  unit : UnitId
  fireAt : Instant
  deriving DecidableEq, Repr

/-- The wait status of a child. -/
inductive ExitStatus where
  | exited (code : ℕ)
  | signaled (signal : ℕ)
  deriving DecidableEq, Repr

def ExitStatus.clean : ExitStatus → Bool
  | .exited code => code == 0
  | .signaled _ => false

def ExitStatus.isSignaled : ExitStatus → Bool
  | .exited _ => false
  | .signaled _ => true

inductive Signal where
  | term | kill
  deriving DecidableEq, Repr

/-! ### History -/

/-- What the supervisor does to the world, and the marks of its log. -/
inductive Effect where
  | spawned (unit : UnitId) (pid : Pid)
  | spawnFailed (unit : UnitId)
  | kill (pid : Pid) (signal : Signal)
  | reaped (pid : Pid)
  | removeCgroup (unit : UnitId)
  | scheduled (unit : UnitId) (now : Instant)
  | suppressed (unit : UnitId) (now : Instant)
  | stopping (plan : List UnitId)
  | shutdown
  deriving DecidableEq, Repr

/-- A fork adds a child, a wait removes it. -/
def Effect.onChildren (children : List Pid) : Effect → List Pid
  | .spawned _ pid => pid :: children
  | .reaped pid => children.filter (· ≠ pid)
  | _ => children

/-- The children forked and not yet waited for. -/
def childrenOf (trace : List Effect) : List Pid := trace.foldl Effect.onChildren []

theorem childrenOf_append (trace trace' : List Effect) :
    childrenOf (trace ++ trace') = trace'.foldl Effect.onChildren (childrenOf trace) :=
  List.foldl_append

/-- The kernel's choice of PIDs: never the PID of a child that was not waited for. -/
structure PidAllocator where
  next : List Effect → Pid
  fresh : ∀ trace, next trace ∉ childrenOf trace

theorem le_foldr_max {p : Pid} {children : List Pid} (h : p ∈ children) :
    p ≤ children.foldr max 0 := by
  induction children with
  | nil => cases h
  | cons q children ih =>
    rw [List.foldr_cons]
    rcases List.mem_cons.mp h with rfl | h
    · exact le_max_left _ _
    · exact (ih h).trans (le_max_right _ _)

/-- The PID above those of all children. -/
def PidAllocator.counting : PidAllocator where
  next := fun trace => (childrenOf trace).foldr max 0 + 1
  fresh := fun _ hmem => absurd (le_foldr_max hmem) (Nat.not_succ_le_self _)

/-! ### The state -/

abbrev PidMap := AList (fun _ : Pid => UnitId)

structure SupervisorState where
  registry : UnitRegistry
  units : UnitId → UnitMeta
  byPid : PidMap
  pendingRestarts : List PendingRestart
  shuttingDown : Bool
  fake : Bool
  -- the monotonic clock and the history
  clock : Instant
  trace : List Effect

namespace SupervisorState

/-- A fresh supervisor: every unit inactive. -/
def new (registry : UnitRegistry) (fake : Bool) : SupervisorState where
  registry := registry
  units := fun _ => {}
  byPid := ∅
  pendingRestarts := []
  shuttingDown := false
  fake := fake
  clock := 0
  trace := []

/-! ### Elementary updates -/

@[simps]
def emit (s : SupervisorState) (e : Effect) : SupervisorState := { s with trace := s.trace ++ [e] }

@[simps]
def advance (s : SupervisorState) (dt : Duration) : SupervisorState :=
  { s with clock := s.clock + dt }

@[simps]
def track (s : SupervisorState) (pid : Pid) (id : UnitId) : SupervisorState :=
  { s with byPid := s.byPid.insert pid id }

@[simps]
def untrack (s : SupervisorState) (pid : Pid) : SupervisorState :=
  { s with byPid := s.byPid.erase pid }

@[simps]
def setShuttingDown (s : SupervisorState) (b : Bool) : SupervisorState :=
  { s with shuttingDown := b }

@[simps]
def setPending (s : SupervisorState) (pending : List PendingRestart) : SupervisorState :=
  { s with pendingRestarts := pending }

@[simps registry byPid pendingRestarts shuttingDown fake clock trace]
def setState (s : SupervisorState) (id : UnitId) (state : UnitActiveState) : SupervisorState :=
  { s with units := Function.update s.units id { s.units id with state := state } }

@[simps registry byPid pendingRestarts shuttingDown fake clock trace]
def setPid (s : SupervisorState) (id : UnitId) (pid : Option Pid) : SupervisorState :=
  { s with units := Function.update s.units id { s.units id with pid := pid } }

@[simps registry byPid pendingRestarts shuttingDown fake clock trace]
def setHistory (s : SupervisorState) (id : UnitId) (history : List Instant) : SupervisorState :=
  { s with units := Function.update s.units id { s.units id with restartHistory := history } }

section Fields

variable (s : SupervisorState) (id u : UnitId) (state : UnitActiveState) (pid : Option Pid)
  (history : List Instant)

@[simp] theorem setState_state : ((s.setState id state).units u).state =
    if u = id then state else (s.units u).state := by
  by_cases h : u = id
  · subst h
    simp [setState]
  · simp [setState, h]

@[simp] theorem setState_pid : ((s.setState id state).units u).pid = (s.units u).pid := by
  by_cases h : u = id
  · subst h
    simp [setState]
  · simp [setState, h]

@[simp] theorem setState_restartHistory :
    ((s.setState id state).units u).restartHistory = (s.units u).restartHistory := by
  by_cases h : u = id
  · subst h
    simp [setState]
  · simp [setState, h]

@[simp] theorem setPid_state : ((s.setPid id pid).units u).state = (s.units u).state := by
  by_cases h : u = id
  · subst h
    simp [setPid]
  · simp [setPid, h]

@[simp] theorem setPid_pid : ((s.setPid id pid).units u).pid =
    if u = id then pid else (s.units u).pid := by
  by_cases h : u = id
  · subst h
    simp [setPid]
  · simp [setPid, h]

@[simp] theorem setPid_restartHistory :
    ((s.setPid id pid).units u).restartHistory = (s.units u).restartHistory := by
  by_cases h : u = id
  · subst h
    simp [setPid]
  · simp [setPid, h]

@[simp] theorem setHistory_state : ((s.setHistory id history).units u).state =
    (s.units u).state := by
  by_cases h : u = id
  · subst h
    simp [setHistory]
  · simp [setHistory, h]

@[simp] theorem setHistory_pid : ((s.setHistory id history).units u).pid = (s.units u).pid := by
  by_cases h : u = id
  · subst h
    simp [setHistory]
  · simp [setHistory, h]

@[simp] theorem setHistory_restartHistory : ((s.setHistory id history).units u).restartHistory =
    if u = id then history else (s.units u).restartHistory := by
  by_cases h : u = id
  · subst h
    simp [setHistory]
  · simp [setHistory, h]

end Fields

end SupervisorState

/-! ### What the system answers -/

/-- What a `waitpid` poll of a oneshot returns, and the time since the previous one. -/
inductive WaitPoll where
  | running (dt : Duration)
  | exited (dt : Duration) (status : ExitStatus)
  -- `ECHILD`: there is no such child any more
  | error (dt : Duration)
  deriving DecidableEq, Repr

inductive OneshotOutcome where
  | clean | failed | timedOut
  deriving DecidableEq, Repr

/-- Poll a oneshot until it exits or the deadline has passed, with the time when the wait is over;
when the polls are used up the next one comes at the deadline with the child still running. -/
def waitOneshot (deadline : Instant) : Instant → List WaitPoll → OneshotOutcome × Instant
  | now, [] => (.timedOut, max now deadline)
  | now, .exited dt status :: _ => (if status.clean then .clean else .failed, now + dt)
  | now, .error dt :: _ => (.failed, now + dt)
  | now, .running dt :: polls =>
    if deadline ≤ now + dt then (.timedOut, now + dt) else waitOneshot deadline (now + dt) polls

/-- What the system answers to one start attempt: the spawn, and the polls if it is a oneshot. -/
structure StartAnswer where
  spawn : Except IoError Unit := .ok ()
  polls : List WaitPoll := []
  deriving Repr

/-- A child that `waitpid` reports, and the time since the previous one. -/
structure Reap where
  dt : Duration := 0
  pid : Pid
  status : ExitStatus
  deriving DecidableEq, Repr

/-- Why a request is refused. -/
inductive RequestError where
  | transaction (e : TransactionError)
  | text (message : String)
  deriving DecidableEq, Repr

/-- One pass of the drain: the time since the previous pass and the children reaped in it. -/
structure DrainRound where
  dt : Duration
  reaped : List Reap
  deriving DecidableEq, Repr

/-- What the system answers to one stop. -/
structure StopAnswer where
  ords : HashOrders
  killOrder : HashOrder Pid
  rounds : List DrainRound

/-- The state of a oneshot after its wait. -/
def oneshotState (service : ServiceSection) : OneshotOutcome → UnitActiveState
  | .clean => if service.remainAfterExit then .active else .inactive
  | .failed => .failed
  | .timedOut => .failed

def startTimeout (service : ServiceSection) : Duration :=
  (parseDuration service.timeoutStartSec).getD (fromSecs 30)

def restartDelay (service : ServiceSection) : Duration :=
  (parseDuration service.restartSec).getD (fromSecs 5)

def wantRestart (service : ServiceSection) (exitedClean signaled : Bool) : Bool :=
  match service.restart with
  | .no => false
  | .always => true
  | .onFailure => !exitedClean
  | .onAbnormal => signaled

def limitInterval (service : ServiceSection) : Duration :=
  (parseDuration service.startLimitIntervalSec).getD (fromSecs 10)

/-! ### Sums with the clock -/

/-- A computation that adds durations to instants. -/
abbrev Clocked := Calling (Instant × Duration) Instant

def plus (t : Instant) (d : Duration) : Clocked Instant := .call (t, d) pure

/-- The sum, as if the clock could hold it. -/
def clockSum (i : Instant × Duration) : Instant := i.1 + i.2

@[simp] theorem value_plus (t : Instant) (d : Duration) : (plus t d).value clockSum = t + d := rfl

@[simp] theorem calls_plus (t : Instant) (d : Duration) :
    (plus t d).calls clockSum = [(t, d)] := rfl

namespace SupervisorState

variable (alloc : PidAllocator) (s : SupervisorState)

/-! ### Starting a unit -/

/-- The first hard requirement that is already failed. -/
def failedDep (id : UnitId) : Option UnitId :=
  (s.registry.hardRequirementTargets id).find? (fun dep => (s.units dep).state = .failed)

/-- A oneshot after its wait. -/
def endOneshot (id : UnitId) (pid : Pid) (service : ServiceSection) (outcome : OneshotOutcome) :
    SupervisorState :=
  ((s.setState id (oneshotState service outcome)).setPid id none).untrack pid

/-- The wait for a spawned oneshot and what follows it. -/
def finishOneshotClocked (id : UnitId) (pid : Pid) (service : ServiceSection)
    (polls : List WaitPoll) : Clocked SupervisorState := do
  let deadline ← plus s.clock (startTimeout service)
  let wait := waitOneshot deadline s.clock polls
  let s := { s with clock := wait.2 }
  -- a oneshot that hangs is killed and reaped
  let s := if wait.1 = .timedOut then s.emit (.kill pid .kill) else s
  pure ((s.emit (.reaped pid)).endOneshot id pid service wait.1)

def finishOneshot (id : UnitId) (pid : Pid) (service : ServiceSection) (polls : List WaitPoll) :
    SupervisorState :=
  (s.finishOneshotClocked id pid service polls).value clockSum

@[simp] theorem value_finishOneshotClocked (id : UnitId) (pid : Pid) (service : ServiceSection)
    (polls : List WaitPoll) : (s.finishOneshotClocked id pid service polls).value clockSum =
      s.finishOneshot id pid service polls := rfl

def startUnitInternalClocked (id : UnitId) (ans : StartAnswer) : Clocked SupervisorState :=
  match s.failedDep id with
  | some _ => pure (s.setState id .failed)
  | none =>
    match (s.registry.get id).file.service with
    -- targets have no process
    | none => pure (s.setState id .active)
    | some service =>
      let s := s.setState id .activating
      match ans.spawn with
      | .error _ => pure ((s.emit (.spawnFailed id)).setState id .failed)
      | .ok _ =>
        let pid := alloc.next s.trace
        let s := ((s.emit (.spawned id pid)).setPid id (some pid)).track pid id
        match service.kind with
        | .oneshot => s.finishOneshotClocked id pid service ans.polls
        | _ => pure (s.setState id .active)

def startUnitInternal (id : UnitId) (ans : StartAnswer) : SupervisorState :=
  (s.startUnitInternalClocked alloc id ans).value clockSum

/-- Start attempts one after the other, but for the units that `skip` holds back. -/
def startEach (skip : SupervisorState → UnitId → Bool) :
    SupervisorState → List (UnitId × StartAnswer) → SupervisorState
  | s, [] => s
  | s, (id, ans) :: starts =>
    startEach skip (if skip s id then s else s.startUnitInternal alloc id ans) starts

/-- Run an activation plan; only waiting jobs are started. -/
def activatePlan (plan : List (Job × StartAnswer)) : SupervisorState :=
  s.startEach alloc (fun _ _ => false)
    ((plan.filter (fun p => p.1.state = .waiting)).map fun p => (p.1.unit, p.2))

/-! ### Exits and restarts -/

/-- The restarts scheduled within the last start-limit interval. -/
def recentRestarts (service : ServiceSection) (id : UnitId) : List Instant :=
  (s.units id).restartHistory.filter (fun t => s.clock - t ≤ limitInterval service)

def maybeScheduleRestartClocked (id : UnitId) (exitedClean signaled : Bool) :
    Clocked SupervisorState :=
  match (s.registry.get id).file.service with
  | none => pure s
  | some service =>
    if wantRestart service exitedClean signaled then
      let delay := restartDelay service
      let burst := service.startLimitBurst
      let now := s.clock
      let history := s.recentRestarts service id
      let s := s.setHistory id history
      -- a burst of 0 disables the limit
      if 0 < burst ∧ burst ≤ history.length then
        pure ((s.setState id .failed).emit (.suppressed id now))
      else do
        let s := s.setHistory id (history ++ [now])
        let fireAt ← plus now delay
        pure ((s.setPending (s.pendingRestarts ++ [⟨id, fireAt⟩])).emit (.scheduled id now))
    else pure s

def maybeScheduleRestart (id : UnitId) (exitedClean signaled : Bool) : SupervisorState :=
  (s.maybeScheduleRestartClocked id exitedClean signaled).value clockSum

@[simp] theorem value_maybeScheduleRestartClocked (id : UnitId) (exitedClean signaled : Bool) :
    (s.maybeScheduleRestartClocked id exitedClean signaled).value clockSum =
      s.maybeScheduleRestart id exitedClean signaled := rfl

/-- Remove the control group of a stopped unit, unless the supervisor runs in fake mode. -/
def reapCgroup (id : UnitId) : SupervisorState :=
  if s.fake then s else s.emit (.removeCgroup id)

def onChildExitClocked (pid : Pid) (status : ExitStatus) : Clocked SupervisorState :=
  match s.byPid.lookup pid with
  -- an orphaned grandchild
  | none => pure s
  | some id => do
    let s := (s.untrack pid).setPid id none
    let s := s.setState id
      (if s.shuttingDown then .inactive else if status.clean then .inactive else .failed)
    let s ← (if s.shuttingDown then pure s
      else s.maybeScheduleRestartClocked id status.clean status.isSignaled)
    let restarting := s.pendingRestarts.any (fun r => r.unit = id)
    pure (if !s.shuttingDown && !restarting then s.reapCgroup id else s)

def onChildExit (pid : Pid) (status : ExitStatus) : SupervisorState :=
  (s.onChildExitClocked pid status).value clockSum

def reapChildClocked (r : Reap) : Clocked SupervisorState :=
  ((s.advance r.dt).emit (.reaped r.pid)).onChildExitClocked r.pid r.status

/-- `waitpid` reports a child and `on_child_exit` handles it. -/
def reapChild (r : Reap) : SupervisorState :=
  ((s.advance r.dt).emit (.reaped r.pid)).onChildExit r.pid r.status

@[simp] theorem value_reapChildClocked (r : Reap) :
    (s.reapChildClocked r).value clockSum = s.reapChild r := rfl

/-- The units whose restart time has come, in the order of the entries. -/
def dueRestarts : List UnitId :=
  (s.pendingRestarts.filter (fun r => r.fireAt ≤ s.clock)).map (·.unit)

def fireDueRestarts (answers : ℕ → StartAnswer) : SupervisorState :=
  (s.setPending (s.pendingRestarts.filter (fun r => ¬ r.fireAt ≤ s.clock))).startEach alloc
    (fun _ _ => false) (s.dueRestarts.zipIdx.map fun d => (d.1, answers d.2))

/-! ### Stopping -/

/-- The longest stop timeout of the plan. -/
def stopGrace (plan : List UnitId) : Duration :=
  (((plan.filterMap fun id => (s.registry.get id).file.service).filterMap fun service =>
    parseDuration service.timeoutStopSec).max?).getD (fromSecs 10)

/-- The loop body of a stop: drop the unit's restarts and send SIGTERM to its process. -/
def termUnit (id : UnitId) : SupervisorState :=
  let s := s.setPending (s.pendingRestarts.filter (fun r => r.unit ≠ id))
  match (s.units id).pid with
  | some pid => (s.setState id .deactivating).emit (.kill pid .term)
  | none => s.setState id .inactive

/-- Reap one child during a drain. -/
def drainReapClocked (acc : List Pid × SupervisorState) (r : Reap) :
    Clocked (List Pid × SupervisorState) := do
  let s ← acc.2.reapChildClocked r
  pure (acc.1.filter (· ≠ r.pid), s)

def drainReap (acc : List Pid × SupervisorState) (r : Reap) : List Pid × SupervisorState :=
  (drainReapClocked acc r).value clockSum

theorem drainReap_eq (acc : List Pid × SupervisorState) (r : Reap) :
    drainReap acc r = (acc.1.filter (· ≠ r.pid), acc.2.reapChild r) := by
  rw [drainReap, drainReapClocked, Calling.value_bind, value_reapChildClocked, Calling.value_pure]

def killAll (pids : List Pid) : SupervisorState :=
  pids.foldl (fun s pid => s.emit (.kill pid .kill)) s

/-- Wait until every expected child is reaped, escalating to SIGKILL after the grace time.  An error
is a drain that still waits when the rounds are used up. -/
def drainClocked (killOrder : HashOrder Pid) (grace : Duration) (start : Instant) :
    List DrainRound → Bool → List Pid → SupervisorState →
      Clocked (Except SupervisorState SupervisorState)
  | _, _, [], s => pure (.ok s)
  | [], _, _ :: _, s => pure (.error s)
  | round :: rounds, escalated, pid :: expected, s => do
    let s := s.advance round.dt
    let escalate := !escalated && decide (grace < s.clock - start)
    let s := if escalate then s.killAll (killOrder.enum (pid :: expected)) else s
    let acc ← round.reaped.foldlM drainReapClocked (pid :: expected, s)
    drainClocked killOrder grace start rounds (escalated || escalate) acc.1 acc.2

def drain (killOrder : HashOrder Pid) (grace : Duration) (start : Instant)
    (rounds : List DrainRound) (escalated : Bool) (expected : List Pid) (s : SupervisorState) :
    Except SupervisorState SupervisorState :=
  (drainClocked killOrder grace start rounds escalated expected s).value clockSum

/-- Stop `anchor` and everything that depends on it. -/
def stopUnitClocked (anchor : String) (ans : StopAnswer) :
    Clocked (Except SupervisorState (SupervisorState × Except RequestError Unit)) :=
  match s.registry.buildStopTransaction ans.ords anchor with
  | .error e => pure (.ok (s, .error (.transaction e)))
  | .ok plan => do
    let wasShuttingDown := s.shuttingDown
    let grace := s.stopGrace plan
    let expected := (plan.filterMap fun id => (s.units id).pid).dedup
    let s := plan.foldl termUnit ((s.setShuttingDown true).emit (.stopping plan))
    let drained ← drainClocked ans.killOrder grace s.clock ans.rounds false expected s
    pure (drained.map fun s =>
      ((plan.foldl reapCgroup s).setShuttingDown wasShuttingDown, .ok ()))

def stopUnit (anchor : String) (ans : StopAnswer) :
    Except SupervisorState (SupervisorState × Except RequestError Unit) :=
  (s.stopUnitClocked anchor ans).value clockSum

/-- Start a unit and what it needs, but for the units that are active already. -/
def startNamed (name : String) (ords : HashOrders) (answers : UnitId → StartAnswer) :
    SupervisorState × Except RequestError Unit :=
  match s.registry.buildTransaction ords name with
  | .error e => (s, .error (.transaction e))
  | .ok plan =>
    (s.startEach alloc (fun s id => decide ((s.units id).state = .active))
      (plan.map fun job => (job.unit, answers job.unit)), .ok ())

/-! ### Shutdown -/

/-- SIGTERM to the process of a unit, if it has one. -/
def termIfRunning (id : UnitId) : SupervisorState :=
  match (s.units id).pid with
  | some pid => s.emit (.kill pid .term)
  | none => s

def initiateShutdown : SupervisorState :=
  if s.shuttingDown then s
  else ((List.range s.registry.len).foldl termIfRunning
    ((s.setShuttingDown true).setPending [])).emit .shutdown

def allUnitsQuiet : Bool := (List.range s.registry.len).all (fun id => (s.units id).pid.isNone)

end SupervisorState

end WriteonceOs.Svc
