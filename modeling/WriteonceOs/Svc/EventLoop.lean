import WriteonceOs.Svc.Control
import WriteonceOs.Svc.TransactionSpec

/-!
# The event loop

The loop wakes for signals, for control connections and for the restart timer.  Every wake-up is an
argument: the signals read, the children that `waitpid` reports for them, the connections accepted
and what the system answers to them.  A stop that still waits for its children holds up the loop.

* `boot` — what `run` does before the event loop;
* `iteration`, `eventLoop` — the loop;
* `eventLoop_run` — the loop performs the operations `loopOps`, one after the other.
-/

namespace WriteonceOs.Svc

open WriteonceOs.Library

/-- One read of the signalfd; after the last one it reports `EAGAIN`. -/
inductive SignalRead where
  | child (reaps : List Reap)
  | hangup
  | terminate
  | interrupt
  | other (signo : ℕ)
  -- a read error that ends the loop
  | failed
  deriving DecidableEq, Repr

/-- An accepted connection: its request line and the answers to the request. -/
structure Accepted where
  dt : Duration := 0
  line : Except IoError String
  ans : ControlAnswer := {}

inductive Event where
  | signalFd (reads : List SignalRead)
  | listener (accepts : List Accepted)
  | unknown

/-- A return of `epoll_wait` after some time. -/
inductive Wake where
  | interrupted (dt : Duration)
  | failed (dt : Duration)
  | ready (dt : Duration) (events : List Event) (restarts : ℕ → StartAnswer)

inductive LoopStatus where
  | running
  | returned
  | failed
  deriving DecidableEq, Repr

/-- The loop after a part of it, or a stop that still waits. -/
abbrev LoopStep := Except SupervisorState (SupervisorState × LoopStatus)

namespace SupervisorState

variable (alloc : PidAllocator)

/-! ### Before the loop -/

/-- Inject the enabled units, plan the default target and activate it. -/
def boot (loaded : List LoadedUnit) (fake : Bool) (enabledUnits : List String)
    (defaultTarget : String) (ords : HashOrders) (answers : UnitId → StartAnswer) :
    Except TransactionError SupervisorState :=
  let s := SupervisorState.new
    (builtRegistry loaded (enabledUnits.map fun unit => ("multi-user.target", unit))) fake
  match s.registry.buildTransaction ords defaultTarget with
  | .error e => .error e
  | .ok plan => .ok (s.activatePlan alloc (plan.map fun job => (job, answers job.unit)))

/-! ### Signals -/

/-- Reap the children that have exited. -/
def reapChildren (s : SupervisorState) (reaps : List Reap) : SupervisorState :=
  reaps.foldl reapChild s

/-- Read the signalfd until there is no more to read; `false` is a read that failed. -/
def drainSignalfd : SupervisorState → List SignalRead → SupervisorState × Bool
  | s, [] => (s, true)
  | s, .failed :: _ => (s, false)
  | s, .child reaps :: reads => drainSignalfd (s.reapChildren reaps) reads
  | s, .terminate :: reads =>
    drainSignalfd (if s.shuttingDown then s else s.initiateShutdown) reads
  | s, .interrupt :: reads =>
    drainSignalfd (if s.shuttingDown then s else s.initiateShutdown) reads
  | s, .hangup :: reads => drainSignalfd s reads
  | s, .other _ :: reads => drainSignalfd s reads

/-- The operations of the reads. -/
def signalOps : List SignalRead → List Op
  | [] => []
  | .failed :: _ => []
  | .child reaps :: reads => reaps.map .reap ++ signalOps reads
  | .terminate :: reads => .initiateShutdown :: signalOps reads
  | .interrupt :: reads => .initiateShutdown :: signalOps reads
  | .hangup :: reads => signalOps reads
  | .other _ :: reads => signalOps reads

/-! ### Connections -/

/-- Serve one connection; the flag is a request to shut down. -/
def handleOne (s : SupervisorState) (a : Accepted) :
    Except SupervisorState (SupervisorState × Bool) :=
  match Control.handle alloc (s.advance a.dt) a.ans (parseRequest a.line) with
  | .error s => .error s
  | .ok (s, _) => .ok (s, decide (parseRequest a.line = .shutdown))

/-- Serve the waiting connections; the flag is a request to shut down by any of them. -/
def handleReady : SupervisorState → Bool → List Accepted →
    Except SupervisorState (SupervisorState × Bool)
  | s, shutdownRequested, [] => .ok (s, shutdownRequested)
  | s, shutdownRequested, a :: accepts =>
    match s.handleOne alloc a with
    | .error s => .error s
    | .ok (s, requested) => handleReady s (shutdownRequested || requested) accepts

def acceptedOps (s : SupervisorState) (a : Accepted) : List Op :=
  .advance a.dt :: Control.requestOps (s.advance a.dt) a.ans (parseRequest a.line)

/-- The operations of the connections. -/
def readyOps : SupervisorState → List Accepted → List Op
  | _, [] => []
  | s, a :: accepts => s.acceptedOps a ++
    match s.handleOne alloc a with
    | .error _ => []
    | .ok (s, _) => readyOps s accepts

/-! ### The loop -/

def handleEvent (s : SupervisorState) : Event → LoopStep
  | .signalFd reads =>
    let res := s.drainSignalfd reads
    .ok (res.1, if res.2 then .running else .failed)
  | .listener accepts =>
    match s.handleReady alloc false accepts with
    | .error s => .error s
    | .ok (s, true) => .ok (s.initiateShutdown, .running)
    | .ok (s, false) => .ok (s, .running)
  | .unknown => .ok (s, .running)

def eventOps (s : SupervisorState) : Event → List Op
  | .signalFd reads => signalOps reads
  | .listener accepts => s.readyOps alloc accepts ++
    match s.handleReady alloc false accepts with
    | .ok (_, true) => [.initiateShutdown]
    | _ => []
  | .unknown => []

def handleEvents : SupervisorState → List Event → LoopStep
  | s, [] => .ok (s, .running)
  | s, event :: events =>
    match s.handleEvent alloc event with
    | .ok (s, .running) => handleEvents s events
    | res => res

def eventsOps : SupervisorState → List Event → List Op
  | _, [] => []
  | s, event :: events => s.eventOps alloc event ++
    match s.handleEvent alloc event with
    | .ok (s, .running) => eventsOps s events
    | _ => []

/-- One turn of the loop: the events, the restart timer, and the exit condition. -/
def iteration (s : SupervisorState) : Wake → LoopStep
  | .interrupted dt => .ok (s.advance dt, .running)
  | .failed dt => .ok (s.advance dt, .failed)
  | .ready dt events restarts =>
    match (s.advance dt).handleEvents alloc events with
    | .ok (s, .running) =>
      let s := s.fireDueRestarts alloc restarts
      .ok (s, if s.shuttingDown && s.allUnitsQuiet then .returned else .running)
    | res => res

def iterationOps (s : SupervisorState) : Wake → List Op
  | .interrupted dt => [.advance dt]
  | .failed dt => [.advance dt]
  | .ready dt events restarts => .advance dt :: (s.advance dt).eventsOps alloc events ++
    match (s.advance dt).handleEvents alloc events with
    | .ok (_, .running) => [.fireDueRestarts restarts]
    | _ => []

def eventLoop : SupervisorState → List Wake → LoopStep
  | s, [] => .ok (s, .running)
  | s, wake :: wakes =>
    match s.iteration alloc wake with
    | .ok (s, .running) => eventLoop s wakes
    | res => res

/-- The operations of the loop. -/
def loopOps : SupervisorState → List Wake → List Op
  | _, [] => []
  | s, wake :: wakes => s.iterationOps alloc wake ++
    match s.iteration alloc wake with
    | .ok (s, .running) => loopOps s wakes
    | _ => []

/-! ### The loop performs its operations -/

variable {alloc} {s : SupervisorState}

theorem reapChildren_run (reaps : List Reap) (s : SupervisorState) :
    run (step alloc) s (reaps.map .reap) = .ok (s.reapChildren reaps) := by
  induction reaps generalizing s with
  | nil => rfl
  | cons r reaps ih => exact ih (s.reapChild r)

/-- The loop asks for the flag before it shuts down, and so does the shutdown itself. -/
theorem initiateShutdown_unless (s : SupervisorState) :
    (if s.shuttingDown then s else s.initiateShutdown) = s.initiateShutdown := by
  unfold initiateShutdown
  split <;> rfl

theorem drainSignalfd_run (reads : List SignalRead) (s : SupervisorState) :
    run (step alloc) s (signalOps reads) = .ok (s.drainSignalfd reads).1 := by
  induction reads generalizing s with
  | nil => rfl
  | cons read reads ih =>
    cases read with
    | failed => rfl
    | child reaps =>
      rw [signalOps, run_append, reapChildren_run]
      exact ih _
    | terminate =>
      rw [drainSignalfd, initiateShutdown_unless]
      exact ih _
    | interrupt =>
      rw [drainSignalfd, initiateShutdown_unless]
      exact ih _
    | hangup => exact ih s
    | other signo => exact ih s

theorem handleOne_run (s : SupervisorState) (a : Accepted) :
    run (step alloc) s (s.acceptedOps a) = (s.handleOne alloc a).map Prod.fst := by
  have h := Control.handle_run alloc (s.advance a.dt) a.ans (parseRequest a.line)
  rw [acceptedOps, run, step, handleOne]
  simp only [h]
  cases Control.handle alloc (s.advance a.dt) a.ans (parseRequest a.line) with
  | error t => rfl
  | ok res => rfl

theorem handleReady_run (accepts : List Accepted) (s : SupervisorState) (b : Bool) :
    run (step alloc) s (s.readyOps alloc accepts) =
      (s.handleReady alloc b accepts).map Prod.fst := by
  induction accepts generalizing s b with
  | nil => rfl
  | cons a accepts ih =>
    rw [readyOps, run_append_of (handleOne_run s a), handleReady]
    cases s.handleOne alloc a with
    | error t => rfl
    | ok res => exact ih res.1 (b || res.2)

theorem handleEvent_run (s : SupervisorState) (event : Event) :
    run (step alloc) s (s.eventOps alloc event) = (s.handleEvent alloc event).map Prod.fst := by
  cases event with
  | signalFd reads => exact drainSignalfd_run reads s
  | listener accepts =>
    rw [eventOps, run_append_of (handleReady_run accepts s false), handleEvent]
    cases s.handleReady alloc false accepts with
    | error t => rfl
    | ok res =>
      obtain ⟨t, requested⟩ := res
      cases requested with
      | true => rfl
      | false => rfl
  | unknown => rfl

theorem handleEvents_run (events : List Event) (s : SupervisorState) :
    run (step alloc) s (s.eventsOps alloc events) =
      (s.handleEvents alloc events).map Prod.fst := by
  induction events generalizing s with
  | nil => rfl
  | cons event events ih =>
    rw [eventsOps, run_append_of (handleEvent_run s event), handleEvents]
    cases s.handleEvent alloc event with
    | error t => rfl
    | ok res =>
      obtain ⟨t, status⟩ := res
      cases status with
      | running => exact ih t
      | returned => rfl
      | failed => rfl

theorem iteration_run (s : SupervisorState) (wake : Wake) :
    run (step alloc) s (s.iterationOps alloc wake) = (s.iteration alloc wake).map Prod.fst := by
  cases wake with
  | interrupted dt => rfl
  | failed dt => rfl
  | ready dt events restarts =>
    rw [iterationOps, List.cons_append, run, step]
    simp only
    rw [run_append_of (handleEvents_run events (s.advance dt)), iteration]
    cases (s.advance dt).handleEvents alloc events with
    | error t => rfl
    | ok res =>
      obtain ⟨t, status⟩ := res
      cases status with
      | running => rfl
      | returned => rfl
      | failed => rfl

/-- **The event loop performs its operations**, one after the other. -/
theorem eventLoop_run (wakes : List Wake) (s : SupervisorState) :
    run (step alloc) s (s.loopOps alloc wakes) = (s.eventLoop alloc wakes).map Prod.fst := by
  induction wakes generalizing s with
  | nil => rfl
  | cons wake wakes ih =>
    rw [loopOps, run_append_of (iteration_run s wake), eventLoop]
    cases s.iteration alloc wake with
    | error t => rfl
    | ok res =>
      obtain ⟨t, status⟩ := res
      cases status with
      | running => exact ih t
      | returned => rfl
      | failed => rfl

end SupervisorState

end WriteonceOs.Svc
