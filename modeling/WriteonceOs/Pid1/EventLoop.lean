import WriteonceOs.Svc.Config

/-!
# The event loop of PID 1

PID 1 waits on a signalfd, reaps the children that exit, and on the first SIGTERM or SIGINT sends
SIGTERM to its child, waits for the grace period and reboots.  What the system answers to each call
is an argument; the clock is moved by the time that passes between two of its readings.  The loop
keeps a log of what it has received and done.

* `handleSignal`, `drainSignalfd` — what a signal does;
* `timeoutMs` — how long the loop waits, and when it ends;
* `eventLoop` — the loop.
-/

namespace WriteonceOs.Pid1

open WriteonceOs.Svc (Duration Instant fromSecs)

/-! ### Configuration -/

structure Config where
  tty : String := "/dev/tty1"
  child : String := "/bin/sh"
  childArgs : List String := ["sh"]
  shutdownGraceSeconds : UInt64 := 10
  deriving DecidableEq, Repr

def Config.shutdownGrace (cfg : Config) : Duration := fromSecs cfg.shutdownGraceSeconds.toNat

/-! ### What the system answers -/

inductive Signal where
  | hup
  | int
  | kill
  | term
  | chld
  | other (signo : ℕ)
  deriving DecidableEq, Repr

abbrev Errno := ℕ

def eintr : Errno := 4

def eagain : Errno := 11

/-- One read of the signalfd: the time before it, the signal, what `waitpid` then returns for a
SIGCHLD, and the time until the clock is read for a request. -/
structure SignalRead where
  dt : Duration := 0
  signal : Signal
  waits : List ℤ := []
  dtNow : Duration := 0

/-- The reads of one drain; the last one finds the end of the file or fails. -/
structure Drain where
  reads : List SignalRead
  stop : Except Errno Unit := .error eagain

/-- One turn of the loop: the time before the clock is read, and what `epoll_wait` returns. -/
structure Turn where
  dt : Duration := 0
  ready : Except Errno (List Drain)

/-! ### The loop -/

inductive Event where
  | signal (signal : Signal) (now : Instant)
  | reaped (pid : ℤ)
  | kill (pid : ℤ) (signal : Signal)
  | began (now : Instant)
  | wait (now : Instant) (timeoutMs : ℤ)
  | sync
  | reboot (now : Instant)
  deriving DecidableEq, Repr

structure LoopState where
  shuttingDown : Option Instant := none
  childPid : ℤ
  clock : Instant
  log : List Event := []
  deriving DecidableEq, Repr

namespace LoopState

def advance (s : LoopState) (dt : Duration) : LoopState := { s with clock := s.clock + dt }

def record (s : LoopState) (e : Event) : LoopState := { s with log := s.log ++ [e] }

/-- `reap_children`: until `waitpid` has no more. -/
def reapChildren : LoopState → List ℤ → LoopState
  | s, [] => s
  | s, pid :: waits =>
    if pid ≤ 0 then s
    else
      reapChildren
        (record { s with childPid := if pid = s.childPid then 0 else s.childPid } (.reaped pid))
        waits

/-- Send a signal to the child, if it is still there. -/
def killChild (s : LoopState) (signal : Signal) : LoopState :=
  if 0 < s.childPid then s.record (.kill s.childPid signal) else s

/-- The first request begins the shutdown. -/
def beginShutdown (s : LoopState) (dtNow : Duration) : LoopState :=
  let s := (s.killChild .term).advance dtNow
  { s.record (.began s.clock) with shuttingDown := some s.clock }

def handleSignal (s : LoopState) (r : SignalRead) : LoopState :=
  let s := s.advance r.dt
  let s := s.record (.signal r.signal s.clock)
  match r.signal with
  | .chld => s.reapChildren r.waits
  | .hup => s
  | .term | .int => if s.shuttingDown.isNone then s.beginShutdown r.dtNow else s
  | .kill | .other _ => s

def drainSignalfd (s : LoopState) (d : Drain) : LoopState × Option Errno :=
  (d.reads.foldl handleSignal s,
    match d.stop with
    | .ok () => none
    | .error errno => if errno = eagain then none else some errno)

/-- One drain for each event of `epoll_wait`. -/
def drainEach : LoopState → List Drain → LoopState × Option Errno
  | s, [] => (s, none)
  | s, d :: ds =>
    match s.drainSignalfd d with
    | (s, some errno) => (s, some errno)
    | (s, none) => drainEach s ds

def finishShutdown (s : LoopState) : LoopState :=
  ((s.killChild .kill).record .sync).record (.reboot s.clock)

/-- A number of milliseconds as a 32-bit `int`: the low bits in two's complement. -/
def asCInt (ms : ℕ) : ℤ := (BitVec.ofNat 32 ms).toInt

/-- The timeout of the next wait; none when the grace period is over. -/
def timeoutMs (grace : Duration) (s : LoopState) : Option ℤ :=
  match s.shuttingDown with
  | some start =>
    if grace ≤ s.clock - start then none
    else some (max (asCInt ((grace - (s.clock - start)) / 1000000)) 1)
  | none => some (-1)

end LoopState

inductive Outcome where
  | running
  | returned
  | failed (errno : Errno)
  deriving DecidableEq, Repr

open LoopState

/-- What follows the clock reading of a turn. -/
def waitTurn (s : LoopState) (ready : Except Errno (List Drain)) : Option ℤ → LoopState × Outcome
  | none => (s.finishShutdown, .returned)
  | some timeout =>
    let s := s.record (.wait s.clock timeout)
    match ready with
    | .error errno => (s, if errno = eintr then .running else .failed errno)
    | .ok drains => ((s.drainEach drains).1, ((s.drainEach drains).2.map .failed).getD .running)

def turn (grace : Duration) (s : LoopState) (t : Turn) : LoopState × Outcome :=
  waitTurn (s.advance t.dt) t.ready ((s.advance t.dt).timeoutMs grace)

def turns (grace : Duration) : LoopState → List Turn → LoopState × Outcome
  | s, [] => (s, .running)
  | s, t :: ts =>
    match turn grace s t with
    | (s, .running) => turns grace s ts
    | (s, .returned) => (s, .returned)
    | (s, .failed errno) => (s, .failed errno)

/-- The loop from its start; `setup` is the error of `epoll_create1` or `epoll_ctl`. -/
def eventLoop (cfg : Config) (initialChild : ℤ) (clock : Instant) (setup : Option Errno)
    (ts : List Turn) : LoopState × Outcome :=
  match setup with
  | some errno => ({ childPid := initialChild, clock := clock }, .failed errno)
  | none => turns cfg.shutdownGrace { childPid := initialChild, clock := clock } ts

example :
    (eventLoop { shutdownGraceSeconds := 2 } 7 0 none
      [{ ready := .ok [{ reads := [{ signal := .term }] }] },
        { ready := .ok [{ reads := [{ signal := .chld, waits := [7, 31] }] }] },
        { dt := 2000000000, ready := .ok [] }]).1.log =
      [.wait 0 (-1), .signal .term 0, .kill 7 .term, .began 0, .wait 0 2000, .signal .chld 0,
        .reaped 7, .reaped 31, .sync, .reboot 2000000000] := by decide

end WriteonceOs.Pid1
