import Mathlib.Data.List.AList

/-!
# Inhibitor handles

`Inhibit` gives its caller the write end of a pipe and keeps the read end.  When the caller closes
its end, the watcher thread is told of the hang-up and drops the record.  New read ends reach the
watcher through a queue and a wake pipe.

The daemon runs one system call or critical section at a time: `Inhibit` calls in progress, callers
that close their handles and the watcher thread interleave in any way.

* `Daemon.inhibit` — the next step of a call of `Inhibit`;
* `Daemon.watch` — the next step of the watcher thread, `epoll_wait` apart;
* `Daemon.next` — the steps of the daemon, its callers and the kernel.
-/

namespace WriteonceOs.Logind

/-! ### The registry of inhibitors -/

/-- One inhibitor handle. -/
structure Inhibitor where
  id : UInt32
  what : String
  who : String
  why : String
  mode : String
  uid : UInt32
  pid : UInt32
  deriving DecidableEq, Repr

/-- The fields of the shared state that inhibitors live in. -/
structure AppState where
  nextInhibitorId : UInt32
  inhibitors : List Inhibitor
  deriving DecidableEq, Repr

namespace AppState

def new : AppState := ⟨1, []⟩

def allocateInhibitorId (st : AppState) : UInt32 × AppState :=
  (st.nextInhibitorId, { st with nextInhibitorId := st.nextInhibitorId + 1 })

end AppState

/-! ### Calls of `Inhibit` -/

inductive FdoError
  | invalidArgs (msg : String)
  | failed (msg : String)
  deriving DecidableEq, Repr

/-- The arguments of a call, with what the bus daemon answers about its sender. -/
structure InhibitArgs where
  what : String
  who : String
  why : String
  mode : String
  sender : Except String (UInt32 × UInt32)
  deriving Repr

/-- The uid and pid that go into the record; a sender that cannot be resolved counts as root. -/
def InhibitArgs.credentials (args : InhibitArgs) : UInt32 × UInt32 :=
  match args.sender with
  | .ok v => v
  | .error _ => (0, 0)

/-- How far a call has come, with the id and the pipe it has got. -/
inductive Phase
  | asked
  | failed (e : FdoError)
  | recorded (id : UInt32)
  | piped (id : UInt32) (fd : ℕ)
  -- the read end is in the queue, the wake byte is still to be written
  | queued (id : UInt32) (fd : ℕ)
  | woken (id : UInt32) (fd : ℕ)
  -- the caller has the write end
  | returned (id : UInt32) (fd : ℕ)
  | closed (id : UInt32) (fd : ℕ)
  deriving DecidableEq, Repr

structure Call where
  args : InhibitArgs
  phase : Phase
  deriving Repr

/-- The record that a call makes under an id. -/
def Call.inhibitor (call : Call) (id : UInt32) : Inhibitor :=
  { id := id
    what := call.args.what
    who := call.args.who
    why := call.args.why
    mode := call.args.mode
    uid := call.args.credentials.1
    pid := call.args.credentials.2 }

/-! ### The watcher thread and the kernel -/

/-- A read end on its way to the watcher; pipes are told apart by a number, which is not used again
after the pipe is closed. -/
structure AddRequest where
  id : UInt32
  fd : ℕ
  deriving DecidableEq, Repr

structure EpollEvent where
  events : UInt32
  u64 : UInt64
  deriving DecidableEq, Repr

def EPOLLIN : UInt32 := 0x001

def EPOLLERR : UInt32 := 0x008

def EPOLLHUP : UInt32 := 0x010

/-- The sentinel that stands for the wake pipe, `u64::MAX`. -/
def wakeToken : UInt64 := 0xFFFFFFFFFFFFFFFF

/-- What the epoll instance can watch. -/
inductive Watched
  | wakeRead
  | handle (fd : ℕ)
  deriving DecidableEq, Repr

/-- One entry of the epoll interest list. -/
structure Interest where
  fd : Watched
  event : EpollEvent
  deriving DecidableEq, Repr

/-- What `new` registers for the wake pipe. -/
def wakeInterest : Interest := ⟨.wakeRead, ⟨EPOLLIN, wakeToken⟩⟩

/-- What `drain_pending` registers for a read end. -/
def AddRequest.interest (req : AddRequest) : Interest :=
  ⟨.handle req.fd, ⟨EPOLLHUP ||| EPOLLERR, req.id.toUInt64⟩⟩

/-- Where the watcher thread stands. -/
inductive Thread
  -- at the head of the loop
  | top
  -- in `drain_pending`, with the requests taken and not yet added
  | draining (batch : List AddRequest)
  -- the first request is added to epoll and not yet in the map
  | inserting (req : AddRequest) (batch : List AddRequest)
  -- about to call `epoll_wait`
  | waiting
  | serving (events : List EpollEvent)
  -- in `release`, with the read end closed and the record still there
  | releasing (id : UInt32) (events : List EpollEvent)
  | stopped
  deriving DecidableEq, Repr

structure Daemon where
  app : AppState := .new
  pending : List AddRequest := []
  fds : AList (fun _ : UInt32 => ℕ) := ∅
  calls : List Call := []
  thread : Thread := .top
  -- the number of pipes made for handles
  pipes : ℕ := 0
  -- the pipes whose write end is open
  writers : List ℕ := []
  -- the bytes in the wake pipe
  wake : ℕ := 0
  interest : List Interest := [wakeInterest]

/-- What a system call that may fail answers. -/
abbrev Answer := Except String Unit

namespace Daemon

variable (s : Daemon)

/-- Call `c` has come to another point. -/
def move (c : ℕ) (phase : Phase) : Daemon :=
  { s with calls := s.calls.modify c fun call => { call with phase := phase } }

/-- Closing a read end takes it off the interest list. -/
def closeRead (fd : ℕ) : Daemon :=
  { s with interest := s.interest.filter (·.fd ≠ .handle fd) }

/-! ### `Inhibit` -/

/-- The validation of the mode, then the critical section that makes the record. -/
def inhibitRecord (c : ℕ) (call : Call) : Daemon :=
  let mode := call.args.mode
  if mode ≠ "block" ∧ mode ≠ "delay" then
    s.move c (.failed (.invalidArgs ("mode must be 'block' or 'delay', got '" ++ mode ++ "'")))
  else
    let (id, app) := s.app.allocateInhibitorId
    { s.move c (.recorded id) with
      app := { app with inhibitors := app.inhibitors ++ [call.inhibitor id] } }

def makePipeCloexec (c : ℕ) (id : UInt32) : Answer → Daemon
  | .ok () =>
    { s.move c (.piped id s.pipes) with
      pipes := s.pipes + 1
      writers := s.pipes :: s.writers }
  | .error e => s.move c (.failed (.failed ("pipe: " ++ e)))

/-- The first half of `register`: the critical section of the queue. -/
def registerPush (c : ℕ) (req : AddRequest) : Daemon :=
  { s.move c (.queued req.id req.fd) with pending := s.pending ++ [req] }

/-- The second half of `register`: one byte into the wake pipe, whose failure is ignored. -/
def registerWake (c : ℕ) (req : AddRequest) : Answer → Daemon
  | .ok () => { s.move c (.woken req.id req.fd) with wake := s.wake + 1 }
  | .error _ => s.move c (.woken req.id req.fd)

/-- The next step of a call. -/
def inhibit (c : ℕ) (call : Call) (ans : Answer) : Option Daemon :=
  match call.phase with
  | .asked => some (s.inhibitRecord c call)
  | .recorded id => some (s.makePipeCloexec c id ans)
  | .piped id fd => some (s.registerPush c ⟨id, fd⟩)
  | .queued id fd => some (s.registerWake c ⟨id, fd⟩ ans)
  | .woken id fd => some (s.move c (.returned id fd))
  | .failed _ | .returned .. | .closed .. => none

/-- The caller closes its write end. -/
def closeHandle (c : ℕ) (call : Call) : Option Daemon :=
  match call.phase with
  | .returned id fd =>
    some { s.move c (.closed id fd) with writers := s.writers.filter (· ≠ fd) }
  | _ => none

/-! ### The watcher -/

/-- The entry of one request into the map; a read end that was there under its id is closed. -/
def insertFd (req : AddRequest) : Daemon :=
  match s.fds.lookup req.id with
  | some old => { s.closeRead old with fds := s.fds.insert req.id req.fd }
  | none => { s with fds := s.fds.insert req.id req.fd }

/-- The first half of `release`: the read end leaves the map and is closed, which takes it off the
interest list also where `EPOLL_CTL_DEL` fails. -/
def releaseFd (id : UInt32) : Daemon :=
  match s.fds.lookup id with
  | some fd => { s.closeRead fd with fds := s.fds.erase id }
  | none => s

/-- The second half of `release`: the critical section of the registry. -/
def releaseRecord (id : UInt32) : Daemon :=
  { s with app := { s.app with inhibitors := s.app.inhibitors.filter (·.id ≠ id) } }

/-- One event that `epoll_wait` returned; a read from an empty wake pipe would block. -/
def serve (ev : EpollEvent) (events : List EpollEvent) : Option Daemon :=
  if ev.u64 = wakeToken then
    if s.wake = 0 then none
    else some { s with wake := s.wake - 64, thread := .serving events }
  else if ev.events &&& (EPOLLHUP ||| EPOLLERR) ≠ 0 then
    let id := ev.u64.toUInt32
    some { s.releaseFd id with thread := .releasing id events }
  else some { s with thread := .serving events }

/-- The next step of the watcher thread. -/
def watch (ans : Answer) : Option Daemon :=
  match s.thread with
  | .top => some { s with pending := [], thread := .draining s.pending }
  | .draining [] => some { s with thread := .waiting }
  | .draining (req :: batch) =>
    match ans with
    | .ok () => some { s with
        interest := s.interest ++ [req.interest]
        thread := .inserting req batch }
    -- the read end is closed, and nothing watches the record
    | .error _ => some { s with thread := .draining batch }
  | .inserting req batch => some { s.insertFd req with thread := .draining batch }
  | .serving [] => some { s with thread := .top }
  | .serving (ev :: events) => s.serve ev events
  | .releasing id events => some { s.releaseRecord id with thread := .serving events }
  | .waiting | .stopped => none

/-- What is ready on a descriptor now: the wake pipe has bytes, or a handle has no writer. -/
def poll : Watched → UInt32
  | .wakeRead => if 0 < s.wake then EPOLLIN else 0
  | .handle fd => if fd ∈ s.writers then 0 else EPOLLHUP

/-- The events an interest reports, errors and hang-ups always among them. -/
def revents (i : Interest) : UInt32 := s.poll i.fd &&& (i.event.events ||| EPOLLERR ||| EPOLLHUP)

/-- The interests that `epoll_wait` may report at once: at least one, at most `MAX_EVENTS`, each
ready now and none twice. -/
def Reportable (ready : List Interest) : Prop :=
  ready ≠ [] ∧ ready.length ≤ 32 ∧ ready.Nodup ∧ ∀ i ∈ ready, i ∈ s.interest ∧ s.revents i ≠ 0

instance (ready : List Interest) : Decidable (s.Reportable ready) :=
  inferInstanceAs (Decidable (_ ∧ _ ∧ _ ∧ _))

/-- `epoll_wait` would block. -/
def Blocked : Prop := ∀ i ∈ s.interest, s.revents i = 0

end Daemon

/-! ### Steps of the whole -/

inductive WaitError
  | interrupted
  | other (e : String)
  deriving DecidableEq, Repr

/-- What may happen next. -/
inductive Event
  | ask (args : InhibitArgs)
  -- the thread of call `c` makes its next step
  | inhibit (c : ℕ) (ans : Answer)
  -- the caller of call `c` closes its write end
  | close (c : ℕ)
  | watch (ans : Answer)
  | epollWait (ready : List Interest)
  | epollFail (err : WaitError)

/-- No pipe, `epoll_ctl` or wake write fails. -/
def Event.Succeeds : Event → Prop
  | .inhibit _ ans | .watch ans => ans = .ok ()
  | _ => True

/-- A step of the watcher thread on its own. -/
def Event.OfWatcher : Event → Prop
  | .watch ans => ans = .ok ()
  | .epollWait _ => True
  | _ => False

namespace Daemon

/-- The daemon at startup, with the watcher thread spawned. -/
def new : Daemon := {}

def next (s : Daemon) : Event → Option Daemon
  | .ask args => some { s with calls := s.calls ++ [⟨args, .asked⟩] }
  | .inhibit c ans =>
    match s.calls[c]? with
    | some call => s.inhibit c call ans
    | none => none
  | .close c =>
    match s.calls[c]? with
    | some call => s.closeHandle c call
    | none => none
  | .watch ans => s.watch ans
  | .epollWait ready =>
    if s.thread = .waiting ∧ s.Reportable ready then
      some { s with thread := .serving (ready.map fun i => ⟨s.revents i, i.event.u64⟩) }
    else none
  | .epollFail err =>
    if s.thread = .waiting then
      match err with
      | .interrupted => some { s with thread := .top }
      | .other _ => some { s with thread := .stopped }
    else none

end Daemon

end WriteonceOs.Logind
