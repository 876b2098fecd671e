import Mathlib.Logic.Function.Basic
import WriteonceOs.Library.Lines
import WriteonceOs.Library.Run
import WriteonceOs.Logind.Inhibitor
import WriteonceOs.Svc.Transaction

/-!
# Sessions

The table of sessions, the calls of the Manager and Session interfaces that touch it, and the
lookups that read it.  A call takes its critical sections, its requests to the object server and its
signals one at a time; calls in progress interleave in any way.

* `SessionState.findSessionByPid` — the session that a process belongs to;
* `SessionState.activeSession` — the property `ActiveSession` of a seat;
* `Shim.serve` — the next step of a call;
* `Shim.next` — the steps of the daemon and its callers.
-/

namespace WriteonceOs.Logind

open WriteonceOs.Library
open WriteonceOs.Svc (HashOrder parseU32 trim)

/-! ### The registry of sessions -/

/-- One logged-in session. -/
structure SessionInfo where
  id : String
  uid : UInt32
  userName : String
  seat : String
  vtnr : UInt32
  display : String
  remote : Bool
  service : String
  sessionClass : String
  sessionType : String
  state : String
  idleHint : Bool
  idleSince : UInt64
  leaderPid : UInt32
  timestampUsec : UInt64
  deriving DecidableEq, Repr

/-- The fields of the shared state that sessions live in. -/
structure SessionState where
  sessions : AList (fun _ : String => SessionInfo)
  nextSessionId : UInt64

def sessionObjectPath (sessionId : String) : String :=
  "/org/freedesktop/login1/session/" ++ sessionId

/-- The parent of a process, from the text of its status file. -/
def readPpid (status : Option (List Char)) : Option UInt32 :=
  match status with
  | none => none
  | some content =>
    match (lines content).find? ("PPid:".toList.isPrefixOf ·) with
    | none => none
    | some line => parseU32 (trim (line.drop 5))

/-- The name of a user in the text of `/etc/passwd`, or the number itself. -/
def lookupUsername (passwd : Option (List Char)) (uid : UInt32) : String :=
  match passwd with
  | none => toString uid.toNat
  | some content =>
    let entry := ((lines content).map (·.splitOn ':')).find? fun fields =>
      parseU32 (fields.getD 2 []) = some uid
    match entry with
    | some fields => String.ofList (fields.getD 0 [])
    | none => toString uid.toNat

namespace SessionState

variable (st : SessionState)

def new : SessionState := ⟨∅, 1⟩

/-- The identifier that the next session gets. -/
def freshId : String := "c" ++ toString st.nextSessionId.toNat

def allocateSessionId : String × SessionState :=
  (st.freshId, { st with nextSessionId := st.nextSessionId + 1 })

/-- The sessions, in the order in which the hash table is iterated. -/
def values (ord : HashOrder SessionInfo) : List SessionInfo :=
  ord.enum (st.sessions.entries.map Sigma.snd)

/-- The walk from a process to its ancestors, for at most so many steps. -/
def findFrom (ord : HashOrder SessionInfo) (ppid : UInt32 → Option UInt32) :
    ℕ → UInt32 → Option SessionInfo
  | 0, _ => none
  | n + 1, current =>
    if current = 0 ∨ current = 1 then none
    else
      match (st.values ord).find? (·.leaderPid = current) with
      | some s => some s
      | none =>
        match ppid current with
        | none => none
        | some parent => findFrom ord ppid n parent

def findSessionByPid (ord : HashOrder SessionInfo) (proc : UInt32 → Option (List Char))
    (pid : UInt32) : Option SessionInfo :=
  st.findFrom ord (fun p => readPpid (proc p)) 32 pid

/-- `Seat.ActiveSession`. -/
def activeSession (ord : HashOrder SessionInfo) (seatId : String) : String × String :=
  match (st.values ord).find? fun s => s.seat = seatId ∧ s.state = "active" with
  | some s => (s.id, sessionObjectPath s.id)
  | none => ("", "/")

end SessionState

/-! ### Calls -/

/-- The arguments of `CreateSession` that the session keeps. -/
structure CreateArgs where
  uid : UInt32
  pid : UInt32
  service : String
  sessionType : String
  sessionClass : String
  seatId : String
  vtnr : UInt32
  display : String
  remote : Bool
  deriving DecidableEq, Repr

/-- The methods of the Manager and, on the object of a session, of the Session interface. -/
inductive Method
  | createSession (args : CreateArgs)
  | releaseSession (sessionId : String)
  | lockSession (sessionId : String)
  | unlockSession (sessionId : String)
  | lock (sessionId : String)
  | unlock (sessionId : String)
  | activate (sessionId : String)
  | setIdleHint (sessionId : String) (idle : Bool)
  deriving DecidableEq, Repr

/-- The members of the signals, under the names of the functions that emit them. -/
inductive Member
  | sessionNew
  | sessionRemoved
  | lockSignal
  | unlockSignal
  deriving DecidableEq, Repr

structure CreateSessionReply where
  id : String
  path : String
  runtimePath : String
  fd : ℕ
  uid : UInt32
  seat : String
  vtnr : UInt32
  existing : Bool
  deriving DecidableEq, Repr

/-- What a caller gets back; the object server answers for an object that is not there. -/
inductive Reply
  | session (reply : CreateSessionReply)
  | done
  | failed (e : FdoError)
  | unknownObject
  deriving DecidableEq, Repr

/-- How far a call has come. -/
inductive Progress
  | asked
  -- `CreateSession`: the session is in the table, then its object is registered, then it has a pipe
  | inserted (info : SessionInfo)
  | exported (info : SessionInfo)
  | piped (info : SessionInfo) (fd : ℕ)
  -- `ReleaseSession`: the session is out of the table, then its object is taken away
  | removed
  | withdrawn
  -- the session of a Manager call is there, or the object of a Session call is
  | dispatched
  -- `Activate`: about to switch to a terminal
  | switching (vtnr : UInt32)
  | returned (reply : Reply)
  deriving DecidableEq, Repr

structure SessionCall where
  method : Method
  progress : Progress
  deriving DecidableEq, Repr

/-- A call is known by the user who makes it and a serial number. -/
structure CallKey where
  uid : UInt32
  serial : ℕ
  deriving DecidableEq, Repr

/-- A signal on an object, with the call whose handler emits it. -/
structure Emission where
  path : String
  member : Member
  cause : CallKey
  deriving DecidableEq, Repr

/-- What the system answers to one step: the clock, the text of `/etc/passwd`, and the outcome of
the request, with a descriptor where one is made. -/
structure StepAnswer where
  nowUsec : UInt64 := 0
  passwd : Option (List Char) := none
  result : Except String ℕ := .ok 0

/-- The daemon with its calls.  The sessions created so far are a record that no handler reads. -/
structure Shim where
  state : SessionState := .new
  -- the sessions that have an object on the bus
  objects : List String := []
  calls : CallKey → Option SessionCall := fun _ => none
  signals : List Emission := []
  created : List SessionInfo := []

/-- The session that `CreateSession` makes of its arguments. -/
def CreateArgs.sessionInfo (args : CreateArgs) (id : String) (ans : StepAnswer) : SessionInfo where
  id := id
  uid := args.uid
  userName := lookupUsername ans.passwd args.uid
  seat := if args.seatId = "" then "seat0" else args.seatId
  vtnr := args.vtnr
  display := args.display
  remote := args.remote
  service := if args.service = "" then "writeonce-login" else args.service
  sessionClass := if args.sessionClass = "" then "user" else args.sessionClass
  sessionType := if args.sessionType = "" then "tty" else args.sessionType
  state := "active"
  idleHint := false
  idleSince := 0
  leaderPid := args.pid
  timestampUsec := ans.nowUsec

def noSuchSession (sessionId : String) : Reply :=
  .failed (.failed ("no such session: " ++ sessionId))

namespace Shim

variable (d : Shim)

def managerPath : String := "/org/freedesktop/login1"

/-- A call comes to another point. -/
def move (key : CallKey) (method : Method) (progress : Progress) : Shim :=
  { d with calls := Function.update d.calls key (some ⟨method, progress⟩) }

def reply (key : CallKey) (method : Method) (r : Reply) : Shim :=
  d.move key method (.returned r)

/-- A signal goes out, or the call fails. -/
def emit (key : CallKey) (method : Method) (path : String) (member : Member) (r : Reply)
    (context : String) : Except String ℕ → Shim
  | .ok _ => { d.reply key method r with signals := d.signals ++ [⟨path, member, key⟩] }
  | .error e => d.reply key method (.failed (.failed (context ++ e)))

/-! ### `CreateSession` -/

/-- The critical section. -/
def createInsert (key : CallKey) (args : CreateArgs) (ans : StepAnswer) : Shim :=
  let (id, st) := d.state.allocateSessionId
  let info := args.sessionInfo id ans
  { d.move key (.createSession args) (.inserted info) with
    state := { st with sessions := st.sessions.insert id info }
    created := d.created ++ [info] }

def createExport (key : CallKey) (args : CreateArgs) (info : SessionInfo) :
    Except String ℕ → Shim
  | .ok _ =>
    { d.move key (.createSession args) (.exported info) with
      objects := if info.id ∈ d.objects then d.objects else info.id :: d.objects }
  | .error e => d.reply key (.createSession args) (.failed (.failed ("at(session): " ++ e)))

def createPipe (key : CallKey) (args : CreateArgs) (info : SessionInfo) : Except String ℕ → Shim
  | .ok fd => d.move key (.createSession args) (.piped info fd)
  | .error e => d.reply key (.createSession args) (.failed (.failed ("pipe: " ++ e)))

def createReply (args : CreateArgs) (info : SessionInfo) (fd : ℕ) : CreateSessionReply where
  id := info.id
  path := sessionObjectPath info.id
  runtimePath := "/run/user/" ++ toString args.uid.toNat
  fd := fd
  uid := args.uid
  seat := info.seat
  vtnr := args.vtnr
  existing := false

def createSession (key : CallKey) (args : CreateArgs) (ans : StepAnswer) : Progress → Option Shim
  | .asked => some (d.createInsert key args ans)
  | .inserted info => some (d.createExport key args info ans.result)
  | .exported info => some (d.createPipe key args info ans.result)
  | .piped info fd =>
    some (d.emit key (.createSession args) managerPath .sessionNew
      (.session (createReply args info fd)) "emit SessionNew: " ans.result)
  | _ => none

/-! ### `ReleaseSession` -/

def releaseRemove (key : CallKey) (id : String) : Shim :=
  if d.state.sessions.lookup id = none then
    d.reply key (.releaseSession id) (noSuchSession id)
  else
    { d.move key (.releaseSession id) .removed with
      state := { d.state with sessions := d.state.sessions.erase id } }

/-- The object goes; a failure is ignored. -/
def releaseWithdraw (key : CallKey) (id : String) : Except String ℕ → Shim
  | .ok _ =>
    { d.move key (.releaseSession id) .withdrawn with objects := d.objects.filter (· ≠ id) }
  | .error _ => d.move key (.releaseSession id) .withdrawn

def releaseSession (key : CallKey) (id : String) (ans : StepAnswer) : Progress → Option Shim
  | .asked => some (d.releaseRemove key id)
  | .removed => some (d.releaseWithdraw key id ans.result)
  | .withdrawn =>
    some (d.emit key (.releaseSession id) managerPath .sessionRemoved .done
      "emit SessionRemoved: " ans.result)
  | _ => none

/-! ### Lock and unlock -/

/-- `LockSession` and `UnlockSession`. -/
def signalSession (key : CallKey) (method : Method) (id : String) (member : Member)
    (context : String) (ans : StepAnswer) : Progress → Option Shim
  | .asked =>
    some (if d.state.sessions.lookup id = none then d.reply key method (noSuchSession id)
      else d.move key method .dispatched)
  | .dispatched => some (d.emit key method (sessionObjectPath id) member .done context ans.result)
  | _ => none

/-- The object server looks for the object of a session. -/
def dispatch (key : CallKey) (method : Method) (id : String) : Shim :=
  if id ∈ d.objects then d.move key method .dispatched else d.reply key method .unknownObject

/-- `Lock` and `Unlock` on the object of a session. -/
def signalObject (key : CallKey) (method : Method) (id : String) (member : Member)
    (context : String) (ans : StepAnswer) : Progress → Option Shim
  | .asked => some (d.dispatch key method id)
  | .dispatched => some (d.emit key method (sessionObjectPath id) member .done context ans.result)
  | _ => none

/-! ### The other methods of a session -/

/-- The lookup of the terminal, with its two refusals. -/
def activateLookup (key : CallKey) (id : String) : Shim :=
  match d.state.sessions.lookup id with
  | none => d.reply key (.activate id) (noSuchSession id)
  | some s =>
    if s.vtnr = 0 then
      d.reply key (.activate id)
        (.failed (.failed ("session " ++ id ++ " has no VT (probably remote)")))
    else d.move key (.activate id) (.switching s.vtnr)

def activate (key : CallKey) (id : String) (ans : StepAnswer) : Progress → Option Shim
  | .asked => some (d.dispatch key (.activate id) id)
  | .dispatched => some (d.activateLookup key id)
  | .switching vtnr =>
    match ans.result with
    | .ok _ => some (d.reply key (.activate id) .done)
    | .error e =>
      some (d.reply key (.activate id)
        (.failed (.failed ("VT_ACTIVATE(" ++ toString vtnr.toNat ++ ") failed: " ++ e))))
  | _ => none

def setIdleHintUpdate (key : CallKey) (id : String) (idle : Bool) (ans : StepAnswer) : Shim :=
  match d.state.sessions.lookup id with
  | none => d.reply key (.setIdleHint id idle) (noSuchSession id)
  | some s =>
    let s := { s with idleHint := idle, idleSince := if idle then ans.nowUsec else 0 }
    { d.reply key (.setIdleHint id idle) .done with
      state := { d.state with sessions := d.state.sessions.insert id s } }

def setIdleHint (key : CallKey) (id : String) (idle : Bool) (ans : StepAnswer) :
    Progress → Option Shim
  | .asked => some (d.dispatch key (.setIdleHint id idle) id)
  | .dispatched => some (d.setIdleHintUpdate key id idle ans)
  | _ => none

/-! ### Steps of the whole -/

/-- The next step of a call. -/
def serve (key : CallKey) (call : SessionCall) (ans : StepAnswer) : Option Shim :=
  match call.method with
  | .createSession args => d.createSession key args ans call.progress
  | .releaseSession id => d.releaseSession key id ans call.progress
  | .lockSession id =>
    d.signalSession key call.method id .lockSignal "emit Lock: " ans call.progress
  | .unlockSession id =>
    d.signalSession key call.method id .unlockSignal "emit Unlock: " ans call.progress
  | .lock id => d.signalObject key call.method id .lockSignal "emit Lock: " ans call.progress
  | .unlock id => d.signalObject key call.method id .unlockSignal "emit Unlock: " ans call.progress
  | .activate id => d.activate key id ans call.progress
  | .setIdleHint id idle => d.setIdleHint key id idle ans call.progress

end Shim

/-- What may happen next: a message arrives, or a handler makes its next step. -/
inductive BusEvent
  | call (key : CallKey) (method : Method)
  | serve (key : CallKey) (ans : StepAnswer)

/-- The call that an event belongs to. -/
def BusEvent.key : BusEvent → CallKey
  | .call key _ => key
  | .serve key _ => key

namespace Shim

def next (d : Shim) : BusEvent → Option Shim
  | .call key method =>
    match d.calls key with
    | some _ => none
    | none => some (d.move key method .asked)
  | .serve key ans =>
    match d.calls key with
    | none => none
    | some call => d.serve key call ans

/-- The daemon at startup. -/
def new : Shim := {}

/-- The state that a sequence of events leads to. -/
def run (events : List BusEvent) : Option Shim := events.foldlM next new

end Shim

end WriteonceOs.Logind
