import WriteonceOs.Svc.Operations

/-!
# The control socket

One request line per connection.  The commands that change the supervisor are `START`, `STOP`,
`RESTART`, `ENABLE` and `DISABLE`; `SHUTDOWN` only tells the event loop.  What the client's socket
and the `enabled.d` directory answer is an argument, and the text of the replies is left out.

* `parseRequest` — the command of a request line and its arguments;
* `handle` — the handlers;
* `handle_run` — a request performs the operations `requestOps`, one after the other.
-/

namespace WriteonceOs.Svc

open WriteonceOs.Library

/-! ### Requests -/

inductive Request where
  | unreadable
  | empty
  | list
  | status (name : Option String)
  | start (name : Option String)
  | stop (name : Option String)
  | restart (name : Option String)
  | enable (name : Option String)
  | disable (name : Option String)
  | enabled
  | journal (name lines : Option String)
  | cgroups
  | shutdown
  | unknown (command : String)
  deriving DecidableEq, Repr

/-- `str::split_whitespace`. -/
def splitWhitespace (line : String) : List String :=
  ((line.toList.splitOnP isWhitespace).filter (· ≠ [])).map String.ofList

def toAsciiUppercase (word : String) : String := String.ofList (word.toList.map Char.toUpper)

def parseRequest : Except IoError String → Request
  | .error _ => .unreadable
  | .ok line =>
    match splitWhitespace line with
    | [] => .empty
    | command :: args =>
      match toAsciiUppercase command with
      | "LIST" => .list
      | "STATUS" => .status args[0]?
      | "START" => .start args[0]?
      | "STOP" => .stop args[0]?
      | "RESTART" => .restart args[0]?
      | "ENABLE" => .enable args[0]?
      | "DISABLE" => .disable args[0]?
      | "ENABLED" => .enabled
      | "JOURNAL" => .journal args[0]? args[1]?
      | "CGROUPS" => .cgroups
      | "SHUTDOWN" => .shutdown
      | other => .unknown other

example : parseRequest (.ok "  start sshd.service now\r\n") = .start (some "sshd.service") := by
  decide

/-- What the client's socket, the `enabled.d` directory and the processes answer to one request. -/
structure ControlAnswer where
  -- the first and the second line written to the client
  firstWrite : Except IoError Unit := .ok ()
  secondWrite : Except IoError Unit := .ok ()
  -- the body of a reply that only reports
  report : Except IoError Unit := .ok ()
  enableStub : Except IoError Unit := .ok ()
  disableStub : Except IoError Bool := .ok true
  stop : StopAnswer := ⟨⟨.inserted, .inserted⟩, .inserted, []⟩
  ords : HashOrders := ⟨.inserted, .inserted⟩
  starts : UnitId → StartAnswer := fun _ => {}

/-! ### Handlers -/

/-- A request served, or a stop that still waits. -/
abbrev Served := Except SupervisorState (SupervisorState × Except RequestError Unit)

namespace Control

variable (alloc : PidAllocator) (s : SupervisorState) (ans : ControlAnswer)

/-- The handlers that only report: the unit's name where one is needed, then the report. -/
def report : Except RequestError Unit := ans.report.mapError .text

def reportOn (command : String) (name : Option String) : Except RequestError Unit :=
  match name with
  | none => .error (.text (command ++ " requires a unit name"))
  | some name =>
    match s.registry.lookup name with
    | none => .error (.text ("unknown unit: " ++ name))
    | some _ => report ans

def start : Option String → Served
  | none => .ok (s, .error (.text "START requires a unit name"))
  | some name =>
    match ans.firstWrite with
    | .error e => .ok (s, .error (.text e))
    | .ok _ => .ok (s.startNamed alloc name ans.ords ans.starts)

def stop : Option String → Served
  | none => .ok (s, .error (.text "STOP requires a unit name"))
  | some name =>
    match ans.firstWrite with
    | .error e => .ok (s, .error (.text e))
    | .ok _ => s.stopUnit name ans.stop

def restart : Option String → Served
  | none => .ok (s, .error (.text "RESTART requires a unit name"))
  | some name =>
    match s.stopUnit name ans.stop with
    | .error s => .error s
    | .ok (s, .error e) => .ok (s, .error e)
    | .ok (s, .ok _) => .ok (s.startNamed alloc name ans.ords ans.starts)

def enable : Option String → Served
  | none => .ok (s, .error (.text "ENABLE requires a unit name"))
  | some name =>
    match s.registry.lookup name with
    | none => .ok (s, .error (.text ("unknown unit: " ++ name)))
    | some _ =>
      match ans.enableStub with
      | .error e => .ok (s, .error (.text ("write enabled.d stub: " ++ e)))
      | .ok _ =>
        match ans.firstWrite with
        | .error e => .ok (s, .error (.text e))
        | .ok _ =>
          match s.registry.addWantedBy "multi-user.target" name with
          | .error e => .ok (s, .error (.text e))
          | .ok registry =>
            let s := { s with registry := registry }
            match ans.secondWrite with
            | .error e => .ok (s, .error (.text e))
            | .ok _ => .ok (s.startNamed alloc name ans.ords ans.starts)

/-- The outcome of the stop is not looked at. -/
def disable : Option String → Served
  | none => .ok (s, .error (.text "DISABLE requires a unit name"))
  | some name =>
    match ans.firstWrite with
    | .error e => .ok (s, .error (.text e))
    | .ok _ =>
      match s.stopUnit name ans.stop with
      | .error s => .error s
      | .ok (s, _) =>
        match ans.disableStub with
        | .error e => .ok (s, .error (.text ("remove enabled.d stub: " ++ e)))
        | .ok _ => .ok (s, ans.secondWrite.mapError .text)

def handle : Request → Served
  | .unreadable => .ok (s, .error (.text "read failed"))
  | .empty => .ok (s, .error (.text "empty request"))
  | .list => .ok (s, report ans)
  | .status name => .ok (s, reportOn s ans "STATUS" name)
  | .start name => start alloc s ans name
  | .stop name => stop s ans name
  | .restart name => restart alloc s ans name
  | .enable name => enable alloc s ans name
  | .disable name => disable s ans name
  | .enabled => .ok (s, report ans)
  | .journal name _ => .ok (s, reportOn s ans "JOURNAL" name)
  | .cgroups => .ok (s, report ans)
  | .shutdown => .ok (s, .ok ())
  | .unknown command => .ok (s, .error (.text ("unknown command: " ++ command)))

/-! ### The operations of a request -/

/-- The operations that a request performs. -/
def requestOps : Request → List Op
  | .start (some name) =>
    match ans.firstWrite with
    | .error _ => []
    | .ok _ => [.startNamed name ans.ords ans.starts]
  | .stop (some name) =>
    match ans.firstWrite with
    | .error _ => []
    | .ok _ => [.stopUnit name ans.stop]
  | .restart (some name) => .stopUnit name ans.stop ::
    match s.stopUnit name ans.stop with
    | .ok (_, .ok _) => [.startNamed name ans.ords ans.starts]
    | _ => []
  | .enable (some name) =>
    match s.registry.lookup name, ans.enableStub, ans.firstWrite,
      s.registry.addWantedBy "multi-user.target" name with
    | some _, .ok _, .ok _, .ok _ => .addWantedBy "multi-user.target" name ::
      match ans.secondWrite with
      | .error _ => []
      | .ok _ => [.startNamed name ans.ords ans.starts]
    | _, _, _, _ => []
  | .disable (some name) =>
    match ans.firstWrite with
    | .error _ => []
    | .ok _ => [.stopUnit name ans.stop]
  | _ => []

/-- **A request performs its operations.** -/
theorem handle_run (req : Request) :
    run (SupervisorState.step alloc) s (requestOps s ans req) =
      (handle alloc s ans req).map Prod.fst := by
  cases req with
  | start name =>
    cases name with
    | none => rfl
    | some name =>
      simp only [requestOps, handle, start]
      cases ans.firstWrite with
      | error e => rfl
      | ok _ => rfl
  | stop name =>
    cases name with
    | none => rfl
    | some name =>
      simp only [requestOps, handle, stop]
      cases ans.firstWrite with
      | error e => rfl
      | ok _ =>
        simp only [run, SupervisorState.step]
        cases s.stopUnit name ans.stop with
        | error t => rfl
        | ok res => rfl
  | restart name =>
    cases name with
    | none => rfl
    | some name =>
      simp only [requestOps, handle, restart, run, SupervisorState.step]
      cases s.stopUnit name ans.stop with
      | error t => rfl
      | ok res =>
        obtain ⟨t, res⟩ := res
        cases res with
        | error e => rfl
        | ok _ => rfl
  | enable name =>
    cases name with
    | none => rfl
    | some name =>
      simp only [requestOps, handle, enable]
      cases s.registry.lookup name with
      | none => rfl
      | some _ =>
        cases ans.enableStub with
        | error e => rfl
        | ok _ =>
          cases ans.firstWrite with
          | error e => rfl
          | ok _ =>
            cases hreg : s.registry.addWantedBy "multi-user.target" name with
            | error e => rfl
            | ok registry =>
              cases ans.secondWrite with
              | error e =>
                simp [run, SupervisorState.step, SupervisorState.addWantedBy, hreg, Except.map]
              | ok _ =>
                simp [run, SupervisorState.step, SupervisorState.addWantedBy, hreg, Except.map]
  | disable name =>
    cases name with
    | none => rfl
    | some name =>
      simp only [requestOps, handle, disable]
      cases ans.firstWrite with
      | error e => rfl
      | ok _ =>
        simp only [run, SupervisorState.step]
        cases s.stopUnit name ans.stop with
        | error t => rfl
        | ok res =>
          obtain ⟨t, res⟩ := res
          cases ans.disableStub with
          | error e => rfl
          | ok _ => rfl
  | _ => rfl

end Control

end WriteonceOs.Svc
