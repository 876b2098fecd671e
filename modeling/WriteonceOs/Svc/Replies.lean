import WriteonceOs.Library.Decimal
import WriteonceOs.Library.Lines
import WriteonceOs.Library.Paths
import WriteonceOs.Library.Words
import WriteonceOs.Svc.Control

/-!
# Replies and the exit status of the client

What a request writes to its client when every write succeeds: the text of its handler, then the
line `ok`, or `err:` and the error.  The client reads lines until the connection closes and takes
its exit status from the last one.

Error texts quote the names of units in debug form, so that the text of a unit name cannot end the
line; only the path of a log file goes in as it is.

* `handleOne` — a request and the whole of its reply;
* `exitStatus` — what the client makes of a reply;
* `error_line` — which error texts are one line;
* `exit_status_reports` — when the exit status is that of the request.
-/

namespace WriteonceOs.Svc

open WriteonceOs.Library

abbrev Text := List Char

/-! ### Debug forms -/

/-- A character of a debug string.  Which other characters are printed as they are is the table
`printable` of the standard library. -/
def escapeDebug (printable : Char → Bool) (c : Char) : Text :=
  if c = '\x00' then ['\\', '0']
  else if c = '\t' then ['\\', 't']
  else if c = '\r' then ['\\', 'r']
  else if c = '\n' then ['\\', 'n']
  else if c = '"' then ['\\', '"']
  else if c = '\\' then ['\\', '\\']
  else if printable c then [c]
  else ['\\', 'u', '\x7b'] ++ Nat.toDigits 16 c.toNat ++ ['\x7d']

def debugString (printable : Char → Bool) (s : String) : Text :=
  '"' :: s.toList.flatMap (escapeDebug printable) ++ ['"']

def debugList (printable : Char → Bool) (names : List String) : Text :=
  '[' :: List.intercalate [',', ' '] (names.map (debugString printable)) ++ [']']

def TransactionError.debug (printable : Char → Bool) : TransactionError → Text
  | .unknownUnit name => "UnknownUnit(".toList ++ debugString printable name ++ [')']
  | .requirementCycle names => "RequirementCycle(".toList ++ debugList printable names ++ [')']
  | .orderingCycle names => "OrderingCycle(".toList ++ debugList printable names ++ [')']

def RequestError.display (printable : Char → Bool) : RequestError → Text
  | .transaction e => e.debug printable
  | .text message => message.toList

def UnitActiveState.debug : UnitActiveState → Text
  | .inactive => "Inactive".toList
  | .activating => "Activating".toList
  | .active => "Active".toList
  | .deactivating => "Deactivating".toList
  | .failed => "Failed".toList

def ServiceType.debug : ServiceType → Text
  | .simple => "Simple".toList
  | .forking => "Forking".toList
  | .oneshot => "Oneshot".toList
  | .notify => "Notify".toList

def RestartPolicy.debug : RestartPolicy → Text
  | .no => "No".toList
  | .always => "Always".toList
  | .onFailure => "OnFailure".toList
  | .onAbnormal => "OnAbnormal".toList

/-! ### The bodies of replies -/

inductive ReadError where
  | notFound
  | other (e : IoError)
  deriving DecidableEq, Repr

/-- What the files that replies show hold. -/
structure Contents where
  -- the text of a log file, by its path
  logFile : Text → Except ReadError Text
  -- the directories of the cgroup tree, each with the text of its `cgroup.procs`
  cgroupTree : Except ReadError (List (String × Text))
  enabledUnits : Except IoError (List String)

/-- The paths that the supervisor was started with, and the table of printable characters. -/
structure ReplyContext where
  enabledD : Text
  logDir : Text
  printable : Char → Bool

namespace Control

variable (s : SupervisorState) (ans : ControlAnswer) (files : Contents) (ctx : ReplyContext)

/-- What `writeln!` is given, one text for each call. -/
abbrev Body := List Text

def padRight (width : ℕ) (t : Text) : Text := t ++ List.replicate (width - t.length) ' '

def listBody : Body :=
  (List.range s.registry.len).map fun id =>
    let u := s.units id
    let pid := match u.pid with
      | some p => decimal p
      | none => ['—']
    padRight 32 (s.registry.nameOf id).toList ++ "  ".toList ++ u.state.debug ++ "  pid=".toList ++
      pid

def statusBody (name : Option String) : Body :=
  match name.bind s.registry.lookup with
  | none => []
  | some id =>
    let u := s.units id
    let unit := s.registry.get id
    ["name:        ".toList ++ unit.name.toList,
      "description: ".toList ++ unit.file.unit.description.toList,
      "state:       ".toList ++ u.state.debug] ++
    (match u.pid with
      | some p => ["pid:         ".toList ++ decimal p]
      | none => []) ++
    (match unit.file.service with
      | some svc => ["type:        ".toList ++ svc.kind.debug,
          "restart:     ".toList ++ svc.restart.debug,
          "exec-start:  ".toList ++ svc.execStart.toList]
      | none => [])

/-- The line that announces a change. -/
def announce (verb : String) (name : String) : Text :=
  "writeonce-svc: ".toList ++ verb.toList ++ name.toList

def announceBody (verb : String) : Option String → Body
  | none => []
  | some name => [announce verb name]

def enableBody : Option String → Body
  | none => []
  | some name =>
    match s.registry.lookup name with
    | none => []
    | some _ =>
      match ans.enableStub with
      | .error _ => []
      | .ok _ =>
        (announce "enabled " name ++ " → ".toList ++
            Paths.join ctx.enabledD (name.toList ++ ".toml".toList)) ::
          match s.registry.addWantedBy "multi-user.target" name with
          | .error _ => []
          | .ok _ => [announce "starting " name]

def disableBody : Option String → Body
  | none => []
  | some name =>
    announce "stopping " name ::
      match ans.disableStub with
      | .error _ => []
      | .ok true => [announce "removed enabled.d stub for " name]
      | .ok false => [announce "no enabled.d stub for " name]

def logPath (name : String) : Text := ctx.logDir ++ '/' :: name.toList ++ ".log".toList

/-- The number of lines that `JOURNAL` shows. -/
def journalLines (n : Option String) : ℕ := (n.bind fun t => parseU64 t.toList).getD 50

def journalBody (name n : Option String) : Body :=
  match name with
  | none => []
  | some name =>
    match s.registry.lookup name with
    | none => []
    | some _ =>
      match files.logFile (logPath ctx name) with
      | .ok body =>
        let all := lines body
        all.drop (all.length - journalLines n)
      | .error .notFound => ["(no log at ".toList ++ logPath ctx name ++ [')']]
      | .error (.other _) => []

def cgroupBase : Text := "/sys/fs/cgroup/wo.slice".toList

def cgroupsBody : Body :=
  match files.cgroupTree with
  | .error .notFound => ["(no cgroup hierarchy at ".toList ++ cgroupBase ++ [')']]
  | .error (.other _) => []
  | .ok dirs =>
    let dirs := dirs.insertionSort fun a b => a.1 ≤ b.1
    (if dirs = [] then ["(no service cgroups under ".toList ++ cgroupBase ++ [')']] else []) ++
      dirs.map fun d => cgroupBase ++ '/' :: d.1.toList ++ "  pids=[".toList ++
        List.intercalate [','] (words isWhitespace d.2) ++ [']']

def enabledBody : Body :=
  match files.enabledUnits with
  | .error _ => []
  | .ok [] => ["(no units enabled)".toList]
  | .ok units => units.map String.toList

/-- What the handler of a request writes before the last line. -/
def body : Request → Body
  | .list => listBody s
  | .status name => statusBody s name
  | .start name => announceBody "starting " name
  | .stop name => announceBody "stopping " name
  | .restart name => announceBody "restarting " name
  | .enable name => enableBody s ans ctx name
  | .disable name => disableBody ans name
  | .enabled => enabledBody files
  | .journal name n => journalBody s files ctx name n
  | .cgroups => cgroupsBody files
  | .shutdown => ["writeonce-svc: shutdown initiated".toList]
  | .unreadable | .empty | .unknown _ => []

/-- What the files say to a request that only reports. -/
def reportResult : Request → Except IoError Unit
  | .journal (some name) _ =>
    match files.logFile (logPath ctx name) with
    | .error (.other e) => .error ("read " ++ String.ofList (logPath ctx name) ++ ": " ++ e)
    | _ => .ok ()
  | .cgroups =>
    match files.cgroupTree with
    | .error (.other e) => .error ("read " ++ String.ofList cgroupBase ++ ": " ++ e)
    | _ => .ok ()
  | .enabled =>
    match files.enabledUnits with
    | .error e => .error ("read enabled.d: " ++ e)
    | .ok _ => .ok ()
  | _ => .ok ()

/-- The last line of a reply. -/
def statusLine : Except RequestError Unit → Text
  | .ok _ => "ok".toList
  | .error e => "err: ".toList ++ e.display ctx.printable

/-- The answers of a complete exchange: every write succeeds. -/
def complete (req : Request) : ControlAnswer :=
  { ans with
    firstWrite := .ok ()
    secondWrite := .ok ()
    report := reportResult files ctx req }

/-- **One connection**: the request line, and the text that the client gets. -/
def handleOne (alloc : PidAllocator) (line : Except IoError String) :
    Except SupervisorState (SupervisorState × Except RequestError Unit × Text) :=
  let req := parseRequest line
  match handle alloc s (complete ans files ctx req) req with
  | .error s => .error s
  | .ok (t, res) => .ok (t, res, unlines (body s ans files ctx req ++ [statusLine ctx res]))

end Control

/-! ### The client -/

/-- The last line that the client has read, or nothing. -/
def lastLine (reply : Text) : Text := (lines reply).getLastD []

/-- The exit status of `wo-ctl`. -/
def exitStatus (reply : Text) : ℕ :=
  let last := lastLine reply
  if last = "ok".toList then 0
  else if "err:".toList.isPrefixOf last then 1
  -- closed without a last line: a soft success
  else 0

/-! ### One line -/

theorem newline_not_mem_append {a b : Text} (ha : '\n' ∉ a) (hb : '\n' ∉ b) : '\n' ∉ a ++ b :=
  fun h => (List.mem_append.mp h).elim ha hb

section Debug

variable (printable : Char → Bool)

theorem newline_not_mem_escapeDebug (c : Char) : '\n' ∉ escapeDebug printable c := by
  unfold escapeDebug
  split
  · decide
  split
  · decide
  split
  · decide
  split
  · decide
  split
  · decide
  split
  · decide
  rename_i hc _ _
  split
  · simpa using fun h => hc h.symm
  · refine newline_not_mem_append (newline_not_mem_append (by decide) ?_) (by decide)
    intro h
    obtain ⟨d, hd⟩ := mem_toDigits (by decide) h
    exact Nat.digitChar_ne '\n' (by decide) hd.symm

theorem newline_not_mem_debugString (s : String) : '\n' ∉ debugString printable s := by
  unfold debugString
  refine newline_not_mem_append ?_ (by decide)
  intro h
  rcases List.mem_cons.mp h with h | h
  · exact absurd h (by decide)
  · obtain ⟨c, -, hc⟩ := List.mem_flatMap.mp h
    exact newline_not_mem_escapeDebug printable c hc

theorem newline_not_mem_debugList (names : List String) : '\n' ∉ debugList printable names := by
  unfold debugList
  refine newline_not_mem_append ?_ (by decide)
  intro h
  rcases List.mem_cons.mp h with h | h
  · exact absurd h (by decide)
  · refine not_mem_intercalate (by decide) (fun part hpart => ?_) h
    obtain ⟨name, -, rfl⟩ := List.mem_map.mp hpart
    exact newline_not_mem_debugString printable name

/-- The debug form of an error is one line, whatever the names of the units. -/
theorem TransactionError.newline_not_mem_debug (e : TransactionError) :
    '\n' ∉ e.debug printable := by
  cases e with
  | unknownUnit name =>
    refine newline_not_mem_append (newline_not_mem_append (by decide) ?_) (by decide)
    exact newline_not_mem_debugString printable name
  | requirementCycle names =>
    refine newline_not_mem_append (newline_not_mem_append (by decide) ?_) (by decide)
    exact newline_not_mem_debugList printable names
  | orderingCycle names =>
    refine newline_not_mem_append (newline_not_mem_append (by decide) ?_) (by decide)
    exact newline_not_mem_debugList printable names

end Debug

/-! ### The words of a request -/

/-- The texts that a request carries. -/
def Request.words : Request → List String
  | .status name | .start name | .stop name | .restart name | .enable name | .disable name =>
    name.toList
  | .journal name n => name.toList ++ n.toList
  | .unknown command => [command]
  | _ => []

theorem newline_not_mem_splitWhitespace {line word : String} (h : word ∈ splitWhitespace line) :
    '\n' ∉ word.toList := by
  obtain ⟨piece, hpiece, rfl⟩ := List.mem_map.mp h
  have hfree := free_of_mem_splitOnP (List.mem_of_mem_filter hpiece)
  rw [String.toList_ofList]
  intro hmem
  exact absurd (hfree '\n' hmem) (by decide)

theorem toUpper_eq_newline {c : Char} (h : c.toUpper = '\n') : c = '\n' := by
  unfold Char.toUpper at h
  split at h
  · rename_i hlower
    have hval := congrArg Char.val h
    have h1 := hlower.1
    have h2 := hlower.2
    simp only at hval
    grind
  · exact h

theorem newline_not_mem_toAsciiUppercase {word : String} (h : '\n' ∉ word.toList) :
    '\n' ∉ (toAsciiUppercase word).toList := by
  rw [toAsciiUppercase, String.toList_ofList]
  intro hmem
  obtain ⟨c, hc, hupper⟩ := List.mem_map.mp hmem
  exact h (toUpper_eq_newline hupper ▸ hc)

/-- No text of a request breaks a line. -/
theorem newline_not_mem_words {line : Except IoError String} {word : String}
    (h : word ∈ (parseRequest line).words) : '\n' ∉ word.toList := by
  cases line with
  | error e => cases h
  | ok line =>
    cases hsplit : splitWhitespace line with
    | nil => simp [parseRequest, hsplit, Request.words] at h
    | cons command args =>
      have hall : ∀ w ∈ command :: args, '\n' ∉ w.toList := fun w hw =>
        newline_not_mem_splitWhitespace (hsplit ▸ hw)
      have harg : ∀ (k : ℕ) (w : String), w ∈ args[k]?.toList → '\n' ∉ w.toList := by
        intro k w hw
        exact hall w (List.mem_cons_of_mem _ (List.mem_of_getElem? (Option.mem_toList.mp hw)))
      simp only [parseRequest, hsplit] at h
      split at h
      all_goals
        simp only [Request.words, List.mem_append, List.mem_singleton, List.not_mem_nil] at h
      case h_9 => exact h.elim (harg 0 word) (harg 1 word)
      case h_12 =>
        subst h
        exact newline_not_mem_toAsciiUppercase (hall command List.mem_cons_self)
      all_goals exact harg 0 word h

/-! ### The last line -/

section LastLine

variable (body : Control.Body)

theorem lastLine_reply (l : Text) :
    lastLine (unlines (body ++ [l])) = chopReturn (lastSegment l) := by
  rw [lastLine, unlines_append, unlines_cons, unlines_nil]
  exact getLastD_lines (unlines_terminated body) l

theorem lastLine_ok : lastLine (unlines (body ++ ["ok".toList])) = "ok".toList := by
  rw [lastLine_reply]
  decide

theorem err_prefix_lastLine (l : Text) :
    "err:".toList <+: lastLine (unlines (body ++ [l])) ↔ "err:".toList <+: lastSegment l := by
  rw [lastLine_reply]
  exact prefix_chopReturn (by decide)

end LastLine

/-- The last line of a reply and the exit status of the client say how the request ended. -/
def Reports : Except RequestError Unit → Text → Prop
  | .ok _, reply => lastLine reply = "ok".toList ∧ exitStatus reply = 0
  | .error _, reply => "err:".toList <+: lastLine reply ∧ exitStatus reply = 1

theorem exitStatus_of_err {reply : Text} (h : "err:".toList <+: lastLine reply) :
    exitStatus reply = 1 := by
  have hne : lastLine reply ≠ "ok".toList := by
    intro heq
    rw [heq] at h
    exact absurd h (by decide)
  unfold exitStatus
  rw [if_neg hne, if_pos (List.isPrefixOf_iff_prefix.mpr h)]

theorem reports_error {e : RequestError} {reply : Text} :
    Reports (.error e) reply ↔ "err:".toList <+: lastLine reply :=
  ⟨And.left, fun h => ⟨h, exitStatus_of_err h⟩⟩

namespace Control

variable {s : SupervisorState} {ans : ControlAnswer} {files : Contents} {ctx : ReplyContext}
variable {alloc : PidAllocator}

theorem reports_statusLine_ok (body : Body) (u : Unit) :
    Reports (.ok u) (unlines (body ++ [statusLine ctx (.ok u)])) := by
  have hlast := lastLine_ok body
  refine ⟨hlast, ?_⟩
  unfold exitStatus
  exact if_pos hlast

/-- An error whose text is one line is reported. -/
theorem reports_statusLine_error (body : Body) {e : RequestError}
    (h : '\n' ∉ e.display ctx.printable) :
    Reports (.error e) (unlines (body ++ [statusLine ctx (.error e)])) := by
  rw [reports_error, err_prefix_lastLine, statusLine,
    lastSegment_of_not_mem (newline_not_mem_append (by decide) h)]
  have hhead : "err:".toList <+: "err: ".toList := by decide
  exact hhead.trans (List.prefix_append _ _)

/-! ### Error texts -/

variable (ans files) in
/-- No error text of the system has a newline. -/
structure OsTexts : Prop where
  enableStub : ∀ e, ans.enableStub = .error e → '\n' ∉ e.toList
  disableStub : ∀ e, ans.disableStub = .error e → '\n' ∉ e.toList
  logFile : ∀ path e, files.logFile path = .error (.other e) → '\n' ∉ e.toList
  cgroupTree : ∀ e, files.cgroupTree = .error (.other e) → '\n' ∉ e.toList
  enabledUnits : ∀ e, files.enabledUnits = .error e → '\n' ∉ e.toList

/-- The one error that quotes a path as it is. -/
def logError (ctx : ReplyContext) (name : String) (e : IoError) : RequestError :=
  .text ("read " ++ String.ofList (logPath ctx name) ++ ": " ++ e)

variable (s files ctx) in
/-- The log file of a unit cannot be read. -/
def LogUnread (req : Request) (name : String) (e : IoError) : Prop :=
  (∃ n, req = .journal (some name) n) ∧ s.registry.lookup name ≠ none ∧
    files.logFile (logPath ctx name) = .error (.other e)

theorem newline_not_mem_message {message : String} (h : '\n' ∉ message.toList) :
    '\n' ∉ (RequestError.text message).display ctx.printable := h

theorem newline_not_mem_text {p : String} {e : String} (hp : '\n' ∉ p.toList)
    (he : '\n' ∉ e.toList) : '\n' ∉ (RequestError.text (p ++ e)).display ctx.printable := by
  rw [RequestError.display, String.toList_append]
  exact newline_not_mem_append hp he

theorem newline_not_mem_startNamed {name : String} {ords : HashOrders}
    {answers : UnitId → StartAnswer} {e : RequestError}
    (h : (s.startNamed alloc name ords answers).2 = .error e) :
    '\n' ∉ e.display ctx.printable := by
  unfold SupervisorState.startNamed at h
  split at h
  · cases h
    exact TransactionError.newline_not_mem_debug _ _
  · cases h

theorem newline_not_mem_stopUnit {name : String} {stop : StopAnswer} {t : SupervisorState}
    {e : RequestError} (h : s.stopUnit name stop = .ok (t, .error e)) :
    '\n' ∉ e.display ctx.printable := by
  cases hplan : s.registry.buildStopTransaction stop.ords name with
  | error e' =>
    rw [SupervisorState.stopUnit_refused hplan] at h
    cases h
    exact TransactionError.newline_not_mem_debug _ _
  | ok plan =>
    rw [SupervisorState.stopUnit_planned hplan] at h
    simp only [Except.map] at h
    split at h
    · cases h
    · cases h

theorem newline_not_mem_addWantedBy {target name e : String} (ht : '\n' ∉ target.toList)
    (hn : '\n' ∉ name.toList) (h : s.registry.addWantedBy target name = .error e) :
    '\n' ∉ e.toList := by
  unfold UnitRegistry.addWantedBy at h
  split at h
  · cases h
    rw [String.toList_append]
    exact newline_not_mem_append (by decide) ht
  · split at h
    · cases h
      rw [String.toList_append]
      exact newline_not_mem_append (by decide) hn
    · split at h
      · cases h
      · cases h

theorem newline_not_mem_reportOn {answer : ControlAnswer} {command : String}
    {name : Option String} {e : RequestError} (hc : '\n' ∉ command.toList)
    (hn : ∀ w ∈ name.toList, '\n' ∉ w.toList)
    (h : reportOn s answer command name = .error e) :
    '\n' ∉ e.display ctx.printable ∨
      ∃ n, name = some n ∧ s.registry.lookup n ≠ none ∧ report answer = .error e := by
  unfold reportOn at h
  cases name with
  | none =>
    cases h
    refine .inl ?_
    rw [RequestError.display, String.toList_append]
    exact newline_not_mem_append hc (by decide)
  | some n =>
    simp only at h
    split at h
    case h_1 =>
      cases h
      exact .inl (newline_not_mem_text (by decide) (hn n (by simp)))
    case h_2 id hlookup =>
      exact .inr ⟨n, rfl, by simp [hlookup], h⟩

theorem newline_not_mem_restart {answer : ControlAnswer} {name : Option String}
    {t : SupervisorState} {e : RequestError}
    (h : restart alloc s answer name = .ok (t, .error e)) : '\n' ∉ e.display ctx.printable := by
  cases name with
  | none =>
    cases h
    exact newline_not_mem_message (by decide)
  | some name =>
    simp only [restart] at h
    split at h
    case h_1 => cases h
    case h_2 u e' hstop =>
      cases h
      exact newline_not_mem_stopUnit hstop
    case h_3 => exact newline_not_mem_startNamed (congrArg Prod.snd (Except.ok.inj h))

theorem newline_not_mem_enable (hos : OsTexts ans files) {req : Request} {name : Option String}
    {t : SupervisorState} {e : RequestError} (hn : ∀ w ∈ name.toList, '\n' ∉ w.toList)
    (h : enable alloc s (complete ans files ctx req) name = .ok (t, .error e)) :
    '\n' ∉ e.display ctx.printable := by
  cases name with
  | none =>
    cases h
    exact newline_not_mem_message (by decide)
  | some name =>
    have hname := hn name (by simp)
    simp only [enable] at h
    split at h
    case h_1 =>
      cases h
      exact newline_not_mem_text (by decide) hname
    case h_2 =>
      split at h
      case h_1 err hstub =>
        cases h
        exact newline_not_mem_text (by decide) (hos.enableStub err hstub)
      case h_2 =>
        simp only [complete] at h
        split at h
        case h_1 err hadd =>
          cases h
          exact newline_not_mem_addWantedBy (by decide) hname hadd
        case h_2 => exact newline_not_mem_startNamed (congrArg Prod.snd (Except.ok.inj h))

theorem newline_not_mem_disable (hos : OsTexts ans files) {req : Request} {name : Option String}
    {t : SupervisorState} {e : RequestError}
    (h : disable s (complete ans files ctx req) name = .ok (t, .error e)) :
    '\n' ∉ e.display ctx.printable := by
  cases name with
  | none =>
    cases h
    exact newline_not_mem_message (by decide)
  | some name =>
    simp only [disable, complete] at h
    split at h
    case h_1 => cases h
    case h_2 =>
      split at h
      case h_1 err hstub =>
        cases h
        exact newline_not_mem_text (by decide) (hos.disableStub err hstub)
      case h_2 => cases h

/-- What `JOURNAL` fails with: a line, or the log file that it could not read. -/
theorem journal_error {name n : Option String} {t : SupervisorState} {e : RequestError}
    (hname : ∀ w ∈ name.toList, '\n' ∉ w.toList)
    (h : handle alloc s (complete ans files ctx (.journal name n)) (.journal name n) =
      .ok (t, .error e)) :
    '\n' ∉ e.display ctx.printable ∨ ∃ name' err,
      LogUnread s files ctx (.journal name n) name' err ∧ e = logError ctx name' err := by
  have hreport := congrArg Prod.snd (Except.ok.inj h)
  rcases newline_not_mem_reportOn (by decide) hname hreport with hline | ⟨k, rfl, hk, hn⟩
  · exact .inl hline
  · simp only [report, complete, reportResult] at hn
    split at hn
    case h_1 err hlog =>
      cases hn
      exact .inr ⟨k, err, ⟨⟨n, rfl⟩, hk, hlog⟩, rfl⟩
    case h_2 => cases hn

/-- **Which error texts are one line**: every one but that of a log file that cannot be read. -/
theorem error_line (hos : OsTexts ans files) {req : Request} {t : SupervisorState}
    {e : RequestError} (hwords : ∀ w ∈ req.words, '\n' ∉ w.toList)
    (h : handle alloc s (complete ans files ctx req) req = .ok (t, .error e)) :
    '\n' ∉ e.display ctx.printable ∨
      ∃ name err, LogUnread s files ctx req name err ∧ e = logError ctx name err := by
  cases req with
  | journal name n => exact journal_error (fun w hw => hwords w (List.mem_append_left _ hw)) h
  | unreadable =>
    cases h
    exact .inl (newline_not_mem_message (by decide))
  | empty =>
    cases h
    exact .inl (newline_not_mem_message (by decide))
  | list => cases h
  | shutdown => cases h
  | unknown command =>
    cases h
    exact .inl (newline_not_mem_text (by decide) (hwords command (by simp [Request.words])))
  | status name =>
    have hreport := congrArg Prod.snd (Except.ok.inj h)
    rcases newline_not_mem_reportOn (by decide) hwords hreport with hline | ⟨n, -, -, hn⟩
    · exact .inl hline
    · cases hn
  | cgroups =>
    have hreport := congrArg Prod.snd (Except.ok.inj h)
    simp only [report, complete, reportResult] at hreport
    split at hreport
    case h_1 err htree =>
      cases hreport
      exact .inl (newline_not_mem_text (by decide) (hos.cgroupTree err htree))
    case h_2 => cases hreport
  | enabled =>
    have hreport := congrArg Prod.snd (Except.ok.inj h)
    simp only [report, complete, reportResult] at hreport
    split at hreport
    case h_1 err hunits =>
      cases hreport
      exact .inl (newline_not_mem_text (by decide) (hos.enabledUnits err hunits))
    case h_2 => cases hreport
  | start name =>
    cases name with
    | none =>
      cases h
      exact .inl (newline_not_mem_message (by decide))
    | some name => exact .inl (newline_not_mem_startNamed (congrArg Prod.snd (Except.ok.inj h)))
  | stop name =>
    cases name with
    | none =>
      cases h
      exact .inl (newline_not_mem_message (by decide))
    | some name => exact .inl (newline_not_mem_stopUnit h)
  | restart name => exact .inl (newline_not_mem_restart h)
  | enable name => exact .inl (newline_not_mem_enable hos hwords h)
  | disable name => exact .inl (newline_not_mem_disable hos h)

/-! ### The log directory -/

variable (s files ctx) in
/-- The path of a log file that cannot be read breaks the line of the error, and what stands after
the break does not begin like an error. -/
def LogPathBreaks (req : Request) : Prop :=
  (∃ name e, LogUnread s files ctx req name e) ∧ '\n' ∈ ctx.logDir ∧
    ¬ "err:".toList <+: lastSegment ctx.logDir

theorem display_logError (name : String) (e : IoError) :
    (logError ctx name e).display ctx.printable =
      ("read ".toList ++ ctx.logDir) ++ '/' :: (name.toList ++ ".log".toList ++ ": ".toList ++
        e.toList) := by
  simp only [logError, RequestError.display, logPath, String.toList_append, String.toList_ofList,
    List.append_assoc, List.cons_append]

/-- The error of a log file that cannot be read is reported unless its path breaks the line. -/
theorem reports_logError (hos : OsTexts ans files) (body : Body) {req : Request} {name : String}
    {e : IoError} (hwords : ∀ w ∈ req.words, '\n' ∉ w.toList)
    (hlog : LogUnread s files ctx req name e) :
    Reports (.error (logError ctx name e))
        (unlines (body ++ [statusLine ctx (.error (logError ctx name e))])) ↔
      ¬ LogPathBreaks s files ctx req := by
  have hname : '\n' ∉ name.toList := by
    obtain ⟨⟨n, rfl⟩, -, -⟩ := hlog
    exact hwords name (by simp [Request.words])
  have hrest : '\n' ∉ '/' :: (name.toList ++ ".log".toList ++ ": ".toList ++ e.toList) := by
    have htail := newline_not_mem_append (newline_not_mem_append (newline_not_mem_append hname
      (b := ".log".toList) (by decide)) (b := ": ".toList) (by decide))
      (hos.logFile _ e hlog.2.2)
    intro h
    exact (List.mem_cons.mp h).elim (by decide) htail
  by_cases hdir : '\n' ∈ ctx.logDir
  · rw [reports_error, err_prefix_lastLine, statusLine, display_logError, ← List.append_assoc,
      lastSegment_append hrest, ← List.append_assoc, lastSegment_append_left hdir,
      prefix_append_cons (by decide)]
    exact ⟨fun h hbreak => hbreak.2.2 h,
      fun h => by_contra fun hno => h ⟨⟨name, e, hlog⟩, hdir, hno⟩⟩
  · refine iff_of_true (reports_statusLine_error body ?_) (fun hbreak => hdir hbreak.2.1)
    rw [display_logError]
    exact newline_not_mem_append (newline_not_mem_append (by decide) hdir) hrest

theorem handleOne_of_unread {line : Except IoError String} {name : String} {e : IoError}
    (h : LogUnread s files ctx (parseRequest line) name e) :
    handleOne s ans files ctx alloc line = .ok (s, .error (logError ctx name e),
      unlines (body s ans files ctx (parseRequest line) ++
        [statusLine ctx (.error (logError ctx name e))])) := by
  obtain ⟨⟨n, hreq⟩, hlookup, hlog⟩ := h
  obtain ⟨id, hid⟩ := Option.ne_none_iff_exists'.mp hlookup
  have hreport : reportResult files ctx (.journal (some name) n) =
      .error ("read " ++ String.ofList (logPath ctx name) ++ ": " ++ e) := by
    simp only [reportResult, hlog]
  have hres : reportOn s (complete ans files ctx (.journal (some name) n)) "JOURNAL" (some name) =
      .error (logError ctx name e) := by
    simp only [reportOn, hid, report, complete, hreport]
    rfl
  simp only [handleOne, hreq, handle, hres]

/-- **The exit status of the client is that of the request**, and its last line says so, exactly
when no line break in the path of the log directory ends the line of an error. -/
theorem exit_status_reports (hos : OsTexts ans files) (line : Except IoError String) :
    (∀ t res reply, handleOne s ans files ctx alloc line = .ok (t, res, reply) →
        Reports res reply) ↔
      ¬ LogPathBreaks s files ctx (parseRequest line) := by
  have hwords : ∀ w ∈ (parseRequest line).words, '\n' ∉ w.toList := fun w hw =>
    newline_not_mem_words hw
  constructor
  · intro hall hbreak
    obtain ⟨⟨name, e, hlog⟩, -⟩ := id hbreak
    have hreport := hall _ _ _ (handleOne_of_unread hlog)
    exact (reports_logError hos _ hwords hlog).mp hreport hbreak
  · intro hno t res reply h
    unfold handleOne at h
    simp only at h
    split at h
    case h_1 => cases h
    case h_2 hhandle =>
      cases h
      cases res with
      | ok u => exact reports_statusLine_ok _ u
      | error e =>
        rcases error_line hos hwords hhandle with hline | ⟨name, err, hlog, rfl⟩
        · exact reports_statusLine_error _ hline
        · exact (reports_logError hos _ hwords hlog).mpr hno

/-! ### A log directory that breaks the line -/

/-- A supervisor of one service. -/
def dhcpcdState : SupervisorState :=
  .new (.fromLoaded [⟨"dhcpcd.service",
    { service := some { execStart := "/usr/sbin/dhcpcd" } }⟩]) true

/-- The log of every service holds what a client might take for a last line. -/
def loggedErr : Contents where
  logFile := fun _ => .ok "ok\nerr: no lease\n".toList
  cgroupTree := .error .notFound
  enabledUnits := .ok []

/-- Nothing can be read. -/
def unreadableFiles : Contents where
  logFile := fun _ => .error (.other "Is a directory (os error 21)")
  cgroupTree := .error (.other "Permission denied (os error 13)")
  enabledUnits := .error "Permission denied (os error 13)"

/-- The paths of a supervisor with the given log directory. -/
def logsIn (logDir : String) : ReplyContext :=
  ⟨"/etc/writeonce/enabled.d".toList, logDir.toList, fun c => ' ' ≤ c ∧ c ≤ '~'⟩

theorem exit_status_reports_dhcpcd : Reports (.ok ()) "err: no lease\nok\n".toList := by
  have hos : OsTexts {} loggedErr := ⟨nofun, nofun, nofun, nofun, nofun⟩
  have hserved : handleOne dhcpcdState {} loggedErr (logsIn "/var/log/writeonce") .counting
      (.ok "JOURNAL dhcpcd.service 1\n") =
        .ok (dhcpcdState, .ok (), "err: no lease\nok\n".toList) := rfl
  refine (exit_status_reports hos _).mpr (fun hbreak => ?_) _ _ _ hserved
  exact absurd hbreak.2.1 (by decide)

/-- The log that cannot be read looks like a success. -/
theorem unread_log_succeeds :
    OsTexts {} unreadableFiles ∧ ∃ t e reply,
      handleOne dhcpcdState {} unreadableFiles (logsIn "/var/log\nok") .counting
          (.ok "JOURNAL dhcpcd.service\n") = .ok (t, .error e, reply) ∧
        lastLine reply = "ok/dhcpcd.service.log: Is a directory (os error 21)".toList ∧
        exitStatus reply = 0 := by
  refine ⟨⟨nofun, nofun, ?_, ?_, ?_⟩, _, _, _, rfl, ?_, ?_⟩
  · rintro path e ⟨⟩
    decide
  · rintro e ⟨⟩
    decide
  · rintro e ⟨⟩
    decide
  · decide
  · decide

end Control

end WriteonceOs.Svc
