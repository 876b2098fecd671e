import WriteonceOs.Library.Descriptors
import WriteonceOs.Library.Panics
import WriteonceOs.Library.Words
import WriteonceOs.Pid1.Shutdown

/-!
# The run of PID 1

PID 1 mounts the pseudo file systems, blocks its signals, forks the first service and enters the
event loop.  An error on the way is printed, and then PID 1 pauses for ever, since the kernel panics
when it exits; after a shutdown it returns from `main` if it was not rebooted.  The answers of the
kernel are arguments, and so is the configuration, which is the default where the file cannot be
read or parsed.

* `narrate` — the log of the loop with the lines that it prints;
* `supervised` — the run of PID 1, and when it exits;
* `childSetup_execed` — what the service is executed with.
-/

namespace WriteonceOs.Pid1

open WriteonceOs.Library
open WriteonceOs.Library.FdTable (get kept get_openFile get_dup2 get_close get_exec)
open WriteonceOs.Svc (Duration Instant)

/-! ### Mounts -/

def msNosuid : UInt64 := 2

def msNodev : UInt64 := 4

def msNoexec : UInt64 := 8

structure MountSpec where
  source : String
  target : String
  fstype : String
  flags : UInt64
  data : Option String := none
  deriving DecidableEq, Repr

/-- `MOUNTS`. -/
def mounts : List MountSpec :=
  [{ source := "proc", target := "/proc", fstype := "proc",
     flags := msNosuid ||| msNoexec ||| msNodev },
   { source := "sysfs", target := "/sys", fstype := "sysfs",
     flags := msNosuid ||| msNoexec ||| msNodev },
   { source := "devtmpfs", target := "/dev", fstype := "devtmpfs",
     flags := msNosuid, data := some "mode=755" },
   { source := "devpts", target := "/dev/pts", fstype := "devpts",
     flags := msNosuid ||| msNoexec, data := some "gid=5,mode=620" },
   { source := "tmpfs", target := "/run", fstype := "tmpfs",
     flags := msNosuid ||| msNodev, data := some "mode=755" },
   { source := "cgroup2", target := "/sys/fs/cgroup", fstype := "cgroup2",
     flags := msNosuid ||| msNoexec ||| msNodev }]

/-- No mount hides one that was made before. -/
example : (mounts.map MountSpec.target).Pairwise fun earlier later =>
    ¬ later.toList.isPrefixOf earlier.toList := by decide

def ebusy : Errno := 16

/-! ### The run -/

/-- The signals that are blocked and read from the signalfd. -/
def signals : List Signal := [.chld, .term, .int, .hup]

inductive Call where
  | mount (spec : MountSpec)
  | block (signals : List Signal)
  | signalfd
  | fork
  deriving DecidableEq, Repr

inductive Fatal where
  | notPid1
  | os (errno : Errno)
  deriving DecidableEq, Repr

/-- A line that is printed; the last two go to standard error. -/
inductive Line where
  | starting (pid : ℕ) (fake : Bool)
  | config (cfg : Config)
  | mounted (spec : MountSpec)
  | skipping
  | spawned (child : ℤ)
  | reaped (pid : ℤ)
  | hangup
  | requested
  | unhandled (signal : Signal)
  | rebooting
  | rebootFailed (errno : Errno)
  | fatal (e : Fatal)
  deriving DecidableEq, Repr

inductive Act where
  | call (call : Call)
  | event (e : Event)
  | print (line : Line)
  deriving DecidableEq, Repr

def Act.isPrint : Act → Bool
  | .print _ => true
  | .call _ | .event _ => false

def calls (acts : List Act) : List Call :=
  acts.filterMap fun
    | .call call => some call
    | .event _ | .print _ => none

def events (acts : List Act) : List Event :=
  acts.filterMap fun
    | .event e => some e
    | .call _ | .print _ => none

/-- What the environment and the kernel answer. -/
structure Machine where
  -- `WO_PID1_FAKE` is set
  fake : Bool := false
  pid : ℕ := 1
  config : Option Config := none
  mount : MountSpec → Option Errno := fun _ => none
  block : Option Errno := none
  signalfd : Option Errno := none
  fork : Except Errno ℤ := .ok 2
  clock : Instant := 0
  epoll : Option Errno := none
  turns : List Turn := []
  -- the error of `reboot`, if it returns
  reboot : Option Errno := none
  -- which of its lines can be written; one to a closed descriptor counts as written
  writes : ℕ → Bool := fun _ => true

/-- How far `main` has come. -/
inductive Ending where
  | looping
  | rebooted
  | paused (e : Fatal)
  | exited (code : ℕ)
  deriving DecidableEq, Repr

structure Ran where
  acts : List Act
  ending : Ending
  deriving DecidableEq, Repr

/-- What `run` does, and its result; none as long as the loop runs, or the machine reboots. -/
structure Progress where
  acts : List Act := []
  result : Option (Except Fatal Unit)
  deriving DecidableEq, Repr

variable (m : Machine)

/-- Acts in their order, and what follows when none fails. -/
def attempts : List (Act × Option Errno) → Progress → Progress
  | [], next => next
  | (act, some errno) :: _, _ => { acts := [act], result := some (.error (.os errno)) }
  | (act, none) :: rest, next =>
    let done := attempts rest next
    { done with acts := act :: done.acts }

/-- A target that is busy counts as mounted. -/
def doMount (spec : MountSpec) : Option Errno := (m.mount spec).filter (· ≠ ebusy)

def mountSteps (spec : MountSpec) : List (Act × Option Errno) :=
  [(.call (.mount spec), doMount m spec), (.print (.mounted spec), none)]

def mountEssentials : Progress → Progress := attempts (mounts.flatMap (mountSteps m))

def installSteps : List (Act × Option Errno) :=
  [(.call (.block signals), m.block), (.call .signalfd, m.signalfd)]

def install : Progress → Progress := attempts (installSteps m)

def loadOrDefault : Config := m.config.getD {}

/-- The lines that the loop prints where it has come to an event. -/
def linesAt (past : List Event) : Event → List Line
  | .signal .hup _ => [.hangup]
  | .signal .term _ | .signal .int _ => if firstRequest past = none then [.requested] else []
  | .signal .kill _ => [.unhandled .kill]
  | .signal (.other signo) _ => [.unhandled (.other signo)]
  | .reaped pid => [.reaped pid]
  | .sync => [.rebooting]
  | .signal .chld _ | .kill _ _ | .began _ | .wait _ _ | .reboot _ => []

/-- A log of the loop with the lines in it. -/
def narrate (past : List Event) : List Event → List Act
  | [] => []
  | e :: log => .event e :: ((linesAt past e).map .print ++ narrate (past ++ [e]) log)

/-- The loop, and the `reboot` at its end. -/
def loopResult : LoopState × Outcome → Progress
  | (s, .running) => { acts := narrate [] s.log, result := none }
  | (s, .failed errno) => { acts := narrate [] s.log, result := some (.error (.os errno)) }
  | (s, .returned) =>
    match m.reboot with
    | none => { acts := narrate [] s.log, result := none }
    | some errno =>
      { acts := narrate [] s.log ++ [.print (.rebootFailed errno)], result := some (.ok ()) }

def spawnAndLoop : Progress :=
  match m.fork with
  | .error errno => { acts := [.call .fork], result := some (.error (.os errno)) }
  | .ok child =>
    let looped := loopResult m (eventLoop (loadOrDefault m) child m.clock m.epoll m.turns)
    { looped with acts := .call .fork :: .print (.spawned child) :: looped.acts }

/-- What is printed before anything is done. -/
def greeting : List (Act × Option Errno) :=
  [(.print (.starting m.pid m.fake), none), (.print (.config (loadOrDefault m)), none)]

def run : Progress :=
  if m.fake = false ∧ m.pid ≠ 1 then { result := some (.error .notPid1) }
  else
    attempts (greeting m)
      (if m.fake then attempts [(.print .skipping, none)] (install m (spawnAndLoop m))
      else mountEssentials m (install m (spawnAndLoop m)))

/-- Whether the machine is rebooting, as long as there is no result. -/
def rebooting (log : List Event) : Bool :=
  log.any fun e => match e with
    | .reboot _ => true
    | _ => false

def endingOf (pid : ℕ) (p : Progress) : Ending :=
  match p.result with
  | some (.error e) => if pid = 1 then .paused e else .exited 1
  | some (.ok ()) => .exited 0
  | none => if rebooting (events p.acts) then .rebooted else .looping

/-- What `main` does when each line can be written. -/
def script (p : Progress) : List Act :=
  match p.result with
  | some (.error e) => p.acts ++ [.print (.fatal e)]
  | some (.ok ()) | none => p.acts

def main : Ran where
  acts := upToPanic Act.isPrint m.writes (script (run m))
  ending :=
    if Written m.writes ((script (run m)).countP Act.isPrint) then endingOf m.pid (run m)
    else .exited panicStatus

/-! ### The end of the loop -/

section Loop

variable {grace : Duration} {child : ℤ}

theorem rebooting_of_unfinished {log : List Event} (h : Unfinished log) :
    rebooting log = false := by
  rw [rebooting, List.any_eq_false]
  intro e he
  have hfinal := h e he
  cases e with
  | reboot now => cases hfinal
  | _ => simp

theorem rebooting_finishShutdown (s : LoopState) : rebooting s.finishShutdown.log = true := by
  rw [finishShutdown_log, rebooting, List.any_append, List.any_append]
  simp

/-- A turn that ends the loop is the one that reboots. -/
theorem rebooting_turn {s : LoopState} (h : Waiting grace child s) (t : Turn) :
    rebooting (turn grace s t).1.log = true ↔ (turn grace s t).2 = .returned := by
  constructor
  · intro hreboot
    rcases turn_cases h t with hwait | ⟨hreturned, -⟩
    · exact absurd (rebooting_of_unfinished hwait.unfinished) (by simp [hreboot])
    · exact hreturned
  · intro hreturned
    unfold turn at hreturned ⊢
    cases htimeout : (s.advance t.dt).timeoutMs grace with
    | none => exact rebooting_finishShutdown _
    | some timeout =>
      rw [htimeout] at hreturned
      exfalso
      unfold waitTurn at hreturned
      dsimp only at hreturned
      split at hreturned
      · split at hreturned
        · cases hreturned
        · cases hreturned
      · revert hreturned
        rcases (LoopState.drainEach _ _).2 with - | errno
        · exact nofun
        · exact nofun

theorem rebooting_turns {s : LoopState} (h : Waiting grace child s) (ts : List Turn) :
    rebooting (turns grace s ts).1.log = true ↔ (turns grace s ts).2 = .returned := by
  induction ts generalizing s with
  | nil => exact iff_of_false (by simp [turns, rebooting_of_unfinished h.unfinished]) nofun
  | cons t ts ih =>
    have hone := rebooting_turn h t
    have hcases := turn_cases h t
    rw [turns]
    generalize turn grace s t = result at hone hcases ⊢
    obtain ⟨s', outcome⟩ := result
    cases outcome with
    | running =>
      refine ih ?_
      rcases hcases with hwait | ⟨hreturned, -⟩
      · exact hwait
      · cases hreturned
    | returned => exact hone
    | failed errno => exact hone

theorem rebooting_eventLoop (cfg : Config) (child : ℤ) (clock : Instant) (setup : Option Errno)
    (ts : List Turn) : rebooting (eventLoop cfg child clock setup ts).1.log = true ↔
      (eventLoop cfg child clock setup ts).2 = .returned := by
  cases setup with
  | none => exact rebooting_turns (waiting_start cfg.shutdownGrace child clock) ts
  | some errno => exact iff_of_false nofun nofun

end Loop

/-! ### The lines of the loop -/

/-- A request finds none before it exactly where the loop is not shutting down. -/
theorem firstRequest_eq_none {grace : Duration} {child : ℤ} {s : LoopState}
    (h : Waiting grace child s) : firstRequest s.log = none ↔ s.shuttingDown = none := by
  cases hdown : s.shuttingDown with
  | none => exact iff_of_true (h.idle hdown).1 rfl
  | some start =>
    obtain ⟨-, -, t, ht, -⟩ := h.begun start hdown
    exact iff_of_false (by rw [ht]; exact nofun) nofun

@[simp] theorem calls_append (acts acts' : List Act) :
    calls (acts ++ acts') = calls acts ++ calls acts' := List.filterMap_append

@[simp] theorem events_append (acts acts' : List Act) :
    events (acts ++ acts') = events acts ++ events acts' := List.filterMap_append

@[simp] theorem calls_print (lines : List Line) : calls (lines.map .print) = [] := by
  rw [calls, List.filterMap_map]
  exact List.filterMap_eq_nil_iff.mpr fun _ _ => rfl

@[simp] theorem events_print (lines : List Line) : events (lines.map .print) = [] := by
  rw [events, List.filterMap_map]
  exact List.filterMap_eq_nil_iff.mpr fun _ _ => rfl

theorem calls_narrate (past log : List Event) : calls (narrate past log) = [] := by
  induction log generalizing past with
  | nil => rfl
  | cons e log ih =>
    show calls ((linesAt past e).map .print ++ narrate (past ++ [e]) log) = []
    rw [calls_append, calls_print, ih]
    rfl

theorem events_narrate (past log : List Event) : events (narrate past log) = log := by
  induction log generalizing past with
  | nil => rfl
  | cons e log ih =>
    show e :: events ((linesAt past e).map .print ++ narrate (past ++ [e]) log) = e :: log
    rw [events_append, events_print, ih]
    rfl

theorem calls_script (p : Progress) : calls (script p) = calls p.acts := by
  rw [script]
  split
  · exact (calls_append _ _).trans (List.append_nil _)
  · rfl
  · rfl

theorem events_script (p : Progress) : events (script p) = events p.acts := by
  rw [script]
  split
  · exact (events_append _ _).trans (List.append_nil _)
  · rfl
  · rfl

/-! ### From the start to the end -/

/-- **Acts in their order**: either all of them, and what follows, or those up to one that
fails. -/
theorem attempts_cases (steps : List (Act × Option Errno)) (next : Progress) :
    ((∀ step ∈ steps, step.2 = none) ∧
      attempts steps next = { next with acts := steps.map Prod.fst ++ next.acts }) ∨
    ∃ before act errno, before ++ [(act, some errno)] <+: steps ∧
      attempts steps next =
        { acts := before.map Prod.fst ++ [act], result := some (.error (.os errno)) } := by
  induction steps with
  | nil => exact .inl ⟨nofun, rfl⟩
  | cons step steps ih =>
    obtain ⟨act, error⟩ := step
    cases error with
    | some errno => exact .inr ⟨[], act, errno, ⟨steps, rfl⟩, rfl⟩
    | none =>
      rcases ih with ⟨hnone, hall⟩ | ⟨before, failed, errno, hprefix, hfailed⟩
      · refine .inl ⟨List.forall_mem_cons.mpr ⟨rfl, hnone⟩, ?_⟩
        rw [attempts, hall]
        rfl
      · refine .inr ⟨(act, none) :: before, failed, errno, ?_, ?_⟩
        · exact List.cons_prefix_cons.mpr ⟨rfl, hprefix⟩
        · rw [attempts, hfailed]
          rfl

theorem attempts_append (steps steps' : List (Act × Option Errno)) (next : Progress) :
    attempts (steps ++ steps') next = attempts steps (attempts steps' next) := by
  induction steps with
  | nil => rfl
  | cons step steps ih =>
    obtain ⟨act, error⟩ := step
    cases error with
    | some errno => rfl
    | none =>
      show _ = _
      rw [List.cons_append, attempts, ih]
      rfl

/-- What is done before the service is forked. -/
def startSteps : List (Act × Option Errno) :=
  greeting m ++ (mounts.flatMap (mountSteps m) ++ installSteps m)

theorem run_real (hreal : m.fake = false) (hpid : m.pid = 1) :
    run m = attempts (startSteps m) (spawnAndLoop m) := by
  rw [run, if_neg (by simp [hpid]), if_neg (by simp [hreal]), startSteps, attempts_append,
    attempts_append]
  rfl

def startCalls : List Call := mounts.map .mount ++ [.block signals, .signalfd]

theorem calls_startSteps : calls ((startSteps m).map Prod.fst) = startCalls := rfl

theorem events_startSteps : events ((startSteps m).map Prod.fst) = [] := rfl

variable {m}

theorem doMount_none {spec : MountSpec} (h : doMount m spec = none) :
    m.mount spec = none ∨ m.mount spec = some ebusy := by
  unfold doMount at h
  cases hmount : m.mount spec with
  | none => exact .inl rfl
  | some errno =>
    rw [hmount, Option.filter_eq_none_iff] at h
    exact .inr (congrArg some (by simpa using h errno rfl))

theorem loopResult_acts (res : LoopState × Outcome) :
    ∃ lines : List Line, (loopResult m res).acts = narrate [] res.1.log ++ lines.map .print := by
  obtain ⟨s, - | - | errno⟩ := res
  · exact ⟨[], (List.append_nil _).symm⟩
  · show ∃ lines : List Line, (loopResult m (s, .returned)).acts = _ ++ lines.map .print
    rw [loopResult]
    cases m.reboot with
    | none => exact ⟨[], (List.append_nil _).symm⟩
    | some errno => exact ⟨[.rebootFailed errno], rfl⟩
  · exact ⟨[], (List.append_nil _).symm⟩

theorem calls_loopResult (res : LoopState × Outcome) : calls (loopResult m res).acts = [] := by
  obtain ⟨lines, h⟩ := loopResult_acts (m := m) res
  rw [h, calls_append, calls_narrate, calls_print, List.append_nil]

theorem events_loopResult (res : LoopState × Outcome) :
    events (loopResult m res).acts = res.1.log := by
  obtain ⟨lines, h⟩ := loopResult_acts (m := m) res
  rw [h, events_append, events_narrate, events_print, List.append_nil]

theorem spawnAndLoop_calls : calls (spawnAndLoop m).acts = [.fork] := by
  rw [spawnAndLoop]
  split
  · rfl
  · next child _ =>
    show .fork :: calls (loopResult m _).acts = [.fork]
    rw [calls_loopResult]

theorem spawnAndLoop_events (h : events (spawnAndLoop m).acts ≠ []) :
    ∃ child, m.fork = .ok child ∧ events (spawnAndLoop m).acts =
      (eventLoop (loadOrDefault m) child m.clock m.epoll m.turns).1.log := by
  rw [spawnAndLoop] at h ⊢
  cases hfork : m.fork with
  | error errno =>
    rw [hfork] at h
    exact absurd rfl h
  | ok child => exact ⟨child, rfl, events_loopResult _⟩

/-- The loop is left without an error when it reboots, and the reboot fails. -/
theorem spawnAndLoop_ok : (spawnAndLoop m).result = some (.ok ()) ↔
    rebooting (events (spawnAndLoop m).acts) = true ∧ m.reboot ≠ none := by
  rw [spawnAndLoop]
  cases hfork : m.fork with
  | error errno => exact iff_of_false nofun (fun h => nomatch h.1)
  | ok child =>
    have hloop := rebooting_eventLoop (loadOrDefault m) child m.clock m.epoll m.turns
    generalize hlooped : eventLoop (loadOrDefault m) child m.clock m.epoll m.turns = looped
      at hloop
    have hevents : events (.call .fork :: .print (.spawned child) :: (loopResult m looped).acts) =
        looped.1.log := events_loopResult looped
    dsimp only
    rw [hlooped, hevents, hloop]
    obtain ⟨s, outcome⟩ := looped
    cases outcome with
    | running => exact iff_of_false nofun (fun h => nomatch h.1)
    | failed errno => exact iff_of_false nofun (fun h => nomatch h.1)
    | returned =>
      rw [loopResult]
      cases m.reboot with
      | none => exact iff_of_false nofun (fun h => absurd rfl h.2)
      | some errno => exact iff_of_true rfl ⟨rfl, nofun⟩

/-- What is done where every line can be written. -/
structure Ordered (m : Machine) (p : Progress) : Prop where
  calls : calls p.acts <+: startCalls ++ [.fork]
  ready : .fork ∈ Pid1.calls p.acts →
    (∀ spec ∈ mounts, m.mount spec = none ∨ m.mount spec = some ebusy) ∧
      m.block = none ∧ m.signalfd = none
  watched : events p.acts ≠ [] → ∃ child, m.fork = .ok child ∧
    events p.acts = (eventLoop (loadOrDefault m) child m.clock m.epoll m.turns).1.log
  lasting : p.result = some (.ok ()) ↔ rebooting (events p.acts) = true ∧ m.reboot ≠ none

theorem run_ordered (hreal : m.fake = false) (hpid : m.pid = 1) : Ordered m (run m) := by
  rw [run_real m hreal hpid]
  rcases attempts_cases (startSteps m) (spawnAndLoop m) with
    ⟨hnone, hall⟩ | ⟨before, act, errno, hprefix, hfailed⟩
  · rw [hall]
    have hcalls : calls ((startSteps m).map Prod.fst ++ (spawnAndLoop m).acts) =
        startCalls ++ [.fork] := by
      rw [calls_append, calls_startSteps, spawnAndLoop_calls]
    have hevents : events ((startSteps m).map Prod.fst ++ (spawnAndLoop m).acts) =
        events (spawnAndLoop m).acts := by
      rw [events_append, events_startSteps, List.nil_append]
    have hinstall : ∀ step ∈ installSteps m, step.2 = none := fun step hstep =>
      hnone step (List.mem_append_right _ (List.mem_append_right _ hstep))
    have hmount : ∀ spec ∈ mounts, doMount m spec = none := fun spec hspec =>
      hnone (.call (.mount spec), doMount m spec) (List.mem_append_right _
        (List.mem_append_left _ (List.mem_flatMap.mpr ⟨spec, hspec, List.mem_cons_self⟩)))
    refine ⟨hcalls ▸ List.prefix_rfl, fun _ => ⟨fun spec hspec => doMount_none (hmount spec hspec),
      ?_, ?_⟩, fun h => ?_, ?_⟩
    · exact hinstall (.call (.block signals), m.block) List.mem_cons_self
    · exact hinstall (.call .signalfd, m.signalfd) (List.mem_cons_of_mem _ List.mem_cons_self)
    · rw [hevents] at h ⊢
      exact spawnAndLoop_events h
    · rw [hevents]
      exact spawnAndLoop_ok
  · rw [hfailed]
    have hacts : before.map Prod.fst ++ [act] <+: (startSteps m).map Prod.fst := by
      simpa using hprefix.map Prod.fst
    have hcalls : calls (before.map Prod.fst ++ [act]) <+: startCalls :=
      hacts.filterMap _
    have hevents : events (before.map Prod.fst ++ [act]) = [] :=
      List.prefix_nil.mp (hacts.filterMap _)
    refine ⟨hcalls.trans (List.prefix_append _ _), fun hfork => ?_, fun h => absurd hevents h, ?_⟩
    · exact absurd (hcalls.subset hfork) (by decide)
    · rw [hevents]
      exact iff_of_false nofun (fun h => nomatch h.1)

/-- As PID 1 an error is paused on. -/
theorem endingOf_exited {p : Progress} {code : ℕ} :
    endingOf 1 p = .exited code ↔ code = 0 ∧ p.result = some (.ok ()) := by
  unfold endingOf
  split
  case h_1 e he => exact iff_of_false nofun (fun h => nomatch he.symm.trans h.2)
  case h_2 hok =>
    constructor
    · intro h
      cases h
      exact ⟨rfl, hok⟩
    · intro h
      rw [h.1]
  case h_3 hnone =>
    refine iff_of_false (fun h => ?_) (fun h => nomatch hnone.symm.trans h.2)
    split at h
    · cases h
    · cases h

/-- Whether the lines of a run could be written. -/
def Spoke (m : Machine) (acts : List Act) : Prop := Written m.writes (acts.countP Act.isPrint)

instance (m : Machine) (acts : List Act) : Decidable (Spoke m acts) :=
  inferInstanceAs (Decidable (Written _ _))

variable (m) in
/-- **The run of PID 1.** -/
structure Supervised : Prop where
  -- the calls are made in their order
  order : calls (main m).acts <+: startCalls ++ [.fork]
  -- the service finds the file systems mounted, and no signal of it is lost
  ready : .fork ∈ calls (main m).acts → calls (main m).acts = startCalls ++ [.fork] ∧
    (∀ spec ∈ mounts, m.mount spec = none ∨ m.mount spec = some ebusy) ∧
      m.block = none ∧ m.signalfd = none
  -- the loop watches the child that was forked
  watched : events (main m).acts ≠ [] → ∃ child, m.fork = .ok child ∧
    events (main m).acts <+:
      (eventLoop (loadOrDefault m) child m.clock m.epoll m.turns).1.log ∧
    (Spoke m (main m).acts → events (main m).acts =
      (eventLoop (loadOrDefault m) child m.clock m.epoll m.turns).1.log)
  -- a line that cannot be written is the last thing that is done
  silenced : ¬ Spoke m (main m).acts → ∃ before line,
    (main m).acts = before ++ [.print line] ∧ Spoke m before ∧
      m.writes (before.countP Act.isPrint) = false
  -- only a reboot that fails ends PID 1, or a line that cannot be written
  lasting : ∀ code, (main m).ending = .exited code ↔
    (code = 0 ∧ rebooting (events (main m).acts) = true ∧ m.reboot ≠ none ∧
      Spoke m (main m).acts) ∨
    (code = panicStatus ∧ ¬ Spoke m (main m).acts)

/-- **PID 1 does its work in order**, and exits only when it could not reboot, or say what it
does. -/
theorem supervised (hreal : m.fake = false) (hpid : m.pid = 1) : Supervised m := by
  have hrun := run_ordered hreal hpid
  have hacts : (main m).acts <+: script (run m) := upToPanic_prefix _ _ _
  have hspoke : Spoke m (main m).acts ↔ Spoke m (script (run m)) := written_upToPanic _ _ _
  have hcalls : calls (main m).acts <+: calls (run m).acts :=
    calls_script (run m) ▸ hacts.filterMap _
  have hevents : events (main m).acts <+: events (run m).acts :=
    events_script (run m) ▸ hacts.filterMap _
  have hwhole : Spoke m (main m).acts → (main m).acts = script (run m) := fun h => by
    rcases upToPanic_cases Act.isPrint m.writes (script (run m)) with
      ⟨-, hdone⟩ | ⟨before, line, hline, -, -, hfails, hdone⟩
    · exact hdone
    · have hcount : (main m).acts.countP Act.isPrint = before.countP Act.isPrint + 1 := by
        rw [main, hdone, List.countP_append, List.countP_singleton, if_pos hline]
      have hlast := h (before.countP Act.isPrint) (by rw [hcount]; exact Nat.lt_succ_self _)
      exact absurd (hfails.symm.trans hlast) Bool.false_ne_true
  refine ⟨hcalls.trans hrun.calls, fun hfork => ⟨?_, hrun.ready (hcalls.subset hfork)⟩,
    fun h => ?_, fun hnot => ?_, fun code => ?_⟩
  · rcases List.prefix_concat_iff.mp (hcalls.trans hrun.calls) with hall | hstart
    · exact hall
    · exact absurd (hstart.subset hfork) (by decide)
  · have hne : events (run m).acts ≠ [] := fun hnil => h (List.prefix_nil.mp (hnil ▸ hevents))
    obtain ⟨child, hfork, hlog⟩ := hrun.watched hne
    refine ⟨child, hfork, hlog ▸ hevents, fun hs => ?_⟩
    rw [hwhole hs, events_script, hlog]
  · rcases upToPanic_cases Act.isPrint m.writes (script (run m)) with
      ⟨hall, -⟩ | ⟨before, act, hline, -, hbefore, hfails, hdone⟩
    · exact absurd (hspoke.mpr hall) hnot
    · cases act with
      | print line => exact ⟨before, line, hdone, hbefore, hfails⟩
      | call call => cases hline
      | event e => cases hline
  · by_cases hs : Spoke m (main m).acts
    · have hending : (main m).ending = endingOf 1 (run m) := by
        rw [main, hpid]
        exact if_pos (hspoke.mp hs)
      rw [hending, endingOf_exited, hrun.lasting, or_iff_left (fun h => h.2 hs),
        and_iff_left (b := Spoke m _) hs]
      rw [hwhole hs, events_script]
    · have hending : (main m).ending = .exited panicStatus := if_neg (mt hspoke.mpr hs)
      rw [hending, or_iff_right (fun h => hs h.2.2.2), and_iff_left hs, Ending.exited.injEq,
        eq_comm]

/-- The child exits, the machine is shut down, and the reboot is refused. -/
def refusedReboot : Machine where
  config := some { shutdownGraceSeconds := 2 }
  fork := .ok 7
  turns := [{ ready := .ok [{ reads := [{ signal := .chld, waits := [7] }] }] },
    { ready := .ok [{ reads := [{ signal := .term }] }] },
    { dt := 2000000000, ready := .ok [] }]
  reboot := some 1

theorem supervised_refusedReboot : (main refusedReboot).ending = .exited 0 ∧
    (main { refusedReboot with writes := (· < 9) }).ending = .exited 101 :=
  ⟨((supervised rfl rfl).lasting 0).mpr (.inl ⟨rfl, by decide, nofun, by decide⟩),
    ((supervised rfl rfl).lasting 101).mpr (.inr ⟨rfl, by decide⟩)⟩

/-! ### The service -/

/-- What a descriptor refers to: what PID 1 was started with, its signalfd, or the terminal. -/
inductive OpenFile where
  | held (n : ℕ)
  | signalfd
  | tty (path : String)
  deriving DecidableEq, Repr

/-- What the kernel answers to the child. -/
structure ChildAnswers where
  opens : Bool := true
  execve : Option Errno := none

/-- What is executed. -/
structure Image where
  program : String
  argv : List String
  envp : List String
  table : FdTable OpenFile
  blocked : List Signal
  -- it leads a session, and the terminal is that of the session
  leader : Bool
  controlling : Option String
  deriving DecidableEq, Repr

/-- How the child ends: executed, or with the status. -/
inductive ChildEnd where
  | execed (image : Image)
  | exited (code : ℕ)
  deriving DecidableEq, Repr

/-- The descriptors of PID 1 when it forks. -/
def forkTable (t : FdTable OpenFile) : FdTable OpenFile := (t.openFile .signalfd true).2

def closeAbove (t : FdTable OpenFile) (fd : ℕ) : FdTable OpenFile :=
  if 3 ≤ fd then t.close fd else t

/-- The terminal on the standard descriptors; without it those of PID 1 stay. -/
def attachTty (t : FdTable OpenFile) (tty : String) (opens : Bool) : FdTable OpenFile :=
  if opens then
    let fd := t.free
    let t := (t.openFile (.tty tty) false).2
    closeAbove (((t.dup2 fd 0).dup2 fd 1).dup2 fd 2) fd
  else t

def environment : List String :=
  ["PATH=/usr/bin:/usr/sbin:/bin:/sbin", "HOME=/root", "TERM=linux"]

/-- `child_setup`, in the child of PID 1 with the table `t`. -/
def childSetup (cfg : Config) (t : FdTable OpenFile) (a : ChildAnswers) : ChildEnd :=
  if hasNul cfg.tty.toList then .exited 127
  else
    let t := attachTty t cfg.tty a.opens
    if hasNul cfg.child.toList ∨ cfg.childArgs.any (hasNul ·.toList) then .exited 127
    else
      match a.execve with
      | some _ => .exited 127
      | none => .execed ⟨cfg.child, cfg.childArgs, environment, t.exec, [], true,
          if a.opens then some cfg.tty else none⟩

/-- The terminal is on the standard descriptors, and what lies above stays. -/
theorem get_attachTty (t : FdTable OpenFile) (tty : String) (opens : Bool) (fd : ℕ) :
    get (attachTty t tty opens) fd =
      if opens = true ∧ fd < 3 then some ⟨.tty tty, false⟩ else get t fd := by
  cases opens with
  | false => rfl
  | true =>
    have hopen : get (t.openFile (.tty tty) false).2 t.free = some ⟨.tty tty, false⟩ := by
      rw [get_openFile, if_pos rfl]
    have hcopied (old new : ℕ) {t' : FdTable OpenFile}
        (h : get t' old = some ⟨.tty tty, false⟩) :
        get (t'.dup2 old new) old = some ⟨.tty tty, false⟩ := by
      rw [FdTable.get_dup2_plain h]
      split
      · rfl
      · exact h
    have hzero := hcopied t.free 0 hopen
    have hone := hcopied t.free 1 hzero
    have hspread : ∀ fd, get ((((t.openFile (.tty tty) false).2.dup2 t.free 0).dup2 t.free 1).dup2
        t.free 2) fd = if fd < 3 then some ⟨.tty tty, false⟩
          else get (t.openFile (.tty tty) false).2 fd := by
      intro fd
      rw [FdTable.get_dup2_plain hone, FdTable.get_dup2_plain hzero,
        FdTable.get_dup2_plain hopen]
      by_cases hlow : fd < 3
      · rw [if_pos hlow]
        obtain rfl | rfl | rfl : fd = 0 ∨ fd = 1 ∨ fd = 2 := by omega
        · rfl
        · rfl
        · rfl
      · rw [if_neg (by omega), if_neg (by omega), if_neg (by omega), if_neg hlow]
    show get (closeAbove _ t.free) fd = _
    simp only [true_and]
    unfold closeAbove
    by_cases hfree : 3 ≤ t.free
    · rw [if_pos hfree, get_close, hspread, get_openFile]
      by_cases hfd : fd = t.free
      · rw [if_pos hfd, if_neg (by omega), hfd, FdTable.get_free]
      · rw [if_neg hfd, if_neg hfd]
    · rw [if_neg hfree, hspread, get_openFile]
      by_cases hlow : fd < 3
      · rw [if_pos hlow, if_pos hlow]
      · rw [if_neg hlow, if_neg hlow, if_neg (by omega)]

/-- The signalfd does not outlive the exec. -/
theorem kept_forkTable (t : FdTable OpenFile) (fd : ℕ) :
    kept (get (forkTable t) fd) = kept (get t fd) := by
  rw [forkTable, get_openFile]
  split
  case isTrue hfd =>
    rw [hfd, FdTable.get_free]
    rfl
  case isFalse => rfl

/-- What the service is executed with, if PID 1 was started with the table `t`. -/
structure Serves (cfg : Config) (t : FdTable OpenFile) (a : ChildAnswers) (image : Image) :
    Prop where
  program : image.program = cfg.child ∧ image.argv = cfg.childArgs
  envp : image.envp = environment
  -- no signal is blocked any more
  blocked : image.blocked = []
  leader : image.leader = true
  stdio : ∀ fd, image.table.get fd =
    if a.opens = true ∧ fd < 3 then some ⟨.tty cfg.tty, false⟩ else kept (get t fd)

/-- **The first service** is executed exactly where its names can be passed and the kernel allows
it, with the terminal on its standard descriptors, if that can be opened, and otherwise with the
descriptors that PID 1 was started with, and none of its own. -/
theorem childSetup_execed (cfg : Config) (t : FdTable OpenFile) (a : ChildAnswers) :
    ((∃ image, childSetup cfg (forkTable t) a = .execed image) ↔
      (∀ s ∈ cfg.tty :: cfg.child :: cfg.childArgs, hasNul s.toList = false) ∧ a.execve = none) ∧
    ∀ image, childSetup cfg (forkTable t) a = .execed image → Serves cfg t a image := by
  unfold childSetup
  cases htty : hasNul cfg.tty.toList with
  | true => exact ⟨iff_of_false (by simp) (by simp [htty]), nofun⟩
  | false =>
    rw [if_neg (by simp)]
    dsimp only
    by_cases hnul : hasNul cfg.child.toList = true ∨ cfg.childArgs.any (hasNul ·.toList) = true
    · rw [if_pos hnul]
      refine ⟨iff_of_false (by simp) (fun h => ?_), nofun⟩
      have hfree := List.forall_mem_cons.mp (List.forall_mem_cons.mp h.1).2
      rcases hnul with hchild | hargs
      · exact absurd hfree.1 (by simp [hchild])
      · obtain ⟨arg, harg, hyes⟩ := List.any_eq_true.mp hargs
        exact absurd (hfree.2 arg harg) (by simp [hyes])
    · rw [if_neg hnul]
      rw [not_or, Bool.not_eq_true, Bool.not_eq_true, List.any_eq_false] at hnul
      have hfree : ∀ s ∈ cfg.tty :: cfg.child :: cfg.childArgs, hasNul s.toList = false := by
        refine List.forall_mem_cons.mpr ⟨htty, ?_⟩
        refine List.forall_mem_cons.mpr ⟨hnul.1, fun arg harg => ?_⟩
        exact Bool.eq_false_of_not_eq_true (hnul.2 arg harg)
      cases hexec : a.execve with
      | some errno => exact ⟨iff_of_false (by simp) (fun h => nomatch h.2), nofun⟩
      | none =>
        refine ⟨iff_of_true ⟨_, rfl⟩ ⟨hfree, rfl⟩, fun image himage => ?_⟩
        cases himage
        refine ⟨⟨rfl, rfl⟩, rfl, rfl, rfl, fun fd => ?_⟩
        rw [get_exec, get_attachTty]
        split
        · rfl
        · exact kept_forkTable t fd

end WriteonceOs.Pid1
