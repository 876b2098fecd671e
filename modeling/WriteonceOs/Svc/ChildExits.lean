import WriteonceOs.Svc.EventLoop

/-!
# Child exits between the supervisor and the kernel

The supervisor one system call at a time, next to a kernel that keeps the children that exited until
they are waited for and one SIGCHLD bit for all of them.  Children exit at any moment.  Three places
wait for them: the wait for a oneshot, the drain of a stop and the signal handler.

* `Machine.step` — the steps of the supervisor and of the kernel;
* `startUnitInternal_launch` — a start attempt is a launch and, for a oneshot, the wait for it;
* `ExitInv` — the bit is set while an unreaped child is left, and every child that is not left was
  handled once;
* `no_exit_lost` — what holds whenever the event loop is about to block;
* `reapChildren_does`, `stop_does` — signal reads and stops are runs of the machine.
-/

namespace WriteonceOs.Svc

open WriteonceOs.Library

/-! ### The kernel -/

/-- A process forked from the supervisor or handed over to it; the serial number tells processes
with the same PID apart. -/
structure Child where
  pid : Pid
  serial : ℕ
  deriving DecidableEq, Repr

structure Kernel where
  running : List Child := []
  -- exited and not yet waited for
  exited : List (Child × ExitStatus) := []
  -- the pending SIGCHLD, one for any number of exits
  sigchld : Bool := false
  -- the number of processes so far
  serials : ℕ := 0
  deriving Repr

namespace Kernel

variable (k : Kernel)

/-- The children that were not waited for. -/
def unreaped : List Child := k.running ++ k.exited.map Prod.fst

/-- A new child under a PID that is not in use. -/
def fork (pid : Pid) : Option (Child × Kernel) :=
  if pid ∈ k.unreaped.map (·.pid) then none
  else
    let child := ⟨pid, k.serials⟩
    some (child, { k with running := k.running ++ [child], serials := k.serials + 1 })

/-- A running child exits. -/
def exit (pid : Pid) (status : ExitStatus) : Option Kernel :=
  match k.running.find? (fun c => c.pid = pid) with
  | none => none
  | some child => some { k with
      running := k.running.erase child
      exited := k.exited ++ [(child, status)]
      sigchld := true }

/-- `waitpid` hands over a child that exited. -/
def wait (pid : Pid) : Option ((Child × ExitStatus) × Kernel) :=
  match k.exited.find? (fun z => z.1.pid = pid) with
  | none => none
  | some z => some (z, { k with exited := k.exited.erase z })

end Kernel

/-! ### The supervisor, one system call at a time -/

/-- What an attempt has started. -/
inductive Launched where
  | nothing
  | service (pid : Pid)
  | oneshot (pid : Pid) (service : ServiceSection)
  deriving Repr

namespace SupervisorState

variable (s : SupervisorState)

/-- A start attempt up to the entries in the PID table. -/
def launch (id : UnitId) (spawned : Except IoError Pid) : SupervisorState × Launched :=
  match s.failedDep id with
  | some _ => (s.setState id .failed, .nothing)
  | none =>
    match (s.registry.get id).file.service with
    | none => (s.setState id .active, .nothing)
    | some service =>
      let s := s.setState id .activating
      match spawned with
      | .error _ => ((s.emit (.spawnFailed id)).setState id .failed, .nothing)
      | .ok pid =>
        let s := ((s.emit (.spawned id pid)).setPid id (some pid)).track pid id
        match service.kind with
        | .oneshot => (s, .oneshot pid service)
        | _ => (s.setState id .active, .service pid)

end SupervisorState

/-- Where the supervisor is. -/
inductive Phase where
  -- between two operations: activation, control requests, restart timer
  | serving
  -- `wait_oneshot`, before a poll
  | polling (id : UnitId) (pid : Pid) (service : ServiceSection)
  -- `wait_oneshot`, in the blocking wait behind its SIGKILL
  | killed (id : UnitId) (pid : Pid) (service : ServiceSection)
  -- `stop_unit`, at the head of the drain
  | draining (plan : List UnitId) (expected : List Pid) (flag : Bool)
  -- `stop_unit`, before a `waitpid(-1)`
  | drainReaping (plan : List UnitId) (expected : List Pid) (flag : Bool)
  -- about to block in `epoll_wait`
  | waiting
  -- `drain_signalfd`, before a read
  | reading
  -- `reap`, before a `waitpid(-1)`
  | reaping
  -- the event loop is over
  | ended
  deriving Repr

/-- Who handled the exit of a child. -/
inductive Handler where
  | childExit | oneshotWait
  deriving DecidableEq, Repr

structure Machine where
  sup : SupervisorState
  kernel : Kernel := {}
  phase : Phase := .serving
  -- the children that were entered in the PID table, and those whose exit was handled
  registered : List ℕ := []
  handled : List (ℕ × Handler) := []

inductive Action where
  -- a child exits; a process is handed over to the supervisor; time passes
  | exit (pid : Pid) (status : ExitStatus)
  | adopt (pid : Pid)
  | tick (dt : Duration)
  -- between operations
  | start (id : UnitId) (spawned : Except IoError Pid)
  | stop (anchor : String) (ords : HashOrders)
  | takeDue
  | addWantedBy (target unit : String)
  | initiateShutdown
  | readSignals
  | wait
  | wake
  -- the wait for a oneshot; the flag is a deadline that has passed
  | poll (expired : Bool)
  | waitKilled
  -- the drain of a stop
  | drainCheck (escalate : Option (HashOrder Pid))
  | drainBreak
  -- one child of a `waitpid(-1)`
  | reap (pid : Pid)
  | reapNone
  -- a read of the signalfd
  | readChild
  | readTerminate
  | readOther
  | readAgain
  | readFailed

namespace Machine

variable (m : Machine)

/-- The supervisor before it activates anything. -/
def new (registry : UnitRegistry) (fake : Bool) : Machine where
  sup := SupervisorState.new registry fake

/-- `waitpid(-1)` reports a child, and `on_child_exit` handles it if the table knows it. -/
def reapOne (pid : Pid) (phase : Phase) : Option Machine :=
  match m.kernel.wait pid with
  | none => none
  | some (z, kernel) => some { m with
      kernel := kernel
      sup := m.sup.reapChild ⟨0, pid, z.2⟩
      phase := phase
      handled := if (m.sup.byPid.lookup pid).isSome
        then m.handled ++ [(z.1.serial, .childExit)] else m.handled }

/-- `waitpid` reports a oneshot. -/
def reapOneshot (id : UnitId) (pid : Pid) (service : ServiceSection)
    (outcome : ExitStatus → OneshotOutcome) : Option Machine :=
  match m.kernel.wait pid with
  | none => none
  | some (z, kernel) => some { m with
      kernel := kernel
      sup := (m.sup.emit (.reaped pid)).endOneshot id pid service (outcome z.2)
      phase := .serving
      handled := m.handled ++ [(z.1.serial, .oneshotWait)] }

/-- A start attempt; a spawn forks a child. -/
def start (id : UnitId) (spawned : Except IoError Pid) : Option Machine :=
  match m.sup.launch id spawned with
  | (sup, .nothing) => some { m with sup := sup }
  | (sup, .service pid) => (m.kernel.fork pid).map fun forked => { m with
      sup := sup
      kernel := forked.2
      registered := m.registered ++ [forked.1.serial] }
  | (sup, .oneshot pid service) => (m.kernel.fork pid).map fun forked => { m with
      sup := sup
      kernel := forked.2
      phase := .polling id pid service
      registered := m.registered ++ [forked.1.serial] }

/-- A stop up to its drain. -/
def stop (anchor : String) (ords : HashOrders) : Machine :=
  match m.sup.registry.buildStopTransaction ords anchor with
  | .error _ => m
  | .ok plan => { m with
      sup := plan.foldl SupervisorState.termUnit
        ((m.sup.setShuttingDown true).emit (.stopping plan))
      phase := .draining plan (m.sup.expectedPids plan) m.sup.shuttingDown }

/-- The head of the drain: no child expected any more, or another pass, which may begin with the
SIGKILLs. -/
def drainCheck (plan : List UnitId) (expected : List Pid) (flag : Bool)
    (escalate : Option (HashOrder Pid)) : Machine :=
  if expected = [] then
    { m with
      sup := (plan.foldl SupervisorState.reapCgroup m.sup).setShuttingDown flag
      phase := .serving }
  else
    { m with
      sup := match escalate with
        | none => m.sup
        | some order => m.sup.killAll (order.enum expected)
      phase := .drainReaping plan expected flag }

/-- The steps.  A step that the phase does not allow is disabled. -/
def step : Action → Option Machine
  | .exit pid status => (m.kernel.exit pid status).map fun kernel => { m with kernel := kernel }
  | .adopt pid => (m.kernel.fork pid).map fun forked => { m with kernel := forked.2 }
  | .tick dt => some { m with sup := m.sup.advance dt }
  | .start id spawned =>
    match m.phase with
    | .serving => m.start id spawned
    | _ => none
  | .stop anchor ords =>
    match m.phase with
    | .serving => some (m.stop anchor ords)
    | _ => none
  | .takeDue =>
    match m.phase with
    | .serving => some { m with
        sup := m.sup.setPending (m.sup.pendingRestarts.filter (fun r => ¬ r.fireAt ≤ m.sup.clock)) }
    | _ => none
  | .addWantedBy target unit =>
    match m.phase with
    | .serving => some { m with sup := m.sup.addWantedBy target unit }
    | _ => none
  | .initiateShutdown =>
    match m.phase with
    | .serving => some { m with sup := m.sup.initiateShutdown }
    | _ => none
  | .readSignals =>
    match m.phase with
    | .serving => some { m with phase := .reading }
    | _ => none
  | .wait =>
    match m.phase with
    | .serving => some { m with phase := .waiting }
    | _ => none
  | .wake =>
    match m.phase with
    | .waiting => some { m with phase := .serving }
    | _ => none
  | .poll expired =>
    match m.phase with
    | .polling id pid service =>
      if pid ∈ m.kernel.running.map (·.pid) then
        -- still running
        if expired then
          some { m with sup := m.sup.emit (.kill pid .kill), phase := .killed id pid service }
        else some m
      else if pid ∈ m.kernel.exited.map (·.1.pid) then
        m.reapOneshot id pid service fun status => if status.clean then .clean else .failed
      else
        -- `ECHILD`
        some { m with sup := m.sup.endOneshot id pid service .failed, phase := .serving }
    | _ => none
  | .waitKilled =>
    match m.phase with
    | .killed id pid service =>
      if pid ∈ m.kernel.unreaped.map (·.pid) then
        m.reapOneshot id pid service fun _ => .timedOut
      else some { m with sup := m.sup.endOneshot id pid service .timedOut, phase := .serving }
    | _ => none
  | .drainCheck escalate =>
    match m.phase with
    | .draining plan expected flag => some (m.drainCheck plan expected flag escalate)
    | _ => none
  | .drainBreak =>
    match m.phase with
    | .drainReaping plan expected flag =>
      if m.kernel.exited = [] then some { m with phase := .draining plan expected flag } else none
    | _ => none
  | .reap pid =>
    match m.phase with
    | .drainReaping plan expected flag =>
      m.reapOne pid (.drainReaping plan (expected.filter (· ≠ pid)) flag)
    | .reaping => m.reapOne pid .reaping
    | _ => none
  | .reapNone =>
    match m.phase with
    | .reaping => if m.kernel.exited = [] then some { m with phase := .reading } else none
    | _ => none
  | .readChild =>
    match m.phase with
    | .reading =>
      if m.kernel.sigchld then
        some { m with kernel := { m.kernel with sigchld := false }, phase := .reaping }
      else none
    | _ => none
  | .readTerminate =>
    match m.phase with
    | .reading => some { m with
        sup := if m.sup.shuttingDown then m.sup else m.sup.initiateShutdown }
    | _ => none
  | .readOther =>
    match m.phase with
    | .reading => some m
    | _ => none
  | .readAgain =>
    match m.phase with
    | .reading => if m.kernel.sigchld then none else some { m with phase := .serving }
    | _ => none
  | .readFailed =>
    match m.phase with
    | .reading => some { m with phase := .ended }
    | _ => none

/-- The machine after a sequence of steps. -/
def steps (acts : List Action) : Option Machine := acts.foldlM step m

end Machine

/-! ### What the kernel does -/

/-- The children have PIDs and serial numbers of their own. -/
structure Kernel.Valid (k : Kernel) : Prop where
  pids : (k.unreaped.map (·.pid)).Nodup
  serials : (k.unreaped.map (·.serial)).Nodup
  bound : ∀ c ∈ k.unreaped, c.serial < k.serials

namespace Kernel

variable {k k' : Kernel} {pid : Pid}

theorem Valid.congr (h : k.Valid) (hperm : k'.unreaped.Perm k.unreaped)
    (hserials : k'.serials = k.serials) : k'.Valid where
  pids := (hperm.map _).nodup_iff.mpr h.pids
  serials := (hperm.map _).nodup_iff.mpr h.serials
  bound := by
    intro c hc
    rw [hserials]
    exact h.bound c (hperm.mem_iff.mp hc)

/-- Two children under one PID are the same. -/
theorem Valid.eq_of_pid (h : k.Valid) {c d : Child} (hc : c ∈ k.unreaped) (hd : d ∈ k.unreaped)
    (hpid : c.pid = d.pid) : c = d :=
  List.inj_on_of_nodup_map h.pids hc hd hpid

theorem Valid.eq_of_serial (h : k.Valid) {c d : Child} (hc : c ∈ k.unreaped)
    (hd : d ∈ k.unreaped) (hserial : c.serial = d.serial) : c = d :=
  List.inj_on_of_nodup_map h.serials hc hd hserial

theorem fork_spec {child : Child} (h : k.fork pid = some (child, k')) :
    child.pid = pid ∧ child.serial = k.serials ∧ (∀ c ∈ k.unreaped, c.pid ≠ pid) ∧
      k'.unreaped.Perm (child :: k.unreaped) ∧ k'.exited = k.exited ∧
      k'.running = k.running ++ [child] ∧ k'.sigchld = k.sigchld ∧ k'.serials = k.serials + 1 := by
  unfold fork at h
  split at h
  · cases h
  · rename_i hfresh
    cases h
    refine ⟨rfl, rfl, fun c hc heq => hfresh (List.mem_map.mpr ⟨c, hc, heq⟩), ?_, rfl, rfl, rfl,
      rfl⟩
    rw [unreaped, unreaped, List.append_assoc]
    exact List.perm_middle

theorem Valid.fork (h : k.Valid) {child : Child} (hfork : k.fork pid = some (child, k')) :
    k'.Valid := by
  obtain ⟨hpid, hserial, hfresh, hperm, -, -, -, hserials⟩ := fork_spec hfork
  refine ⟨(hperm.map _).nodup_iff.mpr ?_, (hperm.map _).nodup_iff.mpr ?_, fun c hc => ?_⟩
  · rw [List.map_cons, List.nodup_cons]
    refine ⟨fun hmem => ?_, h.pids⟩
    obtain ⟨c, hc, heq⟩ := List.mem_map.mp hmem
    exact hfresh c hc (heq.trans hpid)
  · rw [List.map_cons, List.nodup_cons]
    refine ⟨fun hmem => ?_, h.serials⟩
    obtain ⟨c, hc, heq⟩ := List.mem_map.mp hmem
    have hlt := h.bound c hc
    rw [heq, hserial] at hlt
    exact lt_irrefl _ hlt
  · rw [hserials]
    rcases List.mem_cons.mp (hperm.mem_iff.mp hc) with rfl | hc
    · rw [hserial]
      exact Nat.lt_succ_self _
    · exact (h.bound c hc).trans (Nat.lt_succ_self _)

theorem exit_spec {status : ExitStatus} (hexit : k.exit pid status = some k') :
    k'.unreaped.Perm k.unreaped ∧ k'.sigchld = true ∧ k'.serials = k.serials := by
  unfold Kernel.exit at hexit
  split at hexit
  · cases hexit
  · rename_i child hfind
    cases hexit
    refine ⟨?_, rfl, rfl⟩
    have hsplit := List.perm_cons_erase (List.mem_of_find?_eq_some hfind)
    simp only [unreaped, List.map_append, List.map_cons, List.map_nil]
    refine List.Perm.trans ?_ (hsplit.symm.append_right _)
    rw [← List.append_assoc]
    exact List.perm_append_singleton _ _

theorem wait_spec {z : Child × ExitStatus} (hwait : k.wait pid = some (z, k')) :
    z.1.pid = pid ∧ k.unreaped.Perm (z.1 :: k'.unreaped) ∧ k'.sigchld = k.sigchld ∧
      k'.serials = k.serials ∧ k'.running = k.running ∧ k.exited ≠ [] := by
  unfold wait at hwait
  split at hwait
  · cases hwait
  · rename_i y hfind
    cases hwait
    have hmem := List.mem_of_find?_eq_some hfind
    have hsplit := List.perm_cons_erase hmem
    refine ⟨by simpa using List.find?_some hfind, ?_, rfl, rfl, rfl, List.ne_nil_of_mem hmem⟩
    rw [unreaped, unreaped]
    exact ((hsplit.map Prod.fst).append_left k.running).trans List.perm_middle

theorem Valid.wait (h : k.Valid) {z : Child × ExitStatus} (hwait : k.wait pid = some (z, k')) :
    k'.Valid := by
  obtain ⟨-, hperm, -, hserials, -⟩ := wait_spec hwait
  have hpids := (hperm.map (·.pid)).nodup_iff.mp h.pids
  have hserial := (hperm.map (·.serial)).nodup_iff.mp h.serials
  rw [List.map_cons, List.nodup_cons] at hpids hserial
  refine ⟨hpids.2, hserial.2, fun c hc => ?_⟩
  rw [hserials]
  exact h.bound c (hperm.mem_iff.mpr (List.mem_cons_of_mem _ hc))

end Kernel

/-! ### The books -/

/-- The PID table knows the registered children that were not waited for, every other registered
child was handled once, and nothing else was. -/
structure Accounts (k : Kernel) (byPid : PidMap) (registered : List ℕ)
    (handled : List (ℕ × Handler)) : Prop where
  valid : k.Valid
  registered_lt : ∀ n ∈ registered, n < k.serials
  handled_registered : ∀ h ∈ handled, h.1 ∈ registered
  table : ∀ p, (byPid.lookup p).isSome ↔ ∃ c ∈ k.unreaped, c.pid = p ∧ c.serial ∈ registered
  left : ∀ c ∈ k.unreaped, handled.countP (fun h => h.1 = c.serial) = 0
  once : ∀ n ∈ registered, (∀ c ∈ k.unreaped, c.serial ≠ n) →
    handled.countP (fun h => h.1 = n) = 1

namespace Accounts

variable {k k' : Kernel} {byPid : PidMap} {registered : List ℕ} {handled : List (ℕ × Handler)}
  {pid : Pid} {child : Child} {z : Child × ExitStatus}

theorem init : Accounts {} ∅ [] [] where
  valid := ⟨by simp [Kernel.unreaped], by simp [Kernel.unreaped], by simp [Kernel.unreaped]⟩
  registered_lt := by simp
  handled_registered := by simp
  table := by simp [Kernel.unreaped]
  left := by simp
  once := by simp

/-- An exit changes nothing: the child is still to be waited for. -/
theorem congr (h : Accounts k byPid registered handled) (hperm : k'.unreaped.Perm k.unreaped)
    (hserials : k'.serials = k.serials) : Accounts k' byPid registered handled where
  valid := h.valid.congr hperm hserials
  registered_lt := by
    rw [hserials]
    exact h.registered_lt
  handled_registered := h.handled_registered
  table := by
    intro p
    simp only [h.table, hperm.mem_iff]
  left := by
    intro c hc
    exact h.left c (hperm.mem_iff.mp hc)
  once := by
    intro n hn hgone
    exact h.once n hn fun c hc => hgone c (hperm.mem_iff.mpr hc)

/-- Nothing was handled under the serial number of a new child. -/
theorem unhandled (h : Accounts k byPid registered handled) :
    handled.countP (fun h => h.1 = k.serials) = 0 := by
  rw [List.countP_eq_zero]
  intro entry hentry
  have hlt := h.registered_lt _ (h.handled_registered entry hentry)
  simpa using hlt.ne

/-- A process that is handed over is not in the table. -/
theorem adopt (h : Accounts k byPid registered handled)
    (hfork : k.fork pid = some (child, k')) : Accounts k' byPid registered handled := by
  obtain ⟨hpid, hserial, -, hperm, -, -, -, hserials⟩ := Kernel.fork_spec hfork
  have hnew : child.serial ∉ registered := by
    intro hmem
    have hlt := h.registered_lt _ hmem
    rw [hserial] at hlt
    exact lt_irrefl _ hlt
  refine ⟨h.valid.fork hfork, fun n hn => ?_, h.handled_registered, fun p => ?_, fun c hc => ?_,
    fun n hn hgone => ?_⟩
  · rw [hserials]
    exact (h.registered_lt n hn).trans (Nat.lt_succ_self _)
  · rw [h.table]
    simp only [hperm.mem_iff, List.mem_cons, exists_eq_or_imp, hnew, and_false, false_or]
  · rcases List.mem_cons.mp (hperm.mem_iff.mp hc) with rfl | hc
    · rw [hserial]
      exact h.unhandled
    · exact h.left c hc
  · exact h.once n hn fun c hc => hgone c (hperm.mem_iff.mpr (List.mem_cons_of_mem _ hc))

/-- **A spawned child is registered at once.** -/
theorem register (h : Accounts k byPid registered handled) (id : UnitId)
    (hfork : k.fork pid = some (child, k')) :
    Accounts k' (byPid.insert pid id) (registered ++ [child.serial]) handled := by
  obtain ⟨hpid, hserial, hfresh, hperm, -, -, -, hserials⟩ := Kernel.fork_spec hfork
  refine ⟨h.valid.fork hfork, fun n hn => ?_, fun entry hentry => ?_, fun p => ?_, fun c hc => ?_,
    fun n hn hgone => ?_⟩
  · rw [hserials]
    rcases List.mem_append.mp hn with hn | hn
    · exact (h.registered_lt n hn).trans (Nat.lt_succ_self _)
    · rw [List.mem_singleton.mp hn, hserial]
      exact Nat.lt_succ_self _
  · exact List.mem_append_left _ (h.handled_registered entry hentry)
  · -- an older child has a serial number of its own
    have hold : ∀ c ∈ k.unreaped, c.serial ∈ registered ++ [child.serial] ↔
        c.serial ∈ registered := by
      intro c hc
      have hne := (h.valid.bound c hc).ne
      rw [← hserial] at hne
      simp [hne]
    by_cases hp : p = pid
    · rw [hp, AList.lookup_insert]
      refine iff_of_true rfl ⟨child, hperm.mem_iff.mpr List.mem_cons_self, hpid, by simp⟩
    · rw [AList.lookup_insert_ne hp, h.table]
      constructor
      · intro hc
        obtain ⟨c, hc, hcpid, hcserial⟩ := hc
        exact ⟨c, hperm.mem_iff.mpr (List.mem_cons_of_mem _ hc), hcpid, (hold c hc).mpr hcserial⟩
      · intro hc
        obtain ⟨c, hc, hcpid, hcserial⟩ := hc
        rcases List.mem_cons.mp (hperm.mem_iff.mp hc) with rfl | hc
        · exact absurd (hcpid.symm.trans hpid) hp
        · exact ⟨c, hc, hcpid, (hold c hc).mp hcserial⟩
  · rcases List.mem_cons.mp (hperm.mem_iff.mp hc) with rfl | hc
    · rw [hserial]
      exact h.unhandled
    · exact h.left c hc
  · rcases List.mem_append.mp hn with hn | hn
    · exact h.once n hn fun c hc => hgone c (hperm.mem_iff.mpr (List.mem_cons_of_mem _ hc))
    · exact absurd (List.mem_singleton.mp hn).symm
        (hgone child (hperm.mem_iff.mpr List.mem_cons_self))

/-- What is left when a child was waited for. -/
theorem mem_after_wait (h : Accounts k byPid registered handled)
    (hwait : k.wait pid = some (z, k')) (c : Child) :
    c ∈ k'.unreaped ↔ c ∈ k.unreaped ∧ c ≠ z.1 := by
  obtain ⟨-, hperm, -⟩ := Kernel.wait_spec hwait
  have hnd := (hperm.map (·.serial)).nodup_iff.mp h.valid.serials
  rw [List.map_cons, List.nodup_cons] at hnd
  rw [hperm.mem_iff, List.mem_cons]
  constructor
  · intro hc
    refine ⟨Or.inr hc, fun heq => hnd.1 ?_⟩
    exact heq ▸ List.mem_map_of_mem hc
  · intro hc
    exact hc.1.resolve_left hc.2

/-- **A registered child is waited for and handled.** -/
theorem handle (h : Accounts k byPid registered handled) (hwait : k.wait pid = some (z, k'))
    (hregistered : z.1.serial ∈ registered) (handler : Handler) {byPid' : PidMap}
    (hbyPid : ∀ p, (byPid'.lookup p).isSome ↔ p ≠ pid ∧ (byPid.lookup p).isSome) :
    Accounts k' byPid' registered (handled ++ [(z.1.serial, handler)]) := by
  obtain ⟨hpid, hperm, -, hserials, -⟩ := Kernel.wait_spec hwait
  have hz : z.1 ∈ k.unreaped := hperm.mem_iff.mpr List.mem_cons_self
  have hmem := h.mem_after_wait hwait
  refine ⟨h.valid.wait hwait, fun n hn => ?_, fun entry hentry => ?_, fun p => ?_, fun c hc => ?_,
    fun n hn hgone => ?_⟩
  · rw [hserials]
    exact h.registered_lt n hn
  · rcases List.mem_append.mp hentry with hentry | hentry
    · exact h.handled_registered entry hentry
    · rw [List.mem_singleton.mp hentry]
      exact hregistered
  · rw [hbyPid, h.table]
    constructor
    · intro hp
      obtain ⟨hne, c, hc, hcpid, hcserial⟩ := hp
      refine ⟨c, (hmem c).mpr ⟨hc, fun heq => hne ?_⟩, hcpid, hcserial⟩
      rw [← hcpid, heq, hpid]
    · intro hp
      obtain ⟨c, hc, hcpid, hcserial⟩ := hp
      obtain ⟨hc, hne⟩ := (hmem c).mp hc
      refine ⟨fun heq => hne (h.valid.eq_of_pid hc hz ?_), c, hc, hcpid, hcserial⟩
      rw [hcpid, heq, hpid]
  · obtain ⟨hc, hne⟩ := (hmem c).mp hc
    have hserial : z.1.serial ≠ c.serial := fun heq =>
      hne (h.valid.eq_of_serial hc hz heq.symm)
    rw [List.countP_append, h.left c hc]
    simp [hserial]
  · rw [List.countP_append]
    by_cases hn' : z.1.serial = n
    · rw [← hn', h.left z.1 hz]
      simp
    · rw [h.once n hn fun c hc heq => ?_]
      · simp [hn']
      · by_cases hcz : c = z.1
        · exact hn' (hcz ▸ heq)
        · exact hgone c ((hmem c).mpr ⟨hc, hcz⟩) heq

/-- A child that is not in the table is waited for. -/
theorem discard (h : Accounts k byPid registered handled) (hwait : k.wait pid = some (z, k'))
    (hunknown : byPid.lookup pid = none) : Accounts k' byPid registered handled := by
  obtain ⟨hpid, hperm, -, hserials, -⟩ := Kernel.wait_spec hwait
  have hz : z.1 ∈ k.unreaped := hperm.mem_iff.mpr List.mem_cons_self
  have hmem := h.mem_after_wait hwait
  have hserial : z.1.serial ∉ registered := by
    intro hregistered
    have hsome := (h.table pid).mpr ⟨z.1, hz, hpid, hregistered⟩
    simp [hunknown] at hsome
  refine ⟨h.valid.wait hwait, fun n hn => ?_, h.handled_registered, fun p => ?_, fun c hc => ?_,
    fun n hn hgone => ?_⟩
  · rw [hserials]
    exact h.registered_lt n hn
  · rw [h.table]
    refine exists_congr fun c => ?_
    rw [hmem]
    constructor
    · intro hc
      exact ⟨⟨hc.1, fun heq => hserial (heq ▸ hc.2.2)⟩, hc.2⟩
    · intro hc
      exact ⟨hc.1.1, hc.2⟩
  · exact h.left c ((hmem c).mp hc).1
  · refine h.once n hn fun c hc heq => ?_
    by_cases hcz : c = z.1
    · exact hserial (hcz ▸ heq ▸ hn)
    · exact hgone c ((hmem c).mpr ⟨hc, hcz⟩) heq

end Accounts

/-! ### What the supervisor does to the table -/

namespace SupervisorState

variable (s : SupervisorState)

/-- **A start attempt is a launch and, for a oneshot, the wait for it.** -/
theorem startUnitInternal_launch (alloc : PidAllocator) (id : UnitId) (ans : StartAnswer) :
    s.startUnitInternal alloc id ans =
      match s.launch id (ans.spawn.map fun _ => alloc.next s.trace) with
      | (t, .oneshot pid service) => t.finishOneshot id pid service ans.polls
      | (t, _) => t := by
  unfold startUnitInternal startUnitInternalClocked launch
  cases s.failedDep id with
  | some dep => rfl
  | none =>
    dsimp only
    cases (s.registry.get id).file.service with
    | none => rfl
    | some service =>
      dsimp only
      cases ans.spawn with
      | error e => rfl
      | ok _ =>
        dsimp only [Except.map]
        cases service.kind with
        | oneshot => rfl
        | simple => rfl
        | forking => rfl
        | notify => rfl

/-- The PID table, and the PIDs that the units have. -/
def processes (s : SupervisorState) : PidMap × (UnitId → Option Pid) :=
  (s.byPid, fun u => (s.units u).pid)

theorem launch_processes (id : UnitId) (spawned : Except IoError Pid) :
    (s.launch id spawned).1.processes =
      match (s.launch id spawned).2 with
      | .nothing => s.processes
      | .service pid => ((s.setPid id (some pid)).track pid id).processes
      | .oneshot pid _ => ((s.setPid id (some pid)).track pid id).processes := by
  unfold launch
  cases s.failedDep id with
  | some dep => simp [processes]
  | none =>
    dsimp only
    cases (s.registry.get id).file.service with
    | none => simp [processes]
    | some service =>
      dsimp only
      cases spawned with
      | error e => simp [processes]
      | ok pid =>
        dsimp only
        cases service.kind with
        | oneshot => simp [processes]
        | simple => simp [processes]
        | forking => simp [processes]
        | notify => simp [processes]

theorem termUnits_processes (plan : List UnitId) :
    (plan.foldl termUnit s).processes = s.processes := by
  refine foldl_frame processes (fun t id => ?_) s plan
  rcases termUnit_cases t id with ⟨pid, -, heq⟩ | ⟨-, heq⟩
  · simp [heq, processes]
  · simp [heq, processes]

theorem reapCgroups_processes (plan : List UnitId) :
    (plan.foldl reapCgroup s).processes = s.processes := by
  refine foldl_frame processes (fun t id => ?_) s plan
  rcases reapCgroup_cases t id with heq | heq
  · rw [heq]
  · rw [heq]
    rfl

theorem killAll_processes (pids : List Pid) : (s.killAll pids).processes = s.processes := by
  refine foldl_frame processes (fun t pid => ?_) s pids
  rfl

theorem initiateShutdown_processes : s.initiateShutdown.processes = s.processes := by
  unfold SupervisorState.initiateShutdown
  split
  · rfl
  · refine (foldl_frame processes (fun t id => ?_) ((s.setShuttingDown true).setPending [])
      (List.range s.registry.len)).trans rfl
    rcases termIfRunning_cases t id with ⟨pid, -, heq⟩ | ⟨-, heq⟩
    · rw [heq]
      rfl
    · rw [heq]

theorem addWantedBy_processes (target unit : String) :
    (s.addWantedBy target unit).processes = s.processes := by
  unfold addWantedBy
  split
  · rfl
  · rfl

theorem reap_isSome (r : Reap) (p : Pid) : ((s.reapChild r).byPid.lookup p).isSome ↔
    p ≠ r.pid ∧ (s.byPid.lookup p).isSome := by
  simp only [Option.isSome_iff_exists, reap_lookup]
  exact exists_and_left

theorem endOneshot_isSome (id : UnitId) (pid : Pid) (service : ServiceSection)
    (outcome : OneshotOutcome) (p : Pid) :
    ((s.endOneshot id pid service outcome).byPid.lookup p).isSome ↔
      p ≠ pid ∧ (s.byPid.lookup p).isSome := by
  simp only [endOneshot, untrack_byPid, setPid_byPid, setState_byPid, Option.isSome_iff_exists,
    lookup_erase_iff]
  exact exists_and_left

/-- The PID of a unit is in the table, under that unit. -/
def Entered (s : SupervisorState) : Prop :=
  ∀ u p, (s.units u).pid = some p → s.byPid.lookup p = some u

variable {s}

theorem Entered.congr {t : SupervisorState} (h : s.Entered) (heq : t.processes = s.processes) :
    t.Entered := by
  intro u p hp
  have hbyPid : t.byPid = s.byPid := congrArg Prod.fst heq
  have hpid : (t.units u).pid = (s.units u).pid := congrFun (congrArg Prod.snd heq) u
  rw [hbyPid]
  exact h u p (hpid ▸ hp)

/-- A process under a PID that is not in the table becomes that of a unit. -/
theorem Entered.track (h : s.Entered) {pid : Pid} (hfree : s.byPid.lookup pid = none)
    (id : UnitId) : ((s.setPid id (some pid)).track pid id).Entered := by
  intro u p hp
  rw [track_byPid, setPid_byPid, lookup_insert_iff]
  simp only [track_units, setPid_pid] at hp
  split at hp
  · rename_i hu
    exact Or.inl ⟨(Option.some.inj hp).symm, hu.symm⟩
  · have hold := h u p hp
    refine Or.inr ⟨fun heq => ?_, hold⟩
    rw [heq, hfree] at hold
    cases hold

/-- **A reaped child** is no longer the process of its unit. -/
theorem Entered.reap (h : s.Entered) (r : Reap) : (s.reapChild r).Entered := by
  intro u p hp
  rw [reap_pid] at hp
  split at hp
  · cases hp
  · rename_i hlost
    refine (reap_lookup s r p u).mpr ⟨fun heq => hlost ?_, h u p hp⟩
    exact heq ▸ h u p hp

/-- **A oneshot that was waited for** is no longer the process of its unit. -/
theorem Entered.endOneshot (h : s.Entered) {id : UnitId} {pid : Pid}
    (hlookup : s.byPid.lookup pid = some id) (service : ServiceSection)
    (outcome : OneshotOutcome) : (s.endOneshot id pid service outcome).Entered := by
  intro u p hp
  simp only [SupervisorState.endOneshot, untrack_units, setPid_pid, setState_pid] at hp
  simp only [SupervisorState.endOneshot, untrack_byPid, setPid_byPid, setState_byPid,
    lookup_erase_iff]
  split at hp
  · cases hp
  · rename_i hu
    have hold := h u p hp
    refine ⟨fun heq => hu ?_, hold⟩
    rw [heq, hlookup, Option.some.injEq] at hold
    exact hold.symm

end SupervisorState

/-! ### The invariant -/

/-- The unit and the oneshot whose wait `wait_oneshot` is in. -/
def Phase.waitsFor : Phase → Option (UnitId × Pid)
  | .polling id pid _ => some (id, pid)
  | .killed id pid _ => some (id, pid)
  | _ => none

/-- The books are right, SIGCHLD is pending while a child is left, but for the handler that is on
its way, and a oneshot that is waited for is in the table. -/
structure ExitInv (m : Machine) : Prop where
  accounts : Accounts m.kernel m.sup.byPid m.registered m.handled
  entered : m.sup.Entered
  bit : m.kernel.sigchld = true ∨ m.kernel.exited = [] ∨ m.phase = .reaping
  waitedFor : ∀ w ∈ m.phase.waitsFor, m.sup.byPid.lookup w.2 = some w.1

variable {m m' : Machine}

/-- Work of the supervisor alone, that neither begins a wait for a oneshot nor leaves the signal
handler. -/
theorem ExitInv.work (h : ExitInv m) {sup : SupervisorState} {phase : Phase}
    (hprocesses : sup.processes = m.sup.processes) (hphase : m.phase ≠ .reaping)
    (hwaits : phase.waitsFor = none) : ExitInv { m with sup := sup, phase := phase } where
  accounts := by
    have hbyPid : sup.byPid = m.sup.byPid := congrArg Prod.fst hprocesses
    rw [hbyPid]
    exact h.accounts
  entered := h.entered.congr hprocesses
  bit := by
    rcases h.bit with hbit | hnone | hreaping
    · exact Or.inl hbit
    · exact Or.inr (Or.inl hnone)
    · exact absurd hreaping hphase
  waitedFor := by simp [hwaits]

/-- Work between two requests. -/
theorem ExitInv.served (h : ExitInv m) {sup : SupervisorState} (hphase : m.phase = .serving)
    (hprocesses : sup.processes = m.sup.processes) : ExitInv { m with sup } :=
  h.work hprocesses (by simp [hphase]) (by simp [hphase, Phase.waitsFor])

/-- An unreaped child with an entry in the table is a registered one. -/
theorem Accounts.serial_mem {k k' : Kernel} {byPid : PidMap} {registered : List ℕ}
    {handled : List (ℕ × Handler)} {pid : Pid} {z : Child × ExitStatus}
    (h : Accounts k byPid registered handled) (hwait : k.wait pid = some (z, k'))
    (hknown : (byPid.lookup pid).isSome) : z.1.serial ∈ registered := by
  obtain ⟨hpid, hperm, -⟩ := Kernel.wait_spec hwait
  obtain ⟨c, hc, hcpid, hserial⟩ := (h.table pid).mp hknown
  rw [← h.valid.eq_of_pid hc (hperm.mem_iff.mpr List.mem_cons_self) (hcpid.trans hpid.symm)]
  exact hserial

/-- The PID of a new child is not in the table. -/
theorem Accounts.lookup_eq_none {k k' : Kernel} {byPid : PidMap} {registered : List ℕ}
    {handled : List (ℕ × Handler)} {pid : Pid} {child : Child}
    (h : Accounts k byPid registered handled) (hfork : k.fork pid = some (child, k')) :
    byPid.lookup pid = none := by
  obtain ⟨-, -, hfresh, -⟩ := Kernel.fork_spec hfork
  rw [← Option.not_isSome_iff_eq_none]
  intro hsome
  obtain ⟨c, hc, hcpid, -⟩ := (h.table pid).mp hsome
  exact hfresh c hc hcpid

/-- **A `waitpid(-1)` and the exit handler.** -/
theorem ExitInv.reapOne (h : ExitInv m) {pid : Pid} {phase : Phase}
    (hreaping : m.phase = .reaping → phase = .reaping) (hwaits : phase.waitsFor = none)
    (hreap : m.reapOne pid phase = some m') : ExitInv m' := by
  unfold Machine.reapOne at hreap
  cases hwait : m.kernel.wait pid with
  | none =>
    rw [hwait] at hreap
    cases hreap
  | some out =>
    obtain ⟨z, kernel⟩ := out
    rw [hwait] at hreap
    cases hreap
    obtain ⟨-, -, hbit, -, -, hsome⟩ := Kernel.wait_spec hwait
    refine ⟨?_, h.entered.reap _, ?_, by simp [hwaits]⟩
    · dsimp only
      by_cases hknown : (m.sup.byPid.lookup pid).isSome
      · rw [if_pos hknown]
        exact h.accounts.handle hwait (h.accounts.serial_mem hwait hknown) .childExit
          (SupervisorState.reap_isSome m.sup ⟨0, pid, z.2⟩)
      · rw [if_neg hknown]
        have hnone : m.sup.byPid.lookup pid = none := by simpa using hknown
        have hsame : (m.sup.reapChild ⟨0, pid, z.2⟩).byPid = m.sup.byPid := by
          cases SupervisorState.ReapStep.of_reap m.sup ⟨0, pid, z.2⟩ with
          | untracked _ heq => rw [heq, SupervisorState.emit_byPid, SupervisorState.advance_byPid]
          | quiet _ hlookup => simp [hnone] at hlookup
          | scheduled _ hlookup => simp [hnone] at hlookup
          | suppressed _ hlookup => simp [hnone] at hlookup
        rw [hsame]
        exact h.accounts.discard hwait hnone
    · rcases h.bit with hold | hold | hold
      · exact Or.inl (hbit.trans hold)
      · exact absurd hold hsome
      · exact Or.inr (Or.inr (hreaping hold))

/-- **The wait for a oneshot.** -/
theorem ExitInv.reapOneshot (h : ExitInv m) {id : UnitId} {pid : Pid} {service : ServiceSection}
    {outcome : ExitStatus → OneshotOutcome} (hphase : m.phase.waitsFor = some (id, pid))
    (hreap : m.reapOneshot id pid service outcome = some m') : ExitInv m' := by
  unfold Machine.reapOneshot at hreap
  cases hwait : m.kernel.wait pid with
  | none =>
    rw [hwait] at hreap
    cases hreap
  | some out =>
    obtain ⟨z, kernel⟩ := out
    rw [hwait] at hreap
    cases hreap
    obtain ⟨-, -, hbit, -, -, hsome⟩ := Kernel.wait_spec hwait
    have hlookup : m.sup.byPid.lookup pid = some id := h.waitedFor (id, pid) hphase
    have hknown : (m.sup.byPid.lookup pid).isSome := by simp [hlookup]
    refine ⟨?_, ?_, ?_, by simp [Phase.waitsFor]⟩
    · exact h.accounts.handle hwait (h.accounts.serial_mem hwait hknown) .oneshotWait
        ((m.sup.emit (.reaped pid)).endOneshot_isSome id pid service (outcome z.2))
    · have hentered : (m.sup.emit (.reaped pid)).Entered := h.entered.congr rfl
      exact hentered.endOneshot hlookup service (outcome z.2)
    · rcases h.bit with hold | hold | hold
      · exact Or.inl (hbit.trans hold)
      · exact absurd hold hsome
      · rw [hold] at hphase
        cases hphase

/-- A oneshot that is waited for is there, so the wait never finds that it has no child. -/
theorem ExitInv.waited_mem (h : ExitInv m) {id : UnitId} {pid : Pid}
    (hphase : m.phase.waitsFor = some (id, pid)) : pid ∈ m.kernel.unreaped.map (·.pid) := by
  have hlookup : m.sup.byPid.lookup pid = some id := h.waitedFor (id, pid) hphase
  obtain ⟨c, hc, hcpid, -⟩ := (h.accounts.table pid).mp (by simp [hlookup])
  exact List.mem_map.mpr ⟨c, hc, hcpid⟩

/-! ### The steps, one by one -/

/-- What a step between two operations was taken from. -/
theorem of_serving {next : Option Machine}
    (hstep : (match m.phase with | .serving => next | _ => none) = some m') :
    m.phase = .serving ∧ next = some m' := by
  split at hstep
  · rename_i hphase
    exact ⟨hphase, hstep⟩
  · cases hstep

/-- What a step of the signal handler was taken from. -/
theorem of_reading {next : Option Machine}
    (hstep : (match m.phase with | .reading => next | _ => none) = some m') :
    m.phase = .reading ∧ next = some m' := by
  split at hstep
  · rename_i hphase
    exact ⟨hphase, hstep⟩
  · cases hstep

theorem ExitInv.exit (h : ExitInv m) {pid : Pid} {status : ExitStatus}
    (hstep : m.step (.exit pid status) = some m') : ExitInv m' := by
  obtain ⟨kernel, hexit, rfl⟩ := Option.map_eq_some_iff.mp hstep
  obtain ⟨hperm, hbit, hserials⟩ := Kernel.exit_spec hexit
  exact ⟨h.accounts.congr hperm hserials, h.entered, Or.inl hbit, h.waitedFor⟩

theorem ExitInv.adopt (h : ExitInv m) {pid : Pid} (hstep : m.step (.adopt pid) = some m') :
    ExitInv m' := by
  obtain ⟨⟨child, kernel⟩, hfork, rfl⟩ := Option.map_eq_some_iff.mp hstep
  obtain ⟨-, -, -, -, hexited, -, hbit, -⟩ := Kernel.fork_spec hfork
  refine ⟨h.accounts.adopt hfork, h.entered, ?_, h.waitedFor⟩
  rw [hbit, hexited]
  exact h.bit

/-- **A start attempt.** -/
theorem ExitInv.start (h : ExitInv m) {id : UnitId} {spawned : Except IoError Pid}
    (hstep : m.step (.start id spawned) = some m') : ExitInv m' := by
  obtain ⟨hphase, hstart⟩ := of_serving hstep
  have hprocesses := SupervisorState.launch_processes m.sup id spawned
  unfold Machine.start at hstart
  rcases hlaunch : m.sup.launch id spawned with ⟨sup, launched⟩
  rw [hlaunch] at hstart hprocesses
  cases launched with
  | nothing =>
    cases hstart
    exact h.served hphase hprocesses
  | service pid =>
    obtain ⟨⟨child, kernel⟩, hfork, rfl⟩ := Option.map_eq_some_iff.mp hstart
    obtain ⟨-, -, -, -, hexited, -, hbit, -⟩ := Kernel.fork_spec hfork
    have hbyPid : sup.byPid = m.sup.byPid.insert pid id := congrArg Prod.fst hprocesses
    refine ⟨?_, ?_, ?_, by simp [hphase, Phase.waitsFor]⟩
    · dsimp only
      rw [hbyPid]
      exact h.accounts.register id hfork
    · exact (h.entered.track (h.accounts.lookup_eq_none hfork) id).congr hprocesses
    · rw [hbit, hexited]
      exact h.bit
  | oneshot pid service =>
    obtain ⟨⟨child, kernel⟩, hfork, rfl⟩ := Option.map_eq_some_iff.mp hstart
    obtain ⟨-, -, -, -, hexited, -, hbit, -⟩ := Kernel.fork_spec hfork
    have hbyPid : sup.byPid = m.sup.byPid.insert pid id := congrArg Prod.fst hprocesses
    refine ⟨?_, ?_, ?_, fun w hw => ?_⟩
    · dsimp only
      rw [hbyPid]
      exact h.accounts.register id hfork
    · exact (h.entered.track (h.accounts.lookup_eq_none hfork) id).congr hprocesses
    · have hold := h.bit
      rw [hphase] at hold
      rw [hbit, hexited]
      exact hold.imp_right fun hold => Or.inl (hold.resolve_right (by simp))
    · cases hw
      dsimp only
      rw [hbyPid, AList.lookup_insert]

/-- **A stop, up to its drain.** -/
theorem ExitInv.stop (h : ExitInv m) {anchor : String} {ords : HashOrders}
    (hstep : m.step (.stop anchor ords) = some m') : ExitInv m' := by
  obtain ⟨hphase, hstop⟩ := of_serving hstep
  cases hstop
  unfold Machine.stop
  split
  · exact h
  · exact h.work (SupervisorState.termUnits_processes _ _) (by simp [hphase]) rfl

theorem ExitInv.wake (h : ExitInv m) (hstep : m.step .wake = some m') : ExitInv m' := by
  simp only [Machine.step] at hstep
  split at hstep
  · rename_i hphase
    cases hstep
    exact h.work rfl (by simp [hphase]) rfl
  · cases hstep

/-- A oneshot that is polled is left, so that a poll finds it running or reaps it. -/
theorem ExitInv.poll (h : ExitInv m) {expired : Bool} (hstep : m.step (.poll expired) = some m') :
    ExitInv m' := by
  simp only [Machine.step] at hstep
  split at hstep
  · rename_i id pid service hphase
    have hwaits : m.phase.waitsFor = some (id, pid) := by rw [hphase]; rfl
    have hmem := h.waited_mem hwaits
    split at hstep
    · split at hstep
      · cases hstep
        refine ⟨h.accounts, h.entered.congr rfl, ?_, fun w hw => h.waitedFor w ?_⟩
        · have hold := h.bit
          rw [hphase] at hold
          exact hold.imp_right fun hold => Or.inl (hold.resolve_right (by simp))
        · rw [hwaits]
          exact hw
      · cases hstep
        exact h
    · rename_i hrunning
      split at hstep
      · exact h.reapOneshot hwaits hstep
      · rename_i hexited
        rw [Kernel.unreaped, List.map_append, List.mem_append, List.map_map] at hmem
        exact absurd hmem (not_or.mpr ⟨hrunning, hexited⟩)
  · cases hstep

theorem ExitInv.waitKilled (h : ExitInv m) (hstep : m.step .waitKilled = some m') :
    ExitInv m' := by
  simp only [Machine.step] at hstep
  split at hstep
  · rename_i id pid service hphase
    have hwaits : m.phase.waitsFor = some (id, pid) := by rw [hphase]; rfl
    rw [if_pos (h.waited_mem hwaits)] at hstep
    exact h.reapOneshot hwaits hstep
  · cases hstep

theorem ExitInv.drainCheck (h : ExitInv m) {escalate : Option (HashOrder Pid)}
    (hstep : m.step (.drainCheck escalate) = some m') : ExitInv m' := by
  simp only [Machine.step] at hstep
  split at hstep
  · rename_i plan expected flag hphase
    cases hstep
    unfold Machine.drainCheck
    split
    · exact h.work (SupervisorState.reapCgroups_processes m.sup plan) (by simp [hphase]) rfl
    · refine h.work ?_ (by simp [hphase]) rfl
      split
      · rfl
      · exact SupervisorState.killAll_processes m.sup _
  · cases hstep

theorem ExitInv.drainBreak (h : ExitInv m) (hstep : m.step .drainBreak = some m') :
    ExitInv m' := by
  simp only [Machine.step] at hstep
  split at hstep
  · rename_i plan expected flag hphase
    split at hstep
    · cases hstep
      exact h.work rfl (by simp [hphase]) rfl
    · cases hstep
  · cases hstep

/-- **A child of a `waitpid(-1)`**, in a drain or in the signal handler. -/
theorem ExitInv.reap (h : ExitInv m) {pid : Pid} (hstep : m.step (.reap pid) = some m') :
    ExitInv m' := by
  simp only [Machine.step] at hstep
  split at hstep
  · rename_i plan expected flag hphase
    exact h.reapOne (by simp [hphase]) rfl hstep
  · exact h.reapOne (fun _ => rfl) rfl hstep
  · cases hstep

/-- The signal handler reaps until no child is left that exited. -/
theorem ExitInv.reapNone (h : ExitInv m) (hstep : m.step .reapNone = some m') : ExitInv m' := by
  simp only [Machine.step] at hstep
  split at hstep
  · split at hstep
    · rename_i hnone
      cases hstep
      exact ⟨h.accounts, h.entered, Or.inr (Or.inl hnone), by simp [Phase.waitsFor]⟩
    · cases hstep
  · cases hstep

/-- A read of SIGCHLD clears the bit, and the handler is on its way. -/
theorem ExitInv.readChild (h : ExitInv m) (hstep : m.step .readChild = some m') : ExitInv m' := by
  obtain ⟨-, hstep⟩ := of_reading hstep
  split at hstep
  · cases hstep
    exact ⟨h.accounts.congr (List.Perm.refl _) rfl, h.entered, Or.inr (Or.inr rfl),
      by simp [Phase.waitsFor]⟩
  · cases hstep

theorem ExitInv.readTerminate (h : ExitInv m) (hstep : m.step .readTerminate = some m') :
    ExitInv m' := by
  obtain ⟨hphase, hstep⟩ := of_reading hstep
  cases hstep
  refine h.work ?_ (by simp [hphase]) (by simp [hphase, Phase.waitsFor])
  split
  · rfl
  · exact SupervisorState.initiateShutdown_processes m.sup

theorem ExitInv.readAgain (h : ExitInv m) (hstep : m.step .readAgain = some m') : ExitInv m' := by
  obtain ⟨hphase, hstep⟩ := of_reading hstep
  split at hstep
  · cases hstep
  · cases hstep
    exact h.work rfl (by simp [hphase]) rfl

/-- **Every step keeps the books and the bit.** -/
theorem ExitInv.step (h : ExitInv m) {a : Action} (hstep : m.step a = some m') : ExitInv m' := by
  cases a with
  | exit pid status => exact h.exit hstep
  | adopt pid => exact h.adopt hstep
  | tick dt =>
    cases hstep
    exact ⟨h.accounts, h.entered.congr rfl, h.bit, h.waitedFor⟩
  | start id spawned => exact h.start hstep
  | stop anchor ords => exact h.stop hstep
  | takeDue =>
    obtain ⟨hphase, hstep⟩ := of_serving hstep
    cases hstep
    exact h.served hphase rfl
  | addWantedBy target unit =>
    obtain ⟨hphase, hstep⟩ := of_serving hstep
    cases hstep
    exact h.served hphase (SupervisorState.addWantedBy_processes m.sup target unit)
  | initiateShutdown =>
    obtain ⟨hphase, hstep⟩ := of_serving hstep
    cases hstep
    exact h.served hphase (SupervisorState.initiateShutdown_processes m.sup)
  | readSignals =>
    obtain ⟨hphase, hstep⟩ := of_serving hstep
    cases hstep
    exact h.work rfl (by simp [hphase]) rfl
  | wait =>
    obtain ⟨hphase, hstep⟩ := of_serving hstep
    cases hstep
    exact h.work rfl (by simp [hphase]) rfl
  | wake => exact h.wake hstep
  | poll expired => exact h.poll hstep
  | waitKilled => exact h.waitKilled hstep
  | drainCheck escalate => exact h.drainCheck hstep
  | drainBreak => exact h.drainBreak hstep
  | reap pid => exact h.reap hstep
  | reapNone => exact h.reapNone hstep
  | readChild => exact h.readChild hstep
  | readTerminate => exact h.readTerminate hstep
  | readOther =>
    obtain ⟨-, hstep⟩ := of_reading hstep
    cases hstep
    exact h
  | readAgain => exact h.readAgain hstep
  | readFailed =>
    obtain ⟨hphase, hstep⟩ := of_reading hstep
    cases hstep
    exact h.work rfl (by simp [hphase]) rfl

theorem exitInv_new (registry : UnitRegistry) (fake : Bool) :
    ExitInv (Machine.new registry fake) :=
  ⟨Accounts.init, by simp [Machine.new, SupervisorState.Entered, SupervisorState.new],
    Or.inr (Or.inl rfl), by simp [Machine.new, Phase.waitsFor]⟩

/-- **No exit is lost and none is handled twice.**  Whenever the event loop is about to block,
SIGCHLD is pending or no child that exited is left; a registered child that exited was handled once,
unless it is left; and the PID of a child that was handled is gone from the table and from its
unit. -/
theorem no_exit_lost (registry : UnitRegistry) (fake : Bool) (acts : List Action)
    (h : (Machine.new registry fake).steps acts = some m) (hphase : m.phase = .waiting) :
    (m.kernel.sigchld = true ∨ m.kernel.exited = []) ∧
    (∀ n ∈ m.registered, (∀ c ∈ m.kernel.running, c.serial ≠ n) →
      m.handled.countP (fun entry => entry.1 = n) =
        if n ∈ m.kernel.exited.map (·.1.serial) then 0 else 1) ∧
    (∀ p, (m.sup.byPid.lookup p).isSome ↔
      ∃ c ∈ m.kernel.unreaped, c.pid = p ∧ c.serial ∈ m.registered) ∧
    ∀ u p, (m.sup.units u).pid = some p → m.sup.byPid.lookup p = some u := by
  have hstep : ∀ (m : Machine) (a : Action) (m' : Machine), ExitInv m → m.step a = some m' →
      ExitInv m' := fun _ _ _ hI hs => hI.step hs
  have hinv : ExitInv m := foldlM_inv hstep (exitInv_new registry fake) h
  refine ⟨?_, fun n hn hrunning => ?_, hinv.accounts.table, hinv.entered⟩
  · exact hinv.bit.imp_right fun hold => hold.resolve_right (by simp [hphase])
  · split
    · rename_i hexited
      obtain ⟨z, hz, rfl⟩ := List.mem_map.mp hexited
      exact hinv.accounts.left z.1 (List.mem_append_right _ (List.mem_map_of_mem hz))
    · rename_i hexited
      refine hinv.accounts.once n hn fun c hc heq => ?_
      rcases List.mem_append.mp hc with hc | hc
      · exact hrunning c hc heq
      · obtain ⟨z, hz, rfl⟩ := List.mem_map.mp hc
        exact hexited (List.mem_map.mpr ⟨z, hz, heq⟩)

/-- A message bus. -/
def busUnits : UnitRegistry :=
  .fromLoaded [⟨"dbus.service", { service := some { execStart := "/usr/bin/dbus-daemon" } }⟩]

/-- It is started and crashes; the event loop is woken and reaps it. -/
def crashAndReap : List Action :=
  [.start 0 (.ok 1), .wait, .exit 1 (.exited 1), .wake, .readSignals, .readChild, .reap 1,
    .reapNone, .readAgain, .wait]

theorem no_exit_lost_crash :
    ∃ m, (Machine.new busUnits true).steps crashAndReap = some m ∧
      m.handled.countP (fun entry => entry.1 = 0) = 1 :=
  ⟨_, rfl, (no_exit_lost busUnits true crashAndReap rfl rfl).2.1 0 (by decide) (by decide)⟩

/-! ### Exits, signal reads and stops, one system call at a time -/

/-- A running child exits and is waited for. -/
theorem Kernel.exit_wait {k : Kernel} {pid : Pid} (hexited : k.exited = [])
    (hrunning : pid ∈ k.running.map (·.pid)) (status : ExitStatus) :
    ∃ k₁ child k₂, k.exit pid status = some k₁ ∧ k₁.wait pid = some ((child, status), k₂) ∧
      k₂.exited = [] := by
  obtain ⟨c, hc, hcpid⟩ := List.mem_map.mp hrunning
  obtain ⟨child, hfind⟩ : ∃ child, k.running.find? (fun c => c.pid = pid) = some child := by
    rw [← Option.isSome_iff_exists, List.find?_isSome]
    exact ⟨c, hc, by simpa using hcpid⟩
  have hpid : child.pid = pid := by simpa using List.find?_some hfind
  exact ⟨_, child, _, by rw [Kernel.exit, hfind], by simp [Kernel.wait, hexited, hpid]; rfl,
    by simp⟩

/-- A process can be handed over under a PID that is not in use. -/
theorem Kernel.fork_running {k : Kernel} {pid : Pid} (hexited : k.exited = [])
    (hfree : pid ∉ k.running.map (·.pid)) :
    ∃ child k', k.fork pid = some (child, k') ∧ k'.exited = [] ∧ pid ∈ k'.running.map (·.pid) := by
  have hfresh : pid ∉ k.unreaped.map (·.pid) := by simpa [Kernel.unreaped, hexited] using hfree
  refine ⟨⟨pid, k.serials⟩,
    { k with running := k.running ++ [⟨pid, k.serials⟩], serials := k.serials + 1 }, ?_, hexited,
    ?_⟩
  · rw [Kernel.fork, if_neg hfresh]
  · simp

/-- Some steps lead from one machine to the other. -/
def Machine.Leads (m m' : Machine) : Prop := ∃ acts, m.steps acts = some m'

theorem Machine.Leads.refl (m : Machine) : m.Leads m := ⟨[], rfl⟩

theorem Machine.Leads.trans {m₁ m₂ m₃ : Machine} (h : m₁.Leads m₂) (h' : m₂.Leads m₃) :
    m₁.Leads m₃ := by
  obtain ⟨acts, hacts⟩ := h
  obtain ⟨acts', hacts'⟩ := h'
  refine ⟨acts ++ acts', ?_⟩
  rw [Machine.steps, List.foldlM_append]
  rw [Machine.steps] at hacts
  rw [hacts]
  exact hacts'

theorem Machine.Leads.of_step {m₁ m₂ : Machine} (a : Action) (h : m₁.step a = some m₂) :
    m₁.Leads m₂ := by
  refine ⟨[a], ?_⟩
  rw [Machine.steps, List.foldlM_cons, h]
  rfl

/-- The machine does what a part of the supervisor does, and leaves no child that exited. -/
def Machine.Does (m : Machine) (sup : SupervisorState) (phase : Phase) : Prop :=
  ∃ m', m.Leads m' ∧ m'.sup = sup ∧ m'.phase = phase ∧ m'.kernel.exited = []

theorem Machine.Does.trans {m₁ m₂ : Machine} {sup : SupervisorState} {phase : Phase}
    (h : m₁.Leads m₂) (h' : m₂.Does sup phase) : m₁.Does sup phase := by
  obtain ⟨m₃, hlead, hrest⟩ := h'
  exact ⟨m₃, h.trans hlead, hrest⟩

/-- **One reaped child**, in the signal handler or in a drain: it exits, and it is waited for. -/
theorem child_does {phase : Phase} (m : Machine) (hexited : m.kernel.exited = []) (r : Reap)
    (hreap : ∀ m' : Machine, m'.phase = m.phase →
      m'.step (.reap r.pid) = m'.reapOne r.pid phase) :
    m.Does (m.sup.reapChild r) phase := by
  -- with the child among the running ones
  have hknown : ∀ m' : Machine, m'.sup = m.sup.advance r.dt → m'.phase = m.phase →
      m'.kernel.exited = [] → r.pid ∈ m'.kernel.running.map (·.pid) →
      m'.Does (m.sup.reapChild r) phase := by
    intro m' hsup hphase hexited' hrunning
    obtain ⟨k₁, child, k₂, hexit, hwait, hnone⟩ := Kernel.exit_wait hexited' hrunning r.status
    have hfirst : m'.step (.exit r.pid r.status) = some { m' with kernel := k₁ } := by
      rw [Machine.step, hexit]
      rfl
    have hsecond : ({ m' with kernel := k₁ } : Machine).step (.reap r.pid) = some {
        sup := m'.sup.reapChild ⟨0, r.pid, r.status⟩
        kernel := k₂
        phase := phase
        registered := m'.registered
        handled := if (m'.sup.byPid.lookup r.pid).isSome
          then m'.handled ++ [(child.serial, .childExit)] else m'.handled } := by
      rw [hreap { m' with kernel := k₁ } hphase, Machine.reapOne, hwait]
    refine ⟨_, (Machine.Leads.of_step _ hfirst).trans (.of_step _ hsecond), ?_, rfl, hnone⟩
    rw [hsup]
    rfl
  have htick : m.step (.tick r.dt) = some { m with sup := m.sup.advance r.dt } := rfl
  refine Machine.Does.trans (.of_step _ htick) ?_
  by_cases hrunning : r.pid ∈ m.kernel.running.map (·.pid)
  · exact hknown _ rfl rfl hexited hrunning
  · obtain ⟨child, k', hfork, hexited', hrunning'⟩ := Kernel.fork_running hexited hrunning
    have hadopt : ({ m with sup := m.sup.advance r.dt } : Machine).step (.adopt r.pid) =
        some { m with sup := m.sup.advance r.dt, kernel := k' } := by
      rw [Machine.step, hfork]
      rfl
    exact Machine.Does.trans (.of_step _ hadopt) (hknown _ rfl rfl hexited' hrunning')

/-- **A signal read.**  The reaped children of a SIGCHLD are steps of the machine. -/
theorem reapChildren_does (reaps : List Reap) (m : Machine) (hphase : m.phase = .reaping)
    (hexited : m.kernel.exited = []) : m.Does (m.sup.reapChildren reaps) .reading := by
  induction reaps generalizing m with
  | nil =>
    refine ⟨{ m with phase := .reading }, .of_step .reapNone ?_, rfl, rfl, hexited⟩
    simp [Machine.step, hphase, hexited]
  | cons r reaps ih =>
    have hchild : m.Does (m.sup.reapChild r) .reaping := child_does m hexited r
      fun m' hm' => by simp [Machine.step, hm', hphase]
    obtain ⟨m', hlead, hsup, hphase', hexited'⟩ := hchild
    have hrest := ih m' hphase' hexited'
    rw [hsup] at hrest
    exact hrest.trans hlead

/-- The reaped children of one pass of a drain. -/
theorem drainReap_does (plan : List UnitId) (flag : Bool) (reaps : List Reap) (m : Machine)
    (expected : List Pid) (hphase : m.phase = .drainReaping plan expected flag)
    (hexited : m.kernel.exited = []) :
    m.Does (reaps.foldl SupervisorState.drainReap (expected, m.sup)).2
      (.draining plan (reaps.foldl SupervisorState.drainReap (expected, m.sup)).1 flag) := by
  induction reaps generalizing m expected with
  | nil =>
    refine ⟨{ m with phase := .draining plan expected flag }, .of_step .drainBreak ?_, rfl, rfl,
      hexited⟩
    simp [Machine.step, hphase, hexited]
  | cons r reaps ih =>
    have hchild : m.Does (m.sup.reapChild r)
        (.drainReaping plan (expected.filter (· ≠ r.pid)) flag) := child_does m hexited r
      fun m' hm' => by simp [Machine.step, hm', hphase]
    obtain ⟨m', hlead, hsup, hphase', hexited'⟩ := hchild
    have hrest := ih m' _ hphase' hexited'
    rw [hsup] at hrest
    rw [List.foldl_cons, SupervisorState.drainReap_eq]
    exact hrest.trans hlead

/-- The head of a pass, with or without the SIGKILLs. -/
theorem drainCheck_step {m : Machine} {plan : List UnitId} {expected : List Pid} {flag : Bool}
    (hphase : m.phase = .draining plan expected flag) (escalate : Option (HashOrder Pid)) :
    m.step (.drainCheck escalate) = some (m.drainCheck plan expected flag escalate) := by
  simp [Machine.step, hphase]

/-- The drain of a stop. -/
theorem drain_does (plan : List UnitId) (flag : Bool) (killOrder : HashOrder Pid) (grace : Duration)
    (start : Instant) (rounds : List DrainRound) (escalated : Bool) (expected : List Pid)
    (m : Machine) (t : SupervisorState) (hphase : m.phase = .draining plan expected flag)
    (hexited : m.kernel.exited = [])
    (hdrain : SupervisorState.drain killOrder grace start rounds escalated expected m.sup = .ok t) :
    m.Does ((plan.foldl SupervisorState.reapCgroup t).setShuttingDown flag) .serving := by
  have hdone : ∀ m' : Machine, m'.phase = .draining plan [] flag → m'.kernel.exited = [] →
      m'.Does ((plan.foldl SupervisorState.reapCgroup m'.sup).setShuttingDown flag) .serving :=
    fun m' hm' hnone => ⟨_, .of_step _ (drainCheck_step hm' none), rfl, rfl, hnone⟩
  induction rounds generalizing escalated expected m with
  | nil =>
    cases expected with
    | nil =>
      rw [SupervisorState.drain_nil, Except.ok.injEq] at hdrain
      exact hdrain ▸ hdone m hphase hexited
    | cons pid expected =>
      rw [SupervisorState.drain_waiting] at hdrain
      cases hdrain
  | cons round rounds ih =>
    cases expected with
    | nil =>
      rw [SupervisorState.drain_nil, Except.ok.injEq] at hdrain
      exact hdrain ▸ hdone m hphase hexited
    | cons pid expected =>
      have htick : m.Leads { m with sup := m.sup.advance round.dt } := .of_step (.tick round.dt) rfl
      -- the rest of the pass and of the drain
      have hrest : ∀ (m' : Machine) (sup : SupervisorState) (b : Bool), m.Leads m' →
          m'.sup = sup → m'.phase = .drainReaping plan (pid :: expected) flag →
          m'.kernel.exited = [] →
          SupervisorState.drain killOrder grace start rounds b
            (round.reaped.foldl SupervisorState.drainReap (pid :: expected, sup)).1
            (round.reaped.foldl SupervisorState.drainReap (pid :: expected, sup)).2 = .ok t →
          m.Does ((plan.foldl SupervisorState.reapCgroup t).setShuttingDown flag) .serving := by
        intro m' sup b hlead hsup hphase' hexited' hd
        obtain ⟨m₂, hlead₂, hsup₂, hphase₂, hexited₂⟩ := drainReap_does plan flag round.reaped m'
          (pid :: expected) hphase' hexited'
        rw [hsup] at hsup₂ hphase₂
        rw [← hsup₂] at hd
        exact (ih b _ m₂ hphase₂ hexited₂ hd).trans (hlead.trans hlead₂)
      have hhead := drainCheck_step (m := { m with sup := m.sup.advance round.dt }) hphase
      rw [SupervisorState.drain_cons] at hdrain
      dsimp only at hdrain
      split at hdrain
      · refine hrest _ _ _ (htick.trans (.of_step _ (hhead (some killOrder)))) ?_ ?_ ?_ hdrain
        · simp [Machine.drainCheck]
        · simp [Machine.drainCheck]
        · simpa [Machine.drainCheck] using hexited
      · refine hrest _ _ _ (htick.trans (.of_step _ (hhead none))) ?_ ?_ ?_ hdrain
        · simp [Machine.drainCheck]
        · simp [Machine.drainCheck]
        · simpa [Machine.drainCheck] using hexited

/-- **A stop that returns is a run of the machine**, in which the children exit just before the stop
waits for them. -/
theorem stop_does {m : Machine} (hphase : m.phase = .serving) (hexited : m.kernel.exited = [])
    {anchor : String} {ans : StopAnswer} {t : SupervisorState} {res : Except RequestError Unit}
    (hstop : m.sup.stopUnit anchor ans = .ok (t, res)) : m.Does t .serving := by
  have hstep : m.step (.stop anchor ans.ords) = some (m.stop anchor ans.ords) := by
    simp [Machine.step, hphase]
  cases hplan : m.sup.registry.buildStopTransaction ans.ords anchor with
  | error e =>
    rw [SupervisorState.stopUnit_refused hplan, Except.ok.injEq, Prod.mk.injEq] at hstop
    exact ⟨m, .refl m, hstop.1, hphase, hexited⟩
  | ok plan =>
    rw [SupervisorState.stopUnit_planned hplan] at hstop
    dsimp only at hstop
    generalize hsup : plan.foldl SupervisorState.termUnit
      ((m.sup.setShuttingDown true).emit (.stopping plan)) = sup at hstop
    cases hdrain : SupervisorState.drain ans.killOrder (m.sup.stopGrace plan) sup.clock ans.rounds
        false (m.sup.expectedPids plan) sup with
    | error t' =>
      rw [hdrain] at hstop
      cases hstop
    | ok t' =>
      rw [hdrain] at hstop
      cases hstop
      rw [Machine.stop, hplan] at hstep
      subst hsup
      have hdrained := drain_does plan m.sup.shuttingDown _ _ _ _ _ _ { m with
          sup := plan.foldl SupervisorState.termUnit
            ((m.sup.setShuttingDown true).emit (.stopping plan))
          phase := .draining plan (m.sup.expectedPids plan) m.sup.shuttingDown } t' rfl hexited
        hdrain
      exact hdrained.trans (.of_step _ hstep)

end WriteonceOs.Svc
