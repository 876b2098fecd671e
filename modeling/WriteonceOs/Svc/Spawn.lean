import Mathlib.Data.List.Forall2
import WriteonceOs.Library.Credentials
import WriteonceOs.Library.Descriptors
import WriteonceOs.Library.Words
import WriteonceOs.Svc.Control

/-!
# Spawning a service process

The supervisor looks up the user and the group, opens the log, makes the control group and forks;
the child redirects its standard descriptors, drops its privileges and becomes the program.  What
the kernel and the account files answer is an argument.

* `exec_identity` — as whom a service runs, and that it stays so;
* `spawns_leaks` — what a run of spawns leaves in the supervisor's own table;
* `stdio_exact` — the standard descriptors of a service;
* `spawn_inherits` — the other descriptors that a service gets.
-/

namespace WriteonceOs.Svc

open WriteonceOs.Library

/-! ### Requests and answers -/

/-- What a descriptor refers to: what was opened under a path, or what the supervisor was given. -/
inductive OpenFile where
  | path (path : String)
  | held (n : ℕ)
  deriving DecidableEq, Repr

def devNull : OpenFile := .path "/dev/null"

structure SpawnRequest where
  name : String
  service : ServiceSection
  -- the `environment` of the service table
  environment : List String := []
  fake : Bool := false
  logDir : String := "/var/log/writeonce"

/-- The limits of a control group; nothing is written for one that is absent. -/
structure ResourceLimits where
  memoryMax : Option ℕ := none
  pidsMax : Option ℕ := none
  cpuMax : Option String := none

/-- What a call of the child that may be refused answers, and the text of its error. -/
structure Verdict where
  granted : Bool := true
  errno : IoError := ""

structure ChildAnswers where
  -- whether `/dev/null` can be opened, and whether messages can be written
  null : Bool := true
  stderr : Bool := true
  setgroups : Verdict := {}
  setresgid : Verdict := {}
  setresuid : Verdict := {}
  execve : Option IoError := none

structure SpawnAnswers where
  getpwnam : String → Option UInt32
  getgrnam : String → Option UInt32
  openLog : Option IoError := none
  createDirAll : Option IoError := none
  write : String → Option IoError := fun _ => none
  openCgroup : Option IoError := none
  -- `fork` or `clone3`
  fork : Except IoError Pid
  child : ChildAnswers := {}

/-- What a process hands on to its children. -/
structure Proc where
  table : FdTable OpenFile
  creds : Credentials
  -- whether there is a controlling terminal, and the signals blocked and ignored
  terminal : Bool := true
  blocked : List ℕ := []
  ignored : List ℕ := []
  deriving DecidableEq, Repr

/-- A program that was started. -/
structure Image where
  argv : List String
  envp : List String
  proc : Proc
  deriving DecidableEq, Repr

/-- How the child ends; a panic unwinds through the frames of the supervisor. -/
inductive ChildEnd where
  | exec (image : Image)
  | exited (code : ℕ) (message : String)
  | panicked
  deriving DecidableEq, Repr

/-- What `spawn` returns, the supervisor's table after it, its messages and the child. -/
structure Spawned where
  result : Except IoError Pid
  table : FdTable OpenFile
  said : List String := []
  child : Option ChildEnd := none

/-! ### The user and the group -/

section Accounts

variable (getpwnam getgrnam : String → Option UInt32)

def uidForUser (name : String) : Except IoError UInt32 :=
  if hasNul name.toList then .error "user contained NUL"
  else
    match getpwnam name with
    | none => .error ("unknown user: " ++ name)
    | some uid => .ok uid

def gidForGroup (name : String) : Except IoError UInt32 :=
  if hasNul name.toList then .error "group contained NUL"
  else
    match getgrnam name with
    | none => .error ("unknown group: " ++ name)
    | some gid => .ok gid

/-- The ids to take; none when both are root. -/
def resolveCreds (service : ServiceSection) : Except IoError (Option (UInt32 × UInt32)) :=
  if service.user = "root" ∧ service.group = "root" then .ok none
  else
    match uidForUser getpwnam service.user with
    | .error e => .error e
    | .ok uid =>
      match gidForGroup getgrnam service.group with
      | .error e => .error e
      | .ok gid => .ok (some (uid, gid))

end Accounts

/-! ### The child -/

section Child

variable (ans : ChildAnswers)

/-- An error message and `_exit(127)`. -/
def complain (message : String) : ChildEnd :=
  if ans.stderr then .exited 127 ("writeonce-svc(child): " ++ message) else .panicked

def dupOnto (t : FdTable OpenFile) (new : ℕ) : Option ℕ → FdTable OpenFile
  | none => t
  | some fd => t.dup2 fd new

def closeAboveStdio (t : FdTable OpenFile) : Option ℕ → FdTable OpenFile
  | none => t
  | some fd => if 2 < fd then t.close fd else t

/-- Standard input from `/dev/null`, standard output and error to the log. -/
def redirectStdio (t : FdTable OpenFile) (logfd : Option ℕ) : FdTable OpenFile :=
  let nullfd := if ans.null then some t.free else none
  let t := if ans.null then (t.openFile devNull false).2 else t
  let outFd := logfd.or nullfd
  let t := dupOnto t 0 nullfd
  let t := dupOnto (dupOnto t 1 outFd) 2 outFd
  closeAboveStdio (closeAboveStdio t nullfd) logfd

/-- A call that changes the credentials: the kernel's rules and its answer. -/
def grant (v : Verdict) (next : Option Credentials) (call : String) : Except String Credentials :=
  match next with
  | some c => if v.granted then .ok c else .error (call ++ " failed: " ++ v.errno)
  | none => .error (call ++ " failed: " ++ v.errno)

/-- The groups first, then the group, then the user. -/
def dropPrivileges (c : Credentials) : Option (UInt32 × UInt32) → Except String Credentials
  | none => .ok c
  | some (uid, gid) =>
    match grant ans.setgroups (c.setgroups [gid]) ("setgroups(" ++ toString gid ++ ")") with
    | .error e => .error e
    | .ok c =>
      match grant ans.setresgid (c.setresgid gid gid gid)
          ("setresgid(" ++ toString gid ++ ")") with
      | .error e => .error e
      | .ok c =>
        grant ans.setresuid (c.setresuid uid uid uid) ("setresuid(" ++ toString uid ++ ")")

/-- The words of the command line. -/
def buildArgv (execStart : String) : Except String (List String) :=
  match splitWhitespace execStart with
  | [] => .error "exec-start is empty"
  | prog :: args =>
    if hasNul prog.toList then .error "exec-start contained NUL"
    else if (prog :: args).any (hasNul ·.toList) then .error "argv contained NUL"
    else .ok (prog :: args)

def buildEnvp (environment : List String) : List String :=
  if environment.isEmpty then ["PATH=/usr/bin:/usr/sbin:/bin:/sbin", "TERM=linux"]
  else environment.filter fun e => !hasNul e.toList

/-- The child, with what the supervisor handed on. -/
def childExec (req : SpawnRequest) (p : Proc) (creds : Option (UInt32 × UInt32))
    (logfd : Option ℕ) : ChildEnd :=
  match dropPrivileges ans p.creds creds with
  | .error message => complain ans message
  | .ok c =>
    match buildArgv req.service.execStart with
    | .error message => complain ans message
    | .ok argv =>
      match ans.execve with
      | some e => complain ans ("execve " ++ argv.headD "" ++ " failed: " ++ e)
      | none =>
        .exec ⟨argv, buildEnvp req.environment,
          ⟨(redirectStdio ans p.table logfd).exec, c, false, [], p.ignored⟩⟩

end Child

/-! ### The supervisor -/

def openLogPath (req : SpawnRequest) : String := req.logDir ++ "/" ++ req.name ++ ".log"

/-- Why the log is not opened, if it is not. -/
def openLogError (req : SpawnRequest) (ans : SpawnAnswers) : Option IoError :=
  if hasNul (openLogPath req).toList then some "log path contained NUL" else ans.openLog

/-- The writes that set the limits. -/
def limitWrites (abs : String) (limits : ResourceLimits) : List (String × String) :=
  (limits.memoryMax.map fun b => (abs ++ "/memory.max", toString b)).toList ++
    (limits.pidsMax.map fun p => (abs ++ "/pids.max", toString p)).toList ++
    (limits.cpuMax.map fun c => (abs ++ "/cpu.max", c)).toList

def cgroupPath (relPath : String) : String := "/sys/fs/cgroup/" ++ relPath

/-- Why a control group is not prepared, if it is not. -/
def prepareCgroupError (relPath : String) (limits : ResourceLimits) (ans : SpawnAnswers) :
    Option IoError :=
  let abs := cgroupPath relPath
  ans.createDirAll.or <|
    ((limitWrites abs limits).findSome? fun w => ans.write w.1).or <|
      if hasNul abs.toList then some "cgroup path contained NUL" else ans.openCgroup

def spawnPlainFork (req : SpawnRequest) (p : Proc) (creds : Option (UInt32 × UInt32))
    (logfd : Option ℕ) (ans : SpawnAnswers) : Spawned :=
  match ans.fork with
  | .error e => { result := .error e, table := p.table }
  | .ok pid =>
    { result := .ok pid, table := p.table, child := some (childExec ans.child req p creds logfd) }

def unitCgroup (req : SpawnRequest) : String := "wo.slice/" ++ req.name

/-- The descriptor of the control group is not closed where `clone3` fails. -/
def spawnWithCgroup (req : SpawnRequest) (p : Proc) (creds : Option (UInt32 × UInt32))
    (logfd : Option ℕ) (ans : SpawnAnswers) : Spawned :=
  match prepareCgroupError (unitCgroup req) {} ans with
  | some e => { result := .error e, table := p.table }
  | none =>
    let cgroup := p.table.openFile (.path (cgroupPath (unitCgroup req))) false
    match ans.fork with
    | .error e => { result := .error e, table := cgroup.2 }
    | .ok pid =>
      { result := .ok pid
        table := cgroup.2.close cgroup.1
        child := some (childExec ans.child req { p with table := cgroup.2 } creds logfd) }

def spawnForked (req : SpawnRequest) (p : Proc) (creds : Option (UInt32 × UInt32))
    (logfd : Option ℕ) (ans : SpawnAnswers) : Spawned :=
  if req.fake then spawnPlainFork req p creds logfd ans
  else spawnWithCgroup req p creds logfd ans

def spawn (req : SpawnRequest) (p : Proc) (ans : SpawnAnswers) : Spawned :=
  match resolveCreds ans.getpwnam ans.getgrnam req.service with
  | .error e => { result := .error e, table := p.table }
  | .ok creds =>
    match openLogError req ans with
    | some e =>
      { spawnForked req p creds none ans with
        said := ["writeonce-svc: " ++ req.name ++ ": cannot open log in " ++ req.logDir ++ ": " ++
          e ++ " (output → /dev/null)"] }
    | none =>
      let log := p.table.openFile (.path (openLogPath req)) true
      let r := spawnForked req { p with table := log.2 } creds (some log.1) ans
      { r with table := r.table.close log.1 }

/-! ### What the child is given -/

section Given

variable (req : SpawnRequest) (p : Proc) (ans : SpawnAnswers)

def logFd : Option ℕ := if openLogError req ans = none then some p.table.free else none

def logTable : FdTable OpenFile :=
  if openLogError req ans = none then (p.table.openFile (.path (openLogPath req)) true).2
  else p.table

/-- The table after the control group was opened. -/
def withCgroup (t : FdTable OpenFile) : FdTable OpenFile :=
  if req.fake then t else (t.openFile (.path (cgroupPath (unitCgroup req))) false).2

def childTable : FdTable OpenFile := withCgroup req (logTable req p ans)

variable {req p ans}

theorem child_of_spawnForked {q : Proc} {creds : Option (UInt32 × UInt32)} {logfd : Option ℕ}
    {e : ChildEnd} (h : (spawnForked req q creds logfd ans).child = some e) :
    e = childExec ans.child req { q with table := withCgroup req q.table } creds logfd := by
  cases hfork : ans.fork with
  | error err =>
    rw [spawnForked, spawnPlainFork, spawnWithCgroup, hfork] at h
    split at h
    · cases h
    · split at h <;> cases h
  | ok pid =>
    rw [spawnForked, spawnPlainFork, spawnWithCgroup, hfork] at h
    rw [withCgroup]
    split at h
    · next hfake =>
      rw [if_pos hfake]
      exact (Option.some.inj h).symm
    · next hfake =>
      rw [if_neg hfake]
      split at h
      · cases h
      · exact (Option.some.inj h).symm

/-- The child of a unit whose user is known. -/
theorem child_of_spawn {e : ChildEnd} (h : (spawn req p ans).child = some e) :
    ∃ creds, resolveCreds ans.getpwnam ans.getgrnam req.service = .ok creds ∧
      e = childExec ans.child req { p with table := childTable req p ans } creds
        (logFd req p ans) := by
  rw [spawn] at h
  split at h
  · cases h
  · next creds hcreds =>
    refine ⟨creds, hcreds, ?_⟩
    cases hlog : openLogError req ans with
    | some err =>
      rw [hlog] at h
      rw [childTable, logTable, logFd, hlog, if_neg (by simp), if_neg (by simp)]
      exact child_of_spawnForked h
    | none =>
      rw [hlog] at h
      rw [childTable, logTable, logFd, hlog, if_pos rfl, if_pos rfl]
      exact child_of_spawnForked h

theorem exec_of_childExec {a : ChildAnswers} {creds : Option (UInt32 × UInt32)}
    {logfd : Option ℕ} {image : Image} (h : childExec a req p creds logfd = .exec image) :
    ∃ c, dropPrivileges a p.creds creds = .ok c ∧ buildArgv req.service.execStart = .ok image.argv ∧
      image.proc = ⟨(redirectStdio a p.table logfd).exec, c, false, [], p.ignored⟩ := by
  have hcomplain : ∀ message, complain a message ≠ .exec image := by
    intro message
    rw [complain]
    split <;> simp
  rw [childExec] at h
  split at h
  · exact absurd h (hcomplain _)
  · next c hc =>
    split at h
    · exact absurd h (hcomplain _)
    · next argv hargv =>
      split at h
      · exact absurd h (hcomplain _)
      · cases h
        exact ⟨c, hc, hargv, rfl⟩

end Given

/-! ### As whom a service runs -/

section Identity

variable {getpwnam getgrnam : String → Option UInt32} {service : ServiceSection}

theorem uidForUser_ok {name : String} {uid : UInt32} (h : uidForUser getpwnam name = .ok uid) :
    getpwnam name = some uid := by
  rw [uidForUser] at h
  split at h
  · cases h
  · split at h
    · cases h
    · next uid' heq =>
      cases h
      exact heq

theorem gidForGroup_ok {name : String} {gid : UInt32} (h : gidForGroup getgrnam name = .ok gid) :
    getgrnam name = some gid := by
  rw [gidForGroup] at h
  split at h
  · cases h
  · split at h
    · cases h
    · next gid' heq =>
      cases h
      exact heq

theorem resolveCreds_ok {creds : Option (UInt32 × UInt32)}
    (h : resolveCreds getpwnam getgrnam service = .ok creds) :
    (service.user = "root" ∧ service.group = "root" ∧ creds = none) ∨
      ∃ uid gid, getpwnam service.user = some uid ∧ getgrnam service.group = some gid ∧
        creds = some (uid, gid) := by
  rw [resolveCreds] at h
  split at h
  · next hroot =>
    cases h
    exact Or.inl ⟨hroot.1, hroot.2, rfl⟩
  · split at h
    · cases h
    · next uid huid =>
      split at h
      · cases h
      · next gid hgid =>
        cases h
        exact Or.inr ⟨uid, gid, uidForUser_ok huid, gidForGroup_ok hgid, rfl⟩

theorem grant_ok {v : Verdict} {next : Option Credentials} {call : String} {c : Credentials}
    (h : grant v next call = .ok c) : next = some c := by
  cases next with
  | none => cases h
  | some c' =>
    rw [grant] at h
    split at h
    · cases h
      rfl
    · cases h

/-- The credentials after the privileges were dropped. -/
def dropped (c : Credentials) (uid gid : UInt32) : Credentials :=
  if uid = Credentials.unchanged then
    { c with rgid := gid, egid := gid, sgid := gid, groups := [gid] }
  else Credentials.same uid gid [gid]

theorem dropPrivileges_ok {a : ChildAnswers} {c c' : Credentials} {uid gid : UInt32}
    (h : dropPrivileges a c (some (uid, gid)) = .ok c') :
    c.Privileged ∧ gid ≠ Credentials.unchanged ∧ c' = dropped c uid gid := by
  rw [dropPrivileges] at h
  split at h
  · cases h
  · next c₁ h₁ =>
    have hgroups := grant_ok h₁
    have hpriv : c.Privileged := by
      by_contra hno
      rw [Credentials.setgroups, if_neg (fun hc => hno hc.1)] at hgroups
      cases hgroups
    rw [Credentials.setgroups_root hpriv] at hgroups
    split at hgroups
    · cases hgroups
    · next hgid =>
      cases hgroups
      split at h
      · cases h
      · next c₂ h₂ =>
        have hgids := grant_ok h₂
        rw [Credentials.setresgid_root (by exact hpriv) hgid] at hgids
        cases hgids
        have huids := grant_ok h
        refine ⟨hpriv, hgid, ?_⟩
        rw [dropped]
        split
        · next huid =>
          subst huid
          rw [Credentials.setresuid_unchanged] at huids
          cases huids
          rfl
        · next huid =>
          rw [Credentials.setresuid_root (by exact hpriv) huid] at huids
          cases huids
          rfl

/-- **As whom a service runs**: as the supervisor where both names are `root`, and otherwise with
the looked up ids and no other group, for good unless they are those of root.  A group that has the
id `2 ^ 32 - 1` is refused; a user that has it keeps the user ids of the supervisor. -/
theorem exec_identity {req : SpawnRequest} {p : Proc} {ans : SpawnAnswers} {image : Image}
    (h : (spawn req p ans).child = some (.exec image)) :
    (req.service.user = "root" ∧ req.service.group = "root" ∧ image.proc.creds = p.creds) ∨
      ∃ uid gid, ans.getpwnam req.service.user = some uid ∧
        ans.getgrnam req.service.group = some gid ∧ p.creds.Privileged ∧
        gid ≠ Credentials.unchanged ∧ image.proc.creds = dropped p.creds uid gid ∧
        (uid = Credentials.unchanged → image.proc.creds.Privileged) ∧
        (uid ≠ Credentials.unchanged → uid ≠ 0 →
          ∀ calls, image.proc.creds.applyAll calls = image.proc.creds) := by
  obtain ⟨creds, hcreds, hchild⟩ := child_of_spawn h
  obtain ⟨c, hc, -, himage⟩ := exec_of_childExec hchild.symm
  have hic : image.proc.creds = c := by rw [himage]
  rw [hic]
  rcases resolveCreds_ok hcreds with ⟨hu, hg, rfl⟩ | ⟨uid, gid, huid, hgid, rfl⟩
  · cases hc
    exact Or.inl ⟨hu, hg, rfl⟩
  · obtain ⟨hpriv, hne, rfl⟩ := dropPrivileges_ok hc
    refine Or.inr ⟨uid, gid, huid, hgid, hpriv, hne, rfl, fun hun => ?_, fun hun hroot calls => ?_⟩
    · rw [dropped, if_pos hun]
      exact hpriv
    · rw [dropped, if_neg hun]
      exact Credentials.Settled.applyAll rfl hroot calls

/-- A service with `User=` and `Group=` set is started by a privileged supervisor. -/
theorem exec_identity_daemon :
    (let c := Credentials.same 81 82 [82]; c.applyAll [.setuid 0, .setgroups [0]] = c) := by
  have h : (spawn
      { name := "dbus.service"
        service :=
          { execStart := "/usr/bin/dbus-daemon --system", user := "dbus", group := "bus" } }
      ⟨[some ⟨.held 0, false⟩, some ⟨.held 1, false⟩, some ⟨.held 2, false⟩],
        Credentials.same 0 0 [0], true, [17], [13]⟩
      { getpwnam := fun _ => some 81, getgrnam := fun _ => some 82, fork := .ok 9 }).child =
      some (.exec ⟨["/usr/bin/dbus-daemon", "--system"],
        ["PATH=/usr/bin:/usr/sbin:/bin:/sbin", "TERM=linux"],
        ⟨[some ⟨devNull, false⟩, some ⟨.path "/var/log/writeonce/dbus.service.log", false⟩,
          some ⟨.path "/var/log/writeonce/dbus.service.log", false⟩, none,
          some ⟨.path "/sys/fs/cgroup/wo.slice/dbus.service", false⟩, none],
          Credentials.same 81 82 [82], false, [], [13]⟩⟩) := by
    decide +kernel
  rcases exec_identity h with ⟨huser, -⟩ | ⟨uid, gid, huid, -, -, -, -, -, hstay⟩
  · exact absurd huser (by decide)
  · cases huid
    exact hstay (by decide) (by decide) _

end Identity

/-! ### The standard descriptors -/

section Stdio

open FdTable

variable {a : ChildAnswers} {t : FdTable OpenFile}

theorem get_dupOnto_ne {new fd : ℕ} {old : Option ℕ} (h : fd ≠ new) :
    get (dupOnto t new old) fd = get t fd := by
  cases old with
  | none => rfl
  | some o => rw [dupOnto, get_dup2, if_neg (fun hc => h hc.1)]

theorem get_closeAboveStdio {o : Option ℕ} {fd : ℕ} :
    get (closeAboveStdio t o) fd = if o = some fd ∧ 2 < fd then none else get t fd := by
  cases o with
  | none => simp [closeAboveStdio]
  | some o =>
    by_cases ho : 2 < o
    · rw [closeAboveStdio, if_pos ho, get_close]
      grind
    · rw [closeAboveStdio, if_neg ho, if_neg (by grind)]

/-- Above the standard descriptors the child closes what it opened and the log. -/
theorem get_redirectStdio_above {logfd : Option ℕ} {fd : ℕ} (hfd : 2 < fd) :
    get (redirectStdio a t logfd) fd = if logfd = some fd then none else get t fd := by
  rw [redirectStdio, get_closeAboveStdio, get_closeAboveStdio, get_dupOnto_ne (by omega),
    get_dupOnto_ne (by omega), get_dupOnto_ne (by omega)]
  cases hnull : a.null with
  | false => simp [hfd]
  | true =>
    rw [if_pos rfl, if_pos rfl, get_openFile]
    by_cases hfree : fd = free t
    · rw [hfree] at hfd
      simp [hfree, hfd]
    · simp [hfd, hfree, Ne.symm hfree]

/-- The table with `/dev/null` on standard input. -/
def stdinTable (a : ChildAnswers) (t : FdTable OpenFile) : FdTable OpenFile :=
  dupOnto (if a.null then (t.openFile devNull false).2 else t) 0
    (if a.null then some t.free else none)

theorem get_redirectStdio_low {logfd : Option ℕ} {fd : ℕ} (hfd : fd ≤ 2) :
    get (redirectStdio a t logfd) fd =
      get (dupOnto (dupOnto (stdinTable a t) 1 (logfd.or (if a.null then some t.free else none))) 2
        (logfd.or (if a.null then some t.free else none))) fd := by
  rw [redirectStdio, get_closeAboveStdio, get_closeAboveStdio, if_neg (by omega),
    if_neg (by omega), stdinTable]

/-- With `/dev/null` open, standard input comes from it. -/
theorem get_stdinTable (hnull : a.null = true) (fd : ℕ) :
    get (stdinTable a t) fd =
      if fd = 0 ∨ fd = t.free then some ⟨devNull, false⟩ else get t fd := by
  rw [stdinTable, hnull, if_pos rfl, if_pos rfl, dupOnto, get_dup2, get_openFile, get_openFile,
    if_pos rfl]
  by_cases hfd : fd = 0
  · subst hfd
    by_cases hfree : t.free = 0
    · simp [hfree]
    · simp [hfree]
  · simp [hfd]

theorem stdinTable_of_not (hnull : a.null = false) : stdinTable a t = t := by
  rw [stdinTable, hnull]
  rfl

variable {req : SpawnRequest} {p : Proc} {ans : SpawnAnswers}

/-- The supervisor has its standard descriptors: where one is closed, the start-up code of a Rust
program opens it. -/
def Started (p : Proc) : Prop := ∀ fd ≤ 2, (get p.table fd).isSome

/-- What is under a standard descriptor of a service, if the supervisor has the table `t`: input
comes from `/dev/null`, output and error go to the log or to `/dev/null`, and what cannot be opened
leaves the descriptor of the supervisor. -/
def stdioOf (req : SpawnRequest) (ans : SpawnAnswers) (t : FdTable OpenFile) (fd : ℕ) :
    Option (Descriptor OpenFile) :=
  if 0 < fd ∧ openLogError req ans = none then some ⟨.path (openLogPath req), false⟩
  else if ans.child.null then some ⟨devNull, false⟩
  else FdTable.kept (get t fd)

theorem get_logTable (fd : ℕ) : get (logTable req p ans) fd =
    if openLogError req ans = none ∧ fd = p.table.free then some ⟨.path (openLogPath req), true⟩
    else get p.table fd := by
  rw [logTable]
  split
  · next hlog => simp [get_openFile, hlog]
  · next hlog => simp [hlog]

theorem get_childTable (fd : ℕ) : get (childTable req p ans) fd =
    if req.fake = false ∧ fd = (logTable req p ans).free then
      some ⟨.path (cgroupPath (unitCgroup req)), false⟩
    else get (logTable req p ans) fd := by
  rw [childTable, withCgroup]
  cases req.fake with
  | true => simp
  | false => simp [get_openFile]

/-- What is open in the supervisor, the child has under the same number. -/
theorem get_childTable_of_open {fd : ℕ} (h : (get p.table fd).isSome) :
    get (childTable req p ans) fd = get p.table fd := by
  have hne : fd ≠ p.table.free := by
    intro heq
    rw [heq, get_free] at h
    exact absurd h (by simp)
  have hlog : get (logTable req p ans) fd = get p.table fd := by
    rw [get_logTable, if_neg (fun hc => hne hc.2)]
  have hne' : fd ≠ (logTable req p ans).free := by
    intro heq
    rw [← hlog, heq, get_free] at h
    exact absurd h (by simp)
  rw [get_childTable, if_neg (fun hc => hne' hc.2), hlog]

/-- The log is under the number that was free. -/
theorem get_childTable_log (hlog : openLogError req ans = none) :
    get (childTable req p ans) p.table.free = some ⟨.path (openLogPath req), true⟩ := by
  have hget : get (logTable req p ans) p.table.free = some ⟨.path (openLogPath req), true⟩ := by
    rw [get_logTable, if_pos ⟨hlog, rfl⟩]
  have hne : p.table.free ≠ (logTable req p ans).free := by
    intro heq
    rw [heq, get_free] at hget
    cases hget
  rw [get_childTable, if_neg (fun hc => hne hc.2), hget]

/-- Standard output and error are copies of one descriptor, but for the flag of the original. -/
theorem get_out {s : FdTable OpenFile} {o : ℕ} {d : Descriptor OpenFile} (h : get s o = some d) :
    let r := dupOnto (dupOnto s 1 (some o)) 2 (some o)
    get r 1 = some ⟨d.file, d.cloexec && decide (o = 1)⟩ ∧
      get r 2 = some ⟨d.file, d.cloexec && decide (o = 2)⟩ := by
  have h₁ : ∀ fd, get (s.dup2 o 1) fd =
      if fd = 1 ∧ o ≠ 1 then some ⟨d.file, false⟩ else get s fd := by
    intro fd
    rw [get_dup2, h]
    rfl
  have ho : get (s.dup2 o 1) o = some d := by
    rw [h₁, if_neg (fun hc => hc.2 hc.1), h]
  show get ((s.dup2 o 1).dup2 o 2) 1 = _ ∧ get ((s.dup2 o 1).dup2 o 2) 2 = _
  have h₂ : ∀ fd, get ((s.dup2 o 1).dup2 o 2) fd =
      if fd = 2 ∧ o ≠ 2 then some ⟨d.file, false⟩ else get (s.dup2 o 1) fd := by
    intro fd
    rw [get_dup2, ho]
    rfl
  rw [h₂, h₂, h₁, h₁]
  by_cases ho₁ : o = 1
  · subst ho₁
    simp [h]
  · by_cases ho₂ : o = 2
    · subst ho₂
      simp [h]
    · simp [ho₁, ho₂]

/-- A new descriptor of the supervisor is above the standard ones. -/
theorem Started.two_lt_free (hstart : Started p) : 2 < p.table.free := by
  by_contra hle
  have hs := hstart p.table.free (by omega)
  rw [get_free] at hs
  exact absurd hs (by simp)

/-- **The standard descriptors of a service.** -/
theorem get_image_stdio (hstart : Started p) {image : Image}
    (h : (spawn req p ans).child = some (.exec image)) {fd : ℕ} (hfd : fd ≤ 2) :
    get image.proc.table fd = stdioOf req ans p.table fd := by
  obtain ⟨creds, -, hchild⟩ := child_of_spawn h
  obtain ⟨c, -, -, himage⟩ := exec_of_childExec hchild.symm
  have hopen : get (childTable req p ans) fd = get p.table fd :=
    get_childTable_of_open (hstart fd hfd)
  have hstdin : get (stdinTable ans.child (childTable req p ans)) 0 =
      if ans.child.null then some ⟨devNull, false⟩ else get p.table 0 := by
    cases hnull : ans.child.null with
    | false =>
      rw [stdinTable_of_not hnull, if_neg (by simp)]
      exact get_childTable_of_open (hstart 0 (by omega))
    | true => rw [get_stdinTable hnull, if_pos (Or.inl rfl), if_pos rfl]
  rw [himage, get_exec, get_redirectStdio_low hfd, stdioOf]
  by_cases hzero : fd = 0
  · subst hzero
    rw [get_dupOnto_ne (by omega), get_dupOnto_ne (by omega), hstdin]
    cases ans.child.null <;> rfl
  · have hpos : 0 < fd := by omega
    have hcases : fd = 1 ∨ fd = 2 := by omega
    cases hlog : openLogError req ans with
    | none =>
      have hfree := hstart.two_lt_free
      have hget := get_childTable_log (p := p) hlog
      have hne : p.table.free ≠ (childTable req p ans).free := by
        intro heq
        rw [heq, get_free] at hget
        cases hget
      have hkeep : get (stdinTable ans.child (childTable req p ans)) p.table.free =
          some ⟨.path (openLogPath req), true⟩ := by
        cases hnull : ans.child.null with
        | false => rw [stdinTable_of_not hnull, hget]
        | true => rw [get_stdinTable hnull, if_neg (not_or.mpr ⟨by omega, hne⟩), hget]
      obtain ⟨hout, herr⟩ := get_out hkeep
      rw [show logFd req p ans = some p.table.free by rw [logFd, hlog]; rfl, Option.some_or,
        if_pos ⟨hpos, rfl⟩]
      rcases hcases with rfl | rfl
      · rw [hout, decide_eq_false (by omega)]
        rfl
      · rw [herr, decide_eq_false (by omega)]
        rfl
    | some err =>
      rw [show logFd req p ans = none by rw [logFd, hlog]; rfl, Option.none_or,
        if_neg (show ¬ (0 < fd ∧ some err = none) from nofun)]
      cases hnull : ans.child.null with
      | false =>
        rw [stdinTable_of_not hnull]
        simp only [Bool.false_eq_true, if_false, dupOnto]
        rw [hopen]
      | true =>
        obtain ⟨hout, herr⟩ := get_out (s := stdinTable ans.child (childTable req p ans))
          (o := (childTable req p ans).free) (d := ⟨devNull, false⟩)
          (by rw [get_stdinTable hnull, if_pos (Or.inr rfl)])
        rw [if_pos rfl, if_pos rfl]
        rcases hcases with rfl | rfl
        · rw [hout]
          rfl
        · rw [herr]
          rfl

end Stdio

/-! ### Runs of spawns -/

section Runs

open FdTable

variable {req : SpawnRequest} {p : Proc} {ans : SpawnAnswers}

abbrev SpawnEvent := SpawnRequest × SpawnAnswers

/-- The supervisor after spawns one after the other. -/
def spawns (p : Proc) (evs : List SpawnEvent) : Proc :=
  evs.foldl (fun p ev => { p with table := (spawn ev.1 p ev.2).table }) p

/-- The control group was opened, and `clone3` failed. -/
def cloneFailed (ev : SpawnEvent) : Bool :=
  (resolveCreds ev.2.getpwnam ev.2.getgrnam ev.1.service).isOk && !ev.1.fake &&
    (prepareCgroupError (unitCgroup ev.1) {} ev.2).isNone && !ev.2.fork.isOk

/-- The open control group of a unit. -/
def cgroupDescriptor (req : SpawnRequest) : Descriptor OpenFile :=
  ⟨.path (cgroupPath (unitCgroup req)), false⟩

/-- A table is left as it was, but for one control group where there is a leak. -/
def Leaves (req : SpawnRequest) (leak : Bool) (t t' : FdTable OpenFile) : Prop :=
  ((∀ fd, get t' fd = get t fd) ∧ leak = false) ∨
    ∃ n, get t n = none ∧ leak = true ∧
      ∀ fd, get t' fd = if fd = n then some (cgroupDescriptor req) else get t fd

/-- What is opened before and closed behind makes no difference. -/
theorem Leaves.closing {leak : Bool} {t t' : FdTable OpenFile} {file : OpenFile} {c : Bool}
    (h : Leaves req leak (t.openFile file c).2 t') : Leaves req leak t (t'.close t.free) := by
  have hopen : ∀ fd, get (t.openFile file c).2 fd =
      if fd = t.free then some ⟨file, c⟩ else get t fd := fun fd => get_openFile _ _ _ _
  rcases h with ⟨htable, hno⟩ | ⟨n, hn, hyes, htable⟩
  · refine Or.inl ⟨fun fd => ?_, hno⟩
    rw [get_close, htable, hopen]
    split
    · next hfd => rw [hfd, get_free]
    · rfl
  · have hne : n ≠ t.free := by
      intro heq
      rw [hopen, if_pos heq] at hn
      cases hn
    rw [hopen, if_neg hne] at hn
    refine Or.inr ⟨n, hn, hyes, fun fd => ?_⟩
    rw [get_close, htable, hopen]
    by_cases hfd : fd = t.free
    · rw [if_pos hfd, if_neg (by rw [hfd]; exact Ne.symm hne), hfd, get_free]
    · rw [if_neg hfd, if_neg hfd]

/-- What forking leaves in the table that it is given. -/
theorem spawnForked_leaves (q : Proc) (creds : Option (UInt32 × UInt32)) (logfd : Option ℕ) :
    Leaves req
      (!req.fake && (prepareCgroupError (unitCgroup req) {} ans).isNone && !ans.fork.isOk)
      q.table (spawnForked req q creds logfd ans).table := by
  rw [spawnForked, spawnPlainFork, spawnWithCgroup]
  cases req.fake with
  | true =>
    refine Or.inl ⟨fun fd => ?_, by simp⟩
    cases ans.fork <;> rfl
  | false =>
    cases prepareCgroupError (unitCgroup req) {} ans with
    | some e => exact Or.inl ⟨fun fd => rfl, by simp⟩
    | none =>
      cases ans.fork with
      | error e => exact Or.inr ⟨q.table.free, get_free _, rfl, fun fd => get_put _ _ _ _⟩
      | ok pid =>
        refine Or.inl ⟨fun fd => ?_, rfl⟩
        show get (close _ _) fd = _
        rw [get_close, get_openFile, openFile_fst]
        split
        · next hfd => rw [hfd, get_free]
        · rfl

/-- **What a spawn leaves in the table**: nothing, or the control group whose `clone3` failed. -/
theorem spawn_leaves (req : SpawnRequest) (p : Proc) (ans : SpawnAnswers) :
    Leaves req (cloneFailed (req, ans)) p.table (spawn req p ans).table := by
  rw [spawn, cloneFailed]
  cases hcreds : resolveCreds ans.getpwnam ans.getgrnam req.service with
  | error e => exact Or.inl ⟨fun fd => rfl, rfl⟩
  | ok creds =>
    cases hlog : openLogError req ans with
    | some e => exact spawnForked_leaves p creds none
    | none => exact (spawnForked_leaves _ creds _).closing

theorem exists_of_mem_right {α β : Type} {r : α → β → Prop} {as : List α} {bs : List β}
    (h : List.Forall₂ r as bs) {b : β} (hb : b ∈ bs) : ∃ a, r a b := by
  induction h with
  | nil => cases hb
  | cons hab _ ih =>
    rcases List.mem_cons.mp hb with rfl | hb
    · exact ⟨_, hab⟩
    · exact ih hb

/-- **The supervisor's table over a run of spawns**: what was open stays open, and what is new are
the control groups whose `clone3` failed, each under a number of its own. -/
theorem spawns_leaks (p : Proc) (evs : List SpawnEvent) :
    (∀ fd d, get p.table fd = some d → get (spawns p evs).table fd = some d) ∧
      ∃ fds : List ℕ, fds.Nodup ∧
        List.Forall₂ (fun req fd => get p.table fd = none ∧
          get (spawns p evs).table fd = some (cgroupDescriptor req))
          ((evs.filter cloneFailed).map Prod.fst) fds ∧
        ∀ fd ∉ fds, get (spawns p evs).table fd = get p.table fd := by
  induction evs generalizing p with
  | nil => exact ⟨fun fd d h => h, [], List.nodup_nil, .nil, fun fd _ => rfl⟩
  | cons ev evs ih =>
    obtain ⟨ihold, fds, hnd, hleaks, hrest⟩ := ih { p with table := (spawn ev.1 p ev.2).table }
    have hspawns : spawns p (ev :: evs) =
        spawns { p with table := (spawn ev.1 p ev.2).table } evs := rfl
    rw [hspawns, List.filter_cons]
    rcases spawn_leaves ev.1 p ev.2 with ⟨htable, hno⟩ | ⟨n, hn, hyes, htable⟩
    · rw [if_neg (by simp [hno])]
      refine ⟨fun fd d h => ihold fd d ((htable fd).trans h), fds, hnd, ?_, fun fd hfd => ?_⟩
      · exact hleaks.imp fun req fd h => ⟨(htable fd).symm.trans h.1, h.2⟩
      · exact (hrest fd hfd).trans (htable fd)
    · rw [if_pos hyes, List.map_cons]
      have hget : get (spawn ev.1 p ev.2).table n = some (cgroupDescriptor ev.1) := by
        rw [htable, if_pos rfl]
      have hother : ∀ fd ≠ n, get (spawn ev.1 p ev.2).table fd = get p.table fd := fun fd hfd => by
        rw [htable, if_neg hfd]
      have hfresh : ∀ req fd, get (spawn ev.1 p ev.2).table fd = none ∧
          get (spawns { p with table := (spawn ev.1 p ev.2).table } evs).table fd =
            some (cgroupDescriptor req) → fd ≠ n := by
        rintro req fd ⟨hnone, -⟩ rfl
        rw [hget] at hnone
        cases hnone
      have hkept : ∀ fd d, get p.table fd = some d →
          get (spawns { p with table := (spawn ev.1 p ev.2).table } evs).table fd = some d := by
        intro fd d h
        refine ihold fd d ((hother fd fun heq => ?_).trans h)
        rw [heq, hn] at h
        cases h
      have hnew : n ∉ fds := by
        intro hmem
        obtain ⟨req, hreq⟩ := exists_of_mem_right hleaks hmem
        exact hfresh req n hreq rfl
      refine ⟨hkept, n :: fds, List.nodup_cons.mpr ⟨hnew, hnd⟩, .cons ⟨hn, ihold n _ hget⟩ ?_, ?_⟩
      · exact hleaks.imp fun req fd h => ⟨(hother fd (hfresh req fd h)).symm.trans h.1, h.2⟩
      · intro fd hfd
        obtain ⟨hne, hnot⟩ := not_or.mp (mt List.mem_cons.mpr hfd)
        exact (hrest fd hnot).trans (hother fd hne)

theorem Started.spawns (hstart : Started p) (evs : List SpawnEvent) : Started (spawns p evs) := by
  intro fd hfd
  obtain ⟨d, hd⟩ := Option.isSome_iff_exists.mp (hstart fd hfd)
  rw [(spawns_leaks p evs).1 fd d hd]
  rfl

/-- **The standard descriptors of a service**, whatever has been spawned before: input from
`/dev/null`, output and error to its log, to `/dev/null` where the log cannot be opened, and those
of the supervisor where neither can. -/
theorem stdio_exact (hstart : Started p) {evs : List SpawnEvent} {image : Image}
    (h : (spawn req (spawns p evs) ans).child = some (.exec image)) :
    ∀ fd ≤ 2, get image.proc.table fd = stdioOf req ans p.table fd := by
  intro fd hfd
  obtain ⟨d, hd⟩ := Option.isSome_iff_exists.mp (hstart fd hfd)
  rw [get_image_stdio (hstart.spawns evs) h hfd, stdioOf, stdioOf,
    (spawns_leaks p evs).1 fd d hd, hd]

/-- Descriptors as the supervisor has them when it is started on a terminal. -/
def onTerminal : Proc :=
  ⟨[some ⟨.held 0, false⟩, some ⟨.held 1, false⟩, some ⟨.held 2, false⟩], Credentials.same 0 0 [],
    true, [], []⟩

def unreadableLog (fork : Except IoError Pid) : SpawnAnswers :=
  { getpwnam := fun _ => none, getgrnam := fun _ => none, openLog := some "EROFS", fork := fork }

/-- The log cannot be opened, and the output goes to `/dev/null`. -/
theorem stdio_exact_readOnly :
    let req : SpawnRequest :=
      { name := "cron.service", service := { execStart := "/usr/bin/crond -f" } }
    ∃ image, (spawn req (spawns onTerminal []) (unreadableLog (.ok 9))).child =
        some (.exec image) ∧ get image.proc.table 1 = some ⟨devNull, false⟩ := by
  intro req
  have h : (spawn req (spawns onTerminal []) (unreadableLog (.ok 9))).child =
      some (.exec ⟨["/usr/bin/crond", "-f"], ["PATH=/usr/bin:/usr/sbin:/bin:/sbin", "TERM=linux"],
        ⟨[some ⟨devNull, false⟩, some ⟨devNull, false⟩, some ⟨devNull, false⟩,
          some ⟨.path "/sys/fs/cgroup/wo.slice/cron.service", false⟩, none],
          Credentials.same 0 0 [], false, [], []⟩⟩) := by
    decide +kernel
  have hout := stdio_exact (by unfold Started; decide) h 1 (by omega)
  exact ⟨_, h, hout.trans (by decide +kernel)⟩

/-- The control groups that a service inherits: those that were leaked, and its own. -/
def groupsOf (req : SpawnRequest) (evs : List SpawnEvent) : List SpawnRequest :=
  (evs.filter cloneFailed).map Prod.fst ++ if req.fake then [] else [req]

/-- **What a service inherits** above its standard descriptors: each control group that has been
leaked by then and its own, each under a number of its own, and what the supervisor was started with
and does not close on `execve`. -/
theorem spawn_inherits (hstart : Started p) {evs : List SpawnEvent} {image : Image}
    (h : (spawn req (spawns p evs) ans).child = some (.exec image)) :
    ∃ fds : List ℕ, fds.Nodup ∧
      List.Forall₂ (fun group fd => 2 < fd ∧ get p.table fd = none ∧
        get image.proc.table fd = some (cgroupDescriptor group)) (groupsOf req evs) fds ∧
      ∀ fd > 2, fd ∉ fds → get image.proc.table fd = FdTable.kept (get p.table fd) := by
  obtain ⟨creds, -, hchild⟩ := child_of_spawn h
  obtain ⟨c, -, -, himage⟩ := exec_of_childExec hchild.symm
  obtain ⟨hold, fds, hnd, hleaks, hrest⟩ := spawns_leaks p evs
  generalize spawns p evs = q at hold hleaks hrest himage
  have hget : ∀ fd > 2, get image.proc.table fd =
      FdTable.kept (if logFd req q ans = some fd then none else get (childTable req q ans) fd) := by
    intro fd hfd
    rw [himage, get_exec, get_redirectStdio_above hfd]
  have hnone : ∀ fd, get q.table fd = none → get p.table fd = none := by
    intro fd hq
    cases hp : get p.table fd with
    | none => rfl
    | some d =>
      rw [hold fd d hp] at hq
      cases hq
  have habove : ∀ fd, get p.table fd = none → 2 < fd := by
    intro fd hp
    by_contra hle
    have hs := hstart fd (by omega)
    rw [hp] at hs
    cases hs
  have hlogfd : ∀ fd, logFd req q ans = some fd ↔
      openLogError req ans = none ∧ fd = q.table.free := by
    intro fd
    rw [logFd]
    split
    · next hlog => simp [hlog, eq_comm]
    · next hlog => simp [hlog]
  have hleaked : ∀ group fd,
      get p.table fd = none ∧ get q.table fd = some (cgroupDescriptor group) →
      2 < fd ∧ get p.table fd = none ∧
        get image.proc.table fd = some (cgroupDescriptor group) := by
    rintro group fd ⟨hp, hq⟩
    refine ⟨habove fd hp, hp, ?_⟩
    rw [hget fd (habove fd hp), if_neg (fun hlog => ?_),
      get_childTable_of_open (by rw [hq]; rfl), hq]
    · rfl
    · rw [((hlogfd fd).mp hlog).2, get_free] at hq
      cases hq
  have hsupervisor : ∀ fd > 2, fd ∉ fds →
      ¬ (req.fake = false ∧ fd = (logTable req q ans).free) →
      get image.proc.table fd = FdTable.kept (get p.table fd) := by
    intro fd hfd hnot hown
    rw [hget fd hfd, get_childTable, if_neg hown, get_logTable]
    by_cases hlog : openLogError req ans = none ∧ fd = q.table.free
    · rw [if_pos ((hlogfd fd).mpr hlog), hnone fd (by rw [hlog.2, get_free])]
    · rw [if_neg (fun hc => hlog ((hlogfd fd).mp hc)), if_neg hlog, hrest fd hnot]
  rw [groupsOf]
  cases hfake : req.fake with
  | true =>
    refine ⟨fds, hnd, ?_, fun fd hfd hnot => hsupervisor fd hfd hnot (by simp [hfake])⟩
    rw [if_pos rfl, List.append_nil]
    exact hleaks.imp hleaked
  | false =>
    have hown := get_free (logTable req q ans)
    rw [get_logTable] at hown
    have hown' : get q.table (logTable req q ans).free = none := by
      split at hown
      · cases hown
      · exact hown
    have hnolog : logFd req q ans ≠ some (logTable req q ans).free := by
      intro hlog
      rw [if_pos ((hlogfd _).mp hlog)] at hown
      cases hown
    refine ⟨fds ++ [(logTable req q ans).free], ?_, ?_, fun fd hfd hnot => ?_⟩
    · refine List.nodup_append.mpr ⟨hnd, List.nodup_singleton _, ?_⟩
      rintro fd hmem fd' hmem' rfl
      obtain ⟨group, hgroup⟩ := exists_of_mem_right hleaks hmem
      rw [List.mem_singleton.mp hmem', hown'] at hgroup
      cases hgroup.2
    · rw [if_neg (by simp)]
      refine List.rel_append (hleaks.imp hleaked)
        (.cons ⟨habove _ (hnone _ hown'), hnone _ hown', ?_⟩ .nil)
      rw [hget _ (habove _ (hnone _ hown')), if_neg hnolog, get_childTable, if_pos ⟨hfake, rfl⟩]
      rfl
    · obtain ⟨hnot, hne⟩ := not_or.mp (mt List.mem_append.mpr hnot)
      exact hsupervisor fd hfd hnot fun hc => hne (List.mem_singleton.mpr hc.2)

/-- The control group of a unit that could not be forked, in the next service. -/
theorem spawn_inherits_leak :
    let bad : SpawnRequest :=
      { name := "a.service", service := { execStart := "/usr/bin/a" } }
    let req : SpawnRequest :=
      { name := "b.service", service := { execStart := "/usr/bin/b" } }
    ∃ image, (spawn req (spawns onTerminal [(bad, unreadableLog (.error "EAGAIN"))])
        (unreadableLog (.ok 9))).child = some (.exec image) ∧
      ∃ fd > 2, get image.proc.table fd = some (cgroupDescriptor bad) := by
  intro bad req
  have h : (spawn req (spawns onTerminal [(bad, unreadableLog (.error "EAGAIN"))])
      (unreadableLog (.ok 9))).child =
      some (.exec ⟨["/usr/bin/b"], ["PATH=/usr/bin:/usr/sbin:/bin:/sbin", "TERM=linux"],
        ⟨[some ⟨devNull, false⟩, some ⟨devNull, false⟩, some ⟨devNull, false⟩,
          some ⟨.path "/sys/fs/cgroup/wo.slice/a.service", false⟩,
          some ⟨.path "/sys/fs/cgroup/wo.slice/b.service", false⟩, none],
          Credentials.same 0 0 [], false, [], []⟩⟩) := by
    decide +kernel
  obtain ⟨fds, -, hgroups, -⟩ := spawn_inherits (by unfold Started; decide) h
  have hfailed : cloneFailed (bad, unreadableLog (.error "EAGAIN")) = true := by decide +kernel
  rw [groupsOf, List.filter_cons_of_pos hfailed] at hgroups
  cases hgroups with
  | cons hbad _ => exact ⟨_, h, _, hbad.1, hbad.2.2⟩

end Runs

end WriteonceOs.Svc
