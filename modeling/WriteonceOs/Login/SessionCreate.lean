import WriteonceOs.Installer.TuiSession
import WriteonceOs.Library.Credentials
import WriteonceOs.Library.Descriptors
import WriteonceOs.Library.Dialogue
import WriteonceOs.Logind.SessionLife
import WriteonceOs.Login.PamSession

/-!
# The helper that creates the session

The child of the login loop becomes this helper, still as root.  It registers the session with
logind, keeps the descriptor it gets for it, makes the runtime directory, takes on the user's
identity and becomes the session script.  What the bus, the group file and the kernel answer is an
argument.

* `parseArgs_childArgv` — the helper reads from its arguments what the login child put there;
* `runHelper_ok` — what holds when the script starts;
* `sessionOf_authenticated` — a script starts only behind a successful PAM transaction, as the user
  that PAM names;
* `session_outlives` — and its session is never given up, though the descriptor was kept for that.
-/

namespace WriteonceOs.Login

open WriteonceOs.Library
open WriteonceOs.Installer (parseIntError parseU32_decimal)
open WriteonceOs.Svc (parseU32)

/-! ### Arguments -/

structure Args where
  user : Text
  uid : UInt32
  gid : UInt32
  home : Text
  shell : Text
  tty : Text
  vtnr : UInt32
  sessionScript : Text
  deriving DecidableEq, Repr

/-- The arguments read so far. -/
structure PartialArgs where
  user : Option Text := none
  uid : Option UInt32 := none
  gid : Option UInt32 := none
  home : Option Text := none
  shell : Option Text := none
  tty : Text := "/dev/tty1".toList
  vtnr : UInt32 := 1
  sessionScript : Option Text := none

inductive ParseEnd where
  | args (args : Args)
  | help
  | failed (e : Text)
  deriving DecidableEq, Repr

/-- The flags that take a value. -/
def flags : List Text :=
  ["--user", "--uid", "--gid", "--home", "--shell", "--tty", "--vtnr", "--session-script"].map
    String.toList

def parseNumber (value : Text) : Except Text UInt32 :=
  match parseU32 value with
  | some n => .ok n
  | none => .error (parseIntError value)

def setFlag (p : PartialArgs) (flag value : Text) : Except Text PartialArgs :=
  if flag = "--user".toList then .ok { p with user := some value }
  else if flag = "--uid".toList then (parseNumber value).map fun n => { p with uid := some n }
  else if flag = "--gid".toList then (parseNumber value).map fun n => { p with gid := some n }
  else if flag = "--home".toList then .ok { p with home := some value }
  else if flag = "--shell".toList then .ok { p with shell := some value }
  else if flag = "--tty".toList then .ok { p with tty := value }
  else if flag = "--vtnr".toList then (parseNumber value).map fun n => { p with vtnr := n }
  else .ok { p with sessionScript := some value }

def required {α : Type} (name : String) : Option α → Except Text α
  | none => .error (name ++ " is required").toList
  | some a => .ok a

def requireArgs (p : PartialArgs) : Except Text Args := do
  let user ← required "--user" p.user
  let uid ← required "--uid" p.uid
  let gid ← required "--gid" p.gid
  let home ← required "--home" p.home
  let shell ← required "--shell" p.shell
  let sessionScript ← required "--session-script" p.sessionScript
  .ok ⟨user, uid, gid, home, shell, p.tty, p.vtnr, sessionScript⟩

def parseFrom (p : PartialArgs) : List Text → ParseEnd
  | [] =>
    match requireArgs p with
    | .ok args => .args args
    | .error e => .failed e
  | [flag] =>
    if flags.contains flag then .failed (flag ++ " requires a value".toList)
    else if flag = "-h".toList ∨ flag = "--help".toList then .help
    else .failed ("unknown argument: ".toList ++ flag)
  | flag :: value :: rest =>
    if flags.contains flag then
      match setFlag p flag value with
      | .ok p => parseFrom p rest
      | .error e => .failed e
    else if flag = "-h".toList ∨ flag = "--help".toList then .help
    else .failed ("unknown argument: ".toList ++ flag)

/-- The arguments behind the name of the program. -/
def parseArgs (argv : List Text) : ParseEnd := parseFrom {} (argv.drop 1)

/-- An entry of `/etc/passwd`. -/
structure Passwd where
  uid : UInt32
  gid : UInt32
  home : Text
  shell : Text
  deriving DecidableEq, Repr

/-- The number of the virtual terminal, or 0. -/
def vtnrOf (tty : Text) : UInt32 :=
  if "/dev/tty".toList.isPrefixOf tty then (parseU32 (tty.drop 8)).getD 0 else 0

/-- What the child of the login loop passes to the helper. -/
def childArgv (cfg : Config) (user : Text) (pw : Passwd) : List Text :=
  ["writeonce-session-create".toList,
    "--user".toList, user,
    "--uid".toList, decimal pw.uid.toNat,
    "--gid".toList, decimal pw.gid.toNat,
    "--home".toList, pw.home,
    "--shell".toList, pw.shell,
    "--tty".toList, cfg.tty,
    "--vtnr".toList, decimal (vtnrOf cfg.tty).toNat,
    "--session-script".toList, cfg.sessionScript]

theorem parseFrom_flag {p p' : PartialArgs} {flag value : Text} {rest : List Text}
    (hflag : flags.contains flag = true) (hset : setFlag p flag value = .ok p') :
    parseFrom p (flag :: value :: rest) = parseFrom p' rest := by
  rw [parseFrom, if_pos hflag, hset]

theorem parseNumber_decimal (n : UInt32) : parseNumber (decimal n.toNat) = .ok n := by
  rw [parseNumber, parseU32_decimal]

theorem setFlag_uid (p : PartialArgs) (n : UInt32) :
    setFlag p "--uid".toList (decimal n.toNat) = .ok { p with uid := some n } := by
  show (parseNumber (decimal n.toNat)).map _ = _
  rw [parseNumber_decimal]
  rfl

theorem setFlag_gid (p : PartialArgs) (n : UInt32) :
    setFlag p "--gid".toList (decimal n.toNat) = .ok { p with gid := some n } := by
  show (parseNumber (decimal n.toNat)).map _ = _
  rw [parseNumber_decimal]
  rfl

theorem setFlag_vtnr (p : PartialArgs) (n : UInt32) :
    setFlag p "--vtnr".toList (decimal n.toNat) = .ok { p with vtnr := n } := by
  show (parseNumber (decimal n.toNat)).map _ = _
  rw [parseNumber_decimal]
  rfl

/-- **The helper reads what the login child wrote**, whatever the texts are. -/
theorem parseArgs_childArgv (cfg : Config) (user : Text) (pw : Passwd) :
    parseArgs (childArgv cfg user pw) = .args
      ⟨user, pw.uid, pw.gid, pw.home, pw.shell, cfg.tty, vtnrOf cfg.tty, cfg.sessionScript⟩ := by
  rw [parseArgs, childArgv, List.drop_one, List.tail_cons, parseFrom_flag (by decide) rfl,
    parseFrom_flag (by decide) (setFlag_uid _ _), parseFrom_flag (by decide) (setFlag_gid _ _),
    parseFrom_flag (by decide) rfl, parseFrom_flag (by decide) rfl, parseFrom_flag (by decide) rfl,
    parseFrom_flag (by decide) (setFlag_vtnr _ _), parseFrom_flag (by decide) rfl]
  rfl

/-! ### Creating the session -/

/-- Owner, group and mode of a directory. -/
structure DirStat where
  uid : UInt32
  gid : UInt32
  mode : ℕ
  deriving DecidableEq, Repr

/-- What logind answers: the session, the runtime directory and the descriptor of the session. -/
structure SessionInfo where
  id : Text
  runtimePath : Text
  fifo : ℕ
  deriving DecidableEq, Repr

/-- The call of `CreateSession`, as far as its arguments vary. -/
structure CreateCall where
  uid : UInt32
  pid : UInt32
  vtnr : UInt32
  tty : Text
  deriving DecidableEq, Repr

/-- The descriptors of a process that has received one over the bus.  What the bus library has
opened for itself is there as well; everything new has the flag, under a number that was free. -/
structure Received (t : FdTable ℕ) (file : ℕ) where
  table : FdTable ℕ
  fd : ℕ
  free : t.get fd = none
  arrived : table.get fd = some ⟨file, true⟩
  others : ∀ fd' ≠ fd, table.get fd' = t.get fd' ∨
    (t.get fd' = none ∧ ∃ d, table.get fd' = some d ∧ d.cloexec = true)

/-- Received under the lowest number, with no other new descriptor. -/
def Received.lowest (t : FdTable ℕ) (file : ℕ) : Received t file where
  table := (t.openFile file true).2
  fd := t.free
  free := t.get_free
  arrived := by rw [FdTable.get_openFile, if_pos rfl]
  others := fun fd' hfd => Or.inl (by rw [FdTable.get_openFile, if_neg hfd])

/-- What the bus, the group file and the kernel answer, call by call. -/
structure HelperAnswers where
  connect : Bool := true
  createSession : CreateCall → Option SessionInfo
  receive : (t : FdTable ℕ) → (file : ℕ) → Received t file := Received.lowest
  getFd : Bool := true
  setFd : Bool := true
  mkdir : Bool := true
  chown : Bool := true
  chmod : Bool := true
  -- the groups of the user in the group file, with the one that is asked for
  groupList : Text → UInt32 → List UInt32
  setgroups : Bool := true
  setresgid : Bool := true
  setresuid : Bool := true
  chdir : Bool := true
  execve : Bool := true

structure Process where
  table : FdTable ℕ
  creds : Credentials
  cwd : Text
  deriving DecidableEq, Repr

/-- The script, as it starts. -/
structure SessionImage where
  argv : List Text
  envp : List Text
  proc : Process
  deriving DecidableEq, Repr

abbrev Dirs := Text → Option DirStat

section Run

variable (args : Args) (ans : HelperAnswers)

def createSession (pid : UInt32) : Except Text SessionInfo :=
  if ans.connect then
    match ans.createSession ⟨args.uid, pid, args.vtnr, args.tty⟩ with
    | some session => .ok session
    | none => .error "Manager.CreateSession failed".toList
  else .error "Manager.CreateSession failed".toList

def clearCloexec (t : FdTable ℕ) (fd : ℕ) : Except Text (FdTable ℕ) :=
  if ans.getFd ∧ ans.setFd then
    match t.get fd with
    | some d => .ok (FdTable.put (some ⟨d.file, false⟩) t fd)
    | none => .error "clear FD_CLOEXEC on lifecycle fd".toList
  else .error "clear FD_CLOEXEC on lifecycle fd".toList

/-- `mkdir`, which may find the directory there, then its owner and its mode. -/
def setupRuntimeDir (c : Credentials) (dirs : Dirs) (path : Text) : Except Text Dirs :=
  if hasNul path then .error "setup XDG_RUNTIME_DIR".toList
  else
    match (dirs path).or (if ans.mkdir then some ⟨c.euid, c.egid, 0o700⟩ else none) with
    | none => .error "setup XDG_RUNTIME_DIR".toList
    | some stat =>
      if ans.chown ∧ ans.chmod then
        .ok (Function.update dirs path (some ⟨Credentials.update stat.uid args.uid,
          Credentials.update stat.gid args.gid, 0o700⟩))
      else .error "setup XDG_RUNTIME_DIR".toList

/-- A call that the kernel's rules allow and the kernel grants. -/
def allowed (granted : Bool) (next : Option Credentials) : Except Text Credentials :=
  match next with
  | some c => if granted then .ok c else .error "drop privileges".toList
  | none => .error "drop privileges".toList

/-- `initgroups`, then the group, then the user. -/
def dropPrivileges (c : Credentials) : Except Text Credentials := do
  if hasNul args.user then .error "drop privileges".toList
  else
    let c ← allowed ans.setgroups (c.setgroups (ans.groupList args.user args.gid))
    let c ← allowed ans.setresgid (c.setresgid args.gid args.gid args.gid)
    allowed ans.setresuid (c.setresuid args.uid args.uid args.uid)

def buildEnv (sessionId runtimePath : Text) : List Text :=
  ["USER=".toList ++ args.user,
    "LOGNAME=".toList ++ args.user,
    "HOME=".toList ++ args.home,
    "SHELL=".toList ++ args.shell,
    "PATH=/run/current-system/sw/bin:/usr/local/bin:/usr/bin:/bin".toList,
    "XDG_SESSION_ID=".toList ++ sessionId,
    "XDG_RUNTIME_DIR=".toList ++ runtimePath,
    "XDG_SESSION_CLASS=user".toList,
    "XDG_SESSION_TYPE=tty".toList,
    "TERM=linux".toList,
    "LANG=C.UTF-8".toList]

def cStrings (texts : List Text) (context : Text) : Except Text (List Text) :=
  if texts.any hasNul then .error context else .ok texts

def chdir (home : Text) : Except Text Text :=
  if hasNul home then .error "nul byte found".toList
  else if ans.chdir then .ok home
  else .error ("chdir(".toList ++ home ++ ")".toList)

/-- The helper, up to the script; a failure ends it with status 1. -/
def runHelper (pid : UInt32) (p : Process) (dirs : Dirs) : Except Text (SessionImage × Dirs) := do
  let session ← createSession args ans pid
  let received := ans.receive p.table session.fifo
  let table ← clearCloexec ans received.table received.fd
  let dirs ← setupRuntimeDir args ans p.creds dirs session.runtimePath
  let creds ← dropPrivileges args ans p.creds
  let cwd ← chdir ans args.home
  let envp ← cStrings (buildEnv args session.id session.runtimePath) "env contains NUL byte".toList
  let argv ← cStrings [args.sessionScript] "nul byte found".toList
  if ans.execve then .ok (⟨argv, envp, table.exec, creds, cwd⟩, dirs)
  else .error ("execve ".toList ++ args.sessionScript)

end Run

/-! ### What holds when the script starts -/

variable {args : Args} {ans : HelperAnswers} {pid : UInt32} {p : Process} {dirs dirs' : Dirs}
  {image : SessionImage}

theorem createSession_ok {session : SessionInfo} (h : createSession args ans pid = .ok session) :
    ans.createSession ⟨args.uid, pid, args.vtnr, args.tty⟩ = some session := by
  rw [createSession] at h
  split at h
  · split at h
    · next heq =>
      cases h
      exact heq
    · cases h
  · cases h

/-- The descriptor of the session loses the flag. -/
theorem get_clearCloexec {t t' : FdTable ℕ} {fd : ℕ} (h : clearCloexec ans t fd = .ok t') :
    ∃ d, t.get fd = some d ∧
      ∀ fd', t'.get fd' = if fd' = fd then some ⟨d.file, false⟩ else t.get fd' := by
  rw [clearCloexec] at h
  split at h
  · split at h
    · rename_i d hd
      cases h
      exact ⟨d, hd, FdTable.get_put t _ fd⟩
    · cases h
  · cases h

/-- **What `exec` leaves**: the descriptor of the session, beside what was open before. -/
theorem Received.get_exec {t t' : FdTable ℕ} {file : ℕ} (r : Received t file)
    (h : clearCloexec ans r.table r.fd = .ok t') :
    t'.exec.get r.fd = some ⟨file, false⟩ ∧
      ∀ fd ≠ r.fd, t'.exec.get fd = FdTable.kept (t.get fd) := by
  obtain ⟨d, hd, hget⟩ := get_clearCloexec h
  rw [r.arrived, Option.some.injEq] at hd
  refine ⟨?_, fun fd hfd => ?_⟩
  · rw [FdTable.get_exec, hget, if_pos rfl, ← hd]
    rfl
  · rw [FdTable.get_exec, hget, if_neg hfd]
    rcases r.others fd hfd with hold | ⟨hfree, d', hd', hcloexec⟩
    · rw [hold]
    · rw [hfree, hd', FdTable.kept_some, if_pos hcloexec, FdTable.kept_none]

theorem setupRuntimeDir_ok {c : Credentials} {path : Text}
    (h : setupRuntimeDir args ans c dirs path = .ok dirs') :
    ∃ stat, dirs' = Function.update dirs path (some stat) ∧ stat.mode = 0o700 ∧
      (args.uid ≠ Credentials.unchanged → stat.uid = args.uid) ∧
      (args.gid ≠ Credentials.unchanged → stat.gid = args.gid) := by
  rw [setupRuntimeDir] at h
  split at h
  · cases h
  · split at h
    · cases h
    · next stat _ =>
      split at h
      · cases h
        exact ⟨_, rfl, rfl, fun hne => if_neg hne, fun hne => if_neg hne⟩
      · cases h

theorem allowed_ok {granted : Bool} {next : Option Credentials} {c : Credentials}
    (h : allowed granted next = .ok c) : next = some c := by
  cases next with
  | none => cases h
  | some c' =>
    rw [allowed] at h
    split at h
    · cases h
      rfl
    · cases h

/-- The identity of the user, unless it is the id that stands for no change. -/
theorem dropPrivileges_ok {c c' : Credentials} (h : dropPrivileges args ans c = .ok c') :
    c.Privileged ∧ c'.groups = ans.groupList args.user args.gid ∧
      (args.uid ≠ Credentials.unchanged → args.gid ≠ Credentials.unchanged →
        c' = Credentials.same args.uid args.gid (ans.groupList args.user args.gid)) ∧
      (args.uid = Credentials.unchanged → c'.Privileged) := by
  rw [dropPrivileges] at h
  split at h
  · cases h
  · obtain ⟨c₁, h₁, h⟩ := bind_eq_ok.mp h
    obtain ⟨c₂, h₂, h₃⟩ := bind_eq_ok.mp h
    have hgroups := allowed_ok h₁
    have hgids := allowed_ok h₂
    have huids := allowed_ok h₃
    rw [Credentials.setgroups] at hgroups
    split at hgroups
    · next hallowed =>
      have hpriv : c.Privileged := hallowed.1
      cases hgroups
      rw [Credentials.setresgid, if_pos (Or.inl (by exact hpriv))] at hgids
      cases hgids
      rw [Credentials.setresuid, if_pos (Or.inl (by exact hpriv))] at huids
      cases huids
      refine ⟨hpriv, rfl, fun huid hgid => ?_, fun huid => ?_⟩
      · simp [Credentials.same, Credentials.update, huid, hgid]
      · show Credentials.update c.euid args.uid = 0
        rw [Credentials.update, if_pos huid]
        exact hpriv
    · cases hgroups

/-- What the script starts with. -/
structure Started (args : Args) (ans : HelperAnswers) (p : Process) (dirs : Dirs)
    (session : SessionInfo) (image : SessionImage) (dirs' : Dirs) : Prop where
  argv : image.argv = [args.sessionScript]
  envp : image.envp = buildEnv args session.id session.runtimePath
  cwd : image.proc.cwd = args.home
  groups : image.proc.creds.groups = ans.groupList args.user args.gid
  creds : args.uid ≠ Credentials.unchanged → args.gid ≠ Credentials.unchanged →
    image.proc.creds = Credentials.same args.uid args.gid (ans.groupList args.user args.gid)
  -- one new descriptor, that of the session
  lifecycle : ∃ fd, p.table.get fd = none ∧ image.proc.table.get fd = some ⟨session.fifo, false⟩ ∧
    ∀ fd' ≠ fd, image.proc.table.get fd' = FdTable.kept (p.table.get fd')
  runtimeDir : ∃ stat, dirs' = Function.update dirs session.runtimePath (some stat) ∧
    stat.mode = 0o700 ∧ (args.uid ≠ Credentials.unchanged → stat.uid = args.uid) ∧
      (args.gid ≠ Credentials.unchanged → stat.gid = args.gid)

theorem cStrings_ok {texts texts' : List Text} {context : Text}
    (h : cStrings texts context = .ok texts') : texts' = texts := by
  rw [cStrings] at h
  split at h <;> cases h
  rfl

/-- **The session script starts** only for a session that logind has accepted, with the descriptor
of the session open, in a private runtime directory of the user and as nobody but the user. -/
theorem runHelper_ok (h : runHelper args ans pid p dirs = .ok (image, dirs')) :
    p.creds.Privileged ∧
      ∃ session, ans.createSession ⟨args.uid, pid, args.vtnr, args.tty⟩ = some session ∧
        Started args ans p dirs session image dirs' := by
  obtain ⟨session, hsession, h⟩ := bind_eq_ok.mp h
  obtain ⟨table, htable, h⟩ := bind_eq_ok.mp h
  obtain ⟨dirs₁, hdirs, h⟩ := bind_eq_ok.mp h
  obtain ⟨creds, hcreds, h⟩ := bind_eq_ok.mp h
  obtain ⟨cwd, hcwd, h⟩ := bind_eq_ok.mp h
  obtain ⟨envp, henvp, h⟩ := bind_eq_ok.mp h
  obtain ⟨argv, hargv, h⟩ := bind_eq_ok.mp h
  split at h
  · cases h
    obtain ⟨hpriv, hgroups, hsame, -⟩ := dropPrivileges_ok hcreds
    have hexec := (ans.receive p.table session.fifo).get_exec htable
    refine ⟨hpriv, session, createSession_ok hsession, ?_⟩
    exact
      { argv := cStrings_ok hargv
        envp := cStrings_ok henvp
        cwd := by
          rw [chdir] at hcwd
          split at hcwd
          · cases hcwd
          · split at hcwd <;> cases hcwd
            rfl
        groups := hgroups
        creds := hsame
        lifecycle := ⟨_, (ans.receive p.table session.fifo).free, hexec⟩
        runtimeDir := setupRuntimeDir_ok hdirs }
  · cases h

/-! ### From the login loop to the script -/

/-- The script that an attempt comes to, with the account file and the helper's answers. -/
def sessionOf (cfg : Config) (getpwnam : Text → Option Passwd) (a : Attempt) (ans : HelperAnswers)
    (pid : UInt32) (p : Process) (dirs : Dirs) : Option (SessionImage × Dirs) :=
  match forked cfg a with
  | none => none
  | some (user, c) =>
    match getpwnam user with
    | none => none
    | some pw =>
      if childPanics cfg user { c with passwd := some (pw.home, pw.shell) } ∨ ¬ c.execs then none
      else
        match parseArgs (childArgv cfg user pw) with
        | .args args => (runHelper args ans pid p dirs).toOption
        | _ => none

/-- The calls on a handle up to the fork. -/
def authenticatedCalls : List PamCall :=
  [.start, .authenticate pamSuccess, .acctMgmt pamSuccess, .establishCred pamSuccess,
    .openSession pamSuccess, .getItem]

/-- The session object at that point. -/
def authenticatedSession : Session :=
  ((((({} : Session).authenticate pamSuccess).acctMgmt pamSuccess).establishCred
    pamSuccess).openSession pamSuccess).authenticatedUser

theorem authenticatedSession_calls : authenticatedSession.calls = authenticatedCalls := by decide

theorem forkSession_prefix (cfg : Config) (a : Attempt) (user : Text) (s : Session) :
    s.calls <+: (forkSession cfg a user s).calls := by
  rw [forkSession]
  cases a.fork with
  | none => exact List.prefix_append _ _
  | some c =>
    have hchild : s.calls <+: s.calls ++ childCalls cfg user c s := List.prefix_append _ _
    dsimp only
    split
    · show s.calls <+: ((s.calls ++ childCalls cfg user c s) ++ _ ++ _) ++ _
      rw [List.append_assoc, List.append_assoc]
      exact hchild.trans (List.prefix_append _ _)
    · exact hchild.trans (List.prefix_append _ _)

/-- A child is forked only when PAM has said yes to everything. -/
theorem forked_calls {cfg : Config} {a : Attempt} {user : Text} {c : ChildAnswers}
    (h : forked cfg a = some (user, c)) :
    ∃ username turn, a.username = some username ∧ user = a.user.getD username ∧
      (attempt cfg a).1 = some turn ∧ authenticatedCalls <+: turn.calls := by
  obtain ⟨turn, hturn, hchild⟩ := Option.bind_eq_some_iff.mp h
  obtain ⟨username, hstarts, rfl⟩ := attempt_handle.mp hturn
  obtain ⟨c', huser, hfork⟩ := startedSession_child hchild
  refine ⟨username, _, hstarts.named, congrArg Prod.fst huser, hturn, ?_⟩
  rw [hfork, ← authenticatedSession_calls]
  exact forkSession_prefix _ _ _ authenticatedSession

/-- Where a session script comes from. -/
theorem sessionOf_started {cfg : Config} {getpwnam : Text → Option Passwd} {a : Attempt}
    (h : sessionOf cfg getpwnam a ans pid p dirs = some (image, dirs')) :
    ∃ username user pw turn session, a.username = some username ∧
      user = a.user.getD username ∧ getpwnam user = some pw ∧
      (attempt cfg a).1 = some turn ∧ authenticatedCalls <+: turn.calls ∧
      ans.createSession ⟨pw.uid, pid, vtnrOf cfg.tty, cfg.tty⟩ = some session ∧
      Started ⟨user, pw.uid, pw.gid, pw.home, pw.shell, cfg.tty, vtnrOf cfg.tty,
        cfg.sessionScript⟩ ans p dirs session image dirs' := by
  rw [sessionOf] at h
  split at h
  · cases h
  · next user c hforked =>
    obtain ⟨username, turn, husername, huser, hturn, hprefix⟩ := forked_calls hforked
    split at h
    · cases h
    · next pw hpw =>
      split at h
      · cases h
      · rw [parseArgs_childArgv] at h
        dsimp only at h
        cases hrun : runHelper ⟨user, pw.uid, pw.gid, pw.home, pw.shell, cfg.tty, vtnrOf cfg.tty,
            cfg.sessionScript⟩ ans pid p dirs with
        | error e =>
          rw [hrun] at h
          cases h
        | ok res =>
          rw [hrun] at h
          cases h
          obtain ⟨-, session, hsession, hstarted⟩ := runHelper_ok hrun
          exact ⟨username, user, pw, turn, session, husername, huser, hpw, hturn, hprefix,
            hsession, hstarted⟩

/-- **A session script starts only behind a successful PAM transaction**, for a session that logind
has accepted, and as the user that PAM names, for good. -/
theorem sessionOf_authenticated {cfg : Config} {getpwnam : Text → Option Passwd} {a : Attempt}
    (h : sessionOf cfg getpwnam a ans pid p dirs = some (image, dirs')) :
    ∃ username user pw turn session, a.username = some username ∧
      user = a.user.getD username ∧ getpwnam user = some pw ∧
      (attempt cfg a).1 = some turn ∧ authenticatedCalls <+: turn.calls ∧
      ans.createSession ⟨pw.uid, pid, vtnrOf cfg.tty, cfg.tty⟩ = some session ∧
      Started ⟨user, pw.uid, pw.gid, pw.home, pw.shell, cfg.tty, vtnrOf cfg.tty,
        cfg.sessionScript⟩ ans p dirs session image dirs' ∧
      (pw.uid ≠ 0 → pw.uid ≠ Credentials.unchanged → pw.gid ≠ Credentials.unchanged →
        ∀ calls, image.proc.creds.applyAll calls = image.proc.creds) := by
  obtain ⟨username, user, pw, turn, session, husername, huser, hpw, hturn, hprefix, hsession,
    hstarted⟩ := sessionOf_started h
  refine ⟨username, user, pw, turn, session, husername, huser, hpw, hturn, hprefix, hsession,
    hstarted, fun hroot huid hgid calls => ?_⟩
  rw [hstarted.creds huid hgid]
  exact Credentials.Settled.applyAll rfl hroot calls

/-- One user logs in. -/
theorem sessionOf_authenticated_alice :
    ∃ image dirs', sessionOf {} (fun _ => some ⟨1000, 1000, "/home/alice".toList, "/bin/sh".toList⟩)
        { username := some "alice".toList, fork := some { passwd := none } }
        { createSession := fun _ => some ⟨"c1".toList, "/run/user/1000".toList, 7⟩
          groupList := fun _ gid => [gid, 10] } 300 ⟨[], Credentials.same 0 0 [0], "/".toList⟩
        (fun _ => none) = some (image, dirs') ∧
      image.proc.creds.applyAll [.setuid 0, .setgroups [0]] = image.proc.creds := by
  obtain ⟨⟨image, dirs'⟩, h⟩ := Option.isSome_iff_exists.mp (show (sessionOf {}
    (fun _ => some ⟨1000, 1000, "/home/alice".toList, "/bin/sh".toList⟩)
    { username := some "alice".toList, fork := some { passwd := none } }
    { createSession := fun _ => some ⟨"c1".toList, "/run/user/1000".toList, 7⟩
      groupList := fun _ gid => [gid, 10] } 300 ⟨[], Credentials.same 0 0 [0], "/".toList⟩
    (fun _ => none)).isSome from by decide +kernel)
  refine ⟨image, dirs', h, ?_⟩
  obtain ⟨-, -, pw, -, -, -, -, hpw, -, -, -, -, hstay⟩ := sessionOf_authenticated h
  cases hpw
  exact hstay (by decide) (by decide) (by decide) _

/-! ### The session in the table of logind -/

/-- The arguments of the call, as logind keeps them. -/
def createArgs (c : CreateCall) : Logind.CreateArgs where
  uid := c.uid
  pid := c.pid
  service := "writeonce-login"
  sessionType := "tty"
  sessionClass := "user"
  seatId := "seat0"
  vtnr := c.vtnr
  display := ""
  remote := false

/-- The helper's call is answered by logind, in the state `d`. -/
def AnsweredBy (d : Logind.Shim) (ans : HelperAnswers) : Prop :=
  ∀ call session, ans.createSession call = some session → ∃ key r,
    d.calls key = some ⟨.createSession (createArgs call), .returned (.session r)⟩ ∧
      session = ⟨r.id.toList, r.runtimePath.toList, r.fd⟩

/-- **The session of a login is never given up**: the script starts with its session, in the runtime
directory under `/run/user` that has the user's number, and the session is active and has the same
leader in every later state of logind, unless somebody asks for a release. -/
theorem session_outlives {cfg : Config} {getpwnam : Text → Option Passwd} {a : Attempt}
    (h : sessionOf cfg getpwnam a ans pid p dirs = some (image, dirs'))
    {events later : List Logind.BusEvent} {d d' : Logind.Shim}
    (hrun : Logind.Shim.run events = some d) (hans : AnsweredBy d ans)
    (hlater : later.foldlM Logind.Shim.next d = some d')
    (hkeeps : ∀ ev ∈ events ++ later, ev.Keeps) (hfew : d'.created.length ≤ 2 ^ 64) :
    ∃ user pw id s, getpwnam user = some pw ∧
      "XDG_SESSION_ID=".toList ++ id.toList ∈ image.envp ∧
      "XDG_RUNTIME_DIR=/run/user/".toList ++ decimal pw.uid.toNat ∈ image.envp ∧
      (dirs' ("/run/user/".toList ++ decimal pw.uid.toNat)).map (·.mode) = some 0o700 ∧
      d'.state.sessions.lookup id = some s ∧ s.uid = pw.uid ∧ s.leaderPid = pid ∧
      s.state = "active" := by
  obtain ⟨-, user, pw, -, session, -, -, hpw, -, -, hsession, hstarted⟩ := sessionOf_started h
  obtain ⟨key, r, hr, rfl⟩ := hans _ _ hsession
  obtain ⟨hd, hd', hprefix⟩ := Logind.Shim.lasting_later hkeeps hrun hlater hfew
  obtain ⟨hpath, s, hs, huid, hpid, hactive⟩ := hd.session hd' hprefix hr
  have hdir : r.runtimePath.toList = "/run/user/".toList ++ decimal pw.uid.toNat := by
    rw [hpath, String.toList_append, toList_toString]
    rfl
  refine ⟨user, pw, r.id, s, hpw, ?_, ?_, ?_, hs, huid, hpid, hactive⟩
  · rw [hstarted.envp, buildEnv]
    simp
  · rw [hstarted.envp, buildEnv, hdir]
    simp
  · obtain ⟨stat, hdirs, hmode, -⟩ := hstarted.runtimeDir
    rw [hdirs, ← hdir, Function.update_self, Option.map_some, hmode]

/-- The call of the helper of one login, and what it is answered. -/
def aliceCall : CreateCall := ⟨1000, 300, 1, "/dev/tty1".toList⟩

def aliceAnswers : HelperAnswers where
  createSession call :=
    if call = aliceCall then some ⟨"c1".toList, "/run/user/1000".toList, 0⟩ else none
  groupList := fun _ gid => [gid, 10]

/-- The session of one login, when another user has logged in. -/
theorem session_outlives_alice :
    ∃ d' id s, Logind.Shim.run (Logind.Shim.login ⟨0, 1⟩ (createArgs aliceCall) ++
        Logind.Shim.login ⟨0, 2⟩ (Logind.Shim.localUser 1001 400)) = some d' ∧
      d'.state.sessions.lookup id = some s ∧ s.uid = 1000 ∧ s.leaderPid = 300 ∧
      s.state = "active" := by
  obtain ⟨⟨image, dirs'⟩, h⟩ := Option.isSome_iff_exists.mp (show (sessionOf {}
    (fun _ => some ⟨1000, 1000, "/home/alice".toList, "/bin/sh".toList⟩)
    { username := some "alice".toList, fork := some { passwd := none } } aliceAnswers 300
    ⟨[], Credentials.same 0 0 [0], "/".toList⟩ (fun _ => none)).isSome from by decide +kernel)
  obtain ⟨d, hd⟩ : ∃ d, Logind.Shim.run (Logind.Shim.login ⟨0, 1⟩ (createArgs aliceCall)) =
    some d := ⟨_, rfl⟩
  obtain ⟨d', hd'⟩ : ∃ d', (Logind.Shim.login ⟨0, 2⟩ (Logind.Shim.localUser 1001 400)).foldlM
      Logind.Shim.next d = some d' := by
    cases hd
    exact ⟨_, rfl⟩
  have hans : AnsweredBy d aliceAnswers := by
    intro call session hcall
    have hcases : call = aliceCall ∧ session = ⟨"c1".toList, "/run/user/1000".toList, 0⟩ := by
      dsimp only [aliceAnswers] at hcall
      split at hcall
      · next heq => exact ⟨heq, (Option.some.inj hcall).symm⟩
      · cases hcall
    obtain ⟨rfl, rfl⟩ := hcases
    cases hd
    exact ⟨⟨0, 1⟩, _, rfl, by decide⟩
  have hfew : d'.created.length ≤ 2 ^ 64 := by
    cases hd
    cases hd'
    decide
  obtain ⟨user, pw, id, s, hpw, -, -, -, hs, huid, hpid, hactive⟩ := session_outlives h hd hans hd'
    (by simp [Logind.Shim.login, Logind.BusEvent.Keeps, Logind.Method.Releases]) hfew
  cases hpw
  exact ⟨d', id, s, foldlM_append_some.mpr ⟨d, hd, hd'⟩, hs, huid, hpid, hactive⟩

end WriteonceOs.Login
