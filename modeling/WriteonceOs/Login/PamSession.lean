import Mathlib.Data.List.Count
import WriteonceOs.Login.Conversation

/-!
# The login loop and its PAM handles

Each attempt to log in starts a PAM transaction of its own.  The session object remembers whether
the PAM session was opened and the credentials established, and undoes both when it is dropped; the
attempt that goes well undoes them before.  What PAM, the tty, `fork` and the child answer is an
argument; the calls on the handle of a session are kept with it.

* `run` — the loop, as the calls on each handle that was started;
* `Balanced` — what the calls on a handle must satisfy;
* `Tracks`, `Tracks.balanced_drop` — flags that say what is to be undone, and what follows;
* `run_balanced_iff` — when every handle of a run is balanced.
-/

namespace WriteonceOs.Login

open WriteonceOs.Library

/-! ### The session object -/

/-- The calls of libpam on a handle, with the return codes that count. -/
inductive PamCall where
  | start
  | authenticate (rc : ℤ)
  | acctMgmt (rc : ℤ)
  | establishCred (rc : ℤ)
  | openSession (rc : ℤ)
  | getItem
  | strerror
  | closeSession
  | deleteCred
  | pamEnd
  deriving DecidableEq, Repr

structure Session where
  credsEstablished : Bool := false
  sessionOpen : Bool := false
  calls : List PamCall := [.start]
  deriving DecidableEq, Repr

namespace Session

def record (s : Session) (calls : List PamCall) : Session := { s with calls := s.calls ++ calls }

/-- The text of the error, where there is one. -/
def strerror (rc : ℤ) : List PamCall := if rc = pamSuccess then [] else [.strerror]

def authenticate (s : Session) (rc : ℤ) : Session := s.record (.authenticate rc :: strerror rc)

def acctMgmt (s : Session) (rc : ℤ) : Session := s.record (.acctMgmt rc :: strerror rc)

/-- The flag is set before the call. -/
def openSession (s : Session) (rc : ℤ) : Session :=
  { s with sessionOpen := true }.record (.openSession rc :: strerror rc)

def closeSession (s : Session) (rc : ℤ) : Session :=
  { s.record (.closeSession :: strerror rc) with sessionOpen := false }

/-- The flag is set when the call has succeeded. -/
def establishCred (s : Session) (rc : ℤ) : Session :=
  let s := s.record (.establishCred rc :: strerror rc)
  if rc = pamSuccess then { s with credsEstablished := true } else s

def deleteCred (s : Session) (rc : ℤ) : Session :=
  { s.record (.deleteCred :: strerror rc) with credsEstablished := false }

def authenticatedUser (s : Session) : Session := s.record [.getItem]

/-- The calls of `Session::drop`. -/
def dropCalls (s : Session) : List PamCall :=
  (if s.sessionOpen then [.closeSession] else []) ++
    (if s.credsEstablished then [.deleteCred] else []) ++ [.pamEnd]

/-- All calls on the handle of a session that is dropped. -/
def drop (s : Session) : List PamCall := s.calls ++ s.dropCalls

end Session

/-! ### The loop -/

/-- The configuration, and the tty that the command line names. -/
structure Config where
  pamService : Text := "writeonce".toList
  sessionScript : Text := "/etc/writeonce/session-start.sh".toList
  tty : Text := "/dev/tty1".toList

/-- What the child finds: the home and the shell of the user, whether `execve` goes well, and
whether an error can be printed. -/
structure ChildAnswers where
  passwd : Option (Text × Text)
  execs : Bool := true
  stderr : Bool := true

/-- One attempt to log in.  `message` says whether the line that ends it can be written; `user` is
the name that PAM has, and `fork` the child, if there is one. -/
structure Attempt where
  banner : Bool := true
  username : Option Text
  clones : Bool := true
  start : ℤ := pamSuccess
  authenticate : ℤ := pamSuccess
  acctMgmt : ℤ := pamSuccess
  establishCred : ℤ := pamSuccess
  openSession : ℤ := pamSuccess
  user : Option Text := none
  opening : Bool := true
  fork : Option ChildAnswers
  message : Bool := true
  closeSession : ℤ := pamSuccess
  deleteCred : ℤ := pamSuccess

/-- The child panics on a NUL in its arguments, and where it cannot print an error.  Otherwise it
becomes the session script or exits at once. -/
def childPanics (cfg : Config) (user : Text) (c : ChildAnswers) : Bool :=
  if hasNul user then true
  else
    match c.passwd with
    | none => !c.stderr
    | some (home, shell) =>
      if [user, home, shell, cfg.tty, cfg.sessionScript].any hasNul then true
      else if c.execs then false
      else !c.stderr

/-- A child that panics drops its copy of the session. -/
def childCalls (cfg : Config) (user : Text) (c : ChildAnswers) (s : Session) : List PamCall :=
  if childPanics cfg user c then s.dropCalls else []

/-- An attempt that came to a handle: the calls on it, the child that was forked, with the user that
it is for, and whether the loop goes on. -/
structure Turn where
  calls : List PamCall
  child : Option (Text × ChildAnswers) := none
  goesOn : Bool

/-- The attempt drops its session and forks no child. -/
def dropped (s : Session) (goesOn : Bool) : Turn where
  calls := s.drop
  goesOn := goesOn

/-- The attempt from the fork on. -/
def forkSession (cfg : Config) (a : Attempt) (user : Text) (s : Session) : Turn :=
  match a.fork with
  | none => dropped s a.message
  | some c =>
    let s := s.record (childCalls cfg user c s)
    if a.message then
      ⟨((s.closeSession a.closeSession).deleteCred a.deleteCred).drop, some (user, c), true⟩
    else ⟨s.drop, some (user, c), false⟩

/-- The attempt with an open session. -/
def openedSession (cfg : Config) (a : Attempt) (username : Text) (s : Session) : Turn :=
  let s := s.authenticatedUser
  if a.opening then forkSession cfg a (a.user.getD username) s else dropped s false

/-- The attempt with a handle. -/
def startedSession (cfg : Config) (a : Attempt) (username : Text) (s : Session) : Turn :=
  let s := s.authenticate a.authenticate
  if a.authenticate ≠ pamSuccess then dropped s a.message
  else
    let s := s.acctMgmt a.acctMgmt
    if a.acctMgmt ≠ pamSuccess then dropped s a.message
    else
      let s := s.establishCred a.establishCred
      if a.establishCred ≠ pamSuccess then dropped s a.message
      else
        let s := s.openSession a.openSession
        if a.openSession ≠ pamSuccess then dropped s a.message
        else openedSession cfg a username s

/-- One turn of the loop: what it did with its handle, if it comes to one, and whether the loop goes
on. -/
def attempt (cfg : Config) (a : Attempt) : Option Turn × Bool :=
  if !a.banner then (none, false)
  else
    match a.username with
    | none => (none, false)
    | some username =>
      if username = [] then (none, a.message)
      else if !a.clones then (none, false)
      else if hasNul cfg.pamService ∨ hasNul username ∨ a.start ≠ pamSuccess then (none, a.message)
      else
        let turn := startedSession cfg a username {}
        (some turn, turn.goesOn)

/-- The user for whom an attempt forks a child, and what the child finds. -/
def forked (cfg : Config) (a : Attempt) : Option (Text × ChildAnswers) :=
  (attempt cfg a).1.bind Turn.child

/-- The calls on each handle of a run. -/
def run (cfg : Config) : List Attempt → List (List PamCall)
  | [] => []
  | a :: as =>
    ((attempt cfg a).1.map Turn.calls).toList ++ if (attempt cfg a).2 then run cfg as else []

/-- The attempts that a run comes to. -/
def made (cfg : Config) : List Attempt → List Attempt
  | [] => []
  | a :: as => a :: if (attempt cfg a).2 then made cfg as else []

example :
    run {} [{ username := some "root".toList, authenticate := 7, fork := none },
      { username := some "root".toList, fork := some { passwd := some ([], []) } }] =
    [[.start, .authenticate 7, .strerror, .pamEnd],
      [.start, .authenticate 0, .acctMgmt 0, .establishCred 0, .openSession 0, .getItem,
        .closeSession, .deleteCred, .pamEnd]] := by decide

/-! ### Balanced calls -/

/-- **The calls on a handle are paired.** -/
structure Balanced (calls : List PamCall) : Prop where
  close : calls.count .closeSession = if .openSession pamSuccess ∈ calls then 1 else 0
  delete : calls.count .deleteCred = if .establishCred pamSuccess ∈ calls then 1 else 0
  closeFirst : ¬ [.deleteCred, .closeSession].Sublist calls
  pamEnd : calls.count .pamEnd = 1 ∧ calls.getLast? = some .pamEnd

def PamCall.isClosing : PamCall → Bool
  | .closeSession | .deleteCred | .pamEnd => true
  | _ => false

/-- The calls that undo something. -/
def closings (calls : List PamCall) : List PamCall := calls.filter PamCall.isClosing

theorem closings_append (calls calls' : List PamCall) :
    closings (calls ++ calls') = closings calls ++ closings calls' := List.filter_append ..

theorem strerror_cases (rc : ℤ) :
    Session.strerror rc = [] ∨ Session.strerror rc = [.strerror] := by
  rw [Session.strerror]
  split
  · exact Or.inl rfl
  · exact Or.inr rfl

/-- What is to be undone, in order. -/
def expectedClosings (opened established : Bool) : List PamCall :=
  (if opened then [.closeSession] else []) ++ (if established then [.deleteCred] else []) ++
    [.pamEnd]

theorem balanced_of_closings {calls : List PamCall} {opened established : Bool}
    (hopened : opened = true ↔ .openSession pamSuccess ∈ calls)
    (hestablished : established = true ↔ .establishCred pamSuccess ∈ calls)
    (hclosings : closings calls = expectedClosings opened established)
    (hlast : calls.getLast? = some .pamEnd) : Balanced calls := by
  have hcount : ∀ c : PamCall, c.isClosing = true →
      calls.count c = (expectedClosings opened established).count c := by
    intro c hc
    rw [← hclosings, closings, List.count_filter hc]
  refine ⟨?_, ?_, ?_, ?_, hlast⟩
  · rw [hcount .closeSession rfl, if_congr hopened.symm rfl rfl]
    cases opened <;> cases established <;> rfl
  · rw [hcount .deleteCred rfl, if_congr hestablished.symm rfl rfl]
    cases opened <;> cases established <;> rfl
  · intro hsub
    have hsub' : [.deleteCred, .closeSession].Sublist (expectedClosings opened established) := by
      rw [← hclosings]
      exact hsub.filter PamCall.isClosing
    revert hsub'
    cases opened <;> cases established <;> decide
  · rw [hcount .pamEnd rfl]
    cases opened <;> cases established <;> rfl

/-! ### Flags that say what is to be undone -/

/-- **The flags of a session** say what has been done on its handle, and nothing is undone yet. -/
structure Tracks (s : Session) : Prop where
  fresh : closings s.calls = []
  opened : s.sessionOpen = true ↔ .openSession pamSuccess ∈ s.calls
  established : s.credsEstablished = true ↔ .establishCred pamSuccess ∈ s.calls

/-- Calls that neither do nor undo anything. -/
def Quiet (calls : List PamCall) : Prop :=
  closings calls = [] ∧ .openSession pamSuccess ∉ calls ∧ .establishCred pamSuccess ∉ calls

theorem quiet_cons_strerror {c : PamCall} (hclosing : c.isClosing = false)
    (hopen : c ≠ .openSession pamSuccess) (hestablish : c ≠ .establishCred pamSuccess) (rc : ℤ) :
    Quiet (c :: Session.strerror rc) := by
  have hclosings : ∀ calls, closings (c :: calls) = closings calls := by
    intro calls
    rw [closings, List.filter_cons_of_neg (by rw [hclosing]; decide)]
    rfl
  rw [Quiet, hclosings]
  rcases strerror_cases rc with h | h <;> rw [h] <;>
    simp [closings, PamCall.isClosing, hopen.symm, hestablish.symm]

variable {s : Session}

theorem tracks_start : Tracks {} := ⟨rfl, by decide, by decide⟩

theorem Tracks.record (h : Tracks s) {calls : List PamCall} (hquiet : Quiet calls) :
    Tracks (s.record calls) := by
  obtain ⟨hclosings, hopen, hestablish⟩ := hquiet
  refine ⟨?_, ?_, ?_⟩
  · rw [Session.record, closings_append, h.fresh, hclosings]
    rfl
  · rw [Session.record, List.mem_append, or_iff_left hopen]
    exact h.opened
  · rw [Session.record, List.mem_append, or_iff_left hestablish]
    exact h.established

theorem Tracks.establishCred (h : Tracks s) (rc : ℤ) : Tracks (s.establishCred rc) := by
  by_cases hrc : rc = pamSuccess
  · subst hrc
    refine ⟨?_, ?_, ?_⟩
    · show closings (s.calls ++ [.establishCred pamSuccess]) = []
      rw [closings_append, h.fresh]
      rfl
    · show s.sessionOpen = true ↔ .openSession pamSuccess ∈ s.calls ++ [.establishCred pamSuccess]
      rw [List.mem_append, or_iff_left (by simp), h.opened]
    · exact iff_of_true rfl (List.mem_append_right _ List.mem_cons_self)
  · rw [Session.establishCred, if_neg hrc]
    refine h.record (quiet_cons_strerror rfl (by simp) ?_ rc)
    intro heq
    exact hrc (PamCall.establishCred.inj heq)

theorem Tracks.openSession (h : Tracks s) : Tracks (s.openSession pamSuccess) := by
  refine ⟨?_, ?_, ?_⟩
  · show closings (s.calls ++ [.openSession pamSuccess]) = []
    rw [closings_append, h.fresh]
    rfl
  · exact iff_of_true rfl (List.mem_append_right _ List.mem_cons_self)
  · show s.credsEstablished = true ↔
      .establishCred pamSuccess ∈ s.calls ++ [.openSession pamSuccess]
    rw [List.mem_append, or_iff_left (by simp), h.established]

/-- Undoing what the flags say balances the handle. -/
theorem Tracks.balanced (h : Tracks s) {calls : List PamCall}
    (hclosings : closings calls = expectedClosings s.sessionOpen s.credsEstablished)
    (hquiet : .openSession pamSuccess ∉ calls ∧ .establishCred pamSuccess ∉ calls)
    (hlast : calls.getLast? = some .pamEnd) : Balanced (s.calls ++ calls) := by
  have hopened : s.sessionOpen = true ↔ .openSession pamSuccess ∈ s.calls ++ calls := by
    rw [List.mem_append, or_iff_left hquiet.1]
    exact h.opened
  have hestablished :
      s.credsEstablished = true ↔ .establishCred pamSuccess ∈ s.calls ++ calls := by
    rw [List.mem_append, or_iff_left hquiet.2]
    exact h.established
  refine balanced_of_closings hopened hestablished ?_ ?_
  · rw [closings_append, h.fresh, hclosings]
    rfl
  · rw [List.getLast?_append, hlast]
    rfl

/-- **Dropping the session** balances its handle. -/
theorem Tracks.balanced_drop (h : Tracks s) : Balanced s.drop := by
  have hcalls : s.dropCalls = expectedClosings s.sessionOpen s.credsEstablished := rfl
  rw [Session.drop, hcalls]
  refine h.balanced ?_ ?_ ?_
  · cases s.sessionOpen <;> cases s.credsEstablished <;> rfl
  · cases s.sessionOpen <;> cases s.credsEstablished <;> decide
  · cases s.sessionOpen <;> cases s.credsEstablished <;> rfl

/-- **Closing and deleting** before the drop balances the handle as well. -/
theorem Tracks.balanced_close (h : Tracks s) (hopen : s.sessionOpen = true)
    (hcreds : s.credsEstablished = true) (rc rc' : ℤ) :
    Balanced ((s.closeSession rc).deleteCred rc').drop := by
  have hcalls : ((s.closeSession rc).deleteCred rc').drop =
      s.calls ++ (.closeSession :: Session.strerror rc ++ .deleteCred :: Session.strerror rc' ++
        [.pamEnd]) := by
    show s.calls ++ _ ++ _ ++ _ = _
    simp only [List.append_assoc, List.cons_append]
    rfl
  rw [hcalls]
  apply h.balanced
  · rw [hopen, hcreds]
    rcases strerror_cases rc with hrc | hrc <;> rcases strerror_cases rc' with hrc' | hrc' <;>
      rw [hrc, hrc'] <;> rfl
  · rcases strerror_cases rc with hrc | hrc <;> rcases strerror_cases rc' with hrc' | hrc' <;>
      rw [hrc, hrc'] <;> decide
  · rw [List.getLast?_append]
    rfl

/-- A session whose opening failed is closed all the same. -/
theorem Tracks.not_balanced_openSession (h : Tracks s) (hclosed : s.sessionOpen = false) {rc : ℤ}
    (hrc : rc ≠ pamSuccess) : ¬ Balanced (s.openSession rc).drop := by
  have hdrop : (s.openSession rc).drop = (s.calls ++ .openSession rc :: Session.strerror rc) ++
      expectedClosings true s.credsEstablished := rfl
  have hfresh : .openSession pamSuccess ∉ s.calls := by
    rw [← h.opened, hclosed]
    exact Bool.false_ne_true
  have hopen : .openSession pamSuccess ∉ (s.openSession rc).drop := by
    rw [hdrop, List.mem_append, List.mem_append, or_iff_right hfresh, List.mem_cons, not_or,
      not_or]
    refine ⟨⟨fun heq => hrc (PamCall.openSession.inj heq).symm, ?_⟩, ?_⟩
    · rcases strerror_cases rc with hstr | hstr <;> rw [hstr] <;> decide
    · cases s.credsEstablished <;> decide
  intro hbalanced
  have hcount := hbalanced.close
  rw [if_neg hopen, List.count_eq_zero, hdrop] at hcount
  exact hcount (List.mem_append_right _ List.mem_cons_self)

/-- A handle that was ended by another process is ended twice. -/
theorem not_balanced_drop_of_pamEnd (h : .pamEnd ∈ s.calls) : ¬ Balanced s.drop := by
  intro hbalanced
  have hcalls := List.count_pos_iff.mpr h
  have hdrop : 0 < s.dropCalls.count .pamEnd := List.count_pos_iff.mpr (by simp [Session.dropCalls])
  have hone := hbalanced.pamEnd.1
  rw [Session.drop, List.count_append] at hone
  omega

/-! ### Attempts and runs -/

/-- **An attempt that leaves its handle balanced**: the session opens where the attempt comes to
it, and a child does not panic. -/
def OpensOrStops (cfg : Config) (a : Attempt) (username : Text) : Prop :=
  a.authenticate = pamSuccess → a.acctMgmt = pamSuccess → a.establishCred = pamSuccess →
    a.openSession = pamSuccess ∧
      (a.opening = true → ∀ c, a.fork = some c →
        childPanics cfg (a.user.getD username) c = false)

theorem forkSession_balanced_iff (cfg : Config) (a : Attempt) (user : Text) (h : Tracks s)
    (hopen : s.sessionOpen = true) (hcreds : s.credsEstablished = true) :
    Balanced (forkSession cfg a user s).calls ↔
      ∀ c, a.fork = some c → childPanics cfg user c = false := by
  rw [forkSession]
  cases hfork : a.fork with
  | none => exact iff_of_true h.balanced_drop fun c hc => by cases hc
  | some c =>
    have hcond : (∀ c', some c = some c' → childPanics cfg user c' = false) ↔
        childPanics cfg user c = false :=
      ⟨fun hall => hall c rfl, fun hc c' heq => Option.some.inj heq ▸ hc⟩
    rw [hcond]
    cases hpanics : childPanics cfg user c with
    | true =>
      refine iff_of_false ?_ (by decide)
      have hend : .pamEnd ∈ s.calls ++ childCalls cfg user c s := by
        rw [childCalls, hpanics]
        exact List.mem_append_right _ (by simp [Session.dropCalls])
      dsimp only
      split
      · exact not_balanced_drop_of_pamEnd
          (List.mem_append_left _ (List.mem_append_left _ hend))
      · exact not_balanced_drop_of_pamEnd hend
    | false =>
      refine iff_of_true ?_ rfl
      have hsame : s.record (childCalls cfg user c s) = s := by
        rw [childCalls, hpanics]
        show { s with calls := s.calls ++ [] } = s
        rw [List.append_nil]
      dsimp only
      rw [hsame]
      split
      · exact h.balanced_close hopen hcreds _ _
      · exact h.balanced_drop

/-- A step after which an attempt that fails drops its session. -/
theorem Tracks.balanced_step_iff (h : Tracks s) {rc : ℤ} {message : Bool}
    {rest : Turn} {P : Prop} (hrest : rc = pamSuccess → (Balanced rest.calls ↔ P)) :
    Balanced (if rc ≠ pamSuccess then dropped s message else rest).calls ↔
      (rc = pamSuccess → P) := by
  by_cases hrc : rc = pamSuccess
  · rw [if_neg (not_not.mpr hrc), forall_prop_of_true hrc]
    exact hrest hrc
  · rw [if_pos hrc]
    exact iff_of_true h.balanced_drop fun hsuccess => absurd hsuccess hrc

theorem startedSession_balanced_iff (cfg : Config) (a : Attempt) (username : Text) :
    Balanced (startedSession cfg a username {}).calls ↔ OpensOrStops cfg a username := by
  rw [OpensOrStops, startedSession]
  have hauth : Tracks (Session.authenticate {} a.authenticate) :=
    tracks_start.record (quiet_cons_strerror rfl (by simp) (by simp) _)
  refine hauth.balanced_step_iff fun _ => ?_
  have hacct : Tracks ((Session.authenticate {} a.authenticate).acctMgmt a.acctMgmt) :=
    hauth.record (quiet_cons_strerror rfl (by simp) (by simp) _)
  refine hacct.balanced_step_iff fun _ => ?_
  have hcred := hacct.establishCred a.establishCred
  refine hcred.balanced_step_iff fun hrc₃ => ?_
  rw [hrc₃] at hcred ⊢
  by_cases hrc₄ : a.openSession = pamSuccess
  swap
  · rw [if_pos hrc₄]
    exact iff_of_false (hcred.not_balanced_openSession rfl hrc₄) fun h => hrc₄ h.1
  rw [if_neg (not_not.mpr hrc₄), and_iff_right hrc₄, hrc₄]
  have hopened := hcred.openSession.record
    (⟨rfl, by decide, by decide⟩ : Quiet [PamCall.getItem])
  rw [openedSession]
  cases a.opening with
  | true =>
    rw [forall_prop_of_true rfl]
    exact forkSession_balanced_iff cfg a _ hopened rfl rfl
  | false => exact iff_of_true hopened.balanced_drop fun h => by cases h

/-- The attempt comes to a handle. -/
structure Attempt.Starts (cfg : Config) (a : Attempt) (username : Text) : Prop where
  banner : a.banner = true
  named : a.username = some username
  nonempty : username ≠ []
  clones : a.clones = true
  noNul : hasNul cfg.pamService = false ∧ hasNul username = false
  start : a.start = pamSuccess

theorem attempt_handle {cfg : Config} {a : Attempt} {turn : Turn} :
    (attempt cfg a).1 = some turn ↔
      ∃ username, a.Starts cfg username ∧ startedSession cfg a username {} = turn := by
  refine ⟨fun h => ?_, ?_⟩
  · rw [attempt] at h
    split at h
    · cases h
    rename_i hbanner
    split at h
    · cases h
    rename_i username husername
    split at h
    · cases h
    rename_i hnonempty
    split at h
    · cases h
    rename_i hclones
    split at h
    · cases h
    rename_i hstart
    simp only [not_or, Bool.not_eq_true, not_not] at hstart
    exact ⟨username, ⟨by simpa using hbanner, husername, hnonempty, by simpa using hclones,
      ⟨hstart.1, hstart.2.1⟩, hstart.2.2⟩, Option.some.inj h⟩
  · rintro ⟨username, h, rfl⟩
    have hgo : ¬ (hasNul cfg.pamService = true ∨ hasNul username = true ∨
        a.start ≠ pamSuccess) := by
      rw [h.noNul.1, h.noNul.2, h.start]
      decide
    rw [attempt, h.banner, h.named, h.clones]
    dsimp only
    rw [if_neg (by decide), if_neg h.nonempty, if_neg (by decide), if_neg hgo]

/-- **A child is forked behind a successful transaction**: PAM has said yes to everything. -/
theorem startedSession_child {cfg : Config} {a : Attempt} {username : Text}
    {s : Session} {child : Text × ChildAnswers}
    (h : (startedSession cfg a username s).child = some child) :
    ∃ c, child = (a.user.getD username, c) ∧ startedSession cfg a username s =
      forkSession cfg a (a.user.getD username)
        ((((s.authenticate pamSuccess).acctMgmt pamSuccess).establishCred pamSuccess).openSession
          pamSuccess).authenticatedUser := by
  rw [startedSession] at h ⊢
  dsimp only at h ⊢
  split at h
  · cases h
  rename_i hauth
  rw [if_neg hauth]
  split at h
  · cases h
  rename_i hacct
  rw [if_neg hacct]
  split at h
  · cases h
  rename_i hestablish
  rw [if_neg hestablish]
  split at h
  · cases h
  rename_i hopen
  rw [if_neg hopen]
  rw [not_not] at hauth hacct hestablish hopen
  rw [openedSession] at h ⊢
  split at h
  · rename_i hopening
    rw [if_pos hopening, hauth, hacct, hestablish, hopen]
    rw [forkSession] at h
    split at h
    · cases h
    · rename_i c _
      refine ⟨c, ?_, rfl⟩
      dsimp only at h
      split at h <;> exact (Option.some.inj h).symm
  · cases h

/-- **When the PAM calls of a run are paired**: no attempt that comes to a session fails to open
it, and no child panics. -/
theorem run_balanced_iff (cfg : Config) (as : List Attempt) :
    (∀ calls ∈ run cfg as, Balanced calls) ↔
      ∀ a ∈ made cfg as, ∀ username, a.Starts cfg username → OpensOrStops cfg a username := by
  have hattempt : ∀ a, (∀ calls ∈ ((attempt cfg a).1.map Turn.calls).toList, Balanced calls) ↔
      ∀ username, a.Starts cfg username → OpensOrStops cfg a username := by
    intro a
    simp only [Option.mem_toList, Option.map_eq_some_iff, attempt_handle]
    constructor
    · intro h username hstarts
      exact (startedSession_balanced_iff cfg a username).mp
        (h _ ⟨_, ⟨username, hstarts, rfl⟩, rfl⟩)
    · rintro h _ ⟨_, ⟨username, hstarts, rfl⟩, rfl⟩
      exact (startedSession_balanced_iff cfg a username).mpr (h username hstarts)
  induction as with
  | nil => exact iff_of_true (fun _ h => by cases h) (fun _ h => by cases h)
  | cons a as ih =>
    rw [run, made, List.forall_mem_append, List.forall_mem_cons, hattempt]
    refine and_congr_right fun _ => ?_
    cases (attempt cfg a).2 with
    | true => exact ih
    | false => exact iff_of_true (fun _ h => by cases h) (fun _ h => by cases h)

/-- An attempt whose session cannot be opened. -/
def refusedOpening : Attempt where
  username := some "root".toList
  openSession := 14
  fork := none

/-- The session that was not opened is closed. -/
theorem refusedOpening_unbalanced : ¬ ∀ calls ∈ run {} [refusedOpening], Balanced calls := by
  intro h
  have hcalls : [.start, .authenticate 0, .acctMgmt 0, .establishCred 0, .openSession 14, .strerror,
      .closeSession, .deleteCred, .pamEnd] ∈ run {} [refusedOpening] := by decide
  have hclose := (h _ hcalls).close
  revert hclose
  decide

end WriteonceOs.Login
