import WriteonceOs.Library.Decimal
import WriteonceOs.Logind.SessionTable

/-!
# Object paths and the state lock

Sessions, seats and users are rendered into object paths, and a string that is not an object path
panics there.  A handler that panics while it holds the state lock poisons it: every later handler
that takes the lock panics too.  Session identifiers and user numbers are the daemon's own; the seat
of a session is the string that `CreateSession` was given.

* `isObjectPath_seat` — a seat renders into an object path when all its elements are ones;
* `safe_iff` — a run panics nowhere exactly when no `Seat` property of a session with another seat
  is read;
* `safe_of_seatIds` — in particular when `CreateSession` is given no such seat.
-/

namespace WriteonceOs.Logind

open WriteonceOs.Library
open WriteonceOs.Svc (HashOrder)

/-! ### Object paths -/

def isElementChar (c : Char) : Bool := c.isAlphanum || c == '_'

/-- An element of an object path. -/
def isElement (cs : List Char) : Bool := !cs.isEmpty && cs.all isElementChar

/-- Elements with slashes between them. -/
def isElements (s : String) : Bool := (s.toList.splitOn '/').all isElement

/-- What `ObjectPath::try_from` accepts. -/
def isObjectPath (path : String) : Bool :=
  match path.toList with
  | '/' :: rest => rest.isEmpty || (rest.splitOn '/').all isElement
  | _ => false

def seatObjectPath (seatId : String) : String := "/org/freedesktop/login1/seat/" ++ seatId

def userObjectPath (uid : UInt32) : String :=
  "/org/freedesktop/login1/user/_" ++ toString uid.toNat

theorem isObjectPath_append (dir : String) (front : List Char) (s : String)
    (hdir : dir.toList = '/' :: (front ++ ['/'])) (hfront : (front.splitOn '/').all isElement) :
    isObjectPath (dir ++ s) = isElements s := by
  have hlist : (dir ++ s).toList = '/' :: (front ++ '/' :: s.toList) := by
    rw [String.toList_append, hdir]
    simp
  unfold isObjectPath isElements
  rw [hlist]
  simp only [List.splitOn_append_cons_self, List.all_append, hfront, Bool.true_and]
  simp

/-- **A seat renders into an object path** exactly when it consists of elements. -/
theorem isObjectPath_seat (seatId : String) :
    isObjectPath (seatObjectPath seatId) = isElements seatId :=
  isObjectPath_append "/org/freedesktop/login1/seat/" "org/freedesktop/login1/seat".toList seatId
    (by decide) (by decide)

theorem isObjectPath_session (sessionId : String) :
    isObjectPath (sessionObjectPath sessionId) = isElements sessionId :=
  isObjectPath_append "/org/freedesktop/login1/session/" "org/freedesktop/login1/session".toList
    sessionId (by decide) (by decide)

theorem isElements_of_chars {s : String} (hne : s.toList ≠ [])
    (hchars : ∀ c ∈ s.toList, isElementChar c = true) : isElements s = true := by
  have hslash : '/' ∉ s.toList := by
    intro h
    exact absurd (hchars '/' h) (by decide)
  rw [isElements, List.splitOn_eq_singleton hslash]
  simp [isElement, hne]
  exact hchars

theorem isElementChar_of_digit {c : Char} (h : c.isDigit = true) : isElementChar c = true := by
  simp [isElementChar, Char.isAlphanum, h]

/-- A letter or underscore before a numeral makes an element. -/
theorem isElements_numbered {front : String} (hne : front.toList ≠ [])
    (hfront : front.toList.all isElementChar = true) (n : ℕ) :
    isElements (front ++ toString n) = true := by
  apply isElements_of_chars
  · simp [String.toList_append, hne]
  · intro c hc
    rw [String.toList_append, toList_toString, List.mem_append] at hc
    rcases hc with hc | hc
    · exact List.all_eq_true.mp hfront c hc
    · exact isElementChar_of_digit (decimal_digits hc)

theorem isObjectPath_user (uid : UInt32) : isObjectPath (userObjectPath uid) = true := by
  have hpath : userObjectPath uid =
      "/org/freedesktop/login1/user/" ++ ("_" ++ toString uid.toNat) := by
    have hfront : "/org/freedesktop/login1/user/_" = "/org/freedesktop/login1/user/" ++ "_" := by
      decide
    unfold userObjectPath
    exact (congrArg (· ++ toString uid.toNat) hfront).trans String.append_assoc
  rw [hpath, isObjectPath_append "/org/freedesktop/login1/user/"
    "org/freedesktop/login1/user".toList _ (by decide) (by decide)]
  exact isElements_numbered (by decide) (by decide) uid.toNat

theorem isElements_freshId (st : SessionState) : isElements st.freshId = true :=
  isElements_numbered (by decide) (by decide) _

/-! ### Properties and lookups -/

namespace SessionState

variable (st : SessionState) (ord : HashOrder SessionInfo) (proc : UInt32 → Option (List Char))

def getSession (sessionId : String) : Except FdoError String :=
  if st.sessions.lookup sessionId = none then .error (.failed ("no such session: " ++ sessionId))
  else .ok (sessionObjectPath sessionId)

def getSessionByPid (pid : UInt32) : Except FdoError String :=
  match st.findSessionByPid ord proc pid with
  | some s => .ok (sessionObjectPath s.id)
  | none => .error (.failed ("pid " ++ toString pid.toNat ++ " not in any session"))

/-- The session of the sender, whose PID the bus daemon tells. -/
def getCurrentSession : Except String UInt32 → Except FdoError String
  | .error e => .error (.failed ("sender resolution: " ++ e))
  | .ok pid =>
    match st.findSessionByPid ord proc pid with
    | some s => .ok (sessionObjectPath s.id)
    | none => .error (.failed ("pid " ++ toString pid.toNat ++ " not associated with any session"))

def listSessionsTuples : List (String × UInt32 × String × String × String) :=
  (st.values ord).map fun s => (s.id, s.uid, s.userName, s.seat, sessionObjectPath s.id)

def listSeats : List (String × String) := [("seat0", seatObjectPath "seat0")]

/-- Each user once, at its first session. -/
def listUsers : List (UInt32 × String × String) :=
  (((st.values ord).foldl (fun (seen, out) s =>
    if s.uid ∈ seen then (seen, out)
    else (s.uid :: seen, out ++ [(s.uid, s.userName, userObjectPath s.uid)]))
    (([] : List UInt32), ([] : List (UInt32 × String × String))))).2

/-- `Session.User`. -/
def sessionUser (sessionId : String) : UInt32 × String :=
  let uid := ((st.sessions.lookup sessionId).map SessionInfo.uid).getD 0
  (uid, userObjectPath uid)

/-- `Session.Seat`. -/
def sessionSeat (sessionId : String) : String × String :=
  let seat := ((st.sessions.lookup sessionId).map SessionInfo.seat).getD "seat0"
  (seat, seatObjectPath seat)

/-- The session behind `Seat.ActiveSession`. -/
def activeOn (seatId : String) : Option SessionInfo :=
  (st.values ord).find? fun s => s.seat = seatId ∧ s.state = "active"

/-- `Seat.Sessions`. -/
def seatSessions (seatId : String) : List (String × String) :=
  ((st.values ord).filter fun s => s.seat = seatId).map fun s => (s.id, sessionObjectPath s.id)

end SessionState

/-- A call that is answered at once. -/
inductive Read
  | getSession (sessionId : String)
  | getSessionByPid (pid : UInt32)
  | getCurrentSession (sender : Except String UInt32)
  | listSessions
  | listSeats
  | listUsers
  | user (sessionId : String)
  | seat (sessionId : String)
  | activeSession
  | seatSessions
  -- a method or property of any interface that renders no path
  | other (locks : Bool)

/-- The strings that a call renders, one after the other; `ActiveSession` is a constant path where
there is none. -/
def Read.paths (st : SessionState) (ord : HashOrder SessionInfo)
    (proc : UInt32 → Option (List Char)) : Read → List String
  | .getSession sessionId => (st.getSession sessionId).toOption.toList
  | .getSessionByPid pid => (st.getSessionByPid ord proc pid).toOption.toList
  | .getCurrentSession sender => (st.getCurrentSession ord proc sender).toOption.toList
  | .listSessions => (st.listSessionsTuples ord).map (·.2.2.2.2)
  | .listSeats => SessionState.listSeats.map (·.2)
  | .listUsers => (st.listUsers ord).map (·.2.2)
  | .user sessionId => [(st.sessionUser sessionId).2]
  | .seat sessionId => [(st.sessionSeat sessionId).2]
  | .activeSession => ((st.activeOn ord "seat0").map fun s => sessionObjectPath s.id).toList
  | .seatSessions => (st.seatSessions ord "seat0").map (·.2)
  | .other _ => []

/-- Whether a call takes the state lock; it then holds it while it renders. -/
def Read.locks : Read → Bool
  | .listSeats => false
  | .getCurrentSession sender => sender.isOk
  | .other locks => locks
  | _ => true

/-- The session whose object a property is read on. -/
def Read.object : Read → Option String
  | .user sessionId => some sessionId
  | .seat sessionId => some sessionId
  | _ => none

namespace Shim

/-- Whether a step of a handler takes the state lock. -/
def stepLocks (d : Shim) : BusEvent → Bool
  | .call .. => false
  | .serve key _ =>
    match d.calls key with
    | none => false
    | some ⟨.createSession _, .asked⟩ => true
    | some ⟨.releaseSession _, .asked⟩ => true
    | some ⟨.lockSession _, .asked⟩ => true
    | some ⟨.unlockSession _, .asked⟩ => true
    | some ⟨.activate _, .dispatched⟩ => true
    | some ⟨.setIdleHint .., .dispatched⟩ => true
    | some _ => false

end Shim

/-- The string that a handler renders at a point of a call, after its critical section. -/
def SessionCall.paths : SessionCall → List String
  | ⟨.createSession _, .inserted info⟩ => [sessionObjectPath info.id]
  | ⟨.releaseSession sessionId, .removed⟩ => [sessionObjectPath sessionId]
  | ⟨.lockSession sessionId, .dispatched⟩ => [sessionObjectPath sessionId]
  | ⟨.unlockSession sessionId, .dispatched⟩ => [sessionObjectPath sessionId]
  | _ => []

def Shim.stepPaths (d : Shim) : BusEvent → List String
  | .call .. => []
  | .serve key _ => ((d.calls key).map SessionCall.paths).getD []

/-! ### Panics -/

/-- What may happen next: a step of a handler, or a call that is answered at once. -/
inductive Request
  | step (ev : BusEvent)
  | read (ord : HashOrder SessionInfo) (proc : UInt32 → Option (List Char)) (call : Read)

/-- The daemon with what it has rendered so far, and what has become of its lock. -/
structure Bus where
  shim : Shim := .new
  rendered : List String := []
  -- some handler has panicked
  panicked : Bool := false
  poisoned : Bool := false

namespace Bus

/-- A handler renders one string after the other, up to the first that is no object path. -/
def render (b : Bus) (locked : Bool) (paths : List String) : Bus :=
  if paths.all isObjectPath then { b with rendered := b.rendered ++ paths }
  else
    { b with
      rendered := b.rendered ++ paths.takeWhile isObjectPath ++
        (paths.dropWhile isObjectPath).take 1
      panicked := true
      poisoned := b.poisoned || locked }

/-- A handler that takes a poisoned lock goes no further. -/
def refuse (b : Bus) : Bus := { b with panicked := true }

def next (b : Bus) : Request → Option Bus
  | .step ev =>
    match b.shim.next ev with
    | none => none
    | some shim =>
      let paths := b.shim.stepPaths ev
      if b.shim.stepLocks ev && b.poisoned then some b.refuse
      else if paths.all isObjectPath then some { b.render false paths with shim := shim }
      else some (b.render false paths)
  | .read ord proc call =>
    -- the object server answers for an object that is not there
    if call.object.any (fun sessionId => sessionId ∉ b.shim.objects) then some b
    else if call.locks && b.poisoned then some b.refuse
    else some (b.render call.locks (call.paths b.shim.state ord proc))

/-- The daemon at startup. -/
def new : Bus := {}

/-- Only object paths were rendered, nothing has panicked and the lock is good. -/
structure Safe (b : Bus) : Prop where
  valid : ∀ path ∈ b.rendered, isObjectPath path = true
  panicked : b.panicked = false
  poisoned : b.poisoned = false

/-- When the `Seat` property of a session is read, the session's seat consists of elements. -/
def SeatReadable (b : Bus) (r : Request) : Prop :=
  ∀ ord proc sessionId s, r = .read ord proc (.seat sessionId) → sessionId ∈ b.shim.objects →
    b.shim.state.sessions.lookup sessionId = some s → isElements s.seat = true

end Bus

/-! ### Identifiers are elements -/

/-- The keys and the identifiers of the table are elements. -/
def SessionState.Named (st : SessionState) : Prop :=
  ∀ j s, st.sessions.lookup j = some s → isElements j = true ∧ isElements s.id = true

/-- Everything that the calls in progress are about to render is an object path. -/
structure Shim.PathsValid (d : Shim) : Prop where
  table : d.state.Named
  calls : ∀ key call, d.calls key = some call → call.paths.all isObjectPath = true

theorem paths_asked (method : Method) : (⟨method, .asked⟩ : SessionCall).paths = [] := by
  cases method <;> rfl

theorem paths_returned (method : Method) (r : Reply) :
    (⟨method, .returned r⟩ : SessionCall).paths = [] := by
  cases method <;> rfl

namespace Shim

variable {d d' : Shim} {ev : BusEvent}

/-- A call renders identifiers that the daemon has made or found in its table. -/
theorem Served.paths {key : CallKey} {method : Method} {progress : Progress}
    (h : Served d key method progress d') (htable : d.state.Named) :
    ∃ p, d'.calls key = some ⟨method, p⟩ ∧
      (⟨method, p⟩ : SessionCall).paths.all isObjectPath = true := by
  have hfound {id : String} (hid : d.state.sessions.lookup id ≠ none) :
      isObjectPath (sessionObjectPath id) = true := by
    obtain ⟨s, hs⟩ := Option.ne_none_iff_exists'.mp hid
    rw [isObjectPath_session]
    exact (htable id s hs).1
  have hreturned (m : Method) (r : Reply) :
      ∃ p, Function.update d.calls key (some ⟨m, .returned r⟩) key = some ⟨m, p⟩ ∧
        (⟨m, p⟩ : SessionCall).paths.all isObjectPath = true :=
    ⟨.returned r, Function.update_self .., by rw [paths_returned]; rfl⟩
  cases h with
  | insert args ans =>
    refine ⟨.inserted (args.sessionInfo d.state.freshId ans), Function.update_self .., ?_⟩
    simp only [SessionCall.paths, List.all_cons, List.all_nil, Bool.and_true]
    rw [isObjectPath_session]
    exact isElements_freshId d.state
  | remove hid =>
    exact ⟨.removed, Function.update_self .., by simp [SessionCall.paths, hfound hid]⟩
  | find hfind =>
    refine ⟨.dispatched, Function.update_self .., ?_⟩
    cases method with
    | lockSession id => simp [SessionCall.paths, hfound hfind]
    | unlockSession id => simp [SessionCall.paths, hfound hfind]
    | _ => rfl
  | register args info => exact ⟨.exported info, Function.update_self .., rfl⟩
  | pipe args info fd => exact ⟨.piped info fd, Function.update_self .., rfl⟩
  | withdraw id => exact ⟨.withdrawn, Function.update_self .., rfl⟩
  | keep id => exact ⟨.withdrawn, Function.update_self .., rfl⟩
  | terminal hs hvtnr => exact ⟨.switching _, Function.update_self .., rfl⟩
  | announce args info fd => exact hreturned _ _
  | announceRemoved id => exact hreturned _ _
  | signal hsignal => exact hreturned _ _
  | switch id vtnr => exact hreturned _ _
  | hint hs idle since => exact hreturned _ _
  | refuse hr => exact hreturned _ _

theorem Named.next (hd : d.state.Named) (h : d.next ev = some d') : d'.state.Named := by
  intro j s' hj
  rcases next_lookup h hj with ⟨s, hs, hcore⟩ | ⟨args, ans, -, rfl, rfl⟩
  · rw [hcore.id_eq]
    exact hd j s hs
  · exact ⟨isElements_freshId d.state, isElements_freshId d.state⟩

theorem PathsValid.next (hd : d.PathsValid) (h : d.next ev = some d') : d'.PathsValid where
  table := Named.next hd.table h
  calls := by
    intro key call hcall
    obtain ⟨method, -, -, rfl⟩ | ⟨ans, old, -, -, hserved⟩ := next_inv h
    · have hcalls : (d.move ev.key method .asked).calls =
          Function.update d.calls ev.key (some ⟨method, .asked⟩) := rfl
      rw [hcalls] at hcall
      rcases calls_update_cases hcall with ⟨-, rfl⟩ | hold
      · rw [paths_asked]
        rfl
      · exact hd.calls key call hold
    · by_cases hkey : key = ev.key
      · obtain ⟨p, hp, hvalid⟩ := hserved.paths hd.table
        rw [hkey, hp, Option.some.injEq] at hcall
        rw [← hcall]
        exact hvalid
      · rw [hserved.calls_of_ne hkey] at hcall
        exact hd.calls key call hcall

theorem pathsValid_new : Shim.new.PathsValid where
  table := by
    intro j s hj
    rw [show Shim.new.state.sessions = ∅ from rfl, AList.lookup_empty] at hj
    cases hj
  calls := by
    intro key call hcall
    cases hcall

theorem PathsValid.stepPaths (hd : d.PathsValid) (ev : BusEvent) :
    (d.stepPaths ev).all isObjectPath = true := by
  cases ev with
  | call key method => rfl
  | serve key ans =>
    cases hcall : d.calls key with
    | none => simp [Shim.stepPaths, hcall]
    | some call =>
      rw [Shim.stepPaths, hcall]
      exact hd.calls key call hcall

end Shim

namespace SessionState.Named

variable {st : SessionState} {ord : HashOrder SessionInfo} {proc : UInt32 → Option (List Char)}

theorem session (h : st.Named) {s : SessionInfo} (hs : s ∈ st.values ord) :
    isObjectPath (sessionObjectPath s.id) = true := by
  obtain ⟨j, hj⟩ := mem_values.mp hs
  rw [isObjectPath_session]
  exact (h j s hj).2

theorem found (h : st.Named) {pid : UInt32} {s : SessionInfo}
    (hs : st.findSessionByPid ord proc pid = some s) :
    isObjectPath (sessionObjectPath s.id) = true :=
  h.session (findFrom_unique hs hs).2.1

end SessionState.Named

/-- Users are rendered from their numbers. -/
theorem listUsers_paths (st : SessionState) (ord : HashOrder SessionInfo) :
    ∀ user ∈ st.listUsers ord, isObjectPath user.2.2 = true := by
  unfold SessionState.listUsers
  refine List.foldlRecOn (motive := fun acc : List UInt32 × List (UInt32 × String × String) =>
    ∀ user ∈ acc.2, isObjectPath user.2.2 = true) (st.values ord) _ (List.forall_mem_nil _) ?_
  intro acc hacc s _
  dsimp only
  split
  · exact hacc
  · intro user huser
    rcases List.mem_append.mp huser with huser | huser
    · exact hacc user huser
    · rw [List.mem_singleton.mp huser]
      exact isObjectPath_user s.uid

/-- A call that is answered at once renders object paths, a seat apart. -/
theorem Read.paths_valid {st : SessionState} (h : st.Named) (ord : HashOrder SessionInfo)
    (proc : UInt32 → Option (List Char)) (call : Read)
    (hseat : ∀ sessionId s, call = .seat sessionId →
      st.sessions.lookup sessionId = some s → isElements s.seat = true) :
    (call.paths st ord proc).all isObjectPath = true := by
  rw [List.all_eq_true]
  intro path hpath
  cases call with
  | getSession sessionId =>
    by_cases hid : st.sessions.lookup sessionId = none
    · simp [Read.paths, SessionState.getSession, hid, Except.toOption] at hpath
    · obtain ⟨s, hs⟩ := Option.ne_none_iff_exists'.mp hid
      simp [Read.paths, SessionState.getSession, hs, Except.toOption] at hpath
      rw [hpath, isObjectPath_session]
      exact (h sessionId s hs).1
  | getSessionByPid pid =>
    cases hs : st.findSessionByPid ord proc pid with
    | none => simp [Read.paths, SessionState.getSessionByPid, hs, Except.toOption] at hpath
    | some s =>
      simp [Read.paths, SessionState.getSessionByPid, hs, Except.toOption] at hpath
      exact hpath ▸ h.found hs
  | getCurrentSession sender =>
    cases sender with
    | error e => simp [Read.paths, SessionState.getCurrentSession, Except.toOption] at hpath
    | ok pid =>
      cases hs : st.findSessionByPid ord proc pid with
      | none => simp [Read.paths, SessionState.getCurrentSession, hs, Except.toOption] at hpath
      | some s =>
        simp [Read.paths, SessionState.getCurrentSession, hs, Except.toOption] at hpath
        exact hpath ▸ h.found hs
  | listSessions =>
    simp only [Read.paths, SessionState.listSessionsTuples, List.map_map, List.mem_map] at hpath
    obtain ⟨s, hs, rfl⟩ := hpath
    exact h.session hs
  | listSeats =>
    simp only [Read.paths, SessionState.listSeats, List.map_cons, List.map_nil,
      List.mem_singleton] at hpath
    rw [hpath, isObjectPath_seat]
    decide
  | listUsers =>
    obtain ⟨user, huser, rfl⟩ := List.mem_map.mp hpath
    exact listUsers_paths st ord user huser
  | user sessionId =>
    rw [List.mem_singleton.mp hpath]
    exact isObjectPath_user _
  | seat sessionId =>
    rw [List.mem_singleton.mp hpath, SessionState.sessionSeat, isObjectPath_seat]
    cases hs : st.sessions.lookup sessionId with
    | none => decide
    | some s => exact hseat sessionId s rfl hs
  | activeSession =>
    cases hs : st.activeOn ord "seat0" with
    | none => simp [Read.paths, hs] at hpath
    | some s =>
      simp [Read.paths, hs] at hpath
      exact hpath ▸ h.session (List.mem_of_find?_eq_some hs)
  | seatSessions =>
    simp only [Read.paths, SessionState.seatSessions, List.map_map, List.mem_map] at hpath
    obtain ⟨s, hs, rfl⟩ := hpath
    exact h.session (List.mem_of_mem_filter hs)
  | other locks => cases hpath

/-! ### Runs -/

namespace Bus

variable {b b' : Bus} {r : Request}

theorem render_of_valid {locked : Bool} {paths : List String}
    (h : paths.all isObjectPath = true) :
    b.render locked paths = { b with rendered := b.rendered ++ paths } := by
  rw [render, if_pos h]

theorem render_panics {locked : Bool} {paths : List String}
    (h : ¬ paths.all isObjectPath = true) : (b.render locked paths).panicked = true := by
  rw [render, if_neg h]

theorem render_panicked {locked : Bool} {paths : List String} (hp : b.panicked = true) :
    (b.render locked paths).panicked = true := by
  by_cases h : paths.all isObjectPath = true
  · rw [render_of_valid h]
    exact hp
  · exact render_panics h

/-- A panic is not undone. -/
theorem next_panicked (hp : b.panicked = true) (h : b.next r = some b') : b'.panicked = true := by
  cases r with
  | step ev =>
    rw [next] at h
    cases hstep : b.shim.next ev with
    | none => simp [hstep] at h
    | some d' =>
      rw [hstep] at h
      dsimp only at h
      split at h
      · cases h
        rfl
      · split at h
        · cases h
          exact render_panicked hp
        · cases h
          exact render_panicked hp
  | read ord proc call =>
    rw [next] at h
    split at h
    · cases h
      exact hp
    · split at h
      · cases h
        rfl
      · cases h
        exact render_panicked hp

/-- What is read where it is readable, and every step of a handler, is safe. -/
theorem Safe.next (hb : b.Safe) (hd : b.shim.PathsValid) (hseat : b.SeatReadable r)
    (h : b.next r = some b') : b'.Safe ∧ b'.shim.PathsValid := by
  have hrender {c : Bus} {paths : List String} (hpaths : paths.all isObjectPath = true)
      (hrendered : c.rendered = b.rendered ++ paths) (hpanicked : c.panicked = false)
      (hpoisoned : c.poisoned = false) : c.Safe := by
    refine ⟨fun path hpath => ?_, hpanicked, hpoisoned⟩
    rw [hrendered] at hpath
    rcases List.mem_append.mp hpath with hold | hnew
    · exact hb.valid path hold
    · exact List.all_eq_true.mp hpaths path hnew
  cases r with
  | step ev =>
    have hpaths := hd.stepPaths ev
    rw [Bus.next] at h
    cases hstep : b.shim.next ev with
    | none => simp [hstep] at h
    | some d' =>
      rw [hstep] at h
      simp only [hb.poisoned, Bool.and_false, Bool.false_eq_true, if_false, if_pos hpaths,
        render_of_valid hpaths, Option.some.injEq] at h
      rw [← h]
      exact ⟨hrender hpaths rfl hb.panicked rfl, hd.next hstep⟩
  | read ord proc call =>
    rw [Bus.next] at h
    split at h
    case isTrue =>
      cases h
      exact ⟨hb, hd⟩
    case isFalse hobject =>
      have hpaths : (call.paths b.shim.state ord proc).all isObjectPath = true := by
        refine Read.paths_valid hd.table ord proc call (fun sessionId s hcall hs => ?_)
        refine hseat ord proc sessionId s (by rw [hcall]) ?_ hs
        simpa [hcall, Read.object] using hobject
      simp only [hb.poisoned, Bool.and_false, Bool.false_eq_true, if_false, render_of_valid hpaths,
        Option.some.injEq] at h
      rw [← h]
      exact ⟨hrender hpaths rfl hb.panicked rfl, hd⟩

/-- Reading another seat is a panic. -/
theorem next_panics (hseat : ¬ b.SeatReadable r) (h : b.next r = some b') :
    b'.panicked = true := by
  simp only [SeatReadable, not_forall] at hseat
  obtain ⟨ord, proc, sessionId, s, rfl, hobject, hs, hseat⟩ := hseat
  have hpaths : ¬ ((Read.seat sessionId).paths b.shim.state ord proc).all isObjectPath = true := by
    simp only [Read.paths, SessionState.sessionSeat, hs, Option.map_some, Option.getD_some,
      List.all_cons, List.all_nil, Bool.and_true, isObjectPath_seat]
    exact hseat
  rw [next] at h
  split at h
  case isTrue hmissing =>
    simp [Read.object, hobject] at hmissing
  case isFalse =>
    split at h
    · cases h
      rfl
    · cases h
      exact render_panics hpaths

theorem safe_new : new.Safe := ⟨List.forall_mem_nil _, rfl, rfl⟩

/-- **No call history panics or poisons the lock** exactly when the `Seat` property is only read of
sessions whose seat consists of non-empty elements of letters, digits and underscores. -/
theorem safe_iff {requests : List Request} (hrun : requests.foldlM next new = some b) :
    b.Safe ↔ EachStep next SeatReadable new requests := by
  constructor
  · intro hsafe pre r post t hrequests ht
    by_contra hseat
    rw [hrequests] at hrun
    obtain ⟨t', ht', hrest⟩ := foldlM_append_some.mp hrun
    rw [ht, Option.some.injEq] at ht'
    obtain ⟨u, hu, hpost⟩ := foldlM_cons_some.mp hrest
    have hpanic := foldlM_inv (fun _ _ _ hp h => next_panicked hp h)
      (next_panics (ht' ▸ hseat) hu) hpost
    rw [hsafe.panicked] at hpanic
    cases hpanic
  · intro hseats
    have hinv := hseats.inv (fun t r t' (hI : t.Safe ∧ t.shim.PathsValid) hG h =>
      hI.1.next hI.2 hG h) ⟨safe_new, Shim.pathsValid_new⟩ hrun
    exact hinv.1

/-! ### Seats from the callers -/

/-- The seat of a call of `CreateSession` is left empty or consists of elements. -/
def SeatIdValid (args : CreateArgs) : Prop := args.seatId = "" ∨ isElements args.seatId = true

theorem next_shim (h : b.next r = some b') :
    b'.shim = b.shim ∨ ∃ ev, r = .step ev ∧ b.shim.next ev = some b'.shim := by
  have hrender (locked : Bool) (paths : List String) :
      (b.render locked paths).shim = b.shim := by
    unfold render
    split <;> rfl
  cases r with
  | step ev =>
    rw [next] at h
    cases hstep : b.shim.next ev with
    | none => simp [hstep] at h
    | some d' =>
      rw [hstep] at h
      dsimp only at h
      split at h
      · cases h
        exact Or.inl rfl
      · split at h
        · cases h
          exact Or.inr ⟨ev, rfl, hstep⟩
        · cases h
          exact Or.inl (hrender _ _)
  | read ord proc call =>
    rw [next] at h
    split at h
    · cases h
      exact Or.inl rfl
    · split at h
      · cases h
        exact Or.inl rfl
      · cases h
        exact Or.inl (hrender _ _)

end Bus

/-- Every seat in the table, and every one that a call is about to enter, consists of elements. -/
structure Shim.SeatsValid (d : Shim) : Prop where
  table : ∀ j s, d.state.sessions.lookup j = some s → isElements s.seat = true
  calls : ∀ key args p, d.calls key = some ⟨.createSession args, p⟩ → Bus.SeatIdValid args

theorem Shim.SeatsValid.next {d d' : Shim} {ev : BusEvent} (hd : d.SeatsValid)
    (hnew : ∀ key args, ev = .call key (.createSession args) → Bus.SeatIdValid args)
    (h : d.next ev = some d') : d'.SeatsValid where
  table := by
    intro j s' hj
    rcases next_lookup h hj with ⟨s, hs, hcore⟩ | ⟨args, ans, ⟨key, ans', -, hcall⟩, -, rfl⟩
    · rw [hcore.seat_eq]
      exact hd.table j s hs
    · show isElements (if args.seatId = "" then "seat0" else args.seatId) = true
      split
      · decide
      · rename_i hne
        exact (hd.calls key args _ hcall).resolve_left hne
  calls := by
    intro key args p hcall
    obtain ⟨method, hev, -, rfl⟩ | ⟨ans, old, -, hold, hserved⟩ := next_inv h
    · have hcalls : (d.move ev.key method .asked).calls =
          Function.update d.calls ev.key (some ⟨method, .asked⟩) := rfl
      rw [hcalls] at hcall
      rcases calls_update_cases hcall with ⟨-, heq⟩ | hprev
      · cases heq
        exact hnew ev.key args hev
      · exact hd.calls key args p hprev
    · by_cases hkey : key = ev.key
      · obtain ⟨q, hq⟩ := hserved.calls
        rw [hkey, hq, Function.update_self, Option.some.injEq, SessionCall.mk.injEq] at hcall
        exact hd.calls ev.key args old.progress (hcall.1 ▸ hold)
      · rw [hserved.calls_of_ne hkey] at hcall
        exact hd.calls key args p hcall

theorem Shim.seatsValid_new : Shim.new.SeatsValid where
  table := by
    intro j s hj
    rw [show Shim.new.state.sessions = ∅ from rfl, AList.lookup_empty] at hj
    cases hj
  calls := by
    intro key args p hcall
    cases hcall

namespace Bus

variable {b : Bus}

/-- **Valid seats are enough**: while `CreateSession` is given a seat made of elements or none,
nothing panics. -/
theorem safe_of_seatIds {requests : List Request} (hrun : requests.foldlM next new = some b)
    (hseats : ∀ key args, .step (.call key (.createSession args)) ∈ requests →
      SeatIdValid args) : b.Safe := by
  have hstep (t : Bus) (r : Request) (t' : Bus) (ht : t.shim.SeatsValid)
      (hr : ∀ key args, r = .step (.call key (.createSession args)) → SeatIdValid args)
      (h : t.next r = some t') : t'.shim.SeatsValid := by
    rcases next_shim h with heq | ⟨ev, rfl, hev⟩
    · exact heq ▸ ht
    · exact ht.next (fun key args hcall => hr key args (congrArg Request.step hcall)) hev
  refine (safe_iff hrun).mpr ?_
  intro pre r post t hrequests ht ord proc sessionId s _ _ hs
  have hvalid : t.shim.SeatsValid := by
    refine foldlM_inv_of hstep Shim.seatsValid_new (fun r' hr' key args heq => ?_) ht
    exact hseats key args (by rw [hrequests, ← heq]; exact List.mem_append_left _ hr')
  exact hvalid.table sessionId s hs

/-! ### A login whose seat is read -/

/-- A login on a seat, after which the seat of its session is read. -/
def loginAndRead (seatId : String) : List Request :=
  (Shim.login ⟨0, 1⟩ { Shim.localUser 1000 412 with seatId := seatId }).map .step ++
    [.read .inserted (fun _ => none) (.seat "c1")]

/-- The default seat is read without a panic. -/
theorem safe_iff_login : EachStep next SeatReadable new (loginAndRead "") := by
  obtain ⟨b, hb⟩ := Option.isSome_iff_exists.mp
    (by decide +kernel : ((loginAndRead "").foldlM next new).isSome = true)
  refine (safe_iff hb).mp (safe_of_seatIds hb (fun key args hcall => ?_))
  simp only [loginAndRead, Shim.login, Shim.localUser, List.map_cons, List.map_nil,
    List.cons_append, List.nil_append, List.mem_cons, Request.step.injEq, BusEvent.call.injEq,
    Method.createSession.injEq, reduceCtorEq, List.not_mem_nil, or_false] at hcall
  exact Or.inl (by rw [hcall.2])

/-- A hyphen in the seat poisons the lock. -/
theorem seat_poisons_lock :
    ¬ ∀ (requests : List Request) (b : Bus), requests.foldlM next new = some b → b.Safe := by
  intro hall
  have hrun : ((loginAndRead "seat-1").foldlM next new).map (fun b => (b.panicked, b.poisoned)) =
      some (true, true) := by decide +kernel
  obtain ⟨b, hb, hflags⟩ := Option.map_eq_some_iff.mp hrun
  have hsafe := (hall _ b hb).poisoned
  rw [(Prod.mk.inj hflags).2] at hsafe
  cases hsafe

end Bus

end WriteonceOs.Logind
