import WriteonceOs.Logind.SessionSteps

/-!
# Who has a session

`CreateSession` makes a session at every call, also for a user and a process that have one.  While
callers ask for a session only where there is none, no two sessions have one leader.

* `next_lookup` — where the sessions of the table come from;
* `findFrom_unique` — the walk from a process to its session, in any order of iteration;
* `Made` — a call of `CreateSession` after its critical section;
* `one_session_per_leader` — runs in which every call is for a new leader.
-/

namespace WriteonceOs.Logind

open WriteonceOs.Library
open WriteonceOs.Svc (HashOrder)

/-! ### Where the sessions of the table come from -/

/-- The same session, but for its idle hint. -/
def SessionInfo.SameCore (s' s : SessionInfo) : Prop :=
  s' = { s with idleHint := s'.idleHint, idleSince := s'.idleSince }

namespace SessionInfo.SameCore

variable {s s' : SessionInfo}

theorem refl (s : SessionInfo) : s.SameCore s := rfl

theorem id_eq (h : s'.SameCore s) : s'.id = s.id := by rw [h]

theorem uid_eq (h : s'.SameCore s) : s'.uid = s.uid := by rw [h]

theorem seat_eq (h : s'.SameCore s) : s'.seat = s.seat := by rw [h]

theorem state_eq (h : s'.SameCore s) : s'.state = s.state := by rw [h]

theorem leaderPid_eq (h : s'.SameCore s) : s'.leaderPid = s.leaderPid := by rw [h]

end SessionInfo.SameCore

/-- The seat that `CreateSession` puts its session on. -/
def CreateArgs.seat (args : CreateArgs) : String :=
  if args.seatId = "" then "seat0" else args.seatId

namespace Shim

variable {d d' : Shim} {ev : BusEvent}

/-- A step that runs the critical section of `CreateSession`. -/
def Creates (d : Shim) (ev : BusEvent) (args : CreateArgs) : Prop :=
  ∃ key ans, ev = .serve key ans ∧ d.calls key = some ⟨.createSession args, .asked⟩

theorem Served.lookup {key : CallKey} {method : Method} {progress : Progress}
    (h : Served d key method progress d') {j : String} {s' : SessionInfo}
    (hj : d'.state.sessions.lookup j = some s') :
    (∃ s, d.state.sessions.lookup j = some s ∧ s'.SameCore s) ∨
      ∃ args ans, method = .createSession args ∧ progress = .asked ∧ j = d.state.freshId ∧
        s' = args.sessionInfo j ans := by
  cases h with
  | insert args ans =>
    by_cases hne : j = d.state.freshId
    · refine .inr ⟨args, ans, rfl, rfl, hne, ?_⟩
      rw [hne] at hj ⊢
      exact Option.some.inj (hj.symm.trans (AList.lookup_insert _))
    · exact .inl ⟨s', (AList.lookup_insert_ne hne).symm.trans hj, .refl s'⟩
  | remove hid =>
    rename_i id
    by_cases hne : j = id
    · rw [hne] at hj
      rw [AList.lookup_erase] at hj
      cases hj
    · exact .inl ⟨s', (AList.lookup_erase_ne hne).symm.trans hj, .refl s'⟩
  | hint hs idle since =>
    rename_i id s
    by_cases hne : j = id
    · rw [hne] at hj ⊢
      have heq := Option.some.inj ((AList.lookup_insert _).symm.trans hj)
      refine .inl ⟨s, hs, ?_⟩
      rw [← heq]
      rfl
    · exact .inl ⟨s', (AList.lookup_insert_ne hne).symm.trans hj, .refl s'⟩
  | _ => exact .inl ⟨s', hj, .refl s'⟩

/-- **A session of the table was there before, or has just been created.** -/
theorem next_lookup (h : d.next ev = some d') {j : String} {s' : SessionInfo}
    (hj : d'.state.sessions.lookup j = some s') :
    (∃ s, d.state.sessions.lookup j = some s ∧ s'.SameCore s) ∨
      ∃ args ans, d.Creates ev args ∧ j = d.state.freshId ∧ s' = args.sessionInfo j ans := by
  obtain ⟨method, -, -, rfl⟩ | ⟨ans, ⟨method, progress⟩, hev, hc, hserved⟩ := next_inv h
  · exact .inl ⟨s', hj, .refl s'⟩
  · rcases hserved.lookup hj with hold | ⟨args, ans', rfl, rfl, hfresh, hinfo⟩
    · exact .inl hold
    · exact .inr ⟨args, ans', ⟨ev.key, ans, hev, hc⟩, hfresh, hinfo⟩

/-- The step after the critical section. -/
theorem next_creates {key : CallKey} {ans : StepAnswer} {args : CreateArgs}
    (hc : d.calls key = some ⟨.createSession args, .asked⟩) :
    d.next (.serve key ans) = some (d.createInsert key args ans) := by
  rw [next, hc]
  rfl

/-- Every session is filed under its own identifier and is active. -/
def Tabled (d : Shim) : Prop :=
  ∀ j s, d.state.sessions.lookup j = some s → s.id = j ∧ s.state = "active"

theorem Tabled.next (hd : d.Tabled) (h : d.next ev = some d') : d'.Tabled := by
  intro j s' hj
  rcases next_lookup h hj with ⟨s, hs, hcore⟩ | ⟨args, ans, -, -, rfl⟩
  · rw [hcore.id_eq, hcore.state_eq]
    exact hd j s hs
  · exact ⟨rfl, rfl⟩

theorem tabled_new : Shim.new.Tabled := by
  intro j s hj
  rw [show Shim.new.state.sessions = ∅ from rfl, AList.lookup_empty] at hj
  cases hj

end Shim

/-! ### The session of a process -/

namespace SessionState

variable {st : SessionState} {ord : HashOrder SessionInfo}

theorem mem_values {s : SessionInfo} :
    s ∈ st.values ord ↔ ∃ j, st.sessions.lookup j = some s := by
  rw [values, (ord.perm _).mem_iff, List.mem_map]
  constructor
  · rintro ⟨⟨j, t⟩, hentry, rfl⟩
    exact ⟨j, AList.mem_lookup_iff.mpr hentry⟩
  · rintro ⟨j, hj⟩
    exact ⟨⟨j, s⟩, AList.mem_lookup_iff.mp hj, rfl⟩

/-- Whatever the order of iteration, the walk stops at the same process. -/
theorem findFrom_unique {ord ord' : HashOrder SessionInfo} {ppid : UInt32 → Option UInt32} {n : ℕ}
    {current : UInt32} {s s' : SessionInfo} (h : st.findFrom ord ppid n current = some s)
    (h' : st.findFrom ord' ppid n current = some s') :
    s.leaderPid = s'.leaderPid ∧ s ∈ st.values ord ∧ s' ∈ st.values ord' := by
  induction n generalizing current with
  | zero => cases h
  | succ n ih =>
    rw [findFrom] at h h'
    split at h
    case isTrue => cases h
    case isFalse hroot =>
      rw [if_neg hroot] at h'
      -- the two lists have the same members, so both have a leader `current` or none has
      have hmem : ∀ t, t ∈ st.values ord ↔ t ∈ st.values ord' := fun t => by
        rw [mem_values, mem_values]
      cases hf : (st.values ord).find? (·.leaderPid = current) with
      | some t =>
        rw [hf] at h
        cases h
        cases hf' : (st.values ord').find? (·.leaderPid = current) with
        | some t' =>
          rw [hf'] at h'
          cases h'
          have hs : s.leaderPid = current := by simpa using List.find?_some hf
          have hs' : s'.leaderPid = current := by simpa using List.find?_some hf'
          exact ⟨hs.trans hs'.symm, List.mem_of_find?_eq_some hf, List.mem_of_find?_eq_some hf'⟩
        | none =>
          have hnone := List.find?_eq_none.mp hf' s
            ((hmem s).mp (List.mem_of_find?_eq_some hf))
          exact absurd (List.find?_some hf) hnone
      | none =>
        rw [hf] at h
        have hf' : (st.values ord').find? (·.leaderPid = current) = none := by
          rw [List.find?_eq_none] at hf ⊢
          exact fun t ht => hf t ((hmem t).mpr ht)
        rw [hf'] at h'
        cases hp : ppid current with
        | none =>
          rw [hp] at h
          cases h
        | some parent =>
          rw [hp] at h h'
          exact ih h h'

/-- No two sessions have one user and one leader. -/
def OnePerLeader (st : SessionState) : Prop :=
  ∀ i j s t, st.sessions.lookup i = some s → st.sessions.lookup j = some t →
    s.uid = t.uid → s.leaderPid = t.leaderPid → i = j

/-- A process of one user has one candidate, whatever the order of iteration. -/
def OneCandidate (st : SessionState) : Prop :=
  ∀ (ord ord' : HashOrder SessionInfo) proc pid s s', st.findSessionByPid ord proc pid = some s →
    st.findSessionByPid ord' proc pid = some s' → s.uid = s'.uid → s = s'

theorem OnePerLeader.oneCandidate (h : st.OnePerLeader) : st.OneCandidate := by
  intro ord ord' proc pid s s' hs hs' huid
  obtain ⟨hpid, hmem, hmem'⟩ := findFrom_unique hs hs'
  obtain ⟨i, hi⟩ := mem_values.mp hmem
  obtain ⟨j, hj⟩ := mem_values.mp hmem'
  have hij : i = j := h i j s s' hi hj huid hpid
  rw [hij, hj] at hi
  exact (Option.some.inj hi).symm

end SessionState

namespace Shim

variable {d d' : Shim} {ev : BusEvent}

/-- The user and the process of a call have a session already. -/
def HasSession (d : Shim) (args : CreateArgs) (j : String) : Prop :=
  ∃ s, d.state.sessions.lookup j = some s ∧ s.uid = args.uid ∧ s.leaderPid = args.pid

/-- `CreateSession` runs only for users and processes without a session, and the identifier that it
takes is not in use. -/
def NewLeader (d : Shim) (ev : BusEvent) : Prop :=
  ∀ args, d.Creates ev args →
    (∀ j, ¬ d.HasSession args j) ∧ d.state.sessions.lookup d.state.freshId = none

theorem onePerLeader_next (hd : d.state.OnePerLeader) (hG : d.NewLeader ev)
    (h : d.next ev = some d') : d'.state.OnePerLeader := by
  intro i j s' t' hi hj huid hpid
  rcases next_lookup h hi with ⟨s, hs, hcore⟩ | ⟨args, ans, hcreates, hfresh, hinfo⟩
  · rcases next_lookup h hj with ⟨t, ht, hcore'⟩ | ⟨args, ans, hcreates, hfresh, hinfo⟩
    · rw [hcore.uid_eq, hcore'.uid_eq] at huid
      rw [hcore.leaderPid_eq, hcore'.leaderPid_eq] at hpid
      exact hd i j s t hs ht huid hpid
    · -- the session that was there is one of the user and process of the call
      refine absurd ⟨s, hs, ?_, ?_⟩ ((hG args hcreates).1 i)
      · rw [← hcore.uid_eq, huid, hinfo]
        rfl
      · rw [← hcore.leaderPid_eq, hpid, hinfo]
        rfl
  · rcases next_lookup h hj with ⟨t, ht, hcore'⟩ | ⟨args', ans', -, hfresh', -⟩
    · refine absurd ⟨t, ht, ?_, ?_⟩ ((hG args hcreates).1 j)
      · rw [← hcore'.uid_eq, ← huid, hinfo]
        rfl
      · rw [← hcore'.leaderPid_eq, ← hpid, hinfo]
        rfl
    · rw [hfresh, hfresh']

/-! ### The reply of `CreateSession` -/

/-- A call of `CreateSession` whose session got the identifier `id`. -/
def MadeOf (id : String) : Progress → Prop
  | .inserted info => info.id = id
  | .exported info => info.id = id
  | .piped info _ => info.id = id
  | .returned (.session r) => r.id = id ∧ r.path = sessionObjectPath id ∧ r.existing = false
  | .returned _ => True
  | _ => False

/-- The call of `key` made the session `id`. -/
def Made (d : Shim) (key : CallKey) (args : CreateArgs) (id : String) : Prop :=
  ∃ p, d.calls key = some ⟨.createSession args, p⟩ ∧ MadeOf id p

theorem madeOf_refuse {id : String} {r : Reply} (hr : r.Refuses) : MadeOf id (.returned r) := by
  cases r with
  | session r => cases hr
  | _ => trivial

theorem Served.madeOf {key : CallKey} {args : CreateArgs} {p : Progress} {id : String}
    (h : Served d key (.createSession args) p d') (hp : MadeOf id p) : d'.Made key args id := by
  have hat : ∀ {e : Shim} {q : Progress},
      e.calls = Function.update d.calls key (some ⟨.createSession args, q⟩) → MadeOf id q →
      e.Made key args id := fun hcalls hq => ⟨_, by rw [hcalls, Function.update_self], hq⟩
  cases h with
  | insert args ans => cases hp
  | register args info => exact hat rfl hp
  | pipe args info fd => exact hat rfl hp
  | announce args info fd =>
    refine hat rfl ⟨hp, ?_, rfl⟩
    rw [← hp]
    rfl
  | find hfind => cases hfind
  | signal hsignal => cases hsignal
  | refuse hr => exact hat rfl (madeOf_refuse hr)

theorem Made.next {key : CallKey} {args : CreateArgs} {id : String} (hd : d.Made key args id)
    (h : d.next ev = some d') : d'.Made key args id := by
  obtain ⟨p, hp, hmade⟩ := hd
  obtain ⟨method, -, hnone, rfl⟩ | ⟨ans, call, hev, hc, hserved⟩ := next_inv h
  · have hne : key ≠ ev.key := by
      rintro rfl
      rw [hp] at hnone
      cases hnone
    exact ⟨p, by rw [← hp]; exact Function.update_of_ne hne _ _, hmade⟩
  · by_cases hkey : key = ev.key
    · rw [← hkey] at hc hserved
      rw [hp] at hc
      cases hc
      exact hserved.madeOf hmade
    · exact ⟨p, by rw [hserved.calls_of_ne hkey, hp], hmade⟩

/-- What a call of `CreateSession` owes its caller, `t` and `t'` being the states around its
critical section and `d` a later one. -/
structure CreateAnswered (t t' d : Shim) (key : CallKey) (args : CreateArgs) : Prop where
  known : ∀ j, t.HasSession args j → t'.state.sessions = t.state.sessions ∧
    ∀ r, d.calls key = some ⟨.createSession args, .returned (.session r)⟩ →
      r.id = j ∧ r.path = sessionObjectPath j ∧ r.existing = true
  fresh : (∀ j, ¬ t.HasSession args j) →
    ∀ r, d.calls key = some ⟨.createSession args, .returned (.session r)⟩ →
      t.state.sessions.lookup r.id = none ∧ r.path = sessionObjectPath r.id ∧ r.existing = false

/-- **One session per leader**: while `CreateSession` runs only for users and processes without a
session, no two sessions have one user and one leader, and every call gets a new session. -/
theorem one_session_per_leader {events : List BusEvent}
    (hG : EachStep next NewLeader new events) :
    Throughout next (fun t => t.state.OnePerLeader ∧ t.state.OneCandidate) new events ∧
      ∀ pre key ans post t t' d args, events = pre ++ .serve key ans :: post →
        run pre = some t → t.calls key = some ⟨.createSession args, .asked⟩ →
        t.next (.serve key ans) = some t' → post.foldlM next t' = some d →
        CreateAnswered t t' d key args := by
  have hnew : Shim.new.state.OnePerLeader := by
    intro i j s t hi
    rw [show Shim.new.state.sessions = ∅ from rfl, AList.lookup_empty] at hi
    cases hi
  constructor
  · intro pre post t hevents ht
    have hone := hG.throughout (I := fun t => t.state.OnePerLeader)
      (fun d ev d' hd hg h => onePerLeader_next hd hg h) hnew pre post t hevents ht
    exact ⟨hone, hone.oneCandidate⟩
  · intro pre key ans post t t' d args hevents hpre hasked ht' hpost
    obtain ⟨hno, hfresh⟩ := hG pre _ post t hevents hpre args ⟨key, ans, rfl, hasked⟩
    rw [next_creates hasked] at ht'
    obtain rfl := Option.some.inj ht'
    have hmade : (t.createInsert key args ans).Made key args t.state.freshId :=
      ⟨_, Function.update_self _ _ _, rfl⟩
    have hd : d.Made key args t.state.freshId :=
      foldlM_inv (I := fun e => e.Made key args t.state.freshId)
        (fun e ev e' he h => he.next h) hmade hpost
    refine ⟨fun j hj => absurd hj (hno j), fun _ r hr => ?_⟩
    obtain ⟨p, hp, hmadeOf⟩ := hd
    rw [hr] at hp
    cases hp
    obtain ⟨hid, hpath, hexisting⟩ := hmadeOf
    rw [hid]
    exact ⟨hfresh, hpath, hexisting⟩

theorem newLeader_call (d : Shim) (key : CallKey) (method : Method) :
    d.NewLeader (.call key method) := by
  rintro args ⟨_, _, hev, -⟩
  cases hev

/-- One login, up to the reply of `CreateSession`. -/
def login (key : CallKey) (args : CreateArgs) : List BusEvent :=
  [.call key (.createSession args), .serve key {}, .serve key {}, .serve key {}, .serve key {}]

/-- A user on the first terminal. -/
def localUser (uid pid : UInt32) : CreateArgs where
  uid := uid
  pid := pid
  service := ""
  sessionType := ""
  sessionClass := ""
  seatId := ""
  vtnr := 1
  display := ""
  remote := false

/-- After its critical section, a call of `CreateSession` makes no further session. -/
theorem newLeader_of_made {key : CallKey} {args : CreateArgs} {id : String}
    (hd : d.Made key args id) {events : List BusEvent} (hevents : ∀ ev ∈ events, ev.key = key) :
    EachStep next NewLeader d events := by
  rintro pre ev post t rfl ht args' ⟨key', ans, rfl, hasked⟩
  have hkey : key' = key := hevents (.serve key' ans) (by simp)
  obtain ⟨p, hp, hmade⟩ : t.Made key args id :=
    foldlM_inv (I := fun e => e.Made key args id) (fun e ev e' he h => he.next h) hd ht
  rw [hkey, hp] at hasked
  cases hasked
  cases hmade

/-- A login of a user and a process without a session. -/
theorem newLeader_login {key : CallKey} {args : CreateArgs} (hcall : d.calls key = none)
    (hno : ∀ j, ¬ d.HasSession args j) (hfresh : d.state.sessions.lookup d.state.freshId = none) :
    EachStep next NewLeader d (login key args) := by
  refine .cons (newLeader_call _ _ _) fun t ht => ?_
  rw [next, hcall] at ht
  cases ht
  refine .cons ?_ fun t ht => ?_
  · rintro args' ⟨key', ans, hev, hasked⟩
    cases hev
    cases (Function.update_self _ _ _).symm.trans hasked
    exact ⟨hno, hfresh⟩
  · rw [next_creates (Function.update_self _ _ _)] at ht
    cases ht
    have hmade : ((d.move key (.createSession args) .asked).createInsert key args {}).Made key args
        d.state.freshId := ⟨_, Function.update_self _ _ _, rfl⟩
    exact newLeader_of_made hmade (by simp [BusEvent.key])

/-- Two users log in. -/
def twoLogins : List BusEvent :=
  login ⟨0, 1⟩ (localUser 1000 500) ++ login ⟨0, 2⟩ (localUser 1001 501)

theorem newLeader_twoLogins : EachStep next NewLeader new twoLogins := by
  refine .append (newLeader_login rfl ?_ (AList.lookup_empty _)) fun t ht => ?_
  · rintro j ⟨s, hs, -⟩
    rw [show Shim.new.state.sessions = ∅ from rfl, AList.lookup_empty] at hs
    cases hs
  · cases ht
    refine newLeader_login rfl ?_ rfl
    -- the only session is that of the first user
    rintro j ⟨s, hs, huid, -⟩
    by_cases hj : j = "c1"
    · rw [hj] at hs
      cases hs
      exact absurd huid (by decide)
    · have hnone : AList.lookup j new.state.sessions = some s :=
        (AList.lookup_insert_ne hj).symm.trans hs
      cases hnone

theorem one_session_per_leader_login :
    ∃ d, run twoLogins = some d ∧ d.state.OnePerLeader ∧
      (d.state.sessions.lookup "c1").map (·.leaderPid) = some 500 ∧
      (d.state.sessions.lookup "c2").map (·.leaderPid) = some 501 := by
  have h := (one_session_per_leader newLeader_twoLogins).1
  obtain ⟨d, hd⟩ : ∃ d, run twoLogins = some d := ⟨_, rfl⟩
  refine ⟨d, hd, (h _ [] d (List.append_nil _).symm hd).1, ?_⟩
  cases hd
  exact ⟨rfl, rfl⟩

/-- Two calls for one user and process: two sessions, and the second reply says `existing = false`
as the first does. -/
theorem login_twice :
    ∃ d r, run (login ⟨0, 1⟩ (localUser 1000 500) ++ login ⟨0, 2⟩ (localUser 1000 500)) = some d ∧
      d.calls ⟨0, 2⟩ = some ⟨.createSession (localUser 1000 500), .returned (.session r)⟩ ∧
      r.existing = false ∧ ¬ d.state.OnePerLeader ∧ ¬ d.state.OneCandidate := by
  refine ⟨_, _, rfl, rfl, rfl, fun h => ?_, fun h => ?_⟩
  · exact absurd (h "c1" "c2" _ _ rfl rfl rfl rfl) (by decide)
  · exact absurd (h .inserted ⟨List.reverse, List.reverse_perm⟩ (fun _ => none) 500 _ _ rfl rfl rfl)
      (by decide)

end Shim

end WriteonceOs.Logind
