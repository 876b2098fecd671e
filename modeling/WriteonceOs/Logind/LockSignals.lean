import Mathlib.Algebra.Group.Nat.Defs
import WriteonceOs.Library.Decimal
import WriteonceOs.Logind.SessionSteps

/-!
# Who may lock and unlock a session

The bus policy lets every user call the lock and unlock methods and leaves it to the daemon to say
who may lock which session.  The daemon does not look at its caller: a call by another user than
root and the owner signals on the session like any other.

* `LockGuard` — the steps of runs in which only root and the owner of a session call;
* `LockInv` — whose calls are about to signal, and whose have;
* `LockInv.onlyAuthorised` — who is behind the signals on a session.
-/

namespace WriteonceOs.Logind

open WriteonceOs.Library

/-- The methods that the bus policy lets every user call. -/
def Method.Open : Method → Prop
  | .createSession _ => False
  | .releaseSession _ => False
  | _ => True

/-- The message passes the bus policy. -/
def BusEvent.Admitted : BusEvent → Prop
  | .call key method => key.uid = 0 ∨ method.Open
  | .serve _ _ => True

theorem sessionObjectPath_injective {i j : String}
    (h : sessionObjectPath i = sessionObjectPath j) : i = j := append_left_cancel h

namespace Shim

variable {d d' t : Shim} {ev : BusEvent} {key : CallKey} {method : Method} {progress : Progress}

/-- The sessions created under the identifier `id` are the user's. -/
def OwnedBy (d : Shim) (id : String) (u : UInt32) : Prop :=
  ∀ s ∈ d.created, s.id = id → s.uid = u

/-- A session has been created under the identifier `id`. -/
def Exists (d : Shim) (id : String) : Prop := ∃ s ∈ d.created, s.id = id

/-- Lock and unlock calls that find their session come from root or its owner, the bus policy lets
the messages pass, and the identifiers of sessions have not wrapped round. -/
structure LockGuard (d : Shim) (ev : BusEvent) : Prop where
  admitted : ev.Admitted
  caller : ∀ key ans method id member, ev = .serve key ans →
    d.calls key = some ⟨method, .asked⟩ → method.signal = some (id, member) → d.Finds method →
    key.uid = 0 ∨ d.OwnedBy id key.uid
  few : d.created.length < 2 ^ 64

/-- The signals on the object of a session that say to lock or to unlock it. -/
def lockSignals (d : Shim) (id : String) : List Emission :=
  d.signals.filter fun e =>
    e.path = sessionObjectPath id ∧ (e.member = .lockSignal ∨ e.member = .unlockSignal)

/-- Every lock or unlock signal on a session is due to a call of root or of its owner. -/
def OnlyAuthorised (d : Shim) : Prop :=
  ∀ s ∈ d.created, ∀ e ∈ d.lockSignals s.id, e.cause.uid = 0 ∨ e.cause.uid = s.uid

/-! ### Identifiers -/

/-- The identifiers are given out in order. -/
structure Numbered (d : Shim) : Prop where
  ids : d.created.map (·.id) =
    (List.range d.created.length).map fun k => "c" ++ toString ((k + 1) % 2 ^ 64)
  next : d.state.nextSessionId.toNat = (d.created.length + 1) % 2 ^ 64

theorem Numbered.fresh (hd : d.Numbered) (hfew : d.created.length < 2 ^ 64) :
    ¬ d.Exists d.state.freshId := by
  rintro ⟨s, hs, hid⟩
  have hmem : s.id ∈ d.created.map (·.id) := List.mem_map_of_mem hs
  rw [hd.ids, List.mem_map] at hmem
  obtain ⟨k, hk, hkid⟩ := hmem
  have hlt : k < d.created.length := List.mem_range.mp hk
  have hnum : (k + 1) % 2 ^ 64 = d.state.nextSessionId.toNat :=
    toString_injective (append_left_cancel (hkid.trans hid))
  rw [hd.next] at hnum
  omega

theorem Numbered.insert (hd : d.Numbered) (key : CallKey) (args : CreateArgs) (ans : StepAnswer) :
    (d.createInsert key args ans).Numbered := by
  constructor
  · show (d.created ++ [args.sessionInfo d.state.freshId ans]).map (·.id) = _
    have hlen : (d.createInsert key args ans).created.length = d.created.length + 1 := by
      simp [createInsert]
    have hfresh : d.state.freshId = "c" ++ toString ((d.created.length + 1) % 2 ^ 64) := by
      rw [← hd.next]
      rfl
    rw [List.map_append, hd.ids, hlen, List.range_succ, List.map_append, List.map_singleton,
      List.map_singleton, ← hfresh]
    rfl
  · show (d.state.nextSessionId + 1).toNat = _
    have hlen : (d.createInsert key args ans).created.length = d.created.length + 1 := by
      simp [createInsert]
    rw [hlen, UInt64.toNat_add, hd.next]
    simp

/-! ### The invariant -/

/-- What holds between the steps of a guarded run. -/
structure LockInv (d : Shim) : Prop where
  numbered : d.Numbered
  table : ∀ j s, d.state.sessions.lookup j = some s → d.Exists j
  objects : ∀ j ∈ d.objects, d.Exists j
  inserted : ∀ key args info, d.calls key = some ⟨.createSession args, .inserted info⟩ →
    d.Exists info.id
  -- the policy, for the calls that have arrived
  policy : ∀ key call, d.calls key = some call → key.uid = 0 ∨ call.method.Open
  -- a call that is about to signal
  dispatched : ∀ key method id member, d.calls key = some ⟨method, .dispatched⟩ →
    method.signal = some (id, member) → d.Exists id ∧ (key.uid = 0 ∨ d.OwnedBy id key.uid)
  signalled : ∀ e ∈ d.signals, e.member = .lockSignal ∨ e.member = .unlockSignal →
    ∃ id, e.path = sessionObjectPath id ∧ d.Exists id ∧
      (e.cause.uid = 0 ∨ d.OwnedBy id e.cause.uid)

theorem Exists.mono {id : String} (h : d.Exists id) (hsub : ∀ s ∈ d.created, s ∈ d'.created) :
    d'.Exists id := by
  obtain ⟨s, hs, hid⟩ := h
  exact ⟨s, hsub s hs, hid⟩

theorem Exists.congr {id : String} (h : d.Exists id) (hcreated : d'.created = d.created) :
    d'.Exists id := h.mono fun s hs => by rwa [hcreated]

theorem OwnedBy.congr {id : String} {u : UInt32} (h : d.OwnedBy id u)
    (hcreated : d'.created = d.created) : d'.OwnedBy id u := by
  unfold OwnedBy
  rwa [hcreated]

/-- A step that creates no session. -/
theorem LockInv.step (hd : d.LockInv) {p : Progress} (hcreated : d'.created = d.created)
    (hnext : d'.state.nextSessionId = d.state.nextSessionId)
    (hcalls : d'.calls = Function.update d.calls key (some ⟨method, p⟩))
    (hpolicy : key.uid = 0 ∨ method.Open)
    (htable : ∀ j s, d'.state.sessions.lookup j = some s → d.Exists j)
    (hobjects : ∀ j ∈ d'.objects, d.Exists j) (hinserted : ∀ info, p ≠ .inserted info)
    (hdispatched : p = .dispatched → ∀ id member, method.signal = some (id, member) →
      d.Exists id ∧ (key.uid = 0 ∨ d.OwnedBy id key.uid))
    (hsignals : ∀ e ∈ d'.signals, e ∈ d.signals ∨
      ¬ (e.member = .lockSignal ∨ e.member = .unlockSignal) ∨
      ∃ id, e.path = sessionObjectPath id ∧ d.Exists id ∧
        (e.cause.uid = 0 ∨ d.OwnedBy id e.cause.uid)) : d'.LockInv where
  numbered := by
    constructor
    · rw [hcreated]
      exact hd.numbered.ids
    · rw [hcreated, hnext]
      exact hd.numbered.next
  table j s hs := (htable j s hs).congr hcreated
  objects j hj := (hobjects j hj).congr hcreated
  inserted key' args info h := by
    rw [hcalls] at h
    rcases calls_update_cases h with ⟨-, heq⟩ | h
    · cases heq
      exact absurd rfl (hinserted info)
    · exact (hd.inserted key' args info h).congr hcreated
  policy key' call h := by
    rw [hcalls] at h
    rcases calls_update_cases h with ⟨rfl, rfl⟩ | h
    · exact hpolicy
    · exact hd.policy key' call h
  dispatched key' method' id member h hsignal := by
    rw [hcalls] at h
    rcases calls_update_cases h with ⟨rfl, heq⟩ | h
    · cases heq
      obtain ⟨hid, huid⟩ := hdispatched rfl id member hsignal
      exact ⟨hid.congr hcreated, huid.imp_right fun ho => ho.congr hcreated⟩
    · obtain ⟨hid, huid⟩ := hd.dispatched key' method' id member h hsignal
      exact ⟨hid.congr hcreated, huid.imp_right fun ho => ho.congr hcreated⟩
  signalled e he hmember := by
    have hgood : ∃ id, e.path = sessionObjectPath id ∧ d.Exists id ∧
        (e.cause.uid = 0 ∨ d.OwnedBy id e.cause.uid) := by
      rcases hsignals e he with hold | hother | hnew
      · exact hd.signalled e hold hmember
      · exact absurd hmember hother
      · exact hnew
    obtain ⟨id, hpath, hid, huid⟩ := hgood
    exact ⟨id, hpath, hid.congr hcreated, huid.imp_right fun ho => ho.congr hcreated⟩

/-- A session is created, under an identifier that no earlier one had. -/
theorem LockInv.insert (hd : d.LockInv) (hfew : d.created.length < 2 ^ 64) {args : CreateArgs}
    (hpolicy : key.uid = 0 ∨ (Method.createSession args).Open) (ans : StepAnswer) :
    (d.createInsert key args ans).LockInv := by
  have hfresh := hd.numbered.fresh hfew
  have hmono : ∀ {id}, d.Exists id → (d.createInsert key args ans).Exists id :=
    fun h => h.mono fun s hs => List.mem_append_left _ hs
  have howned : ∀ {id u}, d.Exists id → d.OwnedBy id u →
      (d.createInsert key args ans).OwnedBy id u := by
    intro id u hid ho s hs hsid
    rcases List.mem_append.mp hs with hs | hs
    · exact ho s hs hsid
    · obtain rfl := List.mem_singleton.mp hs
      exact absurd (by rwa [← hsid] at hid) hfresh
  have hcalls : (d.createInsert key args ans).calls = Function.update d.calls key
      (some ⟨.createSession args, .inserted (args.sessionInfo d.state.freshId ans)⟩) := rfl
  have hnew : (d.createInsert key args ans).Exists d.state.freshId :=
    ⟨_, List.mem_append_right _ (List.mem_singleton_self _), rfl⟩
  constructor
  case numbered => exact hd.numbered.insert key args ans
  case table =>
    intro j s hs
    by_cases hj : j = d.state.freshId
    · rw [hj]
      exact hnew
    · exact hmono (hd.table j s ((AList.lookup_insert_ne hj).symm.trans hs))
  case objects => exact fun j hj => hmono (hd.objects j hj)
  case inserted =>
    intro key' args' info h
    rw [hcalls] at h
    rcases calls_update_cases h with ⟨-, heq⟩ | h
    · cases heq
      exact hnew
    · exact hmono (hd.inserted key' args' info h)
  case policy =>
    intro key' call h
    rw [hcalls] at h
    rcases calls_update_cases h with ⟨rfl, rfl⟩ | h
    · exact hpolicy
    · exact hd.policy key' call h
  case dispatched =>
    intro key' method' id member h hsignal
    rw [hcalls] at h
    rcases calls_update_cases h with ⟨-, heq⟩ | h
    · cases heq
    · obtain ⟨hid, huid⟩ := hd.dispatched key' method' id member h hsignal
      exact ⟨hmono hid, huid.imp_right (howned hid)⟩
  case signalled =>
    intro e he hmember
    obtain ⟨id, hpath, hid, huid⟩ := hd.signalled e he hmember
    exact ⟨id, hpath, hmono hid, huid.imp_right (howned hid)⟩

/-- A step that changes a call and nothing else. -/
theorem LockInv.move (hd : d.LockInv) {p : Progress} (hpolicy : key.uid = 0 ∨ method.Open)
    (hinserted : ∀ info, p ≠ .inserted info)
    (hdispatched : p = .dispatched → ∀ id member, method.signal = some (id, member) →
      d.Exists id ∧ (key.uid = 0 ∨ d.OwnedBy id key.uid)) : (d.move key method p).LockInv :=
  hd.step rfl rfl rfl hpolicy hd.table hd.objects hinserted hdispatched fun _ he => .inl he

theorem LockInv.exists_of_finds (hd : d.LockInv) {id : String} {member : Member}
    (hsignal : method.signal = some (id, member)) (hfind : d.Finds method) : d.Exists id := by
  have htable : d.state.sessions.lookup id ≠ none → d.Exists id := by
    intro h
    obtain ⟨s, hs⟩ := Option.ne_none_iff_exists'.mp h
    exact hd.table id s hs
  cases method with
  | lockSession i =>
    cases hsignal
    exact htable hfind
  | unlockSession i =>
    cases hsignal
    exact htable hfind
  | lock i =>
    cases hsignal
    exact hd.objects _ hfind
  | unlock i =>
    cases hsignal
    exact hd.objects _ hfind
  | _ => cases hsignal

theorem Served.lockInv (hd : d.LockInv) (hfew : d.created.length < 2 ^ 64)
    (hc : d.calls key = some ⟨method, progress⟩)
    (hcaller : progress = .asked → d.Finds method → ∀ id member,
      method.signal = some (id, member) → key.uid = 0 ∨ d.OwnedBy id key.uid)
    (h : Served d key method progress d') : d'.LockInv := by
  have hpolicy : key.uid = 0 ∨ method.Open := hd.policy key _ hc
  cases h with
  | insert args ans => exact hd.insert hfew hpolicy ans
  | register args info =>
    refine hd.step rfl rfl rfl hpolicy hd.table (fun j hj => ?_) (by simp) (by simp)
      fun _ he => .inl he
    have hinfo := hd.inserted key args info hc
    simp only at hj
    split at hj
    · exact hd.objects j hj
    · rcases List.mem_cons.mp hj with rfl | hj
      · exact hinfo
      · exact hd.objects j hj
  | pipe args info fd => exact hd.move hpolicy (by simp) (by simp)
  | announce args info fd =>
    refine hd.step rfl rfl rfl hpolicy hd.table hd.objects (by simp) (by simp) fun e he => ?_
    rcases List.mem_append.mp he with he | he
    · exact .inl he
    · obtain rfl := List.mem_singleton.mp he
      exact .inr (.inl (by simp))
  | remove hid =>
    rename_i id
    refine hd.step rfl rfl rfl hpolicy (fun j s hs => ?_) hd.objects (by simp) (by simp)
      fun _ he => .inl he
    have hne : j ≠ id := by
      rintro rfl
      have hnone : (d.state.sessions.erase j).lookup j = none := AList.lookup_erase _ _
      rw [hnone] at hs
      cases hs
    exact hd.table j s ((AList.lookup_erase_ne hne).symm.trans hs)
  | withdraw id =>
    exact hd.step rfl rfl rfl hpolicy hd.table
      (fun j hj => hd.objects j (List.mem_of_mem_filter hj)) (by simp) (by simp)
      fun _ he => .inl he
  | keep id => exact hd.move hpolicy (by simp) (by simp)
  | announceRemoved id =>
    refine hd.step rfl rfl rfl hpolicy hd.table hd.objects (by simp) (by simp) fun e he => ?_
    rcases List.mem_append.mp he with he | he
    · exact .inl he
    · obtain rfl := List.mem_singleton.mp he
      exact .inr (.inl (by simp))
  | find hfind =>
    refine hd.move hpolicy (by simp) fun _ id member hsignal => ?_
    exact ⟨hd.exists_of_finds hsignal hfind, hcaller rfl hfind id member hsignal⟩
  | signal hsignal =>
    rename_i id member
    obtain ⟨hid, huid⟩ := hd.dispatched key method id member hc hsignal
    refine hd.step rfl rfl rfl hpolicy hd.table hd.objects (by simp) (by simp) fun e he => ?_
    rcases List.mem_append.mp he with he | he
    · exact .inl he
    · obtain rfl := List.mem_singleton.mp he
      exact .inr (.inr ⟨id, rfl, hid, huid⟩)
  | terminal hs hvtnr => exact hd.move hpolicy (by simp) (by simp)
  | switch id vtnr => exact hd.move hpolicy (by simp) (by simp)
  | hint hs idle since =>
    rename_i id s
    refine hd.step rfl rfl rfl hpolicy (fun j s' hs' => ?_) hd.objects (by simp) (by simp)
      fun _ he => .inl he
    by_cases hj : j = id
    · rw [hj]
      exact hd.table id s hs
    · exact hd.table j s' ((AList.lookup_insert_ne hj).symm.trans hs')
  | refuse hr => exact hd.move hpolicy (by simp) (by simp)

theorem LockInv.next (hd : d.LockInv) (hG : d.LockGuard ev) (h : d.next ev = some d') :
    d'.LockInv := by
  obtain ⟨method, hev, -, rfl⟩ | ⟨ans, ⟨method, progress⟩, hev, hc, hserved⟩ := next_inv h
  · have hpolicy := hG.admitted
    rw [hev] at hpolicy
    exact hd.move hpolicy (by simp) (by simp)
  · refine hserved.lockInv hd hG.few hc fun hasked hfind id member hsignal => ?_
    rw [hasked] at hc
    exact hG.caller ev.key ans method id member hev hc hsignal hfind

theorem lockInv_new : Shim.new.LockInv where
  numbered := ⟨rfl, rfl⟩
  table j s hs := by
    rw [show Shim.new.state.sessions = ∅ from rfl, AList.lookup_empty] at hs
    cases hs
  objects _ hj := by cases hj
  inserted _ _ _ h := by cases h
  policy _ _ h := by cases h
  dispatched _ _ _ _ h := by cases h
  signalled _ he := by cases he

theorem LockInv.onlyAuthorised (hd : d.LockInv) : d.OnlyAuthorised := by
  intro s hs e he
  have hsignal := List.mem_filter.mp he
  obtain ⟨hpath, hmember⟩ : e.path = sessionObjectPath s.id ∧
      (e.member = .lockSignal ∨ e.member = .unlockSignal) := by simpa using hsignal.2
  obtain ⟨id, hpath', -, huid⟩ := hd.signalled e hsignal.1 hmember
  have hid : s.id = id := sessionObjectPath_injective (hpath.symm.trans hpath')
  exact huid.imp_right fun ho => (ho s hs hid).symm

end Shim

end WriteonceOs.Logind
