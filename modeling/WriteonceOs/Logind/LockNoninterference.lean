import WriteonceOs.Library.Purge
import WriteonceOs.Logind.LockSignals
import WriteonceOs.Logind.SessionTable

/-!
# What other users' calls do to the signals of a session

Root and the owner of a session see the same of the daemon whatever other users do, as long as these
do not call the lock and unlock methods of that session.

* `Looks` — two states that look the same;
* `Looks.serve` — a step of a visible call, in both;
* `looks_served` — a step of a hidden one;
* `lock_authorised` — who is behind the signals on a session, and that nobody else matters.
-/

namespace WriteonceOs.Logind

open WriteonceOs.Library

/-! ### What other users' calls do not change -/

/-- A session without its idle hint. -/
def SessionInfo.core (s : SessionInfo) : SessionInfo := { s with idleHint := false, idleSince := 0 }

/-- An event of root or of the user `u`. -/
def BusEvent.visible (u : UInt32) (ev : BusEvent) : Bool := ev.key.uid = 0 ∨ ev.key.uid = u

namespace Shim

/-- What root and the user `u` see of the daemon, with the lock and unlock signals on the session
`id` where `u` owns it. -/
structure Looks (id : String) (u : UInt32) (d t : Shim) : Prop where
  next : d.state.nextSessionId = t.state.nextSessionId
  table : ∀ j, (d.state.sessions.lookup j).map SessionInfo.core =
    (t.state.sessions.lookup j).map SessionInfo.core
  objects : d.objects = t.objects
  created : d.created = t.created
  calls : ∀ key, key.uid = 0 ∨ key.uid = u → d.calls key = t.calls key
  signals : d.OwnedBy id u → d.lockSignals id = t.lockSignals id

namespace Looks

variable {id : String} {u : UInt32} {d t e : Shim} {key : CallKey} {method : Method}

theorem refl (d : Shim) : Looks id u d d :=
  ⟨rfl, fun _ => rfl, rfl, rfl, fun _ _ => rfl, fun _ => rfl⟩

theorem owned_iff (h : Looks id u d t) : d.OwnedBy id u ↔ t.OwnedBy id u := by
  unfold OwnedBy
  rw [h.created]

theorem symm (h : Looks id u d t) : Looks id u t d where
  next := h.next.symm
  table j := (h.table j).symm
  objects := h.objects.symm
  created := h.created.symm
  calls key hkey := (h.calls key hkey).symm
  signals ho := (h.signals (h.owned_iff.mpr ho)).symm

theorem trans (h : Looks id u d t) (h' : Looks id u t e) : Looks id u d e where
  next := h.next.trans h'.next
  table j := (h.table j).trans (h'.table j)
  objects := h.objects.trans h'.objects
  created := h.created.trans h'.created
  calls key hkey := (h.calls key hkey).trans (h'.calls key hkey)
  signals ho := (h.signals ho).trans (h'.signals (h.owned_iff.mp ho))

/-- What a lookup finds on both sides. -/
theorem lookup (h : Looks id u d t) (j : String) :
    (d.state.sessions.lookup j = none ∧ t.state.sessions.lookup j = none) ∨
      ∃ s s', d.state.sessions.lookup j = some s ∧ t.state.sessions.lookup j = some s' ∧
        s.core = s'.core := by
  have hj := h.table j
  cases hd : d.state.sessions.lookup j with
  | none =>
    rw [hd] at hj
    exact .inl ⟨rfl, Option.map_eq_none_iff.mp hj.symm⟩
  | some s =>
    rw [hd] at hj
    obtain ⟨s', hs', hcore⟩ := Option.map_eq_some_iff.mp hj.symm
    exact .inr ⟨s, s', rfl, hs', hcore.symm⟩

theorem move (h : Looks id u d t) (p : Progress) :
    Looks id u (d.move key method p) (t.move key method p) where
  next := h.next
  table := h.table
  objects := h.objects
  created := h.created
  calls key' hkey' := by
    show Function.update d.calls key _ key' = Function.update t.calls key _ key'
    by_cases hkey : key' = key
    · rw [hkey, Function.update_self, Function.update_self]
    · rw [Function.update_of_ne hkey, Function.update_of_ne hkey, h.calls key' hkey']
  signals := h.signals

theorem emit (h : Looks id u d t) (path : String) (member : Member) (r : Reply) (context : String)
    (result : Except String ℕ) :
    Looks id u (d.emit key method path member r context result)
      (t.emit key method path member r context result) := by
  cases result with
  | error _ => exact h.move _
  | ok _ =>
    have hmove : Looks id u (d.move key method (.returned r)) (t.move key method (.returned r)) :=
      h.move _
    refine { hmove with signals := fun ho => ?_ }
    show List.filter _ (d.signals ++ _) = List.filter _ (t.signals ++ _)
    rw [List.filter_append, List.filter_append]
    exact congrArg (· ++ _) (h.signals ho)

theorem createInsert (h : Looks id u d t) (args : CreateArgs) (ans : StepAnswer) :
    Looks id u (d.createInsert key args ans) (t.createInsert key args ans) := by
  have hid : d.state.freshId = t.state.freshId := by
    unfold SessionState.freshId
    rw [h.next]
  have hmove : Looks id u
      (d.move key (.createSession args) (.inserted (args.sessionInfo t.state.freshId ans)))
      (t.move key (.createSession args) (.inserted (args.sessionInfo t.state.freshId ans))) :=
    h.move _
  constructor
  case next => exact congrArg (· + 1) h.next
  case table =>
    intro j
    show ((d.state.sessions.insert d.state.freshId _).lookup j).map _ =
      ((t.state.sessions.insert t.state.freshId _).lookup j).map _
    rw [hid]
    by_cases hj : j = t.state.freshId
    · rw [hj, AList.lookup_insert, AList.lookup_insert]
    · rw [AList.lookup_insert_ne hj, AList.lookup_insert_ne hj]
      exact h.table j
  case objects => exact h.objects
  case created =>
    show d.created ++ [args.sessionInfo d.state.freshId ans] = t.created ++ _
    rw [h.created, hid]
  case calls =>
    intro key' hkey'
    show Function.update d.calls key
      (some ⟨_, .inserted (args.sessionInfo d.state.freshId ans)⟩) key' = _
    rw [hid]
    exact hmove.calls key' hkey'
  case signals =>
    intro ho
    exact h.signals fun s hs => ho s (List.mem_append_left _ hs)

theorem createExport (h : Looks id u d t) (args : CreateArgs) (info : SessionInfo)
    (result : Except String ℕ) :
    Looks id u (d.createExport key args info result) (t.createExport key args info result) := by
  cases result with
  | error _ => exact h.move _
  | ok _ =>
    have hmove : Looks id u (d.move key (.createSession args) (.exported info))
        (t.move key (.createSession args) (.exported info)) := h.move _
    refine { hmove with objects := ?_ }
    show (if info.id ∈ d.objects then d.objects else _) = _
    rw [h.objects]
    rfl

theorem createPipe (h : Looks id u d t) (args : CreateArgs) (info : SessionInfo)
    (result : Except String ℕ) :
    Looks id u (d.createPipe key args info result) (t.createPipe key args info result) := by
  cases result with
  | error _ => exact h.move _
  | ok _ => exact h.move _

theorem releaseRemove (h : Looks id u d t) (j : String) :
    Looks id u (d.releaseRemove key j) (t.releaseRemove key j) := by
  unfold Shim.releaseRemove
  obtain ⟨hd, ht⟩ | ⟨s, s', hd, ht, -⟩ := h.lookup j
  · rw [if_pos hd, if_pos ht]
    exact h.move _
  · rw [if_neg (by rw [hd]; simp), if_neg (by rw [ht]; simp)]
    have hmove : Looks id u (d.move key (.releaseSession j) .removed)
        (t.move key (.releaseSession j) .removed) := h.move _
    refine { hmove with next := h.next, table := fun i => ?_ }
    show ((d.state.sessions.erase j).lookup i).map _ = ((t.state.sessions.erase j).lookup i).map _
    by_cases hi : i = j
    · rw [hi, AList.lookup_erase, AList.lookup_erase]
    · rw [AList.lookup_erase_ne hi, AList.lookup_erase_ne hi]
      exact h.table i

theorem releaseWithdraw (h : Looks id u d t) (j : String) (result : Except String ℕ) :
    Looks id u (d.releaseWithdraw key j result) (t.releaseWithdraw key j result) := by
  cases result with
  | error _ => exact h.move _
  | ok _ =>
    have hmove : Looks id u (d.move key (.releaseSession j) .withdrawn)
        (t.move key (.releaseSession j) .withdrawn) := h.move _
    refine { hmove with objects := ?_ }
    show d.objects.filter (· ≠ j) = t.objects.filter (· ≠ j)
    rw [h.objects]

theorem dispatch (h : Looks id u d t) (j : String) :
    Looks id u (d.dispatch key method j) (t.dispatch key method j) := by
  unfold Shim.dispatch
  rw [h.objects]
  split
  · exact h.move _
  · exact h.move _

theorem activateLookup (h : Looks id u d t) (j : String) :
    Looks id u (d.activateLookup key j) (t.activateLookup key j) := by
  unfold Shim.activateLookup
  obtain ⟨hd, ht⟩ | ⟨s, s', hd, ht, hcore⟩ := h.lookup j
  · rw [hd, ht]
    exact h.move _
  · rw [hd, ht]
    have hvtnr : s.vtnr = s'.vtnr := by
      show s.core.vtnr = s'.core.vtnr
      rw [hcore]
    simp only [hvtnr]
    split
    · exact h.move _
    · exact h.move _

/-- A hint changes nothing that counts. -/
theorem hint (d : Shim) {j : String} {s : SessionInfo} (hs : d.state.sessions.lookup j = some s)
    (idle : Bool) (since : UInt64) (i : String) :
    ((d.state.sessions.insert j { s with idleHint := idle, idleSince := since }).lookup i).map
      SessionInfo.core = (d.state.sessions.lookup i).map SessionInfo.core := by
  by_cases hi : i = j
  · rw [hi, AList.lookup_insert, hs]
    rfl
  · rw [AList.lookup_insert_ne hi]

theorem setIdleHintUpdate (h : Looks id u d t) (j : String) (idle : Bool) (ans : StepAnswer) :
    Looks id u (d.setIdleHintUpdate key j idle ans) (t.setIdleHintUpdate key j idle ans) := by
  unfold Shim.setIdleHintUpdate
  obtain ⟨hd, ht⟩ | ⟨s, s', hd, ht, -⟩ := h.lookup j
  · rw [hd, ht]
    exact h.move _
  · rw [hd, ht]
    have hmove : Looks id u (d.move key (.setIdleHint j idle) (.returned .done))
        (t.move key (.setIdleHint j idle) (.returned .done)) := h.move _
    refine { hmove with next := h.next, table := fun i => ?_ }
    exact (hint d hd idle _ i).trans ((h.table i).trans (hint t ht idle _ i).symm)

theorem signalSession (h : Looks id u d t) (i context : String) (member : Member)
    (ans : StepAnswer) (p : Progress) :
    Option.Rel (Looks id u) (d.signalSession key method i member context ans p)
      (t.signalSession key method i member context ans p) := by
  cases p with
  | asked =>
    refine .some ?_
    obtain ⟨hd, ht⟩ | ⟨s, s', hd, ht, -⟩ := h.lookup i
    · rw [if_pos hd, if_pos ht]
      exact h.move _
    · rw [if_neg (by rw [hd]; simp), if_neg (by rw [ht]; simp)]
      exact h.move _
  | dispatched => exact .some (h.emit _ _ _ _ _)
  | _ => exact .none

theorem signalObject (h : Looks id u d t) (i context : String) (member : Member)
    (ans : StepAnswer) (p : Progress) :
    Option.Rel (Looks id u) (d.signalObject key method i member context ans p)
      (t.signalObject key method i member context ans p) := by
  cases p with
  | asked => exact .some (h.dispatch i)
  | dispatched => exact .some (h.emit _ _ _ _ _)
  | _ => exact .none

theorem createSession (h : Looks id u d t) (args : CreateArgs) (ans : StepAnswer) (p : Progress) :
    Option.Rel (Looks id u) (d.createSession key args ans p) (t.createSession key args ans p) := by
  cases p with
  | asked => exact .some (h.createInsert args ans)
  | inserted info => exact .some (h.createExport args info _)
  | exported info => exact .some (h.createPipe args info _)
  | piped info fd => exact .some (h.emit _ _ _ _ _)
  | _ => exact .none

theorem releaseSession (h : Looks id u d t) (i : String) (ans : StepAnswer) (p : Progress) :
    Option.Rel (Looks id u) (d.releaseSession key i ans p) (t.releaseSession key i ans p) := by
  cases p with
  | asked => exact .some (h.releaseRemove i)
  | removed => exact .some (h.releaseWithdraw i _)
  | withdrawn => exact .some (h.emit _ _ _ _ _)
  | _ => exact .none

theorem activate (h : Looks id u d t) (i : String) (ans : StepAnswer) (p : Progress) :
    Option.Rel (Looks id u) (d.activate key i ans p) (t.activate key i ans p) := by
  cases p with
  | asked => exact .some (h.dispatch i)
  | dispatched => exact .some (h.activateLookup i)
  | switching vtnr =>
    unfold Shim.activate
    cases ans.result with
    | ok _ => exact .some (h.move _)
    | error _ => exact .some (h.move _)
  | _ => exact .none

theorem setIdleHint (h : Looks id u d t) (i : String) (idle : Bool) (ans : StepAnswer)
    (p : Progress) :
    Option.Rel (Looks id u) (d.setIdleHint key i idle ans p) (t.setIdleHint key i idle ans p) := by
  cases p with
  | asked => exact .some (h.dispatch i)
  | dispatched => exact .some (h.setIdleHintUpdate i idle ans)
  | _ => exact .none

/-- **A step of the same call, in two states that look the same.** -/
theorem serve (h : Looks id u d t) (call : SessionCall) (ans : StepAnswer) :
    Option.Rel (Looks id u) (d.serve key call ans) (t.serve key call ans) := by
  obtain ⟨method, p⟩ := call
  cases method with
  | createSession args => exact h.createSession args ans p
  | releaseSession i => exact h.releaseSession i ans p
  | lockSession i => exact h.signalSession i _ _ ans p
  | unlockSession i => exact h.signalSession i _ _ ans p
  | lock i => exact h.signalObject i _ _ ans p
  | unlock i => exact h.signalObject i _ _ ans p
  | activate i => exact h.activate i ans p
  | setIdleHint i idle => exact h.setIdleHint i idle ans p

/-- A visible step can be taken on both sides. -/
theorem next_visible {d' : Shim} {ev : BusEvent} (h : Looks id u d t)
    (hev : ev.visible u = true) (hd : d.next ev = some d') :
    ∃ t', t.next ev = some t' ∧ Looks id u d' t' := by
  have hkey : ev.key.uid = 0 ∨ ev.key.uid = u := by simpa [BusEvent.visible] using hev
  cases ev with
  | call key method =>
    have hcall := h.calls key hkey
    rw [Shim.next] at hd ⊢
    cases hc : d.calls key with
    | some call =>
      rw [hc] at hd
      cases hd
    | none =>
      rw [hc] at hd hcall
      rw [← hcall]
      cases hd
      exact ⟨_, rfl, h.move _⟩
  | serve key ans =>
    have hcall := h.calls key hkey
    rw [Shim.next] at hd ⊢
    cases hc : d.calls key with
    | none =>
      rw [hc] at hd
      cases hd
    | some call =>
      rw [hc] at hd hcall
      rw [← hcall]
      have hserve : Option.Rel (Looks id u) (d.serve key call ans) (t.serve key call ans) :=
        h.serve call ans
      simp only at hd ⊢
      rw [hd] at hserve
      generalize t.serve key call ans = t' at hserve ⊢
      cases hserve with
      | some hlooks => exact ⟨_, rfl, hlooks⟩

end Looks

/-! ### Hidden steps -/

section Hidden

variable {id : String} {u : UInt32} {d d' : Shim} {key : CallKey} {method : Method}
  {progress : Progress}

/-- A hidden call comes to another point. -/
theorem looks_move (hkey : ¬ (key.uid = 0 ∨ key.uid = u)) (p : Progress) :
    Looks id u d (d.move key method p) where
  next := rfl
  table _ := rfl
  objects := rfl
  created := rfl
  calls key' hkey' := by
    have hne : key' ≠ key := fun heq => hkey (heq ▸ hkey')
    exact (Function.update_of_ne hne _ _).symm
  signals _ := rfl

/-- **A step of a hidden call**: of the methods that are open to everyone, only lock and unlock
calls leave traces, and those of another session. -/
theorem looks_served (hd : d.LockInv) (hkey : ¬ (key.uid = 0 ∨ key.uid = u))
    (hc : d.calls key = some ⟨method, progress⟩) (h : Served d key method progress d') :
    Looks id u d d' := by
  have hopen : method.Open := (hd.policy key _ hc).resolve_left fun h0 => hkey (.inl h0)
  cases h with
  | insert args ans => cases hopen
  | register args info => cases hopen
  | pipe args info fd => cases hopen
  | announce args info fd => cases hopen
  | remove hid => cases hopen
  | withdraw i => cases hopen
  | keep i => cases hopen
  | announceRemoved i => cases hopen
  | find hfind => exact looks_move hkey _
  | signal hsignal =>
    rename_i i member
    have hmove : Looks id u d (d.move key method (.returned .done)) := looks_move hkey _
    refine { hmove with signals := fun ho => ?_ }
    -- the caller owns the session that it signals on, so it is not the session looked at
    obtain ⟨⟨s, hs, hsi⟩, huid⟩ := hd.dispatched key method i member hc hsignal
    have howner := huid.resolve_left fun h0 => hkey (.inl h0)
    have hne : i ≠ id := by
      intro heq
      rw [heq] at hsi howner
      exact hkey (.inr ((howner s hs hsi).symm.trans (ho s hs hsi)))
    show d.lockSignals id = List.filter _ (d.signals ++ _)
    rw [List.filter_append, List.filter_singleton]
    have hpath : sessionObjectPath i ≠ sessionObjectPath id :=
      fun heq => hne (sessionObjectPath_injective heq)
    simp [lockSignals, hpath]
  | terminal hs hvtnr => exact looks_move hkey _
  | switch i vtnr => exact looks_move hkey _
  | hint hs idle since =>
    rename_i i s
    have hmove : Looks id u d (d.move key (.setIdleHint i idle) (.returned .done)) :=
      looks_move hkey _
    exact { hmove with next := rfl, table := fun j => (Looks.hint d hs idle since j).symm }
  | refuse hr => exact looks_move hkey _

theorem unwinding (id : String) (u : UInt32) :
    Unwinding next LockInv LockGuard (BusEvent.visible u) (Looks id u) where
  symm _ _ h := h.symm
  trans _ _ _ h h' := h.trans h'
  inv _ _ _ hd hG h := hd.next hG h
  visible _ _ _ _ h hev hd := h.next_visible hev hd
  hidden d ev d' hd _ hev h := by
    have hkey : ¬ (ev.key.uid = 0 ∨ ev.key.uid = u) := by
      simpa [BusEvent.visible] using hev
    obtain ⟨method, -, -, rfl⟩ | ⟨ans, ⟨method, progress⟩, -, hc, hserved⟩ := next_inv h
    · exact looks_move hkey _
    · exact looks_served hd hkey hc hserved

end Hidden

/-- **Who is behind the lock and unlock signals on a session**: while only root and the owner call
the methods of a session, every signal is due to one of them, and two runs with the same calls of
root and the owner show the same signals. -/
theorem lock_authorised {events : List BusEvent} {d : Shim} (hrun : run events = some d)
    (hG : EachStep next LockGuard new events) :
    d.OnlyAuthorised ∧
      ∀ events' d' id u, run events' = some d' → EachStep next LockGuard new events' →
        d.OwnedBy id u → events.filter (BusEvent.visible u) = events'.filter (BusEvent.visible u) →
        d.lockSignals id = d'.lockSignals id := by
  constructor
  · exact (hG.inv (fun d ev d' hd hg h => LockInv.next hd hg h) lockInv_new hrun).onlyAuthorised
  · intro events' d' id u hrun' hG' ho hsame
    have hlooks := (unwinding id u).noninterference (Looks.refl new) lockInv_new hG hG' hsame hrun
      hrun'
    exact hlooks.signals ho

theorem lockGuard_root {d : Shim} {ev : BusEvent} (hkey : ev.key.uid = 0)
    (hfew : d.created.length < 2 ^ 64) : d.LockGuard ev where
  admitted := by
    cases ev with
    | call key method => exact .inl hkey
    | serve key ans => trivial
  caller key ans _ _ _ hev _ _ _ := by
    rw [hev] at hkey
    exact .inl hkey
  few := hfew

theorem created_length_le {d d' : Shim} {events : List BusEvent}
    (h : events.foldlM next d = some d') :
    d'.created.length ≤ d.created.length + events.length := by
  induction events generalizing d with
  | nil =>
    cases h
    exact le_rfl
  | cons ev events ih =>
    obtain ⟨t, ht, hrest⟩ := foldlM_cons_some.mp h
    have hstep : t.created.length ≤ d.created.length + 1 := by
      obtain ⟨method, -, -, rfl⟩ | ⟨ans, ⟨method, progress⟩, -, -, hserved⟩ := next_inv ht
      · exact Nat.le_succ _
      · cases hserved with
        | insert args ans => simp [createInsert]
        | _ => exact Nat.le_succ _
    have := ih hrest
    rw [List.length_cons]
    omega

/-- Root logs a user in and locks the session. -/
def rootLocks : List BusEvent :=
  login ⟨0, 1⟩ (localUser 1000 500) ++
    [.call ⟨0, 2⟩ (.lockSession "c1"), .serve ⟨0, 2⟩ {}, .serve ⟨0, 2⟩ {}]

theorem lock_authorised_root :
    ∃ d, run rootLocks = some d ∧ (d.lockSignals "c1").length = 1 ∧ d.OnlyAuthorised := by
  obtain ⟨d, hd⟩ : ∃ d, run rootLocks = some d := ⟨_, rfl⟩
  have hG : EachStep next LockGuard new rootLocks := by
    intro pre ev post t hevents ht
    have hev : ev ∈ rootLocks := by
      rw [hevents]
      simp
    have hlen : pre.length < rootLocks.length := by
      rw [hevents]
      simp
    have hkey : ev.key.uid = 0 := by
      have hall : ∀ ev ∈ rootLocks, ev.key.uid = 0 := by
        simp [rootLocks, login, BusEvent.key]
      exact hall ev hev
    have hcreated := created_length_le ht
    have hnone : new.created.length = 0 := rfl
    have height : rootLocks.length = 8 := rfl
    exact lockGuard_root hkey (by omega)
  refine ⟨d, hd, ?_, (lock_authorised hd hG).1⟩
  cases hd
  rfl

/-- A user logs in. -/
def oneUser : List BusEvent := login ⟨0, 1⟩ (localUser 1000 500)

/-- Then another user unlocks the session. -/
def otherUnlocks : List BusEvent :=
  oneUser ++ [.call ⟨1001, 1⟩ (.unlockSession "c1"), .serve ⟨1001, 1⟩ {}, .serve ⟨1001, 1⟩ {}]

/-- The call of another user unlocks the session, and the signals show that it was made. -/
theorem other_user_unlocks :
    (∀ ev ∈ otherUnlocks, ev.Admitted) ∧
      ∃ d d', run oneUser = some d ∧ run otherUnlocks = some d' ∧ d.OwnedBy "c1" 1000 ∧
        ¬ d'.OnlyAuthorised ∧
        oneUser.filter (BusEvent.visible 1000) = otherUnlocks.filter (BusEvent.visible 1000) ∧
        d.lockSignals "c1" ≠ d'.lockSignals "c1" := by
  refine ⟨?_, _, _, rfl, rfl, ?_, fun h => ?_, rfl, by decide⟩
  · simp [otherUnlocks, oneUser, login, BusEvent.Admitted, Method.Open]
  · intro s hs _
    obtain rfl := List.mem_singleton.mp hs
    rfl
  · have hother := h _ (List.mem_singleton_self _)
      ⟨sessionObjectPath "c1", .unlockSignal, ⟨1001, 1⟩⟩
      (by decide)
    exact absurd hother (by decide)

end Shim

end WriteonceOs.Logind
