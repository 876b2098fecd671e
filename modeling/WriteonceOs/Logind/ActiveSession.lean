import WriteonceOs.Logind.SessionTable

/-!
# The active session of a seat

Every session is created in state `active` and stays in it; `Activate` switches the terminal and
leaves the table alone.  So `ActiveSession` is right as long as a seat has one session.

* `activeSession_eq` — the property of a seat with one active session;
* `active_session_tracks` — the runs in which no seat has two active sessions.
-/

namespace WriteonceOs.Logind

open WriteonceOs.Library
open WriteonceOs.Svc (HashOrder)

namespace SessionState

variable {st : SessionState}

/-- No seat has two sessions in state `active`. -/
def AtMostOneActive (st : SessionState) : Prop :=
  ∀ i j s t, st.sessions.lookup i = some s → st.sessions.lookup j = some t → s.seat = t.seat →
    s.state = "active" → t.state = "active" → i = j

/-- The only active session of its seat is what the search finds, in any order of iteration. -/
theorem activeSession_eq (h : st.AtMostOneActive) {j : String} {s : SessionInfo}
    (hj : st.sessions.lookup j = some s) (hid : s.id = j) (hactive : s.state = "active")
    (ord : HashOrder SessionInfo) :
    st.activeSession ord s.seat = (j, sessionObjectPath j) := by
  unfold activeSession
  cases hf : (st.values ord).find? fun t => t.seat = s.seat ∧ t.state = "active" with
  | none =>
    have hnone := List.find?_eq_none.mp hf s (mem_values.mpr ⟨j, hj⟩)
    exact absurd (by simpa using hactive) hnone
  | some t =>
    obtain ⟨i, hi⟩ := mem_values.mp (List.mem_of_find?_eq_some hf)
    have ht : t.seat = s.seat ∧ t.state = "active" := by simpa using List.find?_some hf
    have hij : i = j := h i j t s hi hj ht.1 ht.2 hactive
    rw [hij, hj] at hi
    obtain rfl := Option.some.inj hi
    simp only [hid]

end SessionState

namespace Shim

variable {d d' : Shim} {ev : BusEvent}

/-- A call of `Activate` on the session `id` has succeeded. -/
def Activated (d : Shim) (id : String) : Prop :=
  ∃ key, d.calls key = some ⟨.activate id, .returned .done⟩

/-- A session that was activated is the active one of its seat for as long as it is there. -/
def ActivationTracked (d : Shim) : Prop :=
  ∀ id s, d.Activated id → d.state.sessions.lookup id = some s →
    ∀ ord, d.state.activeSession ord s.seat = (id, sessionObjectPath id)

/-- `CreateSession` runs only for seats without a session, the one that it replaces apart. -/
def SeatFree (d : Shim) (ev : BusEvent) : Prop :=
  ∀ args, d.Creates ev args → ∀ j s, d.state.sessions.lookup j = some s → s.seat = args.seat →
    j = d.state.freshId

theorem atMostOneActive_next (hd : d.state.AtMostOneActive) (hG : d.SeatFree ev)
    (h : d.next ev = some d') : d'.state.AtMostOneActive := by
  intro i j s' t' hi hj hseat hs' ht'
  rcases next_lookup h hi with ⟨s, hs, hcore⟩ | ⟨args, ans, hcreates, hfresh, hinfo⟩
  · rcases next_lookup h hj with ⟨t, ht, hcore'⟩ | ⟨args, ans, hcreates, hfresh, hinfo⟩
    · rw [hcore.seat_eq, hcore'.seat_eq] at hseat
      rw [hcore.state_eq] at hs'
      rw [hcore'.state_eq] at ht'
      exact hd i j s t hs ht hseat hs' ht'
    · have hsame : s.seat = args.seat := by
        rw [← hcore.seat_eq, hseat, hinfo]
        rfl
      rw [hfresh, hG args hcreates i s hs hsame]
  · rcases next_lookup h hj with ⟨t, ht, hcore'⟩ | ⟨args', ans', -, hfresh', -⟩
    · have hsame : t.seat = args.seat := by
        rw [← hcore'.seat_eq, ← hseat, hinfo]
        rfl
      rw [hfresh, hG args hcreates j t ht hsame]
    · rw [hfresh, hfresh']

theorem Tabled.activationTracked (hd : d.Tabled) (h : d.state.AtMostOneActive) :
    d.ActivationTracked := by
  intro id s _ hs ord
  obtain ⟨hid, hactive⟩ := hd id s hs
  exact SessionState.activeSession_eq h hs hid hactive ord

/-- A session on a seat that has another one is the second active session of that seat. -/
theorem seatFree_of_next (hd : d.Tabled)
    (h : ∀ d', d.next ev = some d' → d'.state.AtMostOneActive) : d.SeatFree ev := by
  rintro args ⟨key, ans, rfl, hasked⟩ j s hs hseat
  by_contra hne
  have hone := h _ (next_creates hasked)
  have hold : (d.state.sessions.insert d.state.freshId
      (args.sessionInfo d.state.freshId ans)).lookup j = some s :=
    (AList.lookup_insert_ne hne).trans hs
  have hnew : (d.state.sessions.insert d.state.freshId
      (args.sessionInfo d.state.freshId ans)).lookup d.state.freshId =
      some (args.sessionInfo d.state.freshId ans) := AList.lookup_insert _
  exact hne (hone j d.state.freshId s _ hold hnew hseat (hd j s hs).2 rfl)

/-- **The active session of a seat**: it is unique and follows activations, in every state that a
run comes through, exactly when the run creates sessions on free seats only. -/
theorem active_session_tracks (events : List BusEvent) :
    Throughout next (fun d => d.state.AtMostOneActive ∧ d.ActivationTracked) new events ↔
      EachStep next SeatFree new events := by
  have htabled : Throughout next Tabled new events := by
    rintro pre post t - ht
    exact foldlM_inv (fun d ev d' hd h => hd.next h) tabled_new ht
  constructor
  · intro hone
    have hboth : Throughout next (fun d => d.state.AtMostOneActive ∧ d.Tabled) new events :=
      fun pre post t hevents ht =>
        ⟨(hone pre post t hevents ht).1, htabled pre post t hevents ht⟩
    exact hboth.eachStep fun d ev hd hnext =>
      seatFree_of_next hd.2 fun d' hd' => (hnext d' hd').1
  · intro hG pre post t hevents ht
    have hnew : Shim.new.state.AtMostOneActive := by
      intro i j s t hi
      rw [show Shim.new.state.sessions = ∅ from rfl, AList.lookup_empty] at hi
      cases hi
    have hone : t.state.AtMostOneActive :=
      hG.throughout (I := fun d => d.state.AtMostOneActive)
        (fun d ev d' hd hg h => atMostOneActive_next hd hg h) hnew pre post t hevents ht
    exact ⟨hone, (htabled pre post t hevents ht).activationTracked hone⟩

/-- One call of `Activate`, up to its reply. -/
def activation (key : CallKey) (id : String) : List BusEvent :=
  [.call key (.activate id), .serve key {}, .serve key {}, .serve key {}]

/-- Two users on one seat: both sessions are active, and after the first one was activated
`ActiveSession` is the second. -/
theorem activate_first :
    ∃ d, run (login ⟨0, 1⟩ (localUser 1000 500) ++ login ⟨0, 2⟩ (localUser 1001 600) ++
        activation ⟨1000, 1⟩ "c1") = some d ∧
      d.Activated "c1" ∧ ¬ d.state.AtMostOneActive ∧
      d.state.activeSession .inserted "seat0" = ("c2", sessionObjectPath "c2") := by
  refine ⟨_, rfl, ⟨⟨1000, 1⟩, rfl⟩, fun h => ?_, rfl⟩
  exact absurd (h "c1" "c2" _ _ rfl rfl rfl rfl rfl) (by decide)

end Shim

end WriteonceOs.Logind
