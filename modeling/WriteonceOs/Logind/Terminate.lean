import WriteonceOs.Logind.SessionTable

/-!
# Terminating a session

`Session.Terminate` sends SIGTERM to the leader of its session.  The PID is the `u32` that
`CreateSession` was given, cast to the `i32` that `kill` takes: 0 stands for the daemon's own
process group, and a number from 2^31 on becomes negative and stands for a group or for every
process.

* `terminatesLeader_iff` — in one state: the leaders of the table are PIDs;
* `terminate_leader_iff` — over a run: `CreateSession` is only given PIDs.
-/

namespace WriteonceOs.Logind

open WriteonceOs.Library

/-! ### The cast -/

/-- The numbers that stay what they are. -/
theorem toInt32_pos_iff (pid : UInt32) :
    0 < pid.toInt32.toInt ∧ pid.toInt32.toInt = pid.toNat ↔ 0 < pid.toNat ∧ pid.toNat < 2 ^ 31 := by
  have hcast : pid.toInt32.toInt = pid.toBitVec.toInt := rfl
  have hlt : pid.toNat < 2 ^ 32 := pid.toNat_lt
  rw [hcast, BitVec.toInt_eq_toNat_cond]
  have hnat : pid.toBitVec.toNat = pid.toNat := rfl
  rw [hnat]
  split <;> omega

/-! ### `Terminate` -/

namespace SessionState

variable (st : SessionState)

/-- The number that `kill` is called with; its result is ignored. -/
def terminate (sessionId : String) : Except FdoError Int32 :=
  match st.sessions.lookup sessionId with
  | some s => .ok s.leaderPid.toInt32
  | none => .error (.failed ("no such session: " ++ sessionId))

/-- On any session, the call is an error or signals the leader and nothing else. -/
def TerminatesLeader : Prop :=
  ∀ sessionId pid, st.terminate sessionId = .ok pid →
    0 < pid.toInt ∧ ∃ s, st.sessions.lookup sessionId = some s ∧ pid.toInt = s.leaderPid.toNat

/-- In one state, that is so when the leaders are positive and fit an `i32`. -/
theorem terminatesLeader_iff :
    st.TerminatesLeader ↔ ∀ sessionId s, st.sessions.lookup sessionId = some s →
      0 < s.leaderPid.toNat ∧ s.leaderPid.toNat < 2 ^ 31 := by
  constructor
  · intro h sessionId s hs
    have hcall : st.terminate sessionId = .ok s.leaderPid.toInt32 := by rw [terminate, hs]
    obtain ⟨hpos, t, ht, heq⟩ := h sessionId _ hcall
    rw [hs, Option.some.injEq] at ht
    exact (toInt32_pos_iff s.leaderPid).mp ⟨hpos, ht ▸ heq⟩
  · intro h sessionId pid hcall
    cases hs : st.sessions.lookup sessionId with
    | none => simp [terminate, hs] at hcall
    | some s =>
      simp only [terminate, hs, Except.ok.injEq] at hcall
      obtain ⟨hpos, heq⟩ := (toInt32_pos_iff s.leaderPid).mpr (h sessionId s hs)
      exact ⟨hcall ▸ hpos, s, rfl, hcall ▸ heq⟩

end SessionState

/-! ### Runs -/

namespace Shim

/-- `CreateSession` is given a positive PID that fits an `i32`. -/
def PidValid (d : Shim) (ev : BusEvent) : Prop :=
  ∀ args, d.Creates ev args → 0 < args.pid.toNat ∧ args.pid.toNat < 2 ^ 31

theorem terminatesLeader_next {d d' : Shim} {ev : BusEvent} (hd : d.state.TerminatesLeader)
    (hpid : d.PidValid ev) (h : d.next ev = some d') : d'.state.TerminatesLeader := by
  rw [SessionState.terminatesLeader_iff] at hd ⊢
  intro j s' hj
  rcases next_lookup h hj with ⟨s, hs, hcore⟩ | ⟨args, ans, hcreates, -, rfl⟩
  · rw [hcore.leaderPid_eq]
    exact hd j s hs
  · exact hpid args hcreates

/-- A session that is entered under another number is terminated under it. -/
theorem pidValid_of_next {d : Shim} {ev : BusEvent}
    (h : ∀ d', d.next ev = some d' → d'.state.TerminatesLeader) : d.PidValid ev := by
  intro args hcreates
  obtain ⟨key, ans, rfl, hcall⟩ := hcreates
  have hentered := (SessionState.terminatesLeader_iff _).mp (h _ (next_creates hcall))
  exact hentered d.state.freshId _ (AList.lookup_insert _)

/-- **`Terminate` signals the leader, and only the leader**, in every state that a run comes
through, exactly when every `CreateSession` of the run is given a positive PID below 2^31. -/
theorem terminate_leader_iff (events : List BusEvent) :
    Throughout next (fun d => d.state.TerminatesLeader) new events ↔
      EachStep next PidValid new events := by
  have hnew : new.state.TerminatesLeader := by
    intro sessionId pid hcall
    simp [SessionState.terminate, new, SessionState.new] at hcall
  constructor
  · intro h
    exact h.eachStep fun d ev _ hnext => pidValid_of_next hnext
  · intro h
    exact h.throughout (fun d ev d' hd hpid hnext => terminatesLeader_next hd hpid hnext) hnew

/-- A leader that becomes -1, every process there is. -/
theorem terminate_everything :
    ¬ ∀ (events : List BusEvent) (d : Shim), run events = some d →
      d.state.TerminatesLeader := by
  intro hall
  have hrun : (run (login ⟨0, 1⟩ (localUser 1000 0xFFFFFFFF))).map
      (fun d => (d.state.terminate "c1").toOption) = some (some (-1)) := by decide +kernel
  obtain ⟨d, hd, hcall⟩ := Option.map_eq_some_iff.mp hrun
  cases hterminate : d.state.terminate "c1" with
  | error e => simp [hterminate, Except.toOption] at hcall
  | ok pid =>
    simp only [hterminate, Except.toOption, Option.some.injEq] at hcall
    have hpos := (hall _ d hd "c1" pid hterminate).1
    rw [hcall] at hpos
    exact absurd hpos (by decide)

end Shim

end WriteonceOs.Logind
