import WriteonceOs.Logind.Sessions

/-!
# What failed calls leave behind

`CreateSession` puts the session into the table before it registers the object, makes the pipe and
emits the signal; `Inhibit` pushes the record before it makes the pipe, and the watcher drops a read
end that it cannot watch and nothing else.  None of these failures takes anything back.

* `createSessionAlone_lookup`, `createSessionAlone_failed_iff` — a call of `CreateSession` enters
  its session however it ends, and fails when a step after that does;
* `inhibitAlone_inhibitors`, `inhibitAlone_failed_iff` — the same for `Inhibit`;
* `no_residue_iff` — when nothing is left.
-/

namespace WriteonceOs.Logind

/-! ### `CreateSession` -/

/-- What the system answers to one call of `CreateSession`. -/
structure CreateAnswers where
  insert : StepAnswer
  register : Except String ℕ
  pipe : Except String ℕ
  signal : Except String ℕ

/-- No step after the critical section fails. -/
def CreateAnswers.Succeed (ans : CreateAnswers) : Prop :=
  ans.register.isOk ∧ ans.pipe.isOk ∧ ans.signal.isOk

namespace Shim

variable (d : Shim) (key : CallKey) (args : CreateArgs) (ans : CreateAnswers)

/-- The steps of one call, one after the other, until it returns. -/
def serveAll (d : Shim) (key : CallKey) : List StepAnswer → Shim
  | [] => d
  | ans :: answers =>
    match d.next (.serve key ans) with
    | none => d
    | some d' => d'.serveAll key answers

/-- A call of `CreateSession` that nothing interrupts. -/
def createSessionAlone : Shim :=
  (d.move key (.createSession args) .asked).serveAll key
    [ans.insert, { result := ans.register }, { result := ans.pipe }, { result := ans.signal }]

/-- The session that the call enters. -/
def enteredInfo : SessionInfo := args.sessionInfo d.state.freshId ans.insert

/-- The table after the call, however it ends. -/
theorem createSessionAlone_sessions :
    (d.createSessionAlone key args ans).state.sessions =
      d.state.sessions.insert d.state.freshId (d.enteredInfo args ans) := by
  obtain ⟨insert, register, pipe, signal⟩ := ans
  cases register <;> cases pipe <;> cases signal <;>
    simp [createSessionAlone, serveAll, next, serve, createSession, createInsert, createExport,
      createPipe, emit, reply, move, SessionState.allocateSessionId, SessionState.freshId,
      enteredInfo]

/-- The call fails when a step after the critical section does. -/
theorem createSessionAlone_failed_iff :
    (∃ e, (d.createSessionAlone key args ans).calls key =
        some ⟨.createSession args, .returned (.failed e)⟩) ↔ ¬ ans.Succeed := by
  obtain ⟨insert, register, pipe, signal⟩ := ans
  cases register <;> cases pipe <;> cases signal <;>
    simp [createSessionAlone, serveAll, next, serve, createSession, createInsert, createExport,
      createPipe, emit, reply, move, SessionState.allocateSessionId, CreateAnswers.Succeed,
      Except.isOk, Except.toBool]

/-- The call leaves the table as it was exactly when it held that very session before. -/
theorem createSessionAlone_lookup :
    (∀ id, (d.createSessionAlone key args ans).state.sessions.lookup id =
        d.state.sessions.lookup id) ↔
      d.state.sessions.lookup d.state.freshId = some (d.enteredInfo args ans) := by
  rw [createSessionAlone_sessions]
  constructor
  · intro h
    rw [← h d.state.freshId, AList.lookup_insert]
  · intro h id
    by_cases hid : id = d.state.freshId
    · rw [hid, AList.lookup_insert, h]
    · rw [AList.lookup_insert_ne hid]

/-- Whatever happens between the steps of a call, the step that fails leaves the table alone. -/
theorem createSession_failed_keeps {progress : Progress} {ans : StepAnswer} {d' : Shim}
    (h : d.createSession key args ans progress = some d')
    (hfailed : ∃ e, d'.calls key = some ⟨.createSession args, .returned (.failed e)⟩) :
    d'.state = d.state := by
  obtain ⟨e, he⟩ := hfailed
  cases progress with
  | asked =>
    cases h
    simp [createInsert, move] at he
  | inserted info =>
    cases h
    cases hresult : ans.result <;> rfl
  | exported info =>
    cases h
    cases hresult : ans.result <;> rfl
  | piped info fd =>
    cases h
    cases hresult : ans.result <;> rfl
  | _ => cases h

end Shim

/-! ### `Inhibit` and the watcher -/

namespace Daemon

variable (s : Daemon) (args : InhibitArgs) (pipe wake : Answer)

/-- The steps of one call, one after the other, until it returns. -/
def serveCall (s : Daemon) (c : ℕ) : List Answer → Daemon
  | [] => s
  | ans :: answers =>
    match s.next (.inhibit c ans) with
    | none => s
    | some s' => s'.serveCall c answers

/-- A new call of `Inhibit`. -/
def ask : Daemon := { s with calls := s.calls ++ [⟨args, .asked⟩] }

/-- A call of `Inhibit` that nothing interrupts; the wake byte may fail unnoticed. -/
def inhibitAlone : Daemon :=
  (s.ask args).serveCall s.calls.length [.ok (), pipe, .ok (), wake, .ok ()]

/-- The list after the call: a call that is not refused for its mode enters a record, however it
ends. -/
theorem inhibitAlone_inhibitors :
    (s.inhibitAlone args pipe wake).app.inhibitors =
      if args.mode ≠ "block" ∧ args.mode ≠ "delay" then s.app.inhibitors
      else s.app.inhibitors ++ [(⟨args, .asked⟩ : Call).inhibitor s.app.nextInhibitorId] := by
  by_cases hmode : args.mode ≠ "block" ∧ args.mode ≠ "delay"
  · simp [inhibitAlone, ask, serveCall, next, inhibit, inhibitRecord, hmode, move]
  · cases pipe <;> cases wake <;>
      simp [inhibitAlone, ask, serveCall, next, inhibit, inhibitRecord, hmode, move,
        makePipeCloexec, registerPush, registerWake, AppState.allocateInhibitorId]

/-- The call fails for its mode or with its pipe. -/
theorem inhibitAlone_failed_iff :
    (∃ e, (s.inhibitAlone args pipe wake).calls[s.calls.length]?.map Call.phase =
        some (.failed e)) ↔
      (args.mode ≠ "block" ∧ args.mode ≠ "delay") ∨ pipe ≠ .ok () := by
  by_cases hmode : args.mode ≠ "block" ∧ args.mode ≠ "delay"
  · simp [inhibitAlone, ask, serveCall, next, inhibit, inhibitRecord, hmode, move]
  · cases pipe <;> cases wake <;>
      simp [inhibitAlone, ask, serveCall, next, inhibit, inhibitRecord, hmode, move,
        makePipeCloexec, registerPush, registerWake, AppState.allocateInhibitorId]

/-- A read end that cannot be watched is dropped, and its record stays. -/
theorem watch_refused {req : AddRequest} {batch : List AddRequest} {add : Answer}
    (hthread : s.thread = .draining (req :: batch)) (hadd : add ≠ .ok ()) :
    s.watch add = some { s with thread := .draining batch } := by
  cases add with
  | ok _ => exact absurd rfl hadd
  | error e => simp [watch, hthread]

end Daemon

/-! ### Both -/

/-- **A failed call leaves nothing behind** exactly when no step of `CreateSession` after its
critical section fails, or the table held that very session; the mode of `Inhibit` is refused or its
pipe is made; and the read end that the watcher takes up is added to epoll, or has no record any
more. -/
theorem no_residue_iff (d : Shim) (key : CallKey) (args : CreateArgs) (ans : CreateAnswers)
    (s : Daemon) (request : InhibitArgs) (pipe wake add : Answer) :
    (((∃ e, (d.createSessionAlone key args ans).calls key =
          some ⟨.createSession args, .returned (.failed e)⟩) →
        ∀ id, (d.createSessionAlone key args ans).state.sessions.lookup id =
          d.state.sessions.lookup id) ∧
      ((∃ e, (s.inhibitAlone request pipe wake).calls[s.calls.length]?.map Call.phase =
          some (.failed e)) →
        (s.inhibitAlone request pipe wake).app.inhibitors = s.app.inhibitors) ∧
      ∀ req batch s', s.thread = .draining (req :: batch) → add ≠ .ok () →
        s.watch add = some s' → ∀ i ∈ s'.app.inhibitors, i.id ≠ req.id) ↔
    ((ans.Succeed ∨ d.state.sessions.lookup d.state.freshId = some (d.enteredInfo args ans)) ∧
      ((request.mode ≠ "block" ∧ request.mode ≠ "delay") ∨ pipe = .ok ()) ∧
      ∀ req batch, s.thread = .draining (req :: batch) →
        add = .ok () ∨ ∀ i ∈ s.app.inhibitors, i.id ≠ req.id) := by
  rw [d.createSessionAlone_failed_iff, d.createSessionAlone_lookup, s.inhibitAlone_failed_iff,
    s.inhibitAlone_inhibitors]
  refine and_congr (by tauto) (and_congr ?_ ?_)
  · by_cases hmode : request.mode ≠ "block" ∧ request.mode ≠ "delay"
    · simp only [if_pos hmode, implies_true, true_iff]
      exact Or.inl hmode
    · simp [hmode]
  · constructor
    · intro h req batch hthread
      by_cases hadd : add = .ok ()
      · exact Or.inl hadd
      · have hwatch := s.watch_refused hthread hadd
        exact Or.inr (h req batch { s with thread := .draining batch } hthread hadd hwatch)
    · intro h req batch s' hthread hadd hwatch
      rw [s.watch_refused hthread hadd, Option.some.injEq] at hwatch
      rw [← hwatch]
      exact (h req batch hthread).resolve_left hadd

/-- The session stays although its caller got an error, here for want of a pipe. -/
theorem session_outlives_failed_call :
    ¬ ∀ (d : Shim) (key : CallKey) (args : CreateArgs) (ans : CreateAnswers),
      (∃ e, (d.createSessionAlone key args ans).calls key =
        some ⟨.createSession args, .returned (.failed e)⟩) →
      ∀ id, (d.createSessionAlone key args ans).state.sessions.lookup id =
        d.state.sessions.lookup id := by
  intro hall
  have hfailed := (Shim.createSessionAlone_failed_iff .new ⟨0, 1⟩
    ⟨1000, 412, "login", "tty", "user", "seat0", 1, "", false⟩
    ⟨{}, .ok 0, .error "Too many open files", .ok 0⟩).mpr
    (by simp [CreateAnswers.Succeed, Except.isOk, Except.toBool])
  have hkept := hall _ _ _ _ hfailed
  rw [Shim.createSessionAlone_lookup] at hkept
  simp [Shim.new, SessionState.new] at hkept

end WriteonceOs.Logind
