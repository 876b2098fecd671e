import Mathlib.Logic.Function.Basic
import WriteonceOs.Logind.Inhibitor

/-!
# What the steps of the daemon do

While no system call fails, every step of the daemon is one of the constructors of `Daemon.Step`.
Of a call only its handle matters to them: the record, the pipe and the request it has made so far.

* `next_step` — what a step does;
* `Handle` — what a call has made, with what goes together in it;
* `handle_move` — a call that comes to another point changes its own handle only.
-/

namespace WriteonceOs.Logind

/-! ### The steps -/

namespace Daemon

/-- A step of a call or of its caller. -/
inductive CallStep (s : Daemon) : Daemon → Prop
  | ask (args : InhibitArgs) : CallStep s { s with calls := s.calls ++ [⟨args, .asked⟩] }
  | refuse {c : ℕ} {call : Call} (e : FdoError) (hc : s.calls[c]? = some call)
      (hphase : call.phase = .asked) : CallStep s (s.move c (.failed e))
  | record {c : ℕ} {call : Call} (hc : s.calls[c]? = some call) (hphase : call.phase = .asked) :
      CallStep s { s.move c (.recorded s.app.nextInhibitorId) with
        app := ⟨s.app.nextInhibitorId + 1,
          s.app.inhibitors ++ [call.inhibitor s.app.nextInhibitorId]⟩ }
  | pipe {c : ℕ} {call : Call} {id : UInt32} (hc : s.calls[c]? = some call)
      (hphase : call.phase = .recorded id) :
      CallStep s { s.move c (.piped id s.pipes) with
        pipes := s.pipes + 1
        writers := s.pipes :: s.writers }
  | push {c : ℕ} {call : Call} {id : UInt32} {fd : ℕ} (hc : s.calls[c]? = some call)
      (hphase : call.phase = .piped id fd) : CallStep s (s.registerPush c ⟨id, fd⟩)
  | wake {c : ℕ} {call : Call} {id : UInt32} {fd : ℕ} (hc : s.calls[c]? = some call)
      (hphase : call.phase = .queued id fd) :
      CallStep s { s.move c (.woken id fd) with wake := s.wake + 1 }
  | reply {c : ℕ} {call : Call} {id : UInt32} {fd : ℕ} (hc : s.calls[c]? = some call)
      (hphase : call.phase = .woken id fd) : CallStep s (s.move c (.returned id fd))
  | close {c : ℕ} {call : Call} {id : UInt32} {fd : ℕ} (hc : s.calls[c]? = some call)
      (hphase : call.phase = .returned id fd) :
      CallStep s { s.move c (.closed id fd) with writers := s.writers.filter (· ≠ fd) }

/-- A step of the watcher thread. -/
inductive WatchStep (s : Daemon) : Daemon → Prop
  | take (hthread : s.thread = .top) :
      WatchStep s { s with pending := [], thread := .draining s.pending }
  | drained (hthread : s.thread = .draining []) : WatchStep s { s with thread := .waiting }
  | add {req : AddRequest} {batch : List AddRequest}
      (hthread : s.thread = .draining (req :: batch)) :
      WatchStep s { s with
        interest := s.interest ++ [req.interest]
        thread := .inserting req batch }
  | insert {req : AddRequest} {batch : List AddRequest}
      (hthread : s.thread = .inserting req batch) :
      WatchStep s { s.insertFd req with thread := .draining batch }
  | report {ready : List Interest} (hthread : s.thread = .waiting) (hready : s.Reportable ready) :
      WatchStep s { s with thread := .serving (ready.map fun i => ⟨s.revents i, i.event.u64⟩) }
  | retry (hthread : s.thread = .waiting) : WatchStep s { s with thread := .top }
  | stop (hthread : s.thread = .waiting) : WatchStep s { s with thread := .stopped }
  | answer {ev : EpollEvent} {events : List EpollEvent}
      (hthread : s.thread = .serving (ev :: events)) (hev : ev.u64 = wakeToken)
      (hwake : 0 < s.wake) : WatchStep s { s with wake := s.wake - 64, thread := .serving events }
  | ignore {ev : EpollEvent} {events : List EpollEvent}
      (hthread : s.thread = .serving (ev :: events)) (hev : ev.u64 ≠ wakeToken) :
      WatchStep s { s with thread := .serving events }
  | hangup {ev : EpollEvent} {events : List EpollEvent}
      (hthread : s.thread = .serving (ev :: events)) (hev : ev.u64 ≠ wakeToken) :
      WatchStep s { s.releaseFd ev.u64.toUInt32 with thread := .releasing ev.u64.toUInt32 events }
  | release {id : UInt32} {events : List EpollEvent} (hthread : s.thread = .releasing id events) :
      WatchStep s { s.releaseRecord id with thread := .serving events }
  | again (hthread : s.thread = .serving []) : WatchStep s { s with thread := .top }

/-- What one step does while no system call fails. -/
def Step (s s' : Daemon) : Prop := s.CallStep s' ∨ s.WatchStep s'

variable {s s' : Daemon}

theorem inhibit_step {c : ℕ} {call : Call} (hc : s.calls[c]? = some call)
    (h : s.inhibit c call (.ok ()) = some s') : s.CallStep s' := by
  unfold inhibit at h
  cases hphase : call.phase with
  | asked =>
    rw [hphase] at h
    cases h
    unfold inhibitRecord
    simp only
    split
    · exact .refuse _ hc hphase
    · exact .record hc hphase
  | recorded id =>
    rw [hphase] at h
    cases h
    exact .pipe hc hphase
  | piped id fd =>
    rw [hphase] at h
    cases h
    exact .push hc hphase
  | queued id fd =>
    rw [hphase] at h
    cases h
    exact .wake hc hphase
  | woken id fd =>
    rw [hphase] at h
    cases h
    exact .reply hc hphase
  | failed e => simp [hphase] at h
  | returned id fd => simp [hphase] at h
  | closed id fd => simp [hphase] at h

theorem closeHandle_step {c : ℕ} {call : Call} (hc : s.calls[c]? = some call)
    (h : s.closeHandle c call = some s') : s.CallStep s' := by
  unfold closeHandle at h
  split at h
  case h_1 id fd hphase =>
    cases h
    exact .close hc hphase
  case h_2 => cases h

theorem serve_step {ev : EpollEvent} {events : List EpollEvent}
    (hthread : s.thread = .serving (ev :: events)) (h : s.serve ev events = some s') :
    s.WatchStep s' := by
  unfold serve at h
  split at h
  case isTrue hev =>
    split at h
    case isTrue => cases h
    case isFalse hwake =>
      cases h
      exact .answer hthread hev (Nat.pos_of_ne_zero hwake)
  case isFalse hev =>
    split at h
    · cases h
      exact .hangup hthread hev
    · cases h
      exact .ignore hthread hev

theorem watch_step (h : s.watch (.ok ()) = some s') : s.WatchStep s' := by
  unfold watch at h
  split at h
  case h_1 hthread =>
    cases h
    exact .take hthread
  case h_2 hthread =>
    cases h
    exact .drained hthread
  case h_3 hthread =>
    cases h
    exact .add hthread
  case h_4 hthread =>
    cases h
    exact .insert hthread
  case h_5 hthread =>
    cases h
    exact .again hthread
  case h_6 hthread => exact serve_step hthread h
  case h_7 hthread =>
    cases h
    exact .release hthread
  case h_8 => cases h
  case h_9 => cases h

/-- **What a step can do.** -/
theorem next_step {e : Event} (he : e.Succeeds) (h : s.next e = some s') : s.Step s' := by
  cases e with
  | ask args =>
    cases h
    exact .inl (.ask args)
  | inhibit c ans =>
    cases he
    simp only [next] at h
    split at h
    case h_1 call hc => exact .inl (inhibit_step hc h)
    case h_2 => cases h
  | close c =>
    simp only [next] at h
    split at h
    case h_1 call hc => exact .inl (closeHandle_step hc h)
    case h_2 => cases h
  | watch ans =>
    cases he
    exact .inr (watch_step h)
  | epollWait ready =>
    simp only [next] at h
    split at h
    case isTrue hready =>
      cases h
      exact .inr (.report hready.1 hready.2)
    case isFalse => cases h
  | epollFail err =>
    simp only [next] at h
    split at h
    case isTrue hthread =>
      cases err with
      | interrupted =>
        cases h
        exact .inr (.retry hthread)
      | other e =>
        cases h
        exact .inr (.stop hthread)
    case isFalse => cases h

end Daemon

namespace Daemon

variable (s : Daemon)

theorem insertFd_frame (req : AddRequest) : (s.insertFd req).calls = s.calls ∧
    (s.insertFd req).app = s.app ∧ (s.insertFd req).pending = s.pending ∧
    (s.insertFd req).wake = s.wake := by
  unfold insertFd
  split <;> exact ⟨rfl, rfl, rfl, rfl⟩

theorem releaseFd_frame (id : UInt32) : (s.releaseFd id).calls = s.calls ∧
    (s.releaseFd id).app = s.app ∧ (s.releaseFd id).pending = s.pending ∧
    (s.releaseFd id).wake = s.wake := by
  unfold releaseFd
  split <;> exact ⟨rfl, rfl, rfl, rfl⟩

end Daemon

/-! ### Handles -/

/-- What a call has made so far: a request stands for a record and a pipe, and a handle is closed
or its wake byte is owed only after the request. -/
structure Handle where
  record : Option Inhibitor := none
  pipe : Option ℕ := none
  request : Option AddRequest := none
  -- the wake byte is still to be written
  owed : Bool := false
  closed : Bool := false
  request_made : ∀ req, request = some req →
    (∃ r, record = some r ∧ r.id = req.id) ∧ pipe = some req.fd := by simp
  request_of_closed : closed = true → request ≠ none := by simp

namespace Call

/-- What is behind the call at the point it has come to. -/
def handle (call : Call) : Handle :=
  match call.phase with
  | .asked | .failed _ => {}
  | .recorded id => { record := some (call.inhibitor id) }
  | .piped id fd => { record := some (call.inhibitor id), pipe := some fd }
  | .queued id fd =>
    { record := some (call.inhibitor id), pipe := some fd, request := some ⟨id, fd⟩, owed := true
      request_made := by rintro _ ⟨⟩; exact ⟨⟨_, rfl, rfl⟩, rfl⟩ }
  | .woken id fd | .returned id fd =>
    { record := some (call.inhibitor id), pipe := some fd, request := some ⟨id, fd⟩
      request_made := by rintro _ ⟨⟩; exact ⟨⟨_, rfl, rfl⟩, rfl⟩ }
  | .closed id fd =>
    { record := some (call.inhibitor id), pipe := some fd, request := some ⟨id, fd⟩, closed := true
      request_made := by rintro _ ⟨⟩; exact ⟨⟨_, rfl, rfl⟩, rfl⟩ }

/-- The call has its record. -/
def Recorded (call : Call) : Bool := call.handle.record.isSome

end Call

/-- A field that the new handle of a call shares with the old one. -/
theorem update_field {β : Type*} (f : Handle → β) (hs : ℕ → Handle) {c : ℕ} {hd : Handle}
    (hf : f hd = f (hs c)) (c' : ℕ) : f (Function.update hs c hd c') = f (hs c') := by
  by_cases h : c' = c
  · rw [h, Function.update_self, hf]
  · rw [Function.update_of_ne h]

namespace Daemon

/-- The handle of call `c`, empty while there is no such call. -/
def handle (s : Daemon) (c : ℕ) : Handle := (s.calls[c]?).elim {} Call.handle

/-- The number of records made so far. -/
def recorded (s : Daemon) : ℕ := s.calls.countP Call.Recorded

variable {s : Daemon} {c : ℕ} {call : Call}

theorem handle_at (hc : s.calls[c]? = some call) {phase : Phase} (hphase : call.phase = phase) :
    s.handle c = Call.handle { call with phase := phase } := by
  rw [handle, hc, ← hphase]
  rfl

theorem handle_cases (s : Daemon) (c : ℕ) :
    s.handle c = {} ∨ ∃ call ∈ s.calls, s.handle c = call.handle := by
  cases hc : s.calls[c]? with
  | none =>
    rw [handle, hc]
    exact .inl rfl
  | some call => exact .inr ⟨call, List.mem_of_getElem? hc, handle_at hc rfl⟩

/-- A call that has just arrived has made nothing. -/
theorem handle_ask (args : InhibitArgs) :
    ({ s with calls := s.calls ++ [⟨args, .asked⟩] } : Daemon).handle = s.handle := by
  funext c
  simp only [handle, List.getElem?_append]
  by_cases hlt : c < s.calls.length
  · rw [if_pos hlt]
  · rw [if_neg hlt, List.getElem?_eq_none (Nat.le_of_not_lt hlt)]
    cases hk : c - s.calls.length with
    | zero => rfl
    | succ k => rfl

theorem recorded_ask (args : InhibitArgs) :
    ({ s with calls := s.calls ++ [⟨args, .asked⟩] } : Daemon).recorded = s.recorded := by
  simp [recorded, List.countP_append, Call.Recorded, Call.handle]

/-- **A call that comes to another point changes its own handle only.** -/
theorem handle_move (hc : s.calls[c]? = some call) (phase : Phase) :
    (s.move c phase).handle =
      Function.update s.handle c (Call.handle { call with phase := phase }) := by
  funext c'
  by_cases h : c' = c
  · rw [h, Function.update_self]
    simp [handle, move, hc]
  · rw [Function.update_of_ne h]
    have hne : ¬ c = c' := fun heq => h heq.symm
    simp [handle, move, List.getElem?_modify_ne, hne]

/-- What a call that comes to another point shares with what it has made before. -/
theorem field_move {β : Type*} (f : Handle → β) (hc : s.calls[c]? = some call)
    {phase : Phase} (hphase : call.phase = phase) (phase' : Phase)
    (hf : f (Call.handle { call with phase := phase' }) =
      f (Call.handle { call with phase := phase })) (c' : ℕ) :
    f ((s.move c phase').handle c') = f (s.handle c') := by
  rw [handle_move hc]
  refine update_field f s.handle ?_ c'
  rw [hf, handle_at hc hphase]

theorem calls_move (hc : s.calls[c]? = some call) (phase : Phase) :
    (s.move c phase).calls = s.calls.set c { call with phase := phase } := by
  simp only [move]
  rw [List.modify_eq_set_getElem?, hc]
  rfl

/-- A call that has its record as before counts as before. -/
theorem recorded_move (hc : s.calls[c]? = some call) {phase : Phase} (hphase : call.phase = phase)
    (phase' : Phase) (h : Call.Recorded ⟨call.args, phase'⟩ = Call.Recorded ⟨call.args, phase⟩) :
    (s.move c phase').recorded = s.recorded := by
  obtain ⟨hlt, hget⟩ := List.getElem?_eq_some_iff.mp hc
  subst hphase
  rw [recorded, recorded, calls_move hc, List.countP_set hlt, hget, h]
  cases hr : call.Recorded with
  | false => simp
  | true =>
    have hpos : 0 < s.calls.countP Call.Recorded :=
      List.countP_pos_iff.mpr ⟨call, List.mem_of_getElem? hc, hr⟩
    simp only [if_true]
    omega

/-- A call that makes its record counts as one more. -/
theorem recorded_move_succ (hc : s.calls[c]? = some call) {phase : Phase}
    (hphase : call.phase = phase) (phase' : Phase)
    (h : Call.Recorded ⟨call.args, phase⟩ = false)
    (h' : Call.Recorded ⟨call.args, phase'⟩ = true) :
    (s.move c phase').recorded = s.recorded + 1 := by
  obtain ⟨hlt, hget⟩ := List.getElem?_eq_some_iff.mp hc
  subst hphase
  rw [recorded, recorded, calls_move hc, List.countP_set hlt, hget, h, h']
  rfl

/-- A call that has no record yet is among those not counted. -/
theorem recorded_lt (hc : s.calls[c]? = some call) (hr : call.Recorded = false) :
    s.recorded < s.calls.length := by
  have hmem := List.mem_of_getElem? hc
  refine lt_of_le_of_ne List.countP_le_length fun heq => ?_
  have hall := List.countP_eq_length.mp heq call hmem
  rw [hr] at hall
  cases hall

end Daemon

end WriteonceOs.Logind
