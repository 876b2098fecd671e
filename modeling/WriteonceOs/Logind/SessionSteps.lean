import WriteonceOs.Logind.Sessions

/-!
# What the steps of a session call do

Every step of a call is one of the constructors of `Shim.Served`; it touches no other call.

* `serve_inv`, `next_inv` — what a step does;
* `Served.calls`, `Served.table` — what it does to the calls and to the table of sessions;
* `Created` — how the sessions of the table and the objects come from the sessions created.
-/

namespace WriteonceOs.Logind

open WriteonceOs.Library

/-! ### Methods and replies -/

/-- The session whose object a lock or unlock call signals on, and the signal. -/
def Method.signal : Method → Option (String × Member)
  | .lockSession id => some (id, .lockSignal)
  | .unlockSession id => some (id, .unlockSignal)
  | .lock id => some (id, .lockSignal)
  | .unlock id => some (id, .unlockSignal)
  | _ => none

/-- A reply that reports a failure. -/
def Reply.Refuses : Reply → Prop
  | .failed _ => True
  | .unknownObject => True
  | _ => False

/-- An entry of the calls in which the one of `key` was written. -/
theorem calls_update_cases {calls : CallKey → Option SessionCall} {key key' : CallKey}
    {call call' : SessionCall} (h : Function.update calls key (some call) key' = some call') :
    key' = key ∧ call' = call ∨ calls key' = some call' := by
  by_cases hkey : key' = key
  · rw [hkey, Function.update_self] at h
    exact Or.inl ⟨hkey, (Option.some.inj h).symm⟩
  · rw [Function.update_of_ne hkey] at h
    exact Or.inr h

namespace Shim

variable (d : Shim) (key : CallKey)

/-- What a call names is there: the session for the Manager, the object for a Session call. -/
def Finds : Method → Prop
  | .lockSession id => d.state.sessions.lookup id ≠ none
  | .unlockSession id => d.state.sessions.lookup id ≠ none
  | .lock id => id ∈ d.objects
  | .unlock id => id ∈ d.objects
  | .activate id => id ∈ d.objects
  | .setIdleHint id _ => id ∈ d.objects
  | _ => False

/-- What one step of a call does. -/
inductive Served : Method → Progress → Shim → Prop
  | insert (args : CreateArgs) (ans : StepAnswer) :
      Served (.createSession args) .asked (d.createInsert key args ans)
  | register (args : CreateArgs) (info : SessionInfo) :
      Served (.createSession args) (.inserted info)
        { d.move key (.createSession args) (.exported info) with
          objects := if info.id ∈ d.objects then d.objects else info.id :: d.objects }
  | pipe (args : CreateArgs) (info : SessionInfo) (fd : ℕ) :
      Served (.createSession args) (.exported info)
        (d.move key (.createSession args) (.piped info fd))
  | announce (args : CreateArgs) (info : SessionInfo) (fd : ℕ) :
      Served (.createSession args) (.piped info fd)
        { d.reply key (.createSession args) (.session (createReply args info fd)) with
          signals := d.signals ++ [⟨managerPath, .sessionNew, key⟩] }
  | remove {id : String} (hid : d.state.sessions.lookup id ≠ none) :
      Served (.releaseSession id) .asked
        { d.move key (.releaseSession id) .removed with
          state := { d.state with sessions := d.state.sessions.erase id } }
  | withdraw (id : String) :
      Served (.releaseSession id) .removed
        { d.move key (.releaseSession id) .withdrawn with objects := d.objects.filter (· ≠ id) }
  | keep (id : String) :
      Served (.releaseSession id) .removed (d.move key (.releaseSession id) .withdrawn)
  | announceRemoved (id : String) :
      Served (.releaseSession id) .withdrawn
        { d.reply key (.releaseSession id) .done with
          signals := d.signals ++ [⟨managerPath, .sessionRemoved, key⟩] }
  | find {method : Method} (hfind : d.Finds method) :
      Served method .asked (d.move key method .dispatched)
  | signal {method : Method} {id : String} {member : Member}
      (hsignal : method.signal = some (id, member)) :
      Served method .dispatched
        { d.reply key method .done with
          signals := d.signals ++ [⟨sessionObjectPath id, member, key⟩] }
  | terminal {id : String} {s : SessionInfo} (hs : d.state.sessions.lookup id = some s)
      (hvtnr : s.vtnr ≠ 0) :
      Served (.activate id) .dispatched (d.move key (.activate id) (.switching s.vtnr))
  | switch (id : String) (vtnr : UInt32) :
      Served (.activate id) (.switching vtnr) (d.reply key (.activate id) .done)
  | hint {id : String} {s : SessionInfo} (hs : d.state.sessions.lookup id = some s) (idle : Bool)
      (since : UInt64) :
      Served (.setIdleHint id idle) .dispatched
        { d.reply key (.setIdleHint id idle) .done with
          state := { d.state with
            sessions := d.state.sessions.insert id
              { s with idleHint := idle, idleSince := since } } }
  | refuse {method : Method} {progress : Progress} {r : Reply} (hr : r.Refuses) :
      Served method progress (d.reply key method r)

variable {d : Shim} {key : CallKey} {d' : Shim} {ans : StepAnswer}

theorem createSession_inv {args : CreateArgs} {progress : Progress}
    (h : d.createSession key args ans progress = some d') :
    Served d key (.createSession args) progress d' := by
  cases progress with
  | asked =>
    cases h
    exact .insert args ans
  | inserted info =>
    cases h
    cases hres : ans.result with
    | ok fd => exact .register args info
    | error e => exact .refuse trivial
  | exported info =>
    cases h
    cases hres : ans.result with
    | ok fd => exact .pipe args info fd
    | error e => exact .refuse trivial
  | piped info fd =>
    cases h
    cases hres : ans.result with
    | ok _ => exact .announce args info fd
    | error e => exact .refuse trivial
  | _ => cases h

theorem releaseSession_inv {id : String} {progress : Progress}
    (h : d.releaseSession key id ans progress = some d') :
    Served d key (.releaseSession id) progress d' := by
  cases progress with
  | asked =>
    cases h
    unfold releaseRemove
    split
    case isTrue => exact .refuse trivial
    case isFalse hid => exact .remove hid
  | removed =>
    cases h
    cases hres : ans.result with
    | ok _ => exact .withdraw id
    | error e => exact .keep id
  | withdrawn =>
    cases h
    cases hres : ans.result with
    | ok _ => exact .announceRemoved id
    | error e => exact .refuse trivial
  | _ => cases h

/-- The step that emits the signal of a lock or unlock call. -/
theorem emit_inv {method : Method} {id context : String} {member : Member}
    (hsignal : method.signal = some (id, member)) :
    Served d key method .dispatched
      (d.emit key method (sessionObjectPath id) member .done context ans.result) := by
  cases hres : ans.result with
  | ok _ => exact .signal hsignal
  | error e => exact .refuse trivial

theorem dispatch_inv {method : Method} {id : String} (hfind : d.Finds method ↔ id ∈ d.objects) :
    Served d key method .asked (d.dispatch key method id) := by
  unfold dispatch
  split
  case isTrue hid => exact .find (hfind.mpr hid)
  case isFalse => exact .refuse trivial

theorem signalSession_inv {method : Method} {id context : String} {member : Member}
    {progress : Progress} (hsignal : method.signal = some (id, member))
    (hfind : d.Finds method ↔ d.state.sessions.lookup id ≠ none)
    (h : d.signalSession key method id member context ans progress = some d') :
    Served d key method progress d' := by
  cases progress with
  | asked =>
    cases h
    split
    case isTrue => exact .refuse trivial
    case isFalse hid => exact .find (hfind.mpr hid)
  | dispatched =>
    cases h
    exact emit_inv hsignal
  | _ => cases h

theorem signalObject_inv {method : Method} {id context : String} {member : Member}
    {progress : Progress} (hsignal : method.signal = some (id, member))
    (hfind : d.Finds method ↔ id ∈ d.objects)
    (h : d.signalObject key method id member context ans progress = some d') :
    Served d key method progress d' := by
  cases progress with
  | asked =>
    cases h
    exact dispatch_inv hfind
  | dispatched =>
    cases h
    exact emit_inv hsignal
  | _ => cases h

theorem activate_inv {id : String} {progress : Progress}
    (h : d.activate key id ans progress = some d') :
    Served d key (.activate id) progress d' := by
  cases progress with
  | asked =>
    cases h
    exact dispatch_inv Iff.rfl
  | dispatched =>
    cases h
    unfold activateLookup
    cases hs : d.state.sessions.lookup id with
    | none => exact .refuse trivial
    | some s =>
      simp only
      split
      case isTrue => exact .refuse trivial
      case isFalse hvtnr => exact .terminal hs hvtnr
  | switching vtnr =>
    rw [activate] at h
    cases hres : ans.result with
    | ok _ =>
      rw [hres] at h
      cases h
      exact .switch id vtnr
    | error e =>
      rw [hres] at h
      cases h
      exact .refuse trivial
  | _ => cases h

theorem setIdleHint_inv {id : String} {idle : Bool} {progress : Progress}
    (h : d.setIdleHint key id idle ans progress = some d') :
    Served d key (.setIdleHint id idle) progress d' := by
  cases progress with
  | asked =>
    cases h
    exact dispatch_inv Iff.rfl
  | dispatched =>
    cases h
    unfold setIdleHintUpdate
    cases hs : d.state.sessions.lookup id with
    | none => exact .refuse trivial
    | some s => exact .hint hs idle _
  | _ => cases h

/-- **The step of a call.** -/
theorem serve_inv {call : SessionCall} (h : d.serve key call ans = some d') :
    Served d key call.method call.progress d' := by
  obtain ⟨method, progress⟩ := call
  cases method with
  | createSession args => exact createSession_inv h
  | releaseSession id => exact releaseSession_inv h
  | lockSession id => exact signalSession_inv rfl Iff.rfl h
  | unlockSession id => exact signalSession_inv rfl Iff.rfl h
  | lock id => exact signalObject_inv rfl Iff.rfl h
  | unlock id => exact signalObject_inv rfl Iff.rfl h
  | activate id => exact activate_inv h
  | setIdleHint id idle => exact setIdleHint_inv h

/-- **A step of the daemon**: a call arrives, or a call makes a step. -/
theorem next_inv {ev : BusEvent} (h : d.next ev = some d') :
    (∃ method, ev = .call ev.key method ∧ d.calls ev.key = none ∧
      d' = d.move ev.key method .asked) ∨
    ∃ ans call, ev = .serve ev.key ans ∧ d.calls ev.key = some call ∧
      Served d ev.key call.method call.progress d' := by
  cases ev with
  | call key method =>
    rw [next] at h
    cases hc : d.calls key with
    | some call =>
      rw [hc] at h
      cases h
    | none =>
      rw [hc] at h
      cases h
      exact .inl ⟨method, rfl, hc, rfl⟩
  | serve key ans =>
    rw [next] at h
    cases hc : d.calls key with
    | none =>
      rw [hc] at h
      cases h
    | some call =>
      rw [hc] at h
      exact .inr ⟨ans, call, rfl, hc, serve_inv h⟩

/-! ### What a step leaves alone -/

variable {method : Method} {progress : Progress}

/-- A step changes its own call only, and the call keeps its method. -/
theorem Served.calls (h : Served d key method progress d') :
    ∃ p, d'.calls = Function.update d.calls key (some ⟨method, p⟩) := by
  cases h <;> exact ⟨_, rfl⟩

theorem Served.calls_of_ne (h : Served d key method progress d') {other : CallKey}
    (hne : other ≠ key) : d'.calls other = d.calls other := by
  obtain ⟨p, hp⟩ := h.calls
  rw [hp, Function.update_of_ne hne]

end Shim

end WriteonceOs.Logind
