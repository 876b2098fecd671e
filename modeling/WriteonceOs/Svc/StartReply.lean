import WriteonceOs.Svc.RestartRequest

/-!
# What the reply to a start says

`START`, `RESTART` and `ENABLE` end in the same start of a unit and all that it needs.  Its reply
says whether the transaction could be built; that a unit was not spawned, that a oneshot failed or
that a requirement held it back shows in the states alone.

* `served_ok_iff` — when a request replies `ok`, and with which state;
* `named_state` — the state of the named unit after its start;
* `tells_truth_iff` — when an `ok` means that the unit is up.
-/

namespace WriteonceOs.Svc

open WriteonceOs.Library

/-! ### The three requests -/

inductive StartKind where
  | start
  | restart
  | enable
  deriving DecidableEq, Repr

def StartKind.request : StartKind → String → Request
  | .start, name => .start (some name)
  | .restart, name => .restart (some name)
  | .enable, name => .enable (some name)

section Reply

variable {alloc : PidAllocator} {s t : SupervisorState} {ans : ControlAnswer} {name : String}
  {kind : StartKind} {id : UnitId}

/-- The state that the start of a request finds, when it gets there: the one before the request,
the one that the stop leaves behind, or the one with the new edge. -/
def startFinds (s : SupervisorState) (ans : ControlAnswer) (name : String) :
    StartKind → Option SupervisorState
  | .start =>
    match ans.firstWrite with
    | .error _ => none
    | .ok _ => some s
  | .restart =>
    match s.stopUnit name ans.stop with
    | .error _ => none
    | .ok (_, .error _) => none
    | .ok (t, .ok _) => some t
  | .enable =>
    match s.registry.lookup name, ans.enableStub, ans.firstWrite,
      s.registry.addWantedBy "multi-user.target" name, ans.secondWrite with
    | some _, .ok _, .ok _, .ok registry, .ok _ => some { s with registry := registry }
    | _, _, _, _, _ => none

/-- An `ok` to the request means that the named unit is active, or a oneshot that has just completed
cleanly. -/
def TellsTruth (alloc : PidAllocator) (s : SupervisorState) (ans : ControlAnswer) (name : String)
    (kind : StartKind) : Prop :=
  ∀ s', Control.handle alloc s ans (kind.request name) = .ok (s', .ok ()) →
    ∀ id, s.registry.lookup name = some id →
      (s'.units id).state = .active ∨
        (s.registry.IsOneshot id ∧ (s'.units id).state = .inactive)

/-- **A request replies `ok` exactly when its start does.** -/
theorem served_ok_iff {s' : SupervisorState} :
    Control.handle alloc s ans (kind.request name) = .ok (s', .ok ()) ↔
      ∃ t, startFinds s ans name kind = some t ∧
        t.startNamed alloc name ans.ords ans.starts = (s', .ok ()) := by
  cases kind with
  | start =>
    simp only [StartKind.request, Control.handle, Control.start, startFinds]
    cases ans.firstWrite with
    | error e => simp
    | ok _ => simp
  | restart =>
    simp only [StartKind.request, Control.handle, Control.restart, startFinds]
    cases s.stopUnit name ans.stop with
    | error t => simp
    | ok out =>
      obtain ⟨t, res⟩ := out
      cases res with
      | error e => simp
      | ok _ => simp
  | enable =>
    simp only [StartKind.request, Control.handle, Control.enable, startFinds]
    cases s.registry.lookup name with
    | none => simp
    | some id =>
      cases ans.enableStub with
      | error e => simp
      | ok _ =>
        cases ans.firstWrite with
        | error e => simp
        | ok _ =>
          cases s.registry.addWantedBy "multi-user.target" name with
          | error e => simp
          | ok registry =>
            cases ans.secondWrite with
            | error e => simp
            | ok _ => simp

/-- The start finds the units and the names of the request's state. -/
theorem startFinds_registry (h : startFinds s ans name kind = some t) :
    t.registry.units = s.registry.units ∧ t.registry.byName = s.registry.byName := by
  cases kind with
  | start =>
    simp only [startFinds] at h
    split at h
    · cases h
    · cases h
      exact ⟨rfl, rfl⟩
  | restart =>
    simp only [startFinds] at h
    split at h
    case h_1 => cases h
    case h_2 => cases h
    case h_3 hstop =>
      cases h
      rw [SupervisorState.stopUnit_registry hstop]
      exact ⟨rfl, rfl⟩
  | enable =>
    simp only [startFinds] at h
    split at h
    case h_1 hadd _ =>
      cases h
      obtain ⟨hunits, hnames, -⟩ := UnitRegistry.addWantedBy_spec hadd
      exact ⟨hunits, hnames⟩
    case h_2 => cases h

/-! ### The named unit -/

/-- A unit that nothing fails is active, or a oneshot that is over. -/
theorem ownState_up {file : UnitFile} {ans : StartAnswer} (h : ownState file ans ≠ .failed) :
    ownState file ans = .active ∨ (ownState file ans = .inactive ∧
      ∃ service, file.service = some service ∧ service.kind = .oneshot) := by
  unfold ownState at h ⊢
  cases hservice : file.service with
  | none => exact .inl rfl
  | some service =>
    simp only [hservice] at h ⊢
    cases hspawn : ans.spawn with
    | error e => simp [hspawn] at h
    | ok _ =>
      simp only [hspawn] at h ⊢
      split
      case h_2 => exact .inl rfl
      case h_1 hkind =>
        simp only [hkind] at h
        rcases OneshotEnd.state_cases service.remainAfterExit _ with hstate | hstate | hstate
        · exact absurd hstate h
        · exact .inl hstate
        · exact .inr ⟨hstate, service, rfl, hkind⟩

/-- The plan of a start contains the unit that it is for. -/
theorem named_mem_plan {reg : UnitRegistry} {ords : HashOrders} {plan : List Job}
    (hid : reg.lookup name = some id) (hplan : reg.buildTransaction ords name = .ok plan) :
    id ∈ plan.map (·.unit) := by
  obtain ⟨id', sorted, hid', rfl, hperm, -⟩ := reg.buildTransaction_ok hplan
  rw [hid, Option.some.injEq] at hid'
  subst hid'
  rw [plan_units, hperm.mem_iff, reg.mem_startClosure (reg.lookup_lt hid)]

/-- **The named unit after its start**: failed exactly when it was refused, and else active or a
oneshot that is over. -/
theorem named_state (alloc : PidAllocator) {plan : List Job}
    (hid : t.registry.lookup name = some id)
    (hplan : t.registry.buildTransaction ans.ords name = .ok plan) :
    (((t.startNamed alloc name ans.ords ans.starts).1.units id).state = .active ∨
        (t.registry.IsOneshot id ∧
          ((t.startNamed alloc name ans.ords ans.starts).1.units id).state = .inactive)) ↔
      ¬ Refused t.registry ans.starts (plan.map (·.unit)) (fun v => (t.units v).state) id := by
  have h := SupervisorState.startNamed_inv alloc ans.starts hplan
  have hmem := named_mem_plan hid hplan
  by_cases hup : (t.units id).state = .active
  · refine iff_of_true (.inl (h.kept id hup)) fun hrefused => ?_
    cases hrefused with
    | own hdown => exact hdown hup
    | stale hdown => exact hdown hup
    | held hdown => exact hdown hup
  · constructor
    · intro hstate hrefused
      have hfailed := (h.failed id hmem hup).mpr hrefused
      rw [hfailed] at hstate
      rcases hstate with hstate | ⟨-, hstate⟩
      · cases hstate
      · cases hstate
    · intro hrefused
      have hown := h.up id hmem hup hrefused
      have hnot : ownState (t.registry.get id).file (ans.starts id) ≠ .failed :=
        fun hfail => hrefused (.own hup hfail)
      rw [hown]
      rcases ownState_up hnot with hactive | ⟨hinactive, honeshot⟩
      · exact .inl hactive
      · exact .inr ⟨honeshot, hinactive⟩

/-- **When an `ok` tells the truth**: exactly when the start of the request, if it comes to one,
does not refuse the named unit in the state that it finds. -/
theorem tells_truth_iff (alloc : PidAllocator) (s : SupervisorState) (ans : ControlAnswer)
    (name : String) (kind : StartKind) :
    TellsTruth alloc s ans name kind ↔
      ∀ t plan id, startFinds s ans name kind = some t → s.registry.lookup name = some id →
        t.registry.buildTransaction ans.ords name = .ok plan →
        ¬ Refused t.registry ans.starts (plan.map (·.unit)) (fun v => (t.units v).state) id := by
  have hregistry {t : SupervisorState} {id : UnitId} (hfinds : startFinds s ans name kind = some t)
      (hid : s.registry.lookup name = some id) : t.registry.lookup name = some id ∧
        (t.registry.IsOneshot id ↔ s.registry.IsOneshot id) := by
    obtain ⟨hunits, hnames⟩ := startFinds_registry hfinds
    refine ⟨?_, ?_⟩
    · rw [UnitRegistry.lookup, hnames]
      exact hid
    · rw [UnitRegistry.IsOneshot, UnitRegistry.get, hunits]
      exact Iff.rfl
  constructor
  · intro h t plan id hfinds hid hplan
    obtain ⟨hlookup, honeshot⟩ := hregistry hfinds hid
    have hok : t.startNamed alloc name ans.ords ans.starts =
        ((t.startNamed alloc name ans.ords ans.starts).1, .ok ()) := by
      simp only [SupervisorState.startNamed, hplan]
    have htruth := h _ (served_ok_iff.mpr ⟨t, hfinds, hok⟩) id hid
    rw [← honeshot] at htruth
    exact (named_state alloc hlookup hplan).mp htruth
  · intro h s' hserved id hid
    obtain ⟨t, hfinds, hstart⟩ := served_ok_iff.mp hserved
    obtain ⟨hlookup, honeshot⟩ := hregistry hfinds hid
    cases hplan : t.registry.buildTransaction ans.ords name with
    | error e =>
      rw [SupervisorState.startNamed, hplan] at hstart
      cases hstart
    | ok plan =>
      have hstate := (named_state alloc hlookup hplan).mpr (h t plan id hfinds hid hplan)
      rw [hstart, honeshot] at hstate
      exact hstate

/-- A service that is to run as a user whom nobody knows. -/
def strangerUnits : List LoadedUnit :=
  [⟨"web.service", { service := some { execStart := "/bin/web", user := "stranger" } }⟩]

def strangerUnknown : ControlAnswer where
  starts := fun _ => { spawn := .error "unknown user: stranger" }

/-- The spawn of the service fails; the reply to its start is `ok`. -/
theorem failed_start_replies_ok : ∃ s',
    Control.handle .counting (.new (.fromLoaded strangerUnits) false) strangerUnknown
        (StartKind.start.request "web.service") = .ok (s', .ok ()) ∧
      (s'.units 0).state = .failed ∧
      ¬ TellsTruth .counting (.new (.fromLoaded strangerUnits) false) strangerUnknown
        "web.service" .start := by
  refine ⟨_, rfl, by decide +kernel, fun h => ?_⟩
  rcases h _ rfl 0 (by decide +kernel) with hactive | ⟨-, hinactive⟩
  · revert hactive
    decide +kernel
  · revert hinactive
    decide +kernel

end Reply

end WriteonceOs.Svc
