import WriteonceOs.Svc.LiveGraph
import WriteonceOs.Svc.StopUnit

/-!
# What a disable request leaves running

`DISABLE` stops the unit and then removes its stub, and the stop comes first so that a failed one
keeps the stub.  The handler does not look at the outcome of the stop, though.

* `disable_refused` — the request when the stop is refused;
* `disable_stopped` — the request when the stop is planned;
* `allOrNothing_iff` — when a request disables all or nothing.
-/

namespace WriteonceOs.Svc

open WriteonceOs.Library Enabled

variable {alloc : PidAllocator} {live : Live} {ans : ControlAnswer} {u : UnitName} {id : UnitId}

/-- What the handler of `DISABLE` returns. -/
def serveDisable (alloc : PidAllocator) (live : Live) (ans : ControlAnswer) (u : UnitName) :
    Served :=
  Control.handle alloc live.sup (answersOf live.dir ans u) (requestOf (.disable u))

/-- The stop of the unit returns an error. -/
def StopFails (live : Live) (ans : ControlAnswer) (u : UnitName) : Prop :=
  ∃ t e, live.sup.stopUnit u ans.stop = .ok (t, .error e)

/-- After an `ok` the unit has neither a process nor a pending restart; when it could not be
stopped, the reply is an error and the stub stays. -/
def AllOrNothing (alloc : PidAllocator) (live : Live) (ans : ControlAnswer) (u : UnitName)
    (id : UnitId) : Prop :=
  ∀ t reply, serveDisable alloc live ans u = .ok (t, reply) →
    (reply = .ok () → t.Idle id ∧ ∀ p, t.byPid.lookup p ≠ some id) ∧
      (StopFails live ans u →
        (∃ e, reply = .error e) ∧ dirAfter live ans (.disable u) = live.dir)

/-- The request ends with an error before a stub is gone, or without a stub. -/
def EndsEarly (live : Live) (ans : ControlAnswer) (u : UnitName) : Prop :=
  (∃ e, ans.firstWrite = .error e) ∨ (∃ e, ans.disableStub = .error e) ∨
    nodeAt live.dir (stubName u) = some .directory ∨
    (nodeAt live.dir (stubName u) = none ∧ ∃ e, ans.secondWrite = .error e)

/-! ### The two outcomes of the stop -/

/-- **A planned stop**: it does not fail, and what it returns from is down. -/
theorem disable_stopped (h : live.sup.Consistent) (hid : live.sup.registry.lookup u = some id)
    {plan : List UnitId}
    (hplan : live.sup.registry.buildStopTransaction ans.stop.ords u = .ok plan) :
    AllOrNothing alloc live ans u id := by
  have hmem : id ∈ plan := ((live.sup.registry.stop_before_iff hid hplan).2.1 id).mpr .refl
  have hnofail : ¬ StopFails live ans u := by
    rintro ⟨t, e, hstop⟩
    rcases SupervisorState.stopUnit_stopped h.table u ans.stop with
      ⟨e', herror, -⟩ | ⟨_, -, ⟨t', heq⟩ | ⟨t', -, heq⟩⟩
    · rw [hplan] at herror
      cases herror
    · rw [hstop] at heq
      cases heq
    · rw [hstop] at heq
      cases heq
  intro t reply hserved
  refine ⟨fun hok => ?_, fun hfail => absurd hfail hnofail⟩
  subst hok
  simp only [serveDisable, requestOf, Control.handle, Control.disable, answersOf] at hserved
  cases hwrite : ans.firstWrite with
  | error e =>
    rw [hwrite] at hserved
    cases hserved
  | ok _ =>
    rw [hwrite] at hserved
    rcases SupervisorState.stopUnit_stopped h.table u ans.stop with
      ⟨e', herror, -⟩ | ⟨plan', hplan', ⟨t', heq⟩ | ⟨t', hstopped, heq⟩⟩
    · rw [hplan] at herror
      cases herror
    · simp only [heq] at hserved
      cases hserved
    · rw [hplan, Except.ok.injEq] at hplan'
      subst hplan'
      simp only [heq] at hserved
      have hstate : t = t' := by
        cases hremove : removeStub live.dir ans u with
        | error e =>
          simp only [hremove, Except.map] at hserved
          cases hserved
        | ok res =>
          simp only [hremove, Except.map, Except.ok.injEq, Prod.mk.injEq] at hserved
          exact hserved.1.symm
      subst hstate
      exact ⟨hstopped.idle id hmem, hstopped.untracked id hmem⟩

theorem nodeAt_erased (dir : EnabledDir) (f : FileName) :
    nodeAt (dir.map fun files => files.erase f) f = none := by
  cases dir with
  | none => rfl
  | some files => exact AList.lookup_erase f files

/-- A request whose stop has failed is judged by its reply and by the stub. -/
theorem allOrNothing_served {t : SupervisorState} {reply : Except RequestError Unit}
    (hserved : serveDisable alloc live ans u = .ok (t, reply)) (hfails : StopFails live ans u) :
    AllOrNothing alloc live ans u id ↔
      (∃ e, reply = .error e) ∧ dirAfter live ans (.disable u) = live.dir := by
  constructor
  · exact fun h => (h t reply hserved).2 hfails
  · rintro ⟨⟨e, he⟩, hdir⟩ t' reply' hserved'
    rw [hserved, Except.ok.injEq, Prod.mk.injEq] at hserved'
    obtain ⟨-, rfl⟩ := hserved'
    refine ⟨fun hok => ?_, fun _ => ⟨⟨e, he⟩, hdir⟩⟩
    rw [he] at hok
    cases hok

/-- **A refused stop**: the request goes on all the same, to the stub and the second line. -/
theorem disable_refused {e : TransactionError}
    (hrefused : live.sup.registry.buildStopTransaction ans.stop.ords u = .error e) :
    AllOrNothing alloc live ans u id ↔ EndsEarly live ans u := by
  have hstop : live.sup.stopUnit u ans.stop = .ok (live.sup, .error (.transaction e)) :=
    SupervisorState.stopUnit_refused hrefused
  have hfails : StopFails live ans u := ⟨_, _, hstop⟩
  cases hwrite : ans.firstWrite with
  | error e =>
    have hserved : serveDisable alloc live ans u = .ok (live.sup, .error (.text e)) := by
      simp only [serveDisable, requestOf, Control.handle, Control.disable, answersOf, hwrite]
    rw [allOrNothing_served hserved hfails]
    exact iff_of_true ⟨⟨_, rfl⟩, by simp only [dirAfter, hwrite]⟩ (.inl ⟨e, hwrite⟩)
  | ok _ =>
    have hline : ¬ ∃ e, ans.firstWrite = .error e := by simp [hwrite]
    rw [EndsEarly, or_iff_right hline]
    -- a removal that fails ends the request with the stub in place
    have hkept {e : IoError} (h : removeStub live.dir ans u = .error e) :
        AllOrNothing alloc live ans u id := by
      have hserved : serveDisable alloc live ans u =
          .ok (live.sup, .error (.text ("remove enabled.d stub: " ++ e))) := by
        simp only [serveDisable, requestOf, Control.handle, Control.disable, answersOf, hwrite,
          hstop, h, Except.map]
      rw [allOrNothing_served hserved hfails]
      exact ⟨⟨_, rfl⟩, by simp only [dirAfter, hwrite, h]⟩
    have hgone {removed : Bool} {dir : EnabledDir}
        (h : removeStub live.dir ans u = .ok (removed, dir)) :
        serveDisable alloc live ans u = .ok (live.sup, ans.secondWrite.mapError .text) := by
      simp only [serveDisable, requestOf, Control.handle, Control.disable, answersOf, hwrite, hstop,
        h, Except.map]
    cases hstub : ans.disableStub with
    | error e =>
      refine iff_of_true (hkept (e := e) ?_) (.inl ⟨e, rfl⟩)
      simp only [removeStub, hstub]
    | ok _ =>
      rw [or_iff_right (by simp)]
      cases hnode : nodeAt live.dir (stubName u) with
      | none =>
        have hremove : removeStub live.dir ans u = .ok (false, live.dir) := by
          simp only [removeStub, hstub, disable, hnode]
        rw [allOrNothing_served (hgone hremove) hfails]
        cases hsecond : ans.secondWrite with
        | error e =>
          exact iff_of_true ⟨⟨_, rfl⟩, by simp only [dirAfter, hwrite, hremove]⟩
            (.inr ⟨rfl, e, rfl⟩)
        | ok _ => exact iff_of_false (by simp [Except.mapError]) (by simp)
      | some node =>
        cases node with
        | directory =>
          refine iff_of_true (hkept (e := "Is a directory (os error 21)") ?_) (.inl rfl)
          simp only [removeStub, hstub, disable, hnode]
        | file body | special =>
          have hremove : removeStub live.dir ans u =
              .ok (true, live.dir.map fun files => files.erase (stubName u)) := by
            simp only [removeStub, hstub, disable, hnode]
          rw [allOrNothing_served (hgone hremove) hfails]
          refine iff_of_false (fun h => ?_) (by simp)
          have hdir := h.2
          simp only [dirAfter, hwrite, hremove] at hdir
          rw [← hdir, nodeAt_erased] at hnode
          cases hnode

/-- **All or nothing**: a disable request does what it should exactly when the stop transaction of
the unit can be built or the request ends early anyway. -/
theorem allOrNothing_iff (h : live.sup.Consistent) (hid : live.sup.registry.lookup u = some id) :
    AllOrNothing alloc live ans u id ↔
      (∃ plan, live.sup.registry.buildStopTransaction ans.stop.ords u = .ok plan) ∨
        EndsEarly live ans u := by
  cases hplan : live.sup.registry.buildStopTransaction ans.stop.ords u with
  | ok plan => exact iff_of_true (disable_stopped h hid hplan) (.inl ⟨plan, rfl⟩)
  | error e =>
    rw [disable_refused hplan]
    exact (or_iff_right (by simp)).symm

/-! ### A service with two dependents in a cycle -/

/-- A service, and two targets that require it and want to be after each other. -/
def cycleUnits : List LoadedUnit :=
  [⟨"a.service", { service := some { execStart := "/bin/a" } }⟩,
    ⟨"b.target", { unit := { requires := ["a.service"], after := ["c.target"] } }⟩,
    ⟨"c.target", { unit := { requires := ["a.service"], after := ["b.target"] } }⟩]

def aService : UnitName := ⟨"a.service", by decide⟩

theorem aService_name : aService.1 = "a.service" := rfl

/-- The service is running, and enabled. -/
def cycleLive : Live where
  sup := (SupervisorState.new (.fromLoaded cycleUnits) true).startUnitInternal .counting 0 {}
  dir := some (AList.insert (stubName "a.service") (.file (.ok (stubText "a.service"))) ∅)

theorem cycleLive_refused : cycleLive.sup.registry.buildStopTransaction ⟨.inserted, .inserted⟩
    "a.service" = .error (.orderingCycle ["b.target", "c.target"]) := by
  decide +kernel

/-- The service cannot be stopped; it goes on running without its stub, and the reply is `ok`. -/
theorem disable_leaves_running :
    cycleLive.sup.Consistent ∧ cycleLive.sup.registry.lookup aService = some 0 ∧
      (cycleLive.sup.units 0).pid = some 1 ∧
      serveDisable .counting cycleLive {} aService = .ok (cycleLive.sup, .ok ()) ∧
      ¬ AllOrNothing .counting cycleLive {} aService 0 := by
  have hstub : nodeAt cycleLive.dir (stubName aService) =
      some (.file (.ok (stubText "a.service"))) := by
    rw [aService_name]
    simp only [nodeAt, cycleLive, Option.bind_some, AList.lookup_insert]
  have hearly : ¬ EndsEarly cycleLive {} aService := by
    rintro (⟨e, he⟩ | ⟨e, he⟩ | hdirectory | ⟨hnone, -⟩)
    · cases he
    · cases he
    · rw [hstub] at hdirectory
      cases hdirectory
    · rw [hstub] at hnone
      cases hnone
  refine ⟨SupervisorState.consistent_started .counting (.fromLoaded cycleUnits) true 0 {},
    by decide +kernel, by decide +kernel, ?_,
    fun h => hearly ((disable_refused cycleLive_refused).mp h)⟩
  simp only [serveDisable, requestOf, Control.handle, Control.disable, answersOf, removeStub,
    disable, hstub]
  rw [aService_name, SupervisorState.stopUnit_refused cycleLive_refused]
  rfl

theorem allOrNothing_iff_dbus : AllOrNothing .counting ⟨SupervisorState.runningDbus, none⟩
    { stop := SupervisorState.lateExit } ⟨"dbus.service", by decide⟩ 0 := by
  refine (allOrNothing_iff SupervisorState.consistent_runningDbus ?_).mpr (.inl ⟨[0], ?_⟩)
  · decide +kernel
  · decide +kernel

end WriteonceOs.Svc
