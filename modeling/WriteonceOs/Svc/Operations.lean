import WriteonceOs.Svc.StateSpec

/-!
# Runs of the supervisor

The operations that the event loop and the control socket perform, one after the other.  A stop may
still wait for its children when the answers it was given are used up; a run stops there.

* `OpInv.step` — what the elementary updates preserve, every operation preserves;
* `tracked_opInv` — tracked processes are children that were not waited for;
* `step_shuttingDown` — nothing but a shutdown changes the shutdown flag.
-/

namespace WriteonceOs.Svc

open WriteonceOs.Library

inductive Op where
  | activatePlan (plan : List (Job × StartAnswer))
  | startNamed (name : String) (ords : HashOrders) (answers : UnitId → StartAnswer)
  | stopUnit (anchor : String) (ans : StopAnswer)
  | reap (r : Reap)
  | fireDueRestarts (answers : ℕ → StartAnswer)
  | initiateShutdown
  | addWantedBy (target unit : String)
  | advance (dt : Duration)

namespace SupervisorState

variable (alloc : PidAllocator)

/-- Inject an edge into the running registry; a refused one changes nothing. -/
def addWantedBy (s : SupervisorState) (target unit : String) : SupervisorState :=
  match s.registry.addWantedBy target unit with
  | .error _ => s
  | .ok registry => { s with registry := registry }

def step (s : SupervisorState) : Op → Except SupervisorState SupervisorState
  | .activatePlan plan => .ok (s.activatePlan alloc plan)
  | .startNamed name ords answers => .ok (s.startNamed alloc name ords answers).1
  | .stopUnit anchor ans =>
    match s.stopUnit anchor ans with
    | .error t => .error t
    | .ok (t, _) => .ok t
  | .reap r => .ok (s.reapChild r)
  | .fireDueRestarts answers => .ok (s.fireDueRestarts alloc answers)
  | .initiateShutdown => .ok s.initiateShutdown
  | .addWantedBy target unit => .ok (s.addWantedBy target unit)
  | .advance dt => .ok (s.advance dt)

/-- The start attempts of an operation meet `G`, each in the state it finds. -/
def OpStartsMeet (G : SupervisorState → UnitId → StartAnswer → Prop) (s : SupervisorState) :
    Op → Prop
  | .activatePlan plan =>
    StartsMeet alloc (fun _ _ => false) G s
      ((plan.filter (fun p => p.1.state = .waiting)).map fun p => (p.1.unit, p.2))
  | .startNamed name ords answers =>
    ∀ plan, s.registry.buildTransaction ords name = .ok plan →
      StartsMeet alloc (fun s id => decide ((s.units id).state = .active)) G s
        (plan.map fun job => (job.unit, answers job.unit))
  | .fireDueRestarts answers =>
    StartsMeet alloc (fun _ _ => false) G
      (s.setPending (s.pendingRestarts.filter (fun r => ¬ r.fireAt ≤ s.clock)))
      (s.dueRestarts.zipIdx.map fun d => (d.1, answers d.2))
  | _ => True

instance decidableOpStartsMeet (G : SupervisorState → UnitId → StartAnswer → Prop)
    [∀ s id ans, Decidable (G s id ans)] (s : SupervisorState) :
    ∀ op, Decidable (OpStartsMeet alloc G s op)
  | .activatePlan _ => inferInstanceAs (Decidable (StartsMeet _ _ _ _ _))
  | .startNamed name ords answers =>
    inferInstanceAs (Decidable (∀ plan, s.registry.buildTransaction ords name = .ok plan →
      StartsMeet alloc (fun s id => decide ((s.units id).state = .active)) G s
        (plan.map fun job => (job.unit, answers job.unit))))
  | .fireDueRestarts _ => inferInstanceAs (Decidable (StartsMeet _ _ _ _ _))
  | .stopUnit _ _ | .reap _ | .initiateShutdown | .addWantedBy _ _ | .advance _ =>
    inferInstanceAs (Decidable True)

/-- Start requests and activations meet `G`; nothing is asked of the restart timer. -/
def RequestsMeet (G : SupervisorState → UnitId → StartAnswer → Prop) (s : SupervisorState) :
    Op → Prop
  | .fireDueRestarts _ => True
  | op => OpStartsMeet alloc G s op

instance decidableRequestsMeet (G : SupervisorState → UnitId → StartAnswer → Prop)
    [∀ s id ans, Decidable (G s id ans)] (s : SupervisorState) :
    ∀ op, Decidable (RequestsMeet alloc G s op)
  | .activatePlan plan => inferInstanceAs (Decidable (OpStartsMeet _ _ _ (.activatePlan plan)))
  | .startNamed name ords answers =>
    inferInstanceAs (Decidable (OpStartsMeet _ _ _ (.startNamed name ords answers)))
  | .fireDueRestarts _ | .stopUnit _ _ | .reap _ | .initiateShutdown | .addWantedBy _ _
  | .advance _ => inferInstanceAs (Decidable True)

/-- What the elementary updates preserve, but for the mark of a shutdown. -/
structure WorkInv (alloc : PidAllocator) (G : SupervisorState → UnitId → StartAnswer → Prop)
    (I : SupervisorState → Prop) : Prop where
  start : ∀ s id ans, I s → G s id ans → I (s.startUnitInternal alloc id ans)
  reap : ∀ s r, I s → I (s.reapChild r)
  advance : ∀ s dt, I s → I (s.advance dt)
  kill : ∀ s pid signal, I s → I (s.emit (.kill pid signal))
  cgroup : ∀ s id, I s → I (s.emit (.removeCgroup id))
  stopping : ∀ s plan, I s → I (s.emit (.stopping plan))
  setState : ∀ s id state, I s → I (s.setState id state)
  setShuttingDown : ∀ s, I s → I (s.setShuttingDown true)
  restoreShuttingDown : ∀ s t, I s → I t → I (t.setShuttingDown s.shuttingDown)
  setPending : ∀ s p, I s → I (s.setPending (s.pendingRestarts.filter p))
  registry : ∀ s target unit, I s → I (s.addWantedBy target unit)

/-- What the elementary updates preserve. -/
structure OpInv (alloc : PidAllocator) (G : SupervisorState → UnitId → StartAnswer → Prop)
    (I : SupervisorState → Prop) : Prop extends WorkInv alloc G I where
  shutdown : ∀ s, I s → I (s.emit .shutdown)

variable {alloc} {G : SupervisorState → UnitId → StartAnswer → Prop} {I : SupervisorState → Prop}
  {s : SupervisorState}

theorem WorkInv.term (h : WorkInv alloc G I) (t : SupervisorState) (id : UnitId) (ht : I t) :
    I (t.termUnit id) := by
  rcases termUnit_cases t id with ⟨pid, -, heq⟩ | ⟨-, heq⟩
  · rw [heq]
    exact h.kill _ _ _ (h.setState _ _ _ (h.setPending _ _ ht))
  · rw [heq]
    exact h.setState _ _ _ (h.setPending _ _ ht)

/-- The signals of a shutdown. -/
theorem WorkInv.shutdownSignals (h : WorkInv alloc G I) (hI : I s) (units : List UnitId) :
    I (units.foldl termIfRunning ((s.setShuttingDown true).setPending [])) := by
  refine List.foldlRecOn (motive := I) _ _ ?_ fun t ht id _ => ?_
  · have hclear : (s.setShuttingDown true).pendingRestarts.filter (fun _ => false) = [] := by
      simp
    rw [← hclear]
    exact h.setPending _ _ (h.setShuttingDown _ hI)
  · rcases termIfRunning_cases t id with ⟨pid, -, heq⟩ | ⟨-, heq⟩
    · rw [heq]
      exact h.kill _ _ _ ht
    · rw [heq]
      exact ht

theorem OpInv.initiateShutdown (h : OpInv alloc G I) (hI : I s) : I s.initiateShutdown := by
  unfold SupervisorState.initiateShutdown
  split
  · exact hI
  · exact h.shutdown _ (h.shutdownSignals hI _)

theorem WorkInv.stop (h : WorkInv alloc G I) (hI : I s) (anchor : String) (ans : StopAnswer) :
    I (reached (SupervisorState.step alloc s (.stopUnit anchor ans))) := by
  have hstop := stopUnit_inv s anchor ans (P := fun _ => True)
    (M := fun _ => I) (fun _ _ _ _ => trivial) (fun plan _ =>
      ⟨List.foldlRecOn _ _ (h.stopping _ _ (h.setShuttingDown _ hI))
          (fun t ht id _ => h.term t id ht),
        h.advance, fun t pid ht => h.kill t pid _ ht, fun t r _ ht => h.reap t r ht, h.cgroup⟩)
  simp only [SupervisorState.step]
  rcases hstop with ⟨e, -, heq⟩ | ⟨plan, t, -, ht, heq | heq⟩
  · rw [heq]
    exact hI
  · rw [heq]
    exact ht
  · rw [heq]
    exact h.restoreShuttingDown s t hI ht

/-- What the elementary updates preserve, every operation preserves, a shutdown apart. -/
theorem WorkInv.step (h : WorkInv alloc G I) (hI : I s) (op : Op) (hG : OpStartsMeet alloc G s op)
    (hshutdown : op = .initiateShutdown → I s.initiateShutdown) :
    I (reached (SupervisorState.step alloc s op)) := by
  cases op with
  | activatePlan plan => exact startEach_inv h.start _ s hI hG
  | startNamed name ords answers =>
    simp only [SupervisorState.step, startNamed, reached_ok]
    cases hplan : s.registry.buildTransaction ords name with
    | error e => exact hI
    | ok plan => exact startEach_inv h.start _ s hI (hG plan hplan)
  | stopUnit anchor ans => exact h.stop hI anchor ans
  | reap r => exact h.reap s r hI
  | fireDueRestarts answers =>
    exact startEach_inv h.start _ _ (h.setPending s _ hI) hG
  | initiateShutdown => exact hshutdown rfl
  | addWantedBy target unit => exact h.registry s target unit hI
  | advance dt => exact h.advance s dt hI

/-- **What the elementary updates preserve, every operation preserves.** -/
theorem OpInv.step (h : OpInv alloc G I) (hI : I s) (op : Op) (hG : OpStartsMeet alloc G s op) :
    I (reached (SupervisorState.step alloc s op)) :=
  h.toWorkInv.step hI op hG fun _ => h.initiateShutdown hI

theorem startsMeet_true {skip : SupervisorState → UnitId → Bool} (s : SupervisorState)
    (starts : List (UnitId × StartAnswer)) :
    StartsMeet alloc skip (fun _ _ _ => True) s starts := by
  induction starts generalizing s with
  | nil => trivial
  | cons start starts ih => exact ⟨fun _ => trivial, ih _⟩

theorem opStartsMeet_true (s : SupervisorState) (op : Op) :
    OpStartsMeet alloc (fun _ _ _ => True) s op := by
  cases op with
  | activatePlan plan => exact startsMeet_true _ _
  | startNamed name ords answers => exact fun _ _ => startsMeet_true _ _
  | fireDueRestarts answers => exact startsMeet_true _ _
  | _ => trivial

theorem StartsMeet.imp {skip : SupervisorState → UnitId → Bool}
    {G' : SupervisorState → UnitId → StartAnswer → Prop} (h : ∀ s id ans, G s id ans → G' s id ans)
    {starts : List (UnitId × StartAnswer)} (hG : StartsMeet alloc skip G s starts) :
    StartsMeet alloc skip G' s starts := by
  induction starts generalizing s with
  | nil => trivial
  | cons start starts ih => exact ⟨fun hskip => h _ _ _ (hG.1 hskip), ih hG.2⟩

theorem RequestsMeet.imp {G' : SupervisorState → UnitId → StartAnswer → Prop}
    (h : ∀ s id ans, G s id ans → G' s id ans) {op : Op} (hG : RequestsMeet alloc G s op) :
    RequestsMeet alloc G' s op := by
  cases op with
  | activatePlan plan => exact StartsMeet.imp h hG
  | startNamed name ords answers => exact fun plan hplan => (hG plan hplan).imp h
  | _ => trivial

/-- An invariant that needs nothing of the start attempts holds in every run. -/
theorem OpInv.run (h : OpInv alloc (fun _ _ _ => True) I) (hI : I s) (ops : List Op) :
    I (reached (Library.run (SupervisorState.step alloc) s ops)) :=
  run_inv (SupervisorState.step alloc) (G := fun _ _ => True) (I := I)
    (fun _ op hs _ => h.step hs op (opStartsMeet_true _ op)) hI (guarded_true s ops)

/-- The files of the units never change. -/
theorem addWantedBy_frame (s : SupervisorState) (target unit : String) :
    (s.addWantedBy target unit).registry.units = s.registry.units ∧
      (s.addWantedBy target unit).units = s.units ∧ (s.addWantedBy target unit).byPid = s.byPid ∧
      (s.addWantedBy target unit).pendingRestarts = s.pendingRestarts ∧
      (s.addWantedBy target unit).shuttingDown = s.shuttingDown ∧
      (s.addWantedBy target unit).clock = s.clock ∧
      (s.addWantedBy target unit).trace = s.trace := by
  unfold addWantedBy
  cases hreg : s.registry.addWantedBy target unit with
  | error e => simp
  | ok registry => simp [(UnitRegistry.addWantedBy_spec hreg).1]

theorem addWantedBy_byName (s : SupervisorState) (target unit : String) :
    (s.addWantedBy target unit).registry.byName = s.registry.byName := by
  unfold addWantedBy
  cases hreg : s.registry.addWantedBy target unit with
  | error e => rfl
  | ok registry => exact (UnitRegistry.addWantedBy_spec hreg).2.1

/-! ### Tracked processes in every run -/

/-- The PID table only changes with the children. -/
theorem Tracked.reap (h : s.Tracked) (r : Reap) : (s.reapChild r).Tracked := by
  intro p u hlookup
  obtain ⟨hne, hold⟩ := (reap_lookup s r p u).mp hlookup
  obtain ⟨es, htrace, hes⟩ := reap_trace s r
  rw [htrace, ← List.singleton_append, ← List.append_assoc, childrenOf_notes _ hes,
    childrenOf_reaped, List.mem_filter]
  exact ⟨h p u hold, by simpa using hne⟩

theorem Tracked.emit (h : s.Tracked) {e : Effect} (hs : ∀ u p, e ≠ .spawned u p)
    (hr : ∀ p, e ≠ .reaped p) : (s.emit e).Tracked := by
  intro p u hlookup
  rw [emit_trace, childrenOf_other _ hs hr]
  exact h p u hlookup

theorem tracked_opInv (alloc : PidAllocator) : OpInv alloc (fun _ _ _ => True) Tracked where
  start := fun _ _ _ h _ => h.start
  reap := fun _ r h => h.reap r
  advance := fun _ _ h => h
  kill := fun _ _ _ h => h.emit (by simp) (by simp)
  cgroup := fun _ _ h => h.emit (by simp) (by simp)
  stopping := fun _ _ h => h.emit (by simp) (by simp)
  shutdown := fun _ h => h.emit (by simp) (by simp)
  setState := fun _ _ _ h => h
  setShuttingDown := fun _ h => h
  restoreShuttingDown := fun _ _ _ h => h
  setPending := fun _ _ h => h
  registry := by
    intro s target unit h p u hlookup
    obtain ⟨-, -, hbyPid, -, -, -, htrace⟩ := addWantedBy_frame s target unit
    rw [hbyPid] at hlookup
    rw [htrace]
    exact h p u hlookup

/-! ### The shutdown flag -/

theorem startEach_shuttingDown (skip : SupervisorState → UnitId → Bool)
    (starts : List (UnitId × StartAnswer)) :
    (s.startEach alloc skip starts).shuttingDown = s.shuttingDown :=
  startEach_inv (I := fun t => t.shuttingDown = s.shuttingDown) (G := fun _ _ _ => True)
    (fun _ _ _ ht _ => (start_frame alloc _ _ _).shuttingDown.trans ht) starts s rfl
    (startsMeet_true s starts)

theorem startEach_registry (skip : SupervisorState → UnitId → Bool)
    (starts : List (UnitId × StartAnswer)) :
    (s.startEach alloc skip starts).registry = s.registry :=
  startEach_inv (I := fun t => t.registry = s.registry) (G := fun _ _ _ => True)
    (fun _ _ _ ht _ => (start_frame alloc _ _ _).registry.trans ht) starts s rfl
    (startsMeet_true s starts)

theorem startNamed_registry (name : String) (ords : HashOrders) (answers : UnitId → StartAnswer) :
    (s.startNamed alloc name ords answers).1.registry = s.registry := by
  unfold startNamed
  cases s.registry.buildTransaction ords name with
  | error e => rfl
  | ok plan => exact startEach_registry _ _

theorem stopUnit_registry {anchor : String} {ans : StopAnswer} {s' : SupervisorState}
    {res : Except RequestError Unit} (h : s.stopUnit anchor ans = .ok (s', res)) :
    s'.registry = s.registry := by
  have hparts := stopUnit_ok_inv (P := fun _ => True) (M := fun _ t => t.registry = s.registry)
    (fun _ _ _ _ => trivial) (fun plan _ => ⟨(termUnits_frame plan _).2, fun _ _ ht => ht,
      fun _ _ ht => ht, fun t r _ ht => (reap_registry t r).trans ht, fun _ _ ht => ht⟩) h
  rcases hparts with heq | ⟨plan, t, -, ht, heq⟩
  · rw [heq]
  · rw [heq]
    exact ht

/-- A stop that returns puts the flag back. -/
theorem stopUnit_shuttingDown {anchor : String} {ans : StopAnswer} {s' : SupervisorState}
    {res : Except RequestError Unit} (h : s.stopUnit anchor ans = .ok (s', res)) :
    s'.shuttingDown = s.shuttingDown := by
  have hparts := stopUnit_ok_inv (P := fun _ => True) (M := fun _ _ => True)
    (fun _ _ _ _ => trivial) (fun plan _ => ⟨trivial, fun _ _ _ => trivial, fun _ _ _ => trivial,
      fun _ _ _ _ => trivial, fun _ _ _ => trivial⟩) h
  rcases hparts with heq | ⟨plan, t, -, -, heq⟩
  · rw [heq]
  · rw [heq, setShuttingDown_shuttingDown]

theorem initiateShutdown_shuttingDown : s.initiateShutdown.shuttingDown = true := by
  unfold SupervisorState.initiateShutdown
  split
  · assumption
  · rw [emit_shuttingDown]
    refine (foldl_frame SupervisorState.shuttingDown (fun t id => ?_) _ _).trans rfl
    rcases termIfRunning_cases t id with ⟨pid, -, heq⟩ | ⟨-, heq⟩
    · rw [heq]
      rfl
    · rw [heq]

/-- **Nothing but a shutdown changes the flag.** -/
theorem step_shuttingDown {op : Op} {s' : SupervisorState} (hop : op ≠ .initiateShutdown)
    (h : step alloc s op = .ok s') : s'.shuttingDown = s.shuttingDown := by
  cases op with
  | stopUnit anchor ans =>
    rw [step] at h
    cases hstop : s.stopUnit anchor ans with
    | error t =>
      rw [hstop] at h
      cases h
    | ok res =>
      rw [hstop] at h
      cases h
      exact stopUnit_shuttingDown hstop
  | activatePlan plan =>
    cases h
    exact startEach_shuttingDown _ _
  | startNamed name ords answers =>
    cases h
    unfold startNamed
    cases s.registry.buildTransaction ords name with
    | error e => rfl
    | ok plan => exact startEach_shuttingDown _ _
  | reap r =>
    cases h
    exact reap_shuttingDown s r
  | fireDueRestarts answers =>
    cases h
    exact startEach_shuttingDown _ _
  | initiateShutdown => exact absurd rfl hop
  | addWantedBy target unit =>
    cases h
    exact (addWantedBy_frame s target unit).2.2.2.2.1
  | advance dt =>
    cases h
    rfl

end SupervisorState

/-! ### A supervisor of one service -/

/-- A service that is always restarted, five seconds after it went down. -/
def dbusUnits : List LoadedUnit :=
  [⟨"dbus.service",
      { service := some { execStart := "/usr/bin/dbus-daemon", restart := .always } }⟩]

/-- A start request for the service, whose spawns succeed. -/
def startDbus : Op := .startNamed "dbus.service" ⟨.inserted, .inserted⟩ (fun _ => {})

end WriteonceOs.Svc
