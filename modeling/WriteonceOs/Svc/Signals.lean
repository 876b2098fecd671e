import WriteonceOs.Svc.Activation
import WriteonceOs.Svc.StopOrder

/-!
# Who gets signalled

The supervisor copies a PID to the unit, to the PID table and, during a stop, to the children it
waits for.  Every copy goes when the child is waited for, so a PID that the kernel has given to
somebody else is never signalled.  A shutdown signals the running units in load order, whatever
their ordering says.

* `aimed_run` — in every run, the PID of a unit is a child of the supervisor that was not waited
  for;
* `signals_only_children` — so is the target of every signal, at the moment it is sent;
* `shutdown_signals` — the SIGTERMs of a shutdown;
* `shutdown_reverses_start_iff` — exactly when they go in the reverse of the start order.
-/

namespace WriteonceOs.Svc

open WriteonceOs.Library

/-! ### Signals to children -/

/-- Every signal went to a child that had been forked and not yet been waited for. -/
def KillsOwn (trace : List Effect) : Prop :=
  ∀ before pid signal after, trace = before ++ .kill pid signal :: after → pid ∈ childrenOf before

theorem KillsOwn.nil : KillsOwn [] := by
  intro before pid signal after h
  simp at h

/-- One more entry of the history. -/
theorem KillsOwn.snoc {trace : List Effect} {e : Effect} (h : KillsOwn trace)
    (he : ∀ pid signal, e = .kill pid signal → pid ∈ childrenOf trace) :
    KillsOwn (trace ++ [e]) := by
  intro before pid signal after heq
  rcases List.eq_nil_or_concat after with rfl | ⟨after, last, rfl⟩
  · obtain ⟨rfl, hlast⟩ := List.append_inj' heq rfl
    rw [List.cons.injEq] at hlast
    exact he pid signal hlast.1
  · rw [List.concat_eq_append, ← List.cons_append, ← List.append_assoc] at heq
    obtain ⟨heq, -⟩ := List.append_inj' heq rfl
    exact h before pid signal after heq

/-- Entries that are no signals. -/
theorem KillsOwn.append {trace es : List Effect} (h : KillsOwn trace)
    (hes : ∀ e ∈ es, ∀ pid signal, e ≠ .kill pid signal) : KillsOwn (trace ++ es) := by
  induction es generalizing trace with
  | nil => simpa using h
  | cons e es ih =>
    rw [List.forall_mem_cons] at hes
    rw [← List.singleton_append, ← List.append_assoc]
    refine ih (h.snoc fun pid signal heq => ?_) hes.2
    exact absurd heq (hes.1 pid signal)

/-- A timed-out oneshot is killed between its fork and the wait for it. -/
theorem KillsOwn.oneshot {trace : List Effect} (h : KillsOwn trace) (id : UnitId) (p : Pid)
    {es : List Effect} (hes : es = [] ∨ es = [.kill p .kill]) :
    KillsOwn (trace ++ (.spawned id p :: es ++ [.reaped p])) := by
  have hspawned : KillsOwn (trace ++ [.spawned id p]) := h.snoc (by simp)
  rcases hes with rfl | rfl
  · have hreaped := hspawned.snoc (e := .reaped p) (by simp)
    simpa using hreaped
  · have hkilled := hspawned.snoc (e := .kill p .kill) fun pid signal heq => by
      rw [Effect.kill.injEq] at heq
      rw [SupervisorState.childrenOf_spawned, ← heq.1]
      exact List.mem_cons_self
    have hreaped := hkilled.snoc (e := .reaped p) (by simp)
    simpa using hreaped

namespace SupervisorState

variable {alloc : PidAllocator} {s t : SupervisorState}

/-- The PIDs that the supervisor holds are children of its own, and so were the targets of its
signals. -/
structure Aimed (s : SupervisorState) : Prop where
  tracked : s.Tracked
  table : ∀ u p, (s.units u).pid = some p → s.byPid.lookup p = some u
  inRange : ∀ u p, (s.units u).pid = some p → u < s.registry.len
  kills : KillsOwn s.trace

/-- The process of a unit is a child. -/
theorem Aimed.mem_children (h : s.Aimed) {u : UnitId} {p : Pid} (hp : (s.units u).pid = some p) :
    p ∈ childrenOf s.trace :=
  h.tracked p u (h.table u p hp)

/-- Two units do not share a process. -/
theorem Aimed.pid_injective (h : s.Aimed) {u v : UnitId} {p : Pid}
    (hu : (s.units u).pid = some p) (hv : (s.units v).pid = some p) : u = v := by
  have hlookup := h.table u p hu
  rw [h.table v p hv, Option.some.injEq] at hlookup
  exact hlookup.symm

theorem Aimed.new (reg : UnitRegistry) (fake : Bool) : (SupervisorState.new reg fake).Aimed where
  tracked := Tracked.new reg fake
  table := by simp [SupervisorState.new]
  inRange := by simp [SupervisorState.new]
  kills := KillsOwn.nil

/-- What only the history, the table, the PIDs and the number of units decide. -/
theorem Aimed.congr (h : s.Aimed) (htrace : t.trace = s.trace) (hbyPid : t.byPid = s.byPid)
    (hpid : ∀ u, (t.units u).pid = (s.units u).pid) (hlen : t.registry.len = s.registry.len) :
    t.Aimed where
  tracked := by
    intro p u hlookup
    rw [hbyPid] at hlookup
    rw [htrace]
    exact h.tracked p u hlookup
  table := by
    intro u p hp
    rw [hpid] at hp
    rw [hbyPid]
    exact h.table u p hp
  inRange := by
    intro u p hp
    rw [hpid] at hp
    rw [hlen]
    exact h.inRange u p hp
  kills := htrace ▸ h.kills

/-- An entry of the history that is neither a fork nor a wait. -/
theorem Aimed.emit (h : s.Aimed) {e : Effect} (hs : ∀ u p, e ≠ .spawned u p)
    (hr : ∀ p, e ≠ .reaped p) (hk : ∀ pid signal, e = .kill pid signal → pid ∈ childrenOf s.trace) :
    (s.emit e).Aimed where
  tracked := h.tracked.emit hs hr
  table := h.table
  inRange := h.inRange
  kills := h.kills.snoc hk

/-- A signal to a child. -/
theorem Aimed.kill (h : s.Aimed) {pid : Pid} (signal : Signal) (hpid : pid ∈ childrenOf s.trace) :
    (s.emit (.kill pid signal)).Aimed := by
  refine h.emit (by simp) (by simp) fun q signal' heq => ?_
  rw [Effect.kill.injEq] at heq
  exact heq.1 ▸ hpid

/-- A service can only be spawned for a unit of the registry. -/
theorem Spawns.lt {id : UnitId} {ans : StartAnswer} (h : s.Spawns id ans) :
    id < s.registry.len := by
  by_contra hge
  refine h.2.1 ?_
  rw [s.registry.get_eq_default (Nat.le_of_not_lt hge)]
  rfl

/-- **A start attempt.**  The new PID is entered with the unit and in the table at once; a oneshot's
leaves both before the attempt ends. -/
theorem Aimed.start (h : s.Aimed) (id : UnitId) (ans : StartAnswer) :
    (s.startUnitInternal alloc id ans).Aimed := by
  have hframe := start_frame alloc s id ans
  have hlen : (s.startUnitInternal alloc id ans).registry.len = s.registry.len := by
    rw [hframe.registry]
  cases StartStep.of_start alloc s id ans with
  | idle _ hbyPid hpid htrace =>
    have hpids : ∀ u, ((s.startUnitInternal alloc id ans).units u).pid = (s.units u).pid := by
      intro u
      by_cases hu : u = id
      · rw [hu, hpid]
      · exact hframe.pid u hu
    refine ⟨h.tracked.start, fun u p hp => ?_, fun u p hp => ?_, ?_⟩
    · rw [hpids] at hp
      rw [hbyPid]
      exact h.table u p hp
    · rw [hpids] at hp
      rw [hlen]
      exact h.inRange u p hp
    · rcases htrace with htrace | ⟨-, htrace⟩
      · rw [htrace]
        exact h.kills
      · rw [htrace]
        exact h.kills.snoc (by simp)
  | running hspawn _ hbyPid hpid htrace =>
    refine ⟨h.tracked.start, fun u p hp => ?_, fun u p hp => ?_, ?_⟩
    · rw [hbyPid, lookup_insert_iff]
      by_cases hu : u = id
      · rw [hu, hpid, Option.some.injEq] at hp
        exact Or.inl ⟨hp.symm, hu.symm⟩
      · rw [hframe.pid u hu] at hp
        refine Or.inr ⟨fun heq => ?_, h.table u p hp⟩
        exact alloc.fresh s.trace (heq ▸ h.mem_children hp)
    · rw [hlen]
      by_cases hu : u = id
      · exact hu ▸ hspawn.lt
      · rw [hframe.pid u hu] at hp
        exact h.inRange u p hp
    · rw [htrace]
      exact h.kills.snoc (by simp)
  | oneshot hspawn _ hbyPid hpid es hes htrace =>
    have hother : ∀ u p, ((s.startUnitInternal alloc id ans).units u).pid = some p →
        (s.units u).pid = some p := by
      intro u p hp
      by_cases hu : u = id
      · rw [hu, hpid] at hp
        cases hp
      · rw [hframe.pid u hu] at hp
        exact hp
    refine ⟨h.tracked.start, fun u p hp => ?_, fun u p hp => ?_, ?_⟩
    · rw [hbyPid, h.tracked.oneshot_lookup]
      exact h.table u p (hother u p hp)
    · rw [hlen]
      exact h.inRange u p (hother u p hp)
    · rw [htrace]
      exact h.kills.oneshot id _ hes

/-- **A reaped child.**  Its PID leaves the table and the unit together. -/
theorem Aimed.reap (h : s.Aimed) (r : Reap) : (s.reapChild r).Aimed := by
  refine ⟨h.tracked.reap r, fun u p hp => ?_, fun u p hp => ?_, ?_⟩
  · rw [reap_pid] at hp
    split at hp
    · cases hp
    · rename_i hne
      rw [reap_lookup]
      refine ⟨fun heq => hne ?_, h.table u p hp⟩
      rw [← heq]
      exact h.table u p hp
  · rw [reap_pid] at hp
    rw [reap_registry]
    split at hp
    · cases hp
    · exact h.inRange u p hp
  · obtain ⟨es, htrace, hes⟩ := reap_trace s r
    rw [htrace]
    refine h.kills.append (List.forall_mem_cons.mpr ⟨by simp, fun e he pid signal heq => ?_⟩)
    subst heq
    exact hes _ he

/-! ### Stopping and shutting down -/

theorem Aimed.setState (h : s.Aimed) (id : UnitId) (state : UnitActiveState) :
    (s.setState id state).Aimed :=
  h.congr rfl rfl (by simp) rfl

theorem Aimed.setPending (h : s.Aimed) (pending : List PendingRestart) :
    (s.setPending pending).Aimed :=
  h.congr rfl rfl (fun _ => rfl) rfl

theorem Aimed.setShuttingDown (h : s.Aimed) (b : Bool) : (s.setShuttingDown b).Aimed :=
  h.congr rfl rfl (fun _ => rfl) rfl

/-- The children that a stop still waits for are children, and every SIGTERM reaches one. -/
def Waiting (expected : List Pid) (s : SupervisorState) : Prop :=
  s.Aimed ∧ ∀ p ∈ expected, p ∈ childrenOf s.trace

theorem Waiting.emit {expected : List Pid} (h : Waiting expected s) {e : Effect}
    (hs : ∀ u p, e ≠ .spawned u p) (hr : ∀ p, e ≠ .reaped p)
    (hk : ∀ pid signal, e = .kill pid signal → pid ∈ childrenOf s.trace) :
    Waiting expected (s.emit e) := by
  refine ⟨h.1.emit hs hr hk, fun p hp => ?_⟩
  rw [emit_trace, childrenOf_other _ hs hr]
  exact h.2 p hp

theorem Waiting.kill {expected : List Pid} (h : Waiting expected s) {pid : Pid} (signal : Signal)
    (hpid : pid ∈ childrenOf s.trace) : Waiting expected (s.emit (.kill pid signal)) := by
  refine h.emit (by simp) (by simp) fun q signal' heq => ?_
  rw [Effect.kill.injEq] at heq
  exact heq.1 ▸ hpid

theorem Waiting.term {expected : List Pid} (h : Waiting expected s) (id : UnitId) :
    Waiting expected (s.termUnit id) := by
  have hset : ∀ pending state, Waiting expected ((s.setPending pending).setState id state) :=
    fun pending state => ⟨(h.1.setPending pending).setState id state, h.2⟩
  rcases termUnit_cases s id with ⟨pid, hpid, heq⟩ | ⟨-, heq⟩
  · rw [heq]
    exact (hset _ _).kill .term (h.1.mem_children hpid)
  · rw [heq]
    exact hset _ _

/-- A waited-for child is expected no longer. -/
theorem Waiting.reap {expected : List Pid} (h : Waiting expected s) (r : Reap) :
    Waiting (expected.filter (· ≠ r.pid)) (s.reapChild r) := by
  refine ⟨h.1.reap r, fun p hp => ?_⟩
  obtain ⟨hp, hne⟩ := List.mem_filter.mp hp
  obtain ⟨es, htrace, hes⟩ := reap_trace s r
  rw [htrace, ← List.singleton_append, ← List.append_assoc, childrenOf_notes _ hes,
    childrenOf_reaped, List.mem_filter]
  exact ⟨h.2 p hp, hne⟩

/-- A stop that has signalled its plan. -/
theorem Aimed.waiting_signalled (h : s.Aimed) (plan : List UnitId) :
    Waiting (s.expectedPids plan)
      (plan.foldl termUnit ((s.setShuttingDown true).emit (.stopping plan))) := by
  refine List.foldlRecOn (motive := Waiting (s.expectedPids plan)) _ _ ?_
    fun t ht id _ => ht.term id
  refine Waiting.emit ⟨h.setShuttingDown true, fun p hp => ?_⟩ (by simp) (by simp) (by simp)
  obtain ⟨id, -, hpid⟩ := mem_expectedPids.mp hp
  exact h.mem_children hpid

/-- **A stop**, whether it returned or not. -/
theorem Aimed.stop (h : s.Aimed) (anchor : String) (ans : StopAnswer) :
    (reached (SupervisorState.step alloc s (.stopUnit anchor ans))).Aimed := by
  have hstop := stopUnit_expected_inv s anchor ans (P := fun _ => True) (M := fun _ => Waiting)
    (fun _ _ _ _ => trivial) fun plan _ =>
      ⟨h.waiting_signalled plan,
        fun _ _ _ ht => ⟨ht.1.congr rfl rfl (fun _ => rfl) rfl, ht.2⟩,
        fun expected t pid hpid ht => ht.kill .kill (ht.2 pid hpid), fun _ _ r _ ht => ht.reap r,
        fun t id ht => ht.emit (by simp) (by simp) (by simp)⟩
  simp only [SupervisorState.step]
  rcases hstop with ⟨e, -, heq⟩ | ⟨plan, -, ⟨t, left, ht, heq⟩ | ⟨t, ht, heq⟩⟩
  · rw [heq]
    exact h
  · rw [heq]
    exact ht.1
  · rw [heq]
    exact ht.1.setShuttingDown _

theorem Aimed.shutdown (h : s.Aimed) : s.initiateShutdown.Aimed := by
  unfold SupervisorState.initiateShutdown
  split
  · exact h
  · refine Aimed.emit ?_ (by simp) (by simp) (by simp)
    refine List.foldlRecOn (motive := Aimed) _ _ ((h.setShuttingDown true).setPending [])
      fun t ht id _ => ?_
    rcases termIfRunning_cases t id with ⟨pid, hpid, heq⟩ | ⟨-, heq⟩
    · rw [heq]
      exact ht.kill .term (ht.mem_children hpid)
    · rw [heq]
      exact ht

theorem Aimed.startEach (h : s.Aimed) (skip : SupervisorState → UnitId → Bool)
    (starts : List (UnitId × StartAnswer)) : (s.startEach alloc skip starts).Aimed :=
  startEach_inv (G := fun _ _ _ => True) (fun _ id ans ht _ => ht.start id ans) starts s h
    (startsMeet_true s starts)

theorem Aimed.step (h : s.Aimed) (op : Op) : (reached (SupervisorState.step alloc s op)).Aimed := by
  cases op with
  | activatePlan plan => exact h.startEach _ _
  | startNamed name ords answers =>
    simp only [SupervisorState.step, startNamed, reached_ok]
    cases s.registry.buildTransaction ords name with
    | error e => exact h
    | ok plan => exact h.startEach _ _
  | stopUnit anchor ans => exact h.stop anchor ans
  | reap r => exact h.reap r
  | fireDueRestarts answers => exact (h.setPending _).startEach _ _
  | initiateShutdown => exact h.shutdown
  | addWantedBy target unit =>
    obtain ⟨hunits, hmeta, hbyPid, -, -, -, htrace⟩ := addWantedBy_frame s target unit
    refine h.congr htrace hbyPid (fun u => ?_) ?_
    · exact congrArg UnitMeta.pid (congrFun hmeta u)
    · exact congrArg List.length hunits
  | advance dt => exact h.congr rfl rfl (fun _ => rfl) rfl

theorem aimed_run (h : s.Aimed) (ops : List Op) :
    (reached (Library.run (SupervisorState.step alloc) s ops)).Aimed :=
  run_inv (SupervisorState.step alloc) (G := fun _ _ => True) (I := Aimed)
    (fun _ op ht _ => ht.step op) h (guarded_true s ops)

/-- **Only children are signalled.**  In every run, whatever the kernel does with the PIDs that were
waited for, every signal goes to a child of the supervisor that was not waited for yet. -/
theorem signals_only_children (alloc : PidAllocator) (reg : UnitRegistry) (fake : Bool)
    (ops : List Op) (before after : List Effect) (pid : Pid) (signal : Signal)
    (h : (reached (Library.run (SupervisorState.step alloc) (SupervisorState.new reg fake)
      ops)).trace = before ++ .kill pid signal :: after) : pid ∈ childrenOf before :=
  (aimed_run (Aimed.new reg fake) ops).kills before pid signal after h

/-- A database and a shop that starts after it, both running. -/
def shopRunning : List Op :=
  [.activatePlan [(⟨0, .start, .waiting⟩, {}), (⟨1, .start, .waiting⟩, {})]]

theorem signals_only_children_shop :
    1 ∈ childrenOf [.spawned 0 1, .spawned 1 2] ∧
      2 ∈ childrenOf [.spawned 0 1, .spawned 1 2, .kill 1 .term] :=
  ⟨signals_only_children .counting (.fromLoaded shopUnits) true (shopRunning ++ [.initiateShutdown])
      [.spawned 0 1, .spawned 1 2] [.kill 2 .term, .shutdown] 1 .term (by decide),
    signals_only_children .counting (.fromLoaded shopUnits) true
      (shopRunning ++ [.initiateShutdown]) [.spawned 0 1, .spawned 1 2, .kill 1 .term] [.shutdown]
      2 .term (by decide)⟩

/-! ### The order of a shutdown -/

theorem sigterms_termIfRunning (s : SupervisorState) (id : UnitId) :
    sigterms (s.termIfRunning id).trace = sigterms s.trace ++ (s.units id).pid.toList := by
  rcases termIfRunning_cases s id with ⟨pid, hpid, heq⟩ | ⟨hpid, heq⟩ <;>
    simp [heq, hpid, sigterms]

/-- The SIGTERMs that a shutdown sends now. -/
def shutdownSigterms (s : SupervisorState) : List Pid :=
  (sigterms s.initiateShutdown.trace).drop (sigterms s.trace).length

/-- **A shutdown signals the running units in load order**, unless it is under way already. -/
theorem shutdown_signals (s : SupervisorState) : s.shutdownSigterms =
    if s.shuttingDown then []
    else (List.range s.registry.len).filterMap fun u => (s.units u).pid := by
  have hloop : ∀ (units : List UnitId) (t : SupervisorState),
      sigterms (units.foldl termIfRunning t).trace =
        sigterms t.trace ++ units.filterMap fun u => (t.units u).pid := by
    intro units
    induction units with
    | nil => simp
    | cons id units ih =>
      intro t
      have hunits : (t.termIfRunning id).units = t.units := by
        rcases termIfRunning_cases t id with ⟨pid, -, heq⟩ | ⟨-, heq⟩
        · rw [heq]
          rfl
        · rw [heq]
      rw [List.foldl_cons, ih, sigterms_termIfRunning, hunits, List.filterMap_cons]
      cases (t.units id).pid <;> simp
  unfold shutdownSigterms SupervisorState.initiateShutdown
  cases s.shuttingDown with
  | true => simp
  | false =>
    rw [if_neg (by simp), if_neg (by simp), emit_trace, sigterms_append, hloop]
    simp [sigterms]

/-- Every running unit is signalled exactly once, and before the running units that the start order
puts in front of it. -/
def ReversesStart (s : SupervisorState) (sent : List Pid) : Prop :=
  (∀ u p, (s.units u).pid = some p → sent.count p = 1) ∧
    ∀ u v p q, (s.units u).pid = some p → (s.units v).pid = some q →
      s.registry.MustPrecede v u → Before sent p q

theorem before_range_iff {n u v : ℕ} (hv : v < n) : Before (List.range n) u v ↔ u < v := by
  constructor
  · intro h
    exact h.rel List.pairwise_lt_range
  · intro h
    have hu : u ∈ List.range n := List.mem_range.mpr (h.trans hv)
    rcases before_or_before hu (List.mem_range.mpr hv) h.ne with h' | h'
    · exact h'
    · exact absurd (h'.rel List.pairwise_lt_range) h.asymm

section Order

variable {u v : UnitId} {p q : Pid}

/-- The processes of the units, in load order. -/
theorem Aimed.running_nodup (h : s.Aimed) :
    ((List.range s.registry.len).filterMap fun u => (s.units u).pid).Nodup := by
  refine List.Nodup.filterMap (fun u v p hu hv => ?_) List.nodup_range
  exact h.pid_injective hu hv

theorem Aimed.mem_running (h : s.Aimed) (hu : (s.units u).pid = some p) :
    p ∈ (List.range s.registry.len).filterMap fun u => (s.units u).pid :=
  List.mem_filterMap.mpr ⟨u, List.mem_range.mpr (h.inRange u p hu), hu⟩

theorem Aimed.before_running_iff (h : s.Aimed) (hu : (s.units u).pid = some p)
    (hv : (s.units v).pid = some q) :
    Before ((List.range s.registry.len).filterMap fun u => (s.units u).pid) p q ↔ u < v := by
  have hforward : ∀ {u v : UnitId} {p q : Pid}, (s.units u).pid = some p →
      (s.units v).pid = some q → u < v →
      Before ((List.range s.registry.len).filterMap fun u => (s.units u).pid) p q := by
    intro u v p q hu hv huv
    have hsub := List.Sublist.filterMap (fun u => (s.units u).pid)
      ((before_range_iff (h.inRange v q hv)).mpr huv)
    simpa [Before, hu, hv] using hsub
  constructor
  · intro hpq
    rcases lt_trichotomy u v with huv | rfl | hvu
    · exact huv
    · rw [hu, Option.some.injEq] at hv
      exact absurd hv (hpq.ne h.running_nodup)
    · exact absurd (hforward hv hu hvu) (hpq.asymm h.running_nodup)
  · exact hforward hu hv

end Order

theorem shopUnits_mustPrecede {x y : UnitId}
    (h : (UnitRegistry.fromLoaded shopUnits).MustPrecede x y) : x = 0 ∧ y = 1 := by
  obtain ⟨hx, hy⟩ := h.lt
  have hlen : (UnitRegistry.fromLoaded shopUnits).len = 2 := by decide
  rw [hlen] at hx hy
  have hdirectives : ∀ x < 2, ∀ y < 2,
      ((∃ name ∈ ((UnitRegistry.fromLoaded shopUnits).get y).file.unit.after,
        (UnitRegistry.fromLoaded shopUnits).lookup name = some x) ∨
      ∃ name ∈ ((UnitRegistry.fromLoaded shopUnits).get x).file.unit.before,
        (UnitRegistry.fromLoaded shopUnits).lookup name = some y) → x = 0 ∧ y = 1 := by decide
  exact hdirectives x hx y hy h

/-- The database is signalled before the shop that was started after it. -/
theorem shutdown_database_before_shop :
    ¬ ∀ (alloc : PidAllocator) (reg : UnitRegistry) (fake : Bool) (ops : List Op)
        (s : SupervisorState), (∀ v, ¬ Relation.TransGen reg.MustPrecede v v) →
      Library.run (SupervisorState.step alloc) (SupervisorState.new reg fake) ops = .ok s →
      s.shuttingDown = false → s.ReversesStart s.shutdownSigterms := by
  intro h
  have hacyclic : ∀ v, ¬ Relation.TransGen (UnitRegistry.fromLoaded shopUnits).MustPrecede v v := by
    intro v hcycle
    obtain ⟨w, hvw, -⟩ := Relation.TransGen.head'_iff.mp hcycle
    obtain ⟨w', -, hwv⟩ := Relation.TransGen.tail'_iff.mp hcycle
    have hone := (shopUnits_mustPrecede hwv).2
    rw [(shopUnits_mustPrecede hvw).1] at hone
    cases hone
  obtain ⟨-, horder⟩ := h .counting (.fromLoaded shopUnits) true shopRunning _ hacyclic rfl
    (by decide)
  have hbefore := horder 1 0 2 1 (by decide) (by decide)
    (Or.inl ⟨"db.service", by decide, by decide⟩)
  exact absurd hbefore (by decide)

/-- **When a shutdown reverses the start order.**  In every reachable state: no unit is running, or
the shutdown is not under way already and the load order puts every running unit in front of those
that it starts after. -/
theorem shutdown_reverses_start_iff (alloc : PidAllocator) (reg : UnitRegistry) (fake : Bool)
    (ops : List Op) :
    let s := reached (Library.run (SupervisorState.step alloc) (SupervisorState.new reg fake) ops)
    s.ReversesStart s.shutdownSigterms ↔
      (∀ u, (s.units u).pid = none) ∨
      (s.shuttingDown = false ∧ ∀ u v, (s.units u).pid ≠ none → (s.units v).pid ≠ none →
        s.registry.MustPrecede v u → u < v) := by
  intro s
  have h : s.Aimed := aimed_run (Aimed.new reg fake) ops
  rw [ReversesStart, shutdown_signals]
  constructor
  · intro h'
    obtain ⟨honce, horder⟩ := h'
    cases hflag : s.shuttingDown with
    | true =>
      rw [hflag, if_pos rfl] at honce
      refine Or.inl fun u => ?_
      cases hu : (s.units u).pid with
      | none => rfl
      | some p => exact absurd (honce u p hu) (by simp)
    | false =>
      rw [hflag, if_neg (by simp)] at horder
      refine Or.inr ⟨rfl, fun u v hu hv hvu => ?_⟩
      obtain ⟨p, hu⟩ := Option.ne_none_iff_exists'.mp hu
      obtain ⟨q, hv⟩ := Option.ne_none_iff_exists'.mp hv
      exact (h.before_running_iff hu hv).mp (horder u v p q hu hv hvu)
  · intro h'
    rcases h' with hnone | ⟨hflag, horder⟩
    · exact ⟨fun u p hu => by simp [hnone] at hu, fun u v p q hu => by simp [hnone] at hu⟩
    · rw [hflag, if_neg (by simp)]
      refine ⟨fun u p hu => List.count_eq_one_of_mem h.running_nodup (h.mem_running hu),
        fun u v p q hu hv hvu => ?_⟩
      exact (h.before_running_iff hu hv).mpr (horder u v (by simp [hu]) (by simp [hv]) hvu)

end SupervisorState

end WriteonceOs.Svc
