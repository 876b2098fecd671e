import Mathlib.Data.List.Permutation
import WriteonceOs.Library.Ledger
import WriteonceOs.Svc.StopUnit

/-!
# Pending restarts

Every scheduled restart leaves the list of pending restarts once: the timer fires it when its time
has come, a stop drops it with its unit, or the shutdown drops it.  The timer is to fire the due
restarts in the order of their times; it takes them in the order of the list, which is the order of
the exits, so a short delay behind a long one is fired too late.

* `books_step` — what each operation takes off the list, and what it adds;
* `departures_allowed` — nothing leaves without its reason;
* `consumed_in_order` — runs whose due restarts stand in the order of their times;
* `slow_fires_first` — a run in which they do not.
-/

namespace WriteonceOs.Svc

open WriteonceOs.Library

/-! ### Entries and how they leave -/

def UnitRegistry.restartDelay (reg : UnitRegistry) (id : UnitId) : Duration :=
  ((reg.get id).file.service.bind fun service => parseDuration service.restartSec).getD
    (fromSecs 5)

/-- The entry that a mark of the history stands for. -/
def Effect.pushed (reg : UnitRegistry) : Effect → Option PendingRestart
  | .scheduled id now => some ⟨id, now + reg.restartDelay id⟩
  | _ => none

/-- The entries pushed in a history. -/
def pushes (reg : UnitRegistry) (trace : List Effect) : List PendingRestart :=
  trace.filterMap (Effect.pushed reg)

/-- Why an entry leaves the list. -/
inductive Leave where
  | fired (now : Instant)
  | stopped (plan : List UnitId)
  | shutdown

def Leave.Allows (entry : PendingRestart) : Leave → Prop
  | .fired now => entry.fireAt ≤ now
  | .stopped plan => entry.unit ∈ plan
  | .shutdown => True

namespace SupervisorState

variable {alloc : PidAllocator} {reg : UnitRegistry} {s t : SupervisorState}

/-- The entries whose time has come. -/
def dueEntries (s : SupervisorState) : List PendingRestart :=
  s.pendingRestarts.filter (fun r => r.fireAt ≤ s.clock)

/-- The entries that an operation takes off the list. -/
def leaving (s : SupervisorState) : Op → List (PendingRestart × Leave)
  | .fireDueRestarts _ => s.dueEntries.map fun r => (r, .fired s.clock)
  | .stopUnit anchor ans =>
    match s.registry.buildStopTransaction ans.ords anchor with
    | .error _ => []
    | .ok plan =>
      (s.pendingRestarts.filter (fun r => r.unit ∈ plan)).map fun r => (r, .stopped plan)
  | .initiateShutdown =>
    if s.shuttingDown then [] else s.pendingRestarts.map fun r => (r, .shutdown)
  | _ => []

theorem leaving_allowed (s : SupervisorState) (op : Op) :
    ∀ d ∈ s.leaving op, d.2.Allows d.1 := by
  cases op with
  | fireDueRestarts answers =>
    intro d hd
    obtain ⟨r, hr, rfl⟩ := List.mem_map.mp hd
    have hdue : r.fireAt ≤ s.clock := of_decide_eq_true (List.mem_filter.mp hr).2
    exact hdue
  | stopUnit anchor ans =>
    intro d hd
    rw [leaving] at hd
    cases hplan : s.registry.buildStopTransaction ans.ords anchor with
    | error e =>
      rw [hplan] at hd
      exact absurd hd List.not_mem_nil
    | ok plan =>
      rw [hplan] at hd
      obtain ⟨r, hr, rfl⟩ := List.mem_map.mp hd
      have hplanned : r.unit ∈ plan := of_decide_eq_true (List.mem_filter.mp hr).2
      exact hplanned
  | initiateShutdown =>
    intro d hd
    rw [leaving] at hd
    split at hd
    · exact absurd hd List.not_mem_nil
    · obtain ⟨r, -, rfl⟩ := List.mem_map.mp hd
      trivial
  | _ => exact fun d hd => absurd hd List.not_mem_nil

/-! ### The books of one operation -/

/-- The books of the pending restarts. -/
def Books (reg : UnitRegistry) (given : List PendingRestart) (s t : SupervisorState) : Prop :=
  Balances (fun t => (pushes reg t.trace : Multiset PendingRestart))
    (fun t => (t.pendingRestarts : Multiset PendingRestart)) given s t

/-- The two states have the same entries, pushed and pending. -/
structure SameEntries (reg : UnitRegistry) (s t : SupervisorState) : Prop where
  pushes : pushes reg t.trace = pushes reg s.trace
  pending : t.pendingRestarts = s.pendingRestarts

theorem SameEntries.books (h : SameEntries reg s t) : Books reg [] s t :=
  .of_eq (congrArg _ h.pushes) (congrArg _ h.pending)

/-- Nothing is pushed, and the entries that meet a condition leave. -/
theorem Books.of_filter (p : PendingRestart → Prop) [DecidablePred p]
    (hpushes : pushes reg t.trace = pushes reg s.trace)
    (hpending : t.pendingRestarts = s.pendingRestarts.filter (fun r => ¬ p r)) :
    Books reg (s.pendingRestarts.filter (fun r => p r)) s t := by
  refine Balances.of_filter (fun r => decide (p r)) (congrArg _ hpushes) rfl (congrArg _ ?_)
  rw [hpending]
  exact List.filter_congr fun r _ => decide_not

theorem pushes_append (trace es : List Effect) :
    pushes reg (trace ++ es) = pushes reg trace ++ pushes reg es := List.filterMap_append

/-- Only a scheduled restart is pushed. -/
theorem pushes_other (trace : List Effect) {es : List Effect}
    (h : ∀ e ∈ es, ∀ id now, e ≠ .scheduled id now) :
    pushes reg (trace ++ es) = pushes reg trace := by
  have hnone : pushes reg es = [] := by
    refine List.filterMap_eq_nil_iff.mpr fun e he => ?_
    cases e with
    | scheduled id now => exact absurd rfl (h _ he id now)
    | _ => rfl
  rw [pushes_append, hnone, List.append_nil]

theorem SameEntries.emit (h : SameEntries reg s t) {e : Effect}
    (he : ∀ id now, e ≠ .scheduled id now) : SameEntries reg s (t.emit e) where
  pushes := by
    rw [emit_trace, pushes_other _ (by simpa using he), h.pushes]
  pending := h.pending

theorem SameEntries.start (h : SameEntries reg s t) (id : UnitId) (ans : StartAnswer) :
    SameEntries reg s (t.startUnitInternal alloc id ans) where
  pushes := by
    have hnone : ∃ es, (t.startUnitInternal alloc id ans).trace = t.trace ++ es ∧
        ∀ e ∈ es, ∀ id now, e ≠ .scheduled id now := by
      cases StartStep.of_start alloc t id ans with
      | idle _ _ _ htrace =>
        rcases htrace with htrace | ⟨-, htrace⟩
        · exact ⟨[], by rw [htrace, List.append_nil], by simp⟩
        · exact ⟨_, htrace, by simp⟩
      | running _ _ _ _ htrace => exact ⟨_, htrace, by simp⟩
      | oneshot _ _ _ _ es hes htrace =>
        exact ⟨_, htrace, by rcases hes with rfl | rfl <;> simp⟩
    obtain ⟨es, htrace, hes⟩ := hnone
    rw [htrace, pushes_other _ hes, h.pushes]
  pending := (start_frame alloc t id ans).pendingRestarts.trans h.pending

theorem startEach_entries (skip : SupervisorState → UnitId → Bool)
    (starts : List (UnitId × StartAnswer)) (s : SupervisorState) :
    SameEntries reg s (s.startEach alloc skip starts) :=
  startEach_inv (G := fun _ _ _ => True) (I := SameEntries reg s)
    (fun _ id ans h _ => h.start id ans) starts s ⟨rfl, rfl⟩ (startsMeet_true s starts)

/-- The files of the units are those of the registry. -/
def SameFiles (reg : UnitRegistry) (s : SupervisorState) : Prop := s.registry.units = reg.units

theorem SameFiles.restartDelay (h : SameFiles reg s) (id : UnitId) :
    s.registry.restartDelay id = reg.restartDelay id := by
  rw [UnitRegistry.restartDelay, UnitRegistry.get, h]
  rfl

/-- A scheduled restart is due after the delay of its unit. -/
theorem reap_scheduled_pending {r : Reap} {id : UnitId} {service : ServiceSection}
    (hlookup : s.byPid.lookup r.pid = some id) (hflag : s.shuttingDown = false)
    (hservice : (s.registry.get id).file.service = some service)
    (hwant : wantRestart service r.status.clean r.status.isSignaled = true)
    (hlimit : ¬ (0 < service.startLimitBurst ∧
      service.startLimitBurst ≤ (s.recentAt service id (s.clock + r.dt)).length)) :
    (s.reapChild r).pendingRestarts =
      s.pendingRestarts ++ [⟨id, s.clock + r.dt + s.registry.restartDelay id⟩] := by
  have hrecent : recentRestarts
      (((((s.advance r.dt).emit (.reaped r.pid)).untrack r.pid).setPid id none).setState id
        (if r.status.clean then .inactive else .failed)) service id =
      s.recentAt service id (s.clock + r.dt) := by
    simp [recentRestarts, recentAt]
  rw [reapChild_tracked hlookup]
  simp [afterExit, hflag, maybeScheduleRestart, maybeScheduleRestartClocked, hservice, hwant,
    UnitRegistry.restartDelay, restartDelay, hrecent, hlimit]

/-- **An exit** pushes what it adds to the list, and nothing under the shutdown flag. -/
theorem reap_pushes (hfiles : SameFiles reg s) (r : Reap) :
    ∃ new, pushes reg (s.reapChild r).trace = pushes reg s.trace ++ new ∧
      (s.reapChild r).pendingRestarts = s.pendingRestarts ++ new ∧
      (s.shuttingDown = true → new = []) := by
  cases ReapStep.of_reap s r with
  | untracked _ heq =>
    rw [heq]
    refine ⟨[], ?_, (List.append_nil _).symm, fun _ => rfl⟩
    rw [emit_trace, advance_trace, pushes_other _ (by simp), List.append_nil]
  | quiet id _ _ _ hpending _ es hes htrace =>
    refine ⟨[], ?_, by rw [hpending, List.append_nil], fun _ => rfl⟩
    rw [htrace, pushes_other _ (by rcases hes with rfl | rfl <;> simp), List.append_nil]
  | scheduled id hlookup _ hflag service hservice hwant hlimit _ _ htrace =>
    refine ⟨[⟨id, s.clock + r.dt + reg.restartDelay id⟩], ?_, ?_, fun h => ?_⟩
    · rw [htrace, pushes_append]
      rfl
    · rw [reap_scheduled_pending hlookup hflag hservice hwant hlimit, hfiles.restartDelay]
    · rw [hflag] at h
      cases h
  | suppressed id _ _ _ _ _ _ _ hpending _ es hes htrace =>
    refine ⟨[], ?_, by rw [hpending, List.append_nil], fun _ => rfl⟩
    rw [htrace, pushes_other _ (by rcases hes with rfl | rfl <;> simp), List.append_nil]

theorem reap_books (hfiles : SameFiles reg s) (r : Reap) : Books reg [] s (s.reapChild r) := by
  obtain ⟨new, hpushes, hpending, -⟩ := reap_pushes hfiles r
  simp only [Books, Balances, hpushes, hpending, ← Multiset.coe_add, Multiset.coe_nil]
  abel

/-- The entries that are not due stay. -/
theorem fireDue_books (s : SupervisorState) (answers : ℕ → StartAnswer) :
    Books reg s.dueEntries s (s.fireDueRestarts alloc answers) := by
  have h : SameEntries reg (s.setPending (s.pendingRestarts.filter (fun r => ¬ r.fireAt ≤ s.clock)))
      (s.fireDueRestarts alloc answers) := startEach_entries _ _ _
  exact .of_filter (fun r => r.fireAt ≤ s.clock) h.pushes h.pending

/-- A stop drops the entries of its plan and pushes none. -/
structure Dropped (reg : UnitRegistry) (s : SupervisorState) (plan : List UnitId)
    (t : SupervisorState) : Prop where
  flag : t.shuttingDown = true
  files : SameFiles reg t
  pushes : pushes reg t.trace = pushes reg s.trace
  pending : t.pendingRestarts = s.pendingRestarts.filter (fun r => r.unit ∉ plan)

theorem Dropped.emit {plan : List UnitId} (h : Dropped reg s plan t) {e : Effect}
    (he : ∀ id now, e ≠ .scheduled id now) : Dropped reg s plan (t.emit e) where
  flag := h.flag
  files := h.files
  pushes := by rw [emit_trace, pushes_other _ (by simpa using he), h.pushes]
  pending := h.pending

theorem Dropped.reap {plan : List UnitId} (h : Dropped reg s plan t) (r : Reap) :
    Dropped reg s plan (t.reapChild r) := by
  obtain ⟨new, hpushes, hpending, hnone⟩ := reap_pushes h.files r
  rw [hnone h.flag, List.append_nil] at hpushes hpending
  exact ⟨(reap_shuttingDown t r).trans h.flag, (congrArg _ (reap_registry t r)).trans h.files,
    hpushes.trans h.pushes, hpending.trans h.pending⟩

theorem Dropped.signalled (hfiles : SameFiles reg s) (plan : List UnitId) :
    Dropped reg s plan (plan.foldl termUnit ((s.setShuttingDown true).emit (.stopping plan))) where
  flag := (termUnits_frame plan _).1
  files := (congrArg _ (termUnits_frame plan _).2).trans hfiles
  pushes := by
    have hterms : ∀ e ∈ termsTo (plan.filterMap fun id =>
        (((s.setShuttingDown true).emit (.stopping plan)).units id).pid),
        ∀ id now, e ≠ .scheduled id now := by
      intro e he id now
      obtain ⟨pid, -, rfl⟩ := List.mem_map.mp he
      exact nofun
    rw [termUnits_trace, pushes_other _ hterms, emit_trace, pushes_other _ (by simp)]
    rfl
  pending := termUnits_pending plan _

theorem Dropped.books {plan : List UnitId} (h : Dropped reg s plan t) :
    Books reg (s.pendingRestarts.filter (fun r => r.unit ∈ plan)) s t :=
  .of_filter (fun r => r.unit ∈ plan) h.pushes h.pending

theorem stop_books (hfiles : SameFiles reg s) (anchor : String) (ans : StopAnswer) :
    Books reg ((s.leaving (.stopUnit anchor ans)).map Prod.fst) s
      (reached (step alloc s (.stopUnit anchor ans))) := by
  have hparts := stopUnit_inv s anchor ans (P := fun _ => True) (M := Dropped reg s)
    (fun _ _ _ _ => trivial) fun plan _ =>
      { signalled := Dropped.signalled hfiles plan
        advance := fun _ _ ht => ⟨ht.flag, ht.files, ht.pushes, ht.pending⟩
        kill := fun _ _ ht => ht.emit (by simp)
        reap := fun _ r _ ht => ht.reap r
        cgroup := fun _ _ ht => ht.emit (by simp) }
  rw [step, leaving]
  rcases hparts with ⟨e, hbuild, heq⟩ | ⟨plan, t, hbuild, ht, heq | heq⟩
  · rw [hbuild, heq]
    exact .of_eq rfl rfl
  · rw [hbuild, heq, List.map_map]
    exact (List.map_id _).symm ▸ ht.books
  · rw [hbuild, heq, List.map_map]
    exact (List.map_id _).symm ▸ ht.books

theorem shutdown_books (s : SupervisorState) :
    Books reg ((s.leaving .initiateShutdown).map Prod.fst) s s.initiateShutdown := by
  unfold initiateShutdown leaving
  cases hflag : s.shuttingDown with
  | true => exact .of_eq rfl rfl
  | false =>
    have h : SameEntries reg ((s.setShuttingDown true).setPending [])
        ((List.range s.registry.len).foldl termIfRunning
          ((s.setShuttingDown true).setPending [])) := by
      refine List.foldlRecOn (motive := SameEntries reg _) _ _ ⟨rfl, rfl⟩ fun t ht id _ => ?_
      rcases termIfRunning_cases t id with ⟨pid, -, heq⟩ | ⟨-, heq⟩
      · rw [heq]
        exact ht.emit (by simp)
      · rw [heq]
        exact ht
    have h' := h.emit (e := .shutdown) (by simp)
    simp only [Bool.false_eq_true, if_false, List.map_map, Function.comp_def, List.map_id']
    rw [Books, Balances, h'.pushes, h'.pending]
    exact (add_zero _).symm

/-- **The books of one operation.** -/
theorem books_step (hfiles : SameFiles reg s) (op : Op) :
    Books reg ((s.leaving op).map Prod.fst) s (reached (step alloc s op)) := by
  cases op with
  | activatePlan plan => exact (startEach_entries _ _ s).books
  | startNamed name ords answers =>
    simp only [step, startNamed, reached_ok]
    cases s.registry.buildTransaction ords name with
    | error e => exact .of_eq rfl rfl
    | ok plan => exact (startEach_entries _ _ s).books
  | stopUnit anchor ans => exact stop_books hfiles anchor ans
  | reap r => exact reap_books hfiles r
  | fireDueRestarts answers =>
    rw [leaving, List.map_map]
    exact (List.map_id _).symm ▸ fireDue_books s answers
  | initiateShutdown => exact shutdown_books s
  | addWantedBy target unit =>
    obtain ⟨-, -, -, hpending, -, -, htrace⟩ := addWantedBy_frame s target unit
    exact .of_eq (congrArg (fun es => (pushes reg es : Multiset PendingRestart)) htrace)
      (congrArg _ hpending)
  | advance dt => exact .of_eq rfl rfl

theorem sameFiles_opInv (alloc : PidAllocator) (reg : UnitRegistry) :
    OpInv alloc (fun _ _ _ => True) (SameFiles reg) where
  start := fun s id ans h _ => (congrArg _ (start_frame alloc s id ans).registry).trans h
  reap := fun s r h => (congrArg _ (reap_registry s r)).trans h
  advance := fun _ _ h => h
  kill := fun _ _ _ h => h
  cgroup := fun _ _ h => h
  stopping := fun _ _ h => h
  shutdown := fun _ h => h
  setState := fun _ _ _ h => h
  setShuttingDown := fun _ h => h
  restoreShuttingDown := fun _ _ _ h => h
  setPending := fun _ _ h => h
  registry := fun s target unit h => (addWantedBy_frame s target unit).1.trans h

/-! ### Runs -/

/-- What leaves the list in a run. -/
def departures (alloc : PidAllocator) (s : SupervisorState) (ops : List Op) :
    List (PendingRestart × Leave) :=
  collect (step alloc) leaving s ops

theorem departures_allowed (s : SupervisorState) (ops : List Op) :
    ∀ d ∈ departures alloc s ops, d.2.Allows d.1 :=
  collect_forall leaving_allowed s ops

/-- What was pushed in a run has left once, or is still pending. -/
theorem departures_perm (alloc : PidAllocator) (reg : UnitRegistry) (fake : Bool) (ops : List Op) :
    (pushes reg (reached (run (step alloc) (new reg fake) ops)).trace).Perm
      ((departures alloc (new reg fake) ops).map Prod.fst ++
        (reached (run (step alloc) (new reg fake) ops)).pendingRestarts) := by
  have hbooks : Books reg ((departures alloc (new reg fake) ops).map Prod.fst) (new reg fake)
      (reached (run (step alloc) (new reg fake) ops)) := by
    refine ledger_run (G := fun _ _ => True) (I := SameFiles reg)
      (fun s op hfiles _ => books_step hfiles op) ?_ rfl (guarded_true _ _)
    intro s op s' hfiles _ hok
    have h := (sameFiles_opInv alloc reg).step hfiles op (opStartsMeet_true s op)
    rwa [hok] at h
  rw [← Multiset.coe_eq_coe, ← Multiset.coe_add]
  exact hbooks.of_empty rfl rfl

/-- The restarts are attempted one after the other, in the order of their times. -/
def FiresInOrder (alloc : PidAllocator) (s : SupervisorState) : Op → Prop
  | .fireDueRestarts answers => ∃ es : List PendingRestart, es.Perm s.dueEntries ∧
    es.Pairwise (fun r r' => r.fireAt ≤ r'.fireAt) ∧
    s.fireDueRestarts alloc answers =
      (s.setPending (s.pendingRestarts.filter (fun r => ¬ r.fireAt ≤ s.clock))).startEach alloc
        (fun _ _ => false) (es.zipIdx.map fun d => (d.1.unit, answers d.2))
  | _ => True

/-- The due entries stand in the list in the order of their times. -/
def DueInOrder (s : SupervisorState) : Op → Prop
  | .fireDueRestarts _ => s.dueEntries.Pairwise (fun r r' => r.fireAt ≤ r'.fireAt)
  | _ => True

instance decidableDueInOrder (s : SupervisorState) : ∀ op, Decidable (DueInOrder s op)
  | .fireDueRestarts _ => inferInstanceAs (Decidable (List.Pairwise _ _))
  | .activatePlan _ | .startNamed _ _ _ | .stopUnit _ _ | .reap _ | .initiateShutdown
  | .addWantedBy _ _ | .advance _ => inferInstanceAs (Decidable True)

/-- The timer takes the due entries in the order of the list. -/
theorem fires_list_order (s : SupervisorState) (answers : ℕ → StartAnswer) :
    s.fireDueRestarts alloc answers =
      (s.setPending (s.pendingRestarts.filter (fun r => ¬ r.fireAt ≤ s.clock))).startEach alloc
        (fun _ _ => false) (s.dueEntries.zipIdx.map fun d => (d.1.unit, answers d.2)) := by
  rw [fireDueRestarts, dueRestarts, dueEntries, List.zipIdx_map, List.map_map]
  rfl

theorem DueInOrder.fires {op : Op} (h : DueInOrder s op) : FiresInOrder alloc s op := by
  cases op with
  | fireDueRestarts answers => exact ⟨s.dueEntries, .refl _, h, fires_list_order s answers⟩
  | _ => trivial

/-- Every restart pushed in a run has left the list once and for a reason, or is still pending, and
the timer attempts the due ones in the order of their times. -/
structure ConsumedInOrder (alloc : PidAllocator) (reg : UnitRegistry) (fake : Bool)
    (ops : List Op) : Prop where
  once : (pushes reg (reached (run (step alloc) (new reg fake) ops)).trace).Perm
    ((departures alloc (new reg fake) ops).map Prod.fst ++
      (reached (run (step alloc) (new reg fake) ops)).pendingRestarts)
  allowed : ∀ d ∈ departures alloc (new reg fake) ops, d.2.Allows d.1
  order : Guarded (step alloc) (FiresInOrder alloc) (new reg fake) ops

/-- A short restart delay and a long one, and a check of the disk that takes its time. -/
def slowAndFast : List LoadedUnit :=
  [⟨"slow.service", { service := some { execStart := "/usr/bin/slow", restart := .always } }⟩,
    ⟨"fast.service",
      { service := some { execStart := "/usr/bin/fast", restart := .always, restartSec := "1s" } }⟩,
    ⟨"fsck.service", { service := some { execStart := "/sbin/fsck", kind := .oneshot } }⟩]

/-- Both services crash, then the check keeps the loop waiting until both restarts are due. -/
def crashBeforeCheck : List Op :=
  [.startNamed "slow.service" ⟨.inserted, .inserted⟩ (fun _ => {}),
    .startNamed "fast.service" ⟨.inserted, .inserted⟩ (fun _ => {}),
    .reap ⟨0, 1, .exited 1⟩, .reap ⟨0, 2, .exited 1⟩,
    .startNamed "fsck.service" ⟨.inserted, .inserted⟩
      (fun _ => { polls := [.exited (fromSecs 6) (.exited 0)] })]

/-- The restart that was due first is fired last. -/
theorem slow_fires_first :
    ¬ ∀ (alloc : PidAllocator) (reg : UnitRegistry) (fake : Bool) (ops : List Op),
      ConsumedInOrder alloc reg fake ops := by
  intro h
  have horder := (h .counting (.fromLoaded slowAndFast) true
    (crashBeforeCheck ++ [.fireDueRestarts (fun _ => {})])).order
  obtain ⟨⟨es, hperm, hsorted, hfire⟩, -⟩ := (guarded_append.mp horder).2 _ rfl
  have hdue : es.Perm [⟨0, fromSecs 5⟩, ⟨1, fromSecs 1⟩] := hperm
  rcases List.perm_pair.mp hdue with rfl | rfl
  · exact absurd hsorted (by decide)
  · exact absurd (congrArg SupervisorState.trace hfire) (by decide +kernel)

/-- **Restarts are consumed once, and in the order of their times**, in every run whose due entries
stand in the list in that order whenever the timer fires. -/
theorem consumed_in_order (alloc : PidAllocator) (reg : UnitRegistry) (fake : Bool) (ops : List Op)
    (hops : Guarded (step alloc) DueInOrder (new reg fake) ops) :
    ConsumedInOrder alloc reg fake ops where
  once := departures_perm alloc reg fake ops
  allowed := departures_allowed _ ops
  order := hops.imp fun _ _ h => h.fires

/-- The service with the short delay crashes first; both restarts are due when the timer fires. -/
def crashInOrder : List Op :=
  [.startNamed "slow.service" ⟨.inserted, .inserted⟩ (fun _ => {}),
    .startNamed "fast.service" ⟨.inserted, .inserted⟩ (fun _ => {}),
    .reap ⟨0, 2, .exited 1⟩, .reap ⟨0, 1, .exited 1⟩, .advance (fromSecs 6),
    .fireDueRestarts (fun _ => {})]

theorem consumed_in_order_slowAndFast :
    ConsumedInOrder .counting (.fromLoaded slowAndFast) true crashInOrder ∧
      (departures .counting (new (.fromLoaded slowAndFast) true) crashInOrder).map Prod.fst =
        [⟨1, fromSecs 1⟩, ⟨0, fromSecs 5⟩] :=
  ⟨consumed_in_order .counting (.fromLoaded slowAndFast) true crashInOrder (by decide +kernel),
    by decide +kernel⟩

end SupervisorState

end WriteonceOs.Svc
