import WriteonceOs.Svc.EventLoop
import WriteonceOs.Svc.ProcessTable

/-!
# Shutdown

A shutdown marks the history after its signals.  Nothing that the exit handler, the timer or a stop
does afterwards spawns a process, but a start request does not ask for the flag.

* `Sealed` — no spawn after the mark, and no child without a SIGTERM at it;
* `Accounted.initiateShutdown` — the signals of a shutdown reach every child;
* `closing_opInv` — operations that spawn nothing keep the history sealed;
* `shutdown_final` — runs of the event loop.
-/

namespace WriteonceOs.Svc

open WriteonceOs.Library

/-- A fork adds a child, a SIGTERM or a wait removes it. -/
def Effect.onUnsignalled (children : List Pid) : Effect → List Pid
  | .spawned _ pid => pid :: children
  | .kill pid .term => children.filter (· ≠ pid)
  | .reaped pid => children.filter (· ≠ pid)
  | _ => children

/-- The children that were neither waited for nor sent SIGTERM since they were forked. -/
def unsignalled (trace : List Effect) : List Pid := trace.foldl Effect.onUnsignalled []

theorem unsignalled_append (t t' : List Effect) :
    unsignalled (t ++ t') = t'.foldl Effect.onUnsignalled (unsignalled t) := List.foldl_append

/-- Only a fork adds a child. -/
theorem onUnsignalled_subset (children : List Pid) {e : Effect} (he : ∀ u p, e ≠ .spawned u p) :
    e.onUnsignalled children ⊆ children := by
  cases e with
  | spawned u p => exact absurd rfl (he u p)
  | kill p signal =>
    cases signal with
    | term => exact List.filter_sublist.subset
    | kill => exact List.Subset.refl _
  | reaped p => exact List.filter_sublist.subset
  | _ => exact List.Subset.refl _

theorem Effect.IsNote.not_spawned {e : Effect} (h : e.IsNote) : ∀ u p, e ≠ .spawned u p := by
  intro u p heq
  rw [heq] at h
  exact h

theorem unsignalled_snoc_subset (t : List Effect) {e : Effect} (he : ∀ u p, e ≠ .spawned u p) :
    unsignalled (t ++ [e]) ⊆ unsignalled t := by
  rw [unsignalled_append]
  exact onUnsignalled_subset _ he

theorem unsignalled_oneshot (t : List Effect) (id : UnitId) (p : Pid) (es : List Effect)
    (hes : es = [] ∨ es = [.kill p .kill]) :
    unsignalled (t ++ (.spawned id p :: es ++ [.reaped p])) =
      (unsignalled t).filter (· ≠ p) := by
  rw [unsignalled_append]
  rcases hes with rfl | rfl
  · simp [Effect.onUnsignalled]
  · simp [Effect.onUnsignalled]

/-- After the mark of a shutdown nothing is spawned, and at the mark every child was sent
SIGTERM. -/
def Sealed (trace : List Effect) : Prop :=
  ∀ pre e, pre ++ [e] <+: trace →
    (.shutdown ∈ pre → ∀ u p, e ≠ .spawned u p) ∧ (e = .shutdown → unsignalled pre = [])

theorem Sealed.of_not_mem {trace : List Effect} (h : .shutdown ∉ trace) : Sealed trace := by
  intro pre e hpre
  have hsub := hpre.subset
  refine ⟨fun hmem => absurd (hsub (List.mem_append_left _ hmem)) h, ?_⟩
  intro heq
  subst heq
  exact absurd (hsub (by simp)) h

theorem Sealed.snoc {trace : List Effect} {e : Effect} (h : Sealed trace)
    (hspawned : .shutdown ∈ trace → ∀ u p, e ≠ .spawned u p)
    (hshutdown : e = .shutdown → unsignalled trace = []) : Sealed (trace ++ [e]) := by
  intro pre e' hpre
  rcases List.prefix_concat_iff.mp hpre with heq | hpre
  · obtain ⟨rfl, hlast⟩ := List.append_inj' heq rfl
    rw [List.cons.injEq] at hlast
    rw [hlast.1]
    exact ⟨hspawned, hshutdown⟩
  · exact h pre e' hpre

/-- In a sealed history nothing is left without a SIGTERM from the mark on. -/
theorem Sealed.unsignalled_eq {trace : List Effect} (h : Sealed trace)
    (hmem : .shutdown ∈ trace) : unsignalled trace = [] := by
  induction trace using List.reverseRecOn with
  | nil => cases hmem
  | append_singleton t e ih =>
    have ht : Sealed t := fun pre e' hpre => h pre e' (hpre.trans (List.prefix_append t [e]))
    obtain ⟨hspawned, hshutdown⟩ := h t e (List.prefix_refl _)
    by_cases hold : .shutdown ∈ t
    · exact List.subset_nil.mp (ih ht hold ▸ unsignalled_snoc_subset t (hspawned hold))
    · have he : e = .shutdown := by
        rcases List.mem_append.mp hmem with hin | hin
        · exact absurd hin hold
        · exact (List.mem_singleton.mp hin).symm
      have hnil := hshutdown he
      rw [he, unsignalled_append, hnil]
      rfl

theorem Sealed.append {trace es : List Effect} (h : Sealed trace) (hmem : .shutdown ∈ trace)
    (hes : ∀ e ∈ es, ∀ u p, e ≠ .spawned u p) : Sealed (trace ++ es) := by
  induction es generalizing trace with
  | nil => simpa using h
  | cons e es ih =>
    rw [List.forall_mem_cons] at hes
    rw [← List.singleton_append, ← List.append_assoc]
    exact ih (h.snoc (fun _ => hes.1) fun _ => h.unsignalled_eq hmem) (by simp [hmem]) hes.2

namespace SupervisorState

variable {alloc : PidAllocator} {s s' t : SupervisorState}

/-! ### Every child is accounted for -/

/-- The process table is exact, and every child without a SIGTERM is in it. -/
structure Accounted (s : SupervisorState) : Prop where
  table : s.TableInv
  known : ∀ p ∈ unsignalled s.trace, ∃ u, s.byPid.lookup p = some u
  inRange : ∀ u p, (s.units u).pid = some p → u < s.registry.len

theorem Accounted.new (reg : UnitRegistry) (fake : Bool) :
    (SupervisorState.new reg fake).Accounted where
  table := TableInv.new reg fake
  known := by
    intro p hp
    cases hp
  inRange := by
    intro u p hp
    cases hp

theorem Accounted.congr (h : s.Accounted) (htable : t.TableInv)
    (hknown : unsignalled t.trace ⊆ unsignalled s.trace)
    (hbyPid : ∀ p, t.byPid.lookup p = s.byPid.lookup p)
    (hpid : ∀ u, (t.units u).pid = (s.units u).pid) (hlen : t.registry.len = s.registry.len) :
    t.Accounted where
  table := htable
  known := by
    intro p hp
    rw [hbyPid]
    exact h.known p (hknown hp)
  inRange := by
    intro u p hp
    rw [hpid] at hp
    rw [hlen]
    exact h.inRange u p hp

theorem Accounted.start {id : UnitId} {ans : StartAnswer} (h : s.Accounted)
    (hidle : s.SpawnsIdle id ans) : (s.startUnitInternal alloc id ans).Accounted := by
  have htable : (s.startUnitInternal alloc id ans).TableInv := h.table.start hidle
  have hframe := start_frame alloc s id ans
  -- only a service of the registry is spawned
  have hlt : s.Spawns id ans → id < s.registry.len := by
    intro hspawn
    by_contra hge
    rw [Spawns, s.registry.get_eq_default (Nat.le_of_not_lt hge)] at hspawn
    exact hspawn.2.1 rfl
  cases StartStep.of_start alloc s id ans with
  | idle _ hbyPid hpid htrace =>
    refine h.congr htable ?_ (fun p => by rw [hbyPid]) (fun u => ?_) (by rw [hframe.registry])
    · rcases htrace with htrace | ⟨-, htrace⟩
      · rw [htrace]
        exact List.Subset.refl _
      · rw [htrace]
        exact unsignalled_snoc_subset _ (by simp)
    · by_cases hu : u = id
      · rw [hu, hpid]
      · exact hframe.pid u hu
  | running hspawn _ hbyPid hpid htrace =>
    refine ⟨htable, fun p hp => ?_, fun u p hp => ?_⟩
    · rw [htrace, unsignalled_append] at hp
      by_cases hnext : p = alloc.next s.trace
      · exact ⟨id, by rw [hbyPid, hnext, AList.lookup_insert]⟩
      · rcases List.mem_cons.mp hp with heq | hp
        · exact absurd heq hnext
        · obtain ⟨u, hu⟩ := h.known p hp
          exact ⟨u, by rw [hbyPid, AList.lookup_insert_ne hnext, hu]⟩
    · rw [hframe.registry]
      by_cases hu : u = id
      · rw [hu]
        exact hlt hspawn
      · rw [hframe.pid u hu] at hp
        exact h.inRange u p hp
  | oneshot hspawn _ hbyPid hpid es hes htrace =>
    refine h.congr htable ?_ (fun p => ?_) (fun u => ?_) (by rw [hframe.registry])
    · rw [htrace, unsignalled_oneshot _ _ _ _ hes]
      exact List.filter_sublist.subset
    · rw [hbyPid]
      exact h.table.tracked.oneshot_lookup p
    · by_cases hu : u = id
      · rw [hu, hpid, (hidle hspawn).1]
      · exact hframe.pid u hu

theorem Accounted.reap (h : s.Accounted) (r : Reap) : (s.reapChild r).Accounted := by
  obtain ⟨es, htrace, hes⟩ := reap_trace s r
  have hsubset : unsignalled (s.reapChild r).trace ⊆
      (unsignalled s.trace).filter (· ≠ r.pid) := by
    rw [htrace, unsignalled_append, List.foldl_cons]
    refine List.foldlRecOn (motive := fun ps => ps ⊆ (unsignalled s.trace).filter (· ≠ r.pid))
      _ _ (List.Subset.refl _) fun ps hps e he => ?_
    exact List.Subset.trans (onUnsignalled_subset ps (hes e he).not_spawned) hps
  refine ⟨h.table.reap r, fun p hp => ?_, fun u p hp => ?_⟩
  · obtain ⟨hp, hne⟩ := List.mem_filter.mp (hsubset hp)
    obtain ⟨u, hu⟩ := h.known p hp
    exact ⟨u, (reap_lookup s r p u).mpr ⟨by simpa using hne, hu⟩⟩
  · rw [reap_registry]
    rw [reap_pid] at hp
    split at hp
    · cases hp
    · exact h.inRange u p hp

theorem Accounted.emit (h : s.Accounted) {e : Effect} (htable : (s.emit e).TableInv)
    (he : ∀ u p, e ≠ .spawned u p) : (s.emit e).Accounted :=
  h.congr htable (unsignalled_snoc_subset _ he) (fun _ => rfl) (fun _ => rfl) rfl

theorem accounted_opInv (alloc : PidAllocator) : OpInv alloc SpawnsIdle Accounted :=
  have htable : OpInv alloc SpawnsIdle TableInv := tableInv_opInv
  { start := fun _ _ _ h hidle => h.start hidle
    reap := fun _ r h => h.reap r
    advance := fun s dt h => h.congr (htable.advance s dt h.table) (List.Subset.refl _)
      (fun _ => rfl) (fun _ => rfl) rfl
    kill := fun s pid signal h => h.emit (htable.kill s pid signal h.table) (by simp)
    cgroup := fun s id h => h.emit (htable.cgroup s id h.table) (by simp)
    stopping := fun s plan h => h.emit (htable.stopping s plan h.table) (by simp)
    shutdown := fun s h => h.emit (htable.shutdown s h.table) (by simp)
    setState := fun s id state h => h.congr (htable.setState s id state h.table)
      (List.Subset.refl _) (fun _ => rfl) (by simp) rfl
    setShuttingDown := fun s h => h.congr (htable.setShuttingDown s h.table)
      (List.Subset.refl _) (fun _ => rfl) (fun _ => rfl) rfl
    restoreShuttingDown := fun s t hs h => h.congr (htable.restoreShuttingDown s t hs.table h.table)
      (List.Subset.refl _) (fun _ => rfl) (fun _ => rfl) rfl
    setPending := fun s p h => h.congr (htable.setPending s p h.table)
      (List.Subset.refl _) (fun _ => rfl) (fun _ => rfl) rfl
    registry := by
      intro s target unit h
      obtain ⟨hregistry, hunits, hbyPid, -, -, -, htrace⟩ := addWantedBy_frame s target unit
      refine h.congr (htable.registry s target unit h.table) ?_ ?_ ?_ ?_
      · rw [htrace]
        exact List.Subset.refl _
      · simp [hbyPid]
      · simp [hunits]
      · rw [UnitRegistry.len, hregistry]
        rfl }

/-! ### The signals of a shutdown -/

/-- The signals reach the processes of the units. -/
theorem shutdownSignals_spec (units : List UnitId) (s : SupervisorState) :
    (units.foldl termIfRunning s).units = s.units ∧
      (units.foldl termIfRunning s).shuttingDown = s.shuttingDown ∧
      (units.foldl termIfRunning s).pendingRestarts = s.pendingRestarts ∧
      (.shutdown ∈ (units.foldl termIfRunning s).trace → .shutdown ∈ s.trace) ∧
      ∀ p ∈ unsignalled (units.foldl termIfRunning s).trace,
        p ∈ unsignalled s.trace ∧ ∀ u ∈ units, (s.units u).pid ≠ some p := by
  induction units generalizing s with
  | nil => simp
  | cons id units ih =>
    obtain ⟨hunits, hflag, hpending, hmark, hsignals⟩ := ih (s.termIfRunning id)
    rw [List.foldl_cons]
    rcases termIfRunning_cases s id with ⟨pid, hpid, heq⟩ | ⟨hpid, heq⟩
    · rw [heq] at hunits hflag hpending hmark hsignals ⊢
      refine ⟨hunits, hflag, hpending, fun h => by simpa using hmark h, fun p hp => ?_⟩
      obtain ⟨hold, hne⟩ := hsignals p hp
      rw [emit_trace, unsignalled_append] at hold
      obtain ⟨hold, hp⟩ := List.mem_filter.mp hold
      refine ⟨hold, List.forall_mem_cons.mpr ⟨?_, hne⟩⟩
      rw [hpid, ne_eq, Option.some.injEq, eq_comm]
      simpa using hp
    · rw [heq] at hunits hflag hpending hmark hsignals ⊢
      refine ⟨hunits, hflag, hpending, hmark, fun p hp => ?_⟩
      obtain ⟨hold, hne⟩ := hsignals p hp
      refine ⟨hold, List.forall_mem_cons.mpr ⟨?_, hne⟩⟩
      rw [hpid]
      simp

/-- The supervisor after a shutdown. -/
structure Closing (s : SupervisorState) : Prop where
  shuttingDown : s.shuttingDown = true
  pendingRestarts : s.pendingRestarts = []
  mark : .shutdown ∈ s.trace
  sealed : Sealed s.trace

/-- **A shutdown leaves no child without a SIGTERM.** -/
theorem Accounted.initiateShutdown (h : s.Accounted) (hflag : s.shuttingDown = false)
    (hmark : .shutdown ∉ s.trace) : s.initiateShutdown.Closing := by
  rw [SupervisorState.initiateShutdown, hflag, if_neg (by simp)]
  obtain ⟨-, hshut, hpending, hnew, hsignals⟩ := shutdownSignals_spec (List.range s.registry.len)
    ((s.setShuttingDown true).setPending [])
  have hnone := fun hmem => hmark (hnew hmem)
  refine ⟨hshut, hpending, by simp, ?_⟩
  refine Sealed.snoc (Sealed.of_not_mem hnone) (fun hmem => absurd hmem hnone) fun _ => ?_
  rw [List.eq_nil_iff_forall_not_mem]
  intro p hp
  obtain ⟨hold, hne⟩ := hsignals p hp
  obtain ⟨u, hu⟩ := h.known p hold
  have hpid := (h.table.table p u).mp hu
  exact hne u (List.mem_range.mpr (h.inRange u p hpid)) hpid

/-! ### After a shutdown -/

theorem Closing.grow (h : s.Closing) (hflag : t.shuttingDown = s.shuttingDown)
    (hpending : t.pendingRestarts = s.pendingRestarts) (es : List Effect)
    (htrace : t.trace = s.trace ++ es) (hes : ∀ e ∈ es, ∀ u p, e ≠ .spawned u p) : t.Closing where
  shuttingDown := hflag.trans h.shuttingDown
  pendingRestarts := hpending.trans h.pendingRestarts
  mark := by
    rw [htrace]
    exact List.mem_append_left _ h.mark
  sealed := by
    rw [htrace]
    exact h.sealed.append h.mark hes

theorem Closing.reap (h : s.Closing) (r : Reap) : (s.reapChild r).Closing := by
  obtain ⟨es, htrace, hes⟩ := reap_trace s r
  have hspawned : ∀ e ∈ Effect.reaped r.pid :: es, ∀ u p, e ≠ .spawned u p :=
    List.forall_mem_cons.mpr ⟨by simp, fun e he => (hes e he).not_spawned⟩
  refine h.grow (reap_shuttingDown s r) ?_ _ htrace hspawned
  -- no restart is scheduled while the flag is set
  cases ReapStep.of_reap s r with
  | untracked _ heq => rw [heq, emit_pendingRestarts, advance_pendingRestarts]
  | quiet _ _ _ _ hpending _ _ _ _ => exact hpending
  | scheduled _ _ _ hflag _ _ _ _ _ _ _ =>
    rw [h.shuttingDown] at hflag
    cases hflag
  | suppressed _ _ _ hflag _ _ _ _ _ _ _ _ _ =>
    rw [h.shuttingDown] at hflag
    cases hflag

/-- Operations that spawn nothing keep the history sealed. -/
theorem closing_opInv : OpInv alloc (fun s id ans => ¬ s.Spawns id ans) Closing where
  start := by
    intro s id ans h hno
    have hframe := start_frame alloc s id ans
    cases StartStep.of_start alloc s id ans with
    | idle _ _ _ htrace =>
      rcases htrace with htrace | ⟨-, htrace⟩
      · exact h.grow hframe.shuttingDown hframe.pendingRestarts [] (by simpa using htrace) (by simp)
      · exact h.grow hframe.shuttingDown hframe.pendingRestarts _ htrace (by simp)
    | running hspawn _ _ _ _ => exact absurd hspawn hno
    | oneshot hspawn _ _ _ _ _ _ => exact absurd hspawn hno
  reap := fun _ r h => h.reap r
  advance := fun _ _ h => h.grow rfl rfl [] (by simp) (by simp)
  kill := fun _ _ _ h => h.grow rfl rfl _ rfl (by simp)
  cgroup := fun _ _ h => h.grow rfl rfl _ rfl (by simp)
  stopping := fun _ _ h => h.grow rfl rfl _ rfl (by simp)
  shutdown := fun _ h => h.grow rfl rfl _ rfl (by simp)
  setState := fun _ _ _ h => h.grow rfl rfl [] (by simp) (by simp)
  setShuttingDown := fun _ h => ⟨rfl, h.pendingRestarts, h.mark, h.sealed⟩
  restoreShuttingDown := fun _ _ hs h => ⟨hs.shuttingDown, h.pendingRestarts, h.mark, h.sealed⟩
  setPending := fun _ _ h => ⟨h.shuttingDown, by simp [h.pendingRestarts], h.mark, h.sealed⟩
  registry := by
    intro s target unit h
    obtain ⟨-, -, -, hpending, hflag, -, htrace⟩ := addWantedBy_frame s target unit
    exact h.grow hflag hpending [] (by simpa using htrace) (by simp)

/-- Every unit is without a process. -/
def Quiet (s : SupervisorState) : Prop := ∀ u, (s.units u).pid = none

/-- Operations that spawn nothing leave a quiet supervisor quiet. -/
theorem quiet_opInv : OpInv alloc (fun s id ans => ¬ s.Spawns id ans) Quiet where
  start := by
    intro s id ans h hno u
    by_cases hu : u = id
    · cases StartStep.of_start alloc s id ans with
      | idle _ _ hpid _ => rw [hu, hpid, h id]
      | running hspawn _ _ _ _ => exact absurd hspawn hno
      | oneshot hspawn _ _ _ _ _ _ => exact absurd hspawn hno
    · rw [(start_frame alloc s id ans).pid u hu, h u]
  reap := by
    intro s r h u
    rw [reap_pid, h u, ite_self]
  advance := fun _ _ h => h
  kill := fun _ _ _ h => h
  cgroup := fun _ _ h => h
  stopping := fun _ _ h => h
  shutdown := fun _ h => h
  setState := fun _ _ _ h u => by rw [setState_pid, h u]
  setShuttingDown := fun _ h => h
  restoreShuttingDown := fun _ _ _ h => h
  setPending := fun _ _ h => h
  registry := by
    intro s target unit h u
    rw [(addWantedBy_frame s target unit).2.1, h u]

/-- Nothing but a shutdown makes its mark. -/
theorem unmarked_workInv (alloc : PidAllocator) :
    WorkInv alloc (fun _ _ _ => True) (fun s => Effect.shutdown ∉ s.trace) where
  start := by
    intro s id ans h _
    cases StartStep.of_start alloc s id ans with
    | idle _ _ _ htrace =>
      rcases htrace with htrace | ⟨-, htrace⟩
      · rw [htrace]
        exact h
      · simpa [htrace] using h
    | running _ _ _ _ htrace => simpa [htrace] using h
    | oneshot _ _ _ _ es hes htrace =>
      rw [htrace]
      rcases hes with rfl | rfl <;> simpa using h
  reap := by
    intro s r h
    obtain ⟨es, htrace, hes⟩ := reap_trace s r
    rw [htrace, List.mem_append, List.mem_cons]
    intro hmem
    rcases hmem with hold | hreaped | hnote
    · exact h hold
    · cases hreaped
    · exact hes _ hnote
  advance := fun _ _ h => h
  kill := fun _ _ _ h => by simpa using h
  cgroup := fun _ _ h => by simpa using h
  stopping := fun _ _ h => by simpa using h
  setState := fun _ _ _ h => h
  setShuttingDown := fun _ h => h
  restoreShuttingDown := fun _ _ _ h => h
  setPending := fun _ _ h => h
  registry := by
    intro s target unit h
    rw [(addWantedBy_frame s target unit).2.2.2.2.2.2]
    exact h

/-! ### Runs -/

/-- An attempt spawns idle units only, and none once the supervisor shuts down. -/
def SpawnsOpen (s : SupervisorState) (id : UnitId) (ans : StartAnswer) : Prop :=
  s.Spawns id ans → s.Idle id ∧ s.shuttingDown = false

instance (s : SupervisorState) (id : UnitId) (ans : StartAnswer) :
    Decidable (s.SpawnsOpen id ans) :=
  inferInstanceAs (Decidable (_ → _))

/-- Start requests spawn idle units only, and none once the supervisor shuts down. -/
def StartsOpen (alloc : PidAllocator) : SupervisorState → Op → Prop := RequestsMeet alloc SpawnsOpen

instance (s : SupervisorState) (op : Op) : Decidable (StartsOpen alloc s op) :=
  inferInstanceAs (Decidable (RequestsMeet alloc SpawnsOpen s op))

theorem StartsOpen.idle {op : Op} (h : StartsOpen alloc s op) : StartsIdle alloc s op :=
  RequestsMeet.imp (fun _ _ _ hopen hspawn => (hopen hspawn).1) h

theorem startsMeet_closed {skip : SupervisorState → UnitId → Bool}
    {starts : List (UnitId × StartAnswer)} (hflag : s.shuttingDown = true)
    (h : StartsMeet alloc skip SpawnsOpen s starts) :
    StartsMeet alloc skip (fun s id ans => ¬ s.Spawns id ans) s starts := by
  induction starts generalizing s with
  | nil => trivial
  | cons start starts ih =>
    obtain ⟨id, ans⟩ := start
    refine ⟨fun hskip hspawn => ?_, ih ?_ h.2⟩
    · have hopen := (h.1 hskip hspawn).2
      rw [hflag] at hopen
      cases hopen
    · split
      · exact hflag
      · exact (start_frame alloc s id ans).shuttingDown.trans hflag

/-- After a shutdown such requests, and the timer, spawn nothing. -/
theorem StartsOpen.closed {op : Op} (hop : StartsOpen alloc s op) (h : s.Closing) :
    OpStartsMeet alloc (fun s id ans => ¬ s.Spawns id ans) s op := by
  cases op with
  | activatePlan plan => exact startsMeet_closed h.shuttingDown hop
  | startNamed name ords answers =>
    exact fun plan hplan => startsMeet_closed h.shuttingDown (hop plan hplan)
  | fireDueRestarts answers =>
    have hnone : s.dueRestarts = [] := by rw [dueRestarts, h.pendingRestarts]; rfl
    rw [OpStartsMeet, hnone]
    trivial
  | _ => trivial

/-- What holds between the operations: the processes are accounted for, and the supervisor either
runs or is closing. -/
structure ShutdownInv (s : SupervisorState) : Prop where
  accounted : s.Accounted
  phase : (s.shuttingDown = false ∧ .shutdown ∉ s.trace) ∨ s.Closing

theorem ShutdownInv.sealed (h : s.ShutdownInv) : Sealed s.trace := by
  rcases h.phase with ⟨-, hmark⟩ | hclosing
  · exact Sealed.of_not_mem hmark
  · exact hclosing.sealed

/-- An operation while the supervisor runs: a shutdown, or one that makes no mark. -/
theorem ShutdownInv.step_running {op : Op} (h : s.ShutdownInv) (hflag : s.shuttingDown = false)
    (hmark : .shutdown ∉ s.trace) :
    Sealed (reached (step alloc s op)).trace ∧
      ∀ s', step alloc s op = .ok s' →
        (s'.shuttingDown = false ∧ .shutdown ∉ s'.trace) ∨ s'.Closing := by
  by_cases hop : op = .initiateShutdown
  · subst hop
    have hclosing := h.accounted.initiateShutdown hflag hmark
    refine ⟨hclosing.sealed, fun s' heq => Or.inr ?_⟩
    cases heq
    exact hclosing
  · have hmark' := (unmarked_workInv alloc).step hmark op (opStartsMeet_true s op)
      fun heq => absurd heq hop
    refine ⟨Sealed.of_not_mem hmark', fun s' heq => Or.inl ⟨?_, ?_⟩⟩
    · rw [step_shuttingDown hop heq, hflag]
    · rw [heq] at hmark'
      exact hmark'

/-- **One operation** keeps the history sealed, also while it waits. -/
theorem ShutdownInv.step_sealed {op : Op} (h : s.ShutdownInv) (hop : StartsOpen alloc s op) :
    Sealed (reached (step alloc s op)).trace := by
  rcases h.phase with ⟨hflag, hmark⟩ | hclosing
  · exact (h.step_running hflag hmark).1
  · exact (closing_opInv.step hclosing op (hop.closed hclosing)).sealed

theorem ShutdownInv.step {op : Op} (h : s.ShutdownInv) (hop : StartsOpen alloc s op)
    (hstep : SupervisorState.step alloc s op = .ok s') : s'.ShutdownInv := by
  have haccounted := (accounted_opInv alloc).step h.accounted op (hop.idle.meets h.accounted.table)
  rw [hstep] at haccounted
  refine ⟨haccounted, ?_⟩
  rcases h.phase with ⟨hflag, hmark⟩ | hclosing
  · exact (h.step_running hflag hmark).2 s' hstep
  · have hnext := closing_opInv.step hclosing op (hop.closed hclosing)
    rw [hstep] at hnext
    exact Or.inr hnext

/-- The exit condition of the event loop. -/
def Done (s : SupervisorState) : Prop := (s.shuttingDown && s.allUnitsQuiet) = true

theorem Quiet.done (h : s.Quiet) (hflag : s.shuttingDown = true) : s.Done := by
  simp [Done, hflag, allUnitsQuiet, h _]

theorem Accounted.quiet (h : s.Accounted) (hdone : s.Done) : s.Quiet := by
  rw [Done, Bool.and_eq_true] at hdone
  intro u
  cases hpid : (s.units u).pid with
  | none => rfl
  | some p =>
    have hall := List.all_eq_true.mp hdone.2 u (List.mem_range.mpr (h.inRange u p hpid))
    rw [hpid] at hall
    cases hall

/-- **A run keeps the history sealed.** -/
theorem sealed_run {ops : List Op} (h : s.ShutdownInv)
    (hops : Guarded (step alloc) (StartsOpen alloc) s ops) :
    Sealed (reached (run (step alloc) s ops)).trace :=
  run_within (step alloc) (G := StartsOpen alloc) (I := ShutdownInv) (J := fun s => Sealed s.trace)
    (fun _ hs => hs.sealed) (fun _ _ hs hop => hs.step_sealed hop)
    (fun _ _ _ hs hop hstep => hs.step hop hstep) h hops

/-- Once the exit condition holds it stays. -/
theorem done_run {ops : List Op} (h : s.ShutdownInv) (hdone : s.Done)
    (hops : Guarded (step alloc) (StartsOpen alloc) s ops) :
    (reached (run (step alloc) s ops)).Done := by
  have hclosing : ∀ {t : SupervisorState}, t.ShutdownInv → t.Done → t.Closing := by
    intro t ht hd
    rw [Done, Bool.and_eq_true] at hd
    rcases ht.phase with ⟨hflag, -⟩ | hclosing
    · rw [hflag] at hd
      cases hd.1
    · exact hclosing
  have hnext : ∀ t op, t.ShutdownInv ∧ t.Done → StartsOpen alloc t op →
      (reached (step alloc t op)).Done := by
    intro t op ht hop
    have hc := hclosing ht.1 ht.2
    have hmeets := hop.closed hc
    exact (quiet_opInv.step (ht.1.accounted.quiet ht.2) op hmeets).done
      (closing_opInv.step hc op hmeets).shuttingDown
  refine run_within (step alloc) (G := StartsOpen alloc) (I := fun t => t.ShutdownInv ∧ t.Done)
    (J := Done) (fun _ ht => ht.2) hnext (fun t op t' ht hop hstep => ?_) ⟨h, hdone⟩ hops
  refine ⟨ht.1.step hop hstep, ?_⟩
  have := hnext t op ht hop
  rw [hstep] at this
  exact this

/-! ### The event loop -/

/-- A fresh supervisor that activates different units has started idle units only. -/
theorem shutdownInv_activated (reg : UnitRegistry) (fake : Bool) {plan : List (Job × StartAnswer)}
    (hnd : (plan.map fun p => p.1.unit).Nodup) :
    ((SupervisorState.new reg fake).activatePlan alloc plan).ShutdownInv := by
  have hunits : (((plan.filter (fun p => p.1.state = .waiting)).map fun p =>
      (p.1.unit, p.2)).map Prod.fst).Nodup := by
    rw [List.map_map]
    exact hnd.sublist (List.filter_sublist.map _)
  have hmeets : OpStartsMeet alloc SpawnsIdle (SupervisorState.new reg fake) (.activatePlan plan) :=
    startsMeet_idle _ _ hunits fun u _ => ⟨rfl, by simp [SupervisorState.new]⟩
  have hmark : Effect.shutdown ∉ (SupervisorState.new reg fake).trace := by
    simp [SupervisorState.new]
  refine ⟨(accounted_opInv alloc).step (Accounted.new reg fake) (.activatePlan plan) hmeets,
    Or.inl ⟨startEach_shuttingDown _ _, ?_⟩⟩
  exact (unmarked_workInv alloc).step hmark (.activatePlan plan) (opStartsMeet_true _ _) (by simp)

/-- So has the supervisor that enters the event loop. -/
theorem shutdownInv_boot {loaded : List LoadedUnit} {fake : Bool} {enabledUnits : List String}
    {defaultTarget : String} {ords : HashOrders} {answers : UnitId → StartAnswer}
    (h : boot alloc loaded fake enabledUnits defaultTarget ords answers = .ok s) :
    s.ShutdownInv := by
  rw [boot] at h
  generalize builtRegistry loaded (enabledUnits.map fun unit => ("multi-user.target", unit)) = reg
    at h
  cases hplan : reg.buildTransaction ords defaultTarget with
  | error e =>
    simp only [SupervisorState.new, hplan] at h
    cases h
  | ok plan =>
    simp only [SupervisorState.new, hplan] at h
    cases h
    obtain ⟨id, sorted, -, rfl, -, hnd, -⟩ := reg.buildTransaction_ok hplan
    refine shutdownInv_activated reg fake ?_
    rw [List.map_map, List.map_map]
    exact (List.map_id sorted).symm ▸ hnd

/-- Two services, of which the default target starts the first. -/
def twoServices : List LoadedUnit :=
  [⟨"dbus.service",
      { service := some { execStart := "/usr/bin/dbus-daemon", restart := .always } }⟩,
    ⟨"sshd.service", { service := some { execStart := "/usr/sbin/sshd" } }⟩]

/-- The supervisor is told to terminate, and then to start the second service. -/
def terminateThenStart : List Wake :=
  [.ready 0 [.signalFd [.terminate]] (fun _ => {}),
    .ready 0 [.listener [{ line := .ok "START sshd.service\n" }]] (fun _ => {})]

/-- The start request is served while the first service is still going down. -/
theorem start_after_shutdown :
    ¬ ∀ (alloc : PidAllocator) (loaded : List LoadedUnit) (fake : Bool) (enabledUnits : List String)
        (defaultTarget : String) (ords : HashOrders) (answers : UnitId → StartAnswer)
        (s₀ : SupervisorState),
      boot alloc loaded fake enabledUnits defaultTarget ords answers = .ok s₀ →
      ∀ (wakes : List Wake) (pre : List Effect) (u : UnitId) (p : Pid),
        pre ++ [.spawned u p] <+: (reached ((s₀.eventLoop alloc wakes).map Prod.fst)).trace →
        .shutdown ∉ pre := by
  intro h
  exact h .counting twoServices true [] "dbus.service" ⟨.inserted, .inserted⟩ (fun _ => {}) _ rfl
    terminateThenStart [.spawned 0 1, .kill 1 .term, .shutdown] 1 2 (by decide) (by decide)

/-- **Shutdown is final** in every run of the event loop whose start requests spawn idle units only,
and none once the supervisor shuts down: nothing is spawned after the shutdown, every child still
there was sent SIGTERM, and the exit condition stays once it holds. -/
theorem shutdown_final (alloc : PidAllocator) (loaded : List LoadedUnit) (fake : Bool)
    (enabledUnits : List String) (defaultTarget : String) (ords : HashOrders)
    (answers : UnitId → StartAnswer) (s₀ : SupervisorState)
    (hboot : boot alloc loaded fake enabledUnits defaultTarget ords answers = .ok s₀)
    (wakes : List Wake)
    (hwakes : Guarded (step alloc) (StartsOpen alloc) s₀ (s₀.loopOps alloc wakes)) :
    let s := reached ((s₀.eventLoop alloc wakes).map Prod.fst)
    (∀ pre u p, pre ++ [.spawned u p] <+: s.trace → .shutdown ∉ pre) ∧
    (∀ pre, pre <+: s.trace → .shutdown ∈ pre → unsignalled pre = []) ∧
    ∀ ops ops' s₁, s₀.loopOps alloc wakes = ops ++ ops' → run (step alloc) s₀ ops = .ok s₁ →
      s₁.Done → (reached (run (step alloc) s₁ ops')).Done := by
  intro s
  have hinv := shutdownInv_boot hboot
  have hsealed : Sealed s.trace := by
    have := sealed_run hinv hwakes
    rwa [eventLoop_run] at this
  refine ⟨fun pre u p hpre hmem => (hsealed pre _ hpre).1 hmem u p rfl, fun pre hpre hmem => ?_, ?_⟩
  · have hprefix : Sealed pre := fun pre' e hpre' => hsealed pre' e (hpre'.trans hpre)
    exact hprefix.unsignalled_eq hmem
  · intro ops ops' s₁ hsplit hrun hdone
    rw [hsplit, guarded_append] at hwakes
    have hinv₁ := run_ok_inv (step alloc) (G := StartsOpen alloc) (I := ShutdownInv)
      (fun _ _ _ hs hop hstep => hs.step hop hstep) hinv hwakes.1 hrun
    exact done_run hinv₁ hdone (hwakes.2 s₁ hrun)

/-- The second service is started before the supervisor is told to terminate. -/
def startThenTerminate : List Wake :=
  [.ready 0 [.listener [{ line := .ok "START sshd.service\n" }]] (fun _ => {}),
    .ready 0 [.signalFd [.terminate]] (fun _ => {}),
    .ready 0 [.signalFd [.child [⟨0, 1, .signaled 15⟩, ⟨0, 2, .signaled 15⟩]]] (fun _ => {})]

theorem shutdown_final_twoServices :
    unsignalled (reached ((((SupervisorState.new (.fromLoaded twoServices) true).activatePlan
      .counting [(⟨0, .start, .waiting⟩, {})]).eventLoop .counting
        startThenTerminate).map Prod.fst)).trace = [] :=
  (shutdown_final .counting twoServices true [] "dbus.service" ⟨.inserted, .inserted⟩ (fun _ => {})
    _ rfl startThenTerminate (by decide)).2.1 _ (List.prefix_refl _) (by decide)

end SupervisorState

end WriteonceOs.Svc
