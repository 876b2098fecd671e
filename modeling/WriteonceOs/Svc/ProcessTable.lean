import WriteonceOs.Svc.Operations

/-!
# The process table

Two paths spawn a unit: the restart timer and a start request.  The timer only ever starts units
that have no process; a start request looks at the unit's state alone, so it also spawns a unit that
waits for its restart, and the timer then spawns it again.

* `consistent_iff` — the PID table and the units agree and no unit has two of its processes and
  pending restarts together;
* `TableInv.fireDue_meets` — in such a state the timer starts idle units only;
* `consistent_run` — runs whose start requests and activations spawn idle units only stay there.
-/

namespace WriteonceOs.Svc

open WriteonceOs.Library

namespace SupervisorState

variable {alloc : PidAllocator} {s : SupervisorState}

/-- The number of tracked processes of a unit. -/
def liveCount (s : SupervisorState) (u : UnitId) : ℕ :=
  (s.byPid.keys.filter (fun p => s.byPid.lookup p = some u)).length

/-- The number of pending restarts of a unit. -/
def pendingCount (s : SupervisorState) (u : UnitId) : ℕ :=
  s.pendingRestarts.countP (fun r => r.unit = u)

/-- The PID table is the inverse of the units' PIDs, and no unit has two of its processes and
pending restarts together. -/
structure Consistent (s : SupervisorState) : Prop where
  table : ∀ p u, s.byPid.lookup p = some u ↔ (s.units u).pid = some p
  single : ∀ u, s.liveCount u + s.pendingCount u ≤ 1

/-- A unit without a process and without a pending restart. -/
def Idle (s : SupervisorState) (id : UnitId) : Prop :=
  (s.units id).pid = none ∧ ∀ r ∈ s.pendingRestarts, r.unit ≠ id

instance (s : SupervisorState) (id : UnitId) : Decidable (s.Idle id) :=
  inferInstanceAs (Decidable (_ ∧ _))

/-- The same, as the operations keep it. -/
structure TableInv (s : SupervisorState) : Prop where
  tracked : s.Tracked
  table : ∀ p u, s.byPid.lookup p = some u ↔ (s.units u).pid = some p
  distinct : (s.pendingRestarts.map (·.unit)).Nodup
  apart : ∀ r ∈ s.pendingRestarts, (s.units r.unit).pid = none

/-- With an exact table, a unit has one tracked process or none. -/
theorem liveCount_eq (htable : ∀ p u, s.byPid.lookup p = some u ↔ (s.units u).pid = some p)
    (u : UnitId) : s.liveCount u = if (s.units u).pid = none then 0 else 1 := by
  unfold liveCount
  have hmem : ∀ p, p ∈ s.byPid.keys.filter (fun p => s.byPid.lookup p = some u) ↔
      (s.units u).pid = some p := by
    intro p
    rw [List.mem_filter, decide_eq_true_eq, htable]
    refine and_iff_right_of_imp fun hp => ?_
    have hsome : (s.byPid.lookup p).isSome := by simp [(htable p u).mpr hp]
    exact AList.lookup_isSome.mp hsome
  cases hpid : (s.units u).pid with
  | none =>
    rw [if_pos rfl, List.length_eq_zero_iff, List.eq_nil_iff_forall_not_mem]
    intro p hp
    rw [hmem, hpid] at hp
    cases hp
  | some q =>
    have hperm : (s.byPid.keys.filter (fun p => s.byPid.lookup p = some u)).Perm [q] := by
      refine (List.perm_ext_iff_of_nodup (s.byPid.keys_nodup.filter _) (List.nodup_singleton q)).mpr
        fun p => ?_
      rw [hmem, hpid, Option.some.injEq, List.mem_singleton, eq_comm]
    simpa using hperm.length_eq

theorem pendingCount_le_one_iff :
    (∀ u, s.pendingCount u ≤ 1) ↔ (s.pendingRestarts.map (·.unit)).Nodup := by
  rw [List.nodup_iff_count_le_one]
  refine forall_congr' fun u => ?_
  rw [pendingCount, List.count, List.countP_map]
  rfl

theorem pendingCount_eq_zero_iff {u : UnitId} :
    s.pendingCount u = 0 ↔ ∀ r ∈ s.pendingRestarts, r.unit ≠ u := by
  rw [pendingCount, List.countP_eq_zero]
  simp

theorem consistent_iff (htracked : s.Tracked) : s.Consistent ↔ s.TableInv := by
  constructor
  · intro h
    obtain ⟨htable, hsingle⟩ := h
    refine ⟨htracked, htable, pendingCount_le_one_iff.mp fun u => ?_, fun r hr => ?_⟩
    · have := hsingle u
      omega
    · by_contra hlive
      have hcount := hsingle r.unit
      rw [liveCount_eq htable, if_neg hlive] at hcount
      exact pendingCount_eq_zero_iff.mp (by omega) r hr rfl
  · intro h
    obtain ⟨-, htable, hdistinct, hapart⟩ := h
    refine ⟨htable, fun u => ?_⟩
    have hpending := pendingCount_le_one_iff.mpr hdistinct u
    rw [liveCount_eq htable]
    split
    · omega
    · rename_i hlive
      have hzero : s.pendingCount u = 0 := by
        refine pendingCount_eq_zero_iff.mpr fun r hr hu => hlive ?_
        rw [← hu]
        exact hapart r hr
      omega

/-! ### The elementary updates -/

theorem TableInv.new (reg : UnitRegistry) (fake : Bool) :
    (SupervisorState.new reg fake).TableInv where
  tracked := Tracked.new reg fake
  table := by simp [SupervisorState.new]
  distinct := by simp [SupervisorState.new]
  apart := by simp [SupervisorState.new]

/-- What only the table, the PIDs and the pending restarts decide. -/
theorem TableInv.congr {s' : SupervisorState} (h : s.TableInv) (htracked : s'.Tracked)
    (hbyPid : ∀ p, s'.byPid.lookup p = s.byPid.lookup p)
    (hpid : ∀ u, (s'.units u).pid = (s.units u).pid)
    (hpending : s'.pendingRestarts.Sublist s.pendingRestarts) : s'.TableInv where
  tracked := htracked
  table := by
    intro p u
    rw [hbyPid, hpid]
    exact h.table p u
  distinct := h.distinct.sublist (hpending.map _)
  apart := by
    intro r hr
    rw [hpid]
    exact h.apart r (hpending.subset hr)

/-- Spawning an idle unit keeps the table. -/
theorem TableInv.start {id : UnitId} {ans : StartAnswer} (h : s.TableInv)
    (hidle : s.Spawns id ans → s.Idle id) : (s.startUnitInternal alloc id ans).TableInv := by
  have hframe := start_frame alloc s id ans
  have htracked : (s.startUnitInternal alloc id ans).Tracked := h.tracked.start
  have hpending : (s.startUnitInternal alloc id ans).pendingRestarts.Sublist s.pendingRestarts :=
    hframe.pendingRestarts ▸ List.Sublist.refl _
  cases StartStep.of_start alloc s id ans with
  | idle _ hbyPid hpid _ =>
    refine h.congr htracked (fun p => by rw [hbyPid]) (fun u => ?_) hpending
    by_cases hu : u = id
    · rw [hu, hpid]
    · exact hframe.pid u hu
  | oneshot hspawn _ hbyPid hpid _ _ _ =>
    refine h.congr htracked (fun p => ?_) (fun u => ?_) hpending
    · rw [hbyPid]
      exact h.tracked.oneshot_lookup p
    · by_cases hu : u = id
      · rw [hu, hpid, (hidle hspawn).1]
      · exact hframe.pid u hu
  | running hspawn _ hbyPid hpid _ =>
    obtain ⟨hnone, hapart⟩ := hidle hspawn
    refine ⟨htracked, ?_, h.distinct.sublist (hpending.map _), ?_⟩
    · intro p u
      rw [hbyPid, lookup_insert_iff, h.table]
      by_cases hu : u = id
      · subst hu
        rw [hpid, hnone]
        simp [eq_comm]
      · rw [hframe.pid u hu]
        constructor
        · intro h'
          rcases h' with ⟨-, hid⟩ | ⟨-, hp⟩
          · exact absurd hid.symm hu
          · exact hp
        · intro hp
          refine Or.inr ⟨?_, hp⟩
          intro heq
          subst heq
          rw [← h.table, h.tracked.lookup_next] at hp
          cases hp
    · intro r hr
      have hr' := hpending.subset hr
      rw [hframe.pid r.unit (hapart r hr')]
      exact h.apart r hr'

/-- An exit schedules a restart only for the unit whose process it was. -/
theorem TableInv.reap (h : s.TableInv) (r : Reap) : (s.reapChild r).TableInv := by
  have htable : ∀ p u, (s.reapChild r).byPid.lookup p = some u ↔
      ((s.reapChild r).units u).pid = some p := by
    intro p u
    rw [reap_lookup, reap_pid]
    split
    · rename_i hlost
      rw [h.table] at hlost ⊢
      rw [hlost]
      simp [eq_comm]
    · rename_i hkept
      rw [h.table]
      refine and_iff_right_of_imp fun hp heq => hkept ?_
      rw [← heq, h.table, hp]
  have hapart : ∀ q ∈ s.pendingRestarts, ((s.reapChild r).units q.unit).pid = none := by
    intro q hq
    rw [reap_pid, h.apart q hq, ite_self]
  cases ReapStep.of_reap s r with
  | untracked _ heq =>
    refine ⟨h.tracked.reap r, htable, ?_, ?_⟩
    · rw [heq]
      exact h.distinct
    · intro q hq
      rw [heq, emit_pendingRestarts, advance_pendingRestarts] at hq
      exact hapart q hq
  | quiet id _ _ _ hpending _ _ _ _ =>
    refine ⟨h.tracked.reap r, htable, hpending ▸ h.distinct, ?_⟩
    rw [hpending]
    exact hapart
  | suppressed id _ _ _ _ _ _ _ hpending _ _ _ _ =>
    refine ⟨h.tracked.reap r, htable, hpending ▸ h.distinct, ?_⟩
    rw [hpending]
    exact hapart
  | scheduled id hlookup frame _ _ _ _ _ hpending _ _ =>
    obtain ⟨delay, hpending⟩ := hpending
    have hid := (h.table r.pid id).mp hlookup
    have hfresh : id ∉ s.pendingRestarts.map (·.unit) := by
      intro hmem
      obtain ⟨q, hq, hu⟩ := List.mem_map.mp hmem
      have hnone := h.apart q hq
      rw [hu, hid] at hnone
      cases hnone
    refine ⟨h.tracked.reap r, htable, ?_, ?_⟩
    · rw [hpending, List.map_append, List.map_singleton, List.nodup_append]
      refine ⟨h.distinct, List.nodup_singleton _, ?_⟩
      intro u hu v hv huv
      rw [List.mem_singleton] at hv
      rw [huv, hv] at hu
      exact hfresh hu
    · rw [hpending]
      intro q hq
      rcases List.mem_append.mp hq with hq | hq
      · exact hapart q hq
      · rw [List.mem_singleton] at hq
        rw [hq]
        exact frame.pid

/-! ### Runs -/

/-- An attempt spawns idle units only. -/
def SpawnsIdle (s : SupervisorState) (id : UnitId) (ans : StartAnswer) : Prop :=
  s.Spawns id ans → s.Idle id

instance (s : SupervisorState) (id : UnitId) (ans : StartAnswer) :
    Decidable (s.SpawnsIdle id ans) :=
  inferInstanceAs (Decidable (_ → _))

theorem tableInv_opInv : OpInv alloc SpawnsIdle TableInv where
  start := fun _ _ _ h hidle => h.start hidle
  reap := fun _ r h => h.reap r
  advance := fun _ _ h => ⟨h.tracked, h.table, h.distinct, h.apart⟩
  kill := fun _ _ _ h => ⟨h.tracked.emit (by simp) (by simp), h.table, h.distinct, h.apart⟩
  cgroup := fun _ _ h => ⟨h.tracked.emit (by simp) (by simp), h.table, h.distinct, h.apart⟩
  stopping := fun _ _ h => ⟨h.tracked.emit (by simp) (by simp), h.table, h.distinct, h.apart⟩
  shutdown := fun _ h => ⟨h.tracked.emit (by simp) (by simp), h.table, h.distinct, h.apart⟩
  setState := fun _ _ _ h =>
    h.congr h.tracked (fun _ => by simp) (fun _ => by simp) (by simp)
  setShuttingDown := fun _ h => ⟨h.tracked, h.table, h.distinct, h.apart⟩
  restoreShuttingDown := fun _ _ _ h => ⟨h.tracked, h.table, h.distinct, h.apart⟩
  setPending := fun _ _ h =>
    h.congr h.tracked (fun _ => by simp) (fun _ => by simp) (by simp)
  registry := by
    intro s target unit h
    obtain ⟨-, hunits, hbyPid, hpending, -, -, -⟩ := addWantedBy_frame s target unit
    refine h.congr ((tracked_opInv alloc).registry s target unit h.tracked) ?_ ?_ ?_
    · simp [hbyPid]
    · simp [hunits]
    · simp [hpending]

/-- Attempts at different idle units find them idle. -/
theorem startsMeet_idle {skip : SupervisorState → UnitId → Bool}
    (starts : List (UnitId × StartAnswer)) (s : SupervisorState)
    (hnd : (starts.map Prod.fst).Nodup) (hidle : ∀ id ∈ starts.map Prod.fst, s.Idle id) :
    StartsMeet alloc skip SpawnsIdle s starts := by
  induction starts generalizing s with
  | nil => trivial
  | cons start starts ih =>
    obtain ⟨id, ans⟩ := start
    rw [List.map_cons, List.nodup_cons] at hnd
    rw [List.map_cons, List.forall_mem_cons] at hidle
    refine ⟨fun _ _ => hidle.1, ih _ hnd.2 fun u hu => ?_⟩
    split
    · exact hidle.2 u hu
    · have hframe := start_frame alloc s id ans
      have hne : u ≠ id := by
        intro heq
        subst heq
        exact hnd.1 hu
      obtain ⟨hpid, hpending⟩ := hidle.2 u hu
      exact ⟨(hframe.pid u hne).trans hpid, hframe.pendingRestarts ▸ hpending⟩

/-- **The restart timer starts idle units only.** -/
theorem TableInv.fireDue_meets (h : s.TableInv) (answers : ℕ → StartAnswer) :
    OpStartsMeet alloc SpawnsIdle s (.fireDueRestarts answers) := by
  have hunits : (s.dueRestarts.zipIdx.map fun d => (d.1, answers d.2)).map Prod.fst =
      s.dueRestarts := by
    rw [List.map_map]
    exact List.zipIdx_map_fst 0 s.dueRestarts
  refine startsMeet_idle _ _ ?_ ?_
  · rw [hunits]
    exact h.distinct.sublist (List.filter_sublist.map _)
  · rw [hunits]
    intro id hid
    obtain ⟨r, hr, rfl⟩ := List.mem_map.mp hid
    obtain ⟨hr, hdue⟩ := List.mem_filter.mp hr
    refine ⟨h.apart r hr, fun q hq hu => ?_⟩
    obtain ⟨hq, hlater⟩ := List.mem_filter.mp hq
    have : q = r := List.inj_on_of_nodup_map h.distinct hq hr hu
    rw [this] at hlater
    simp_all

/-- Start requests and activations spawn idle units only; nothing is asked of the timer. -/
def StartsIdle (alloc : PidAllocator) : SupervisorState → Op → Prop := RequestsMeet alloc SpawnsIdle

instance (s : SupervisorState) (op : Op) : Decidable (StartsIdle alloc s op) :=
  inferInstanceAs (Decidable (RequestsMeet alloc SpawnsIdle s op))

theorem StartsIdle.meets {op : Op} (hop : StartsIdle alloc s op) (h : s.TableInv) :
    OpStartsMeet alloc SpawnsIdle s op := by
  cases op with
  | fireDueRestarts answers => exact h.fireDue_meets answers
  | _ => exact hop

theorem tableInv_run {ops : List Op} (h : s.TableInv)
    (hops : Guarded (step alloc) (StartsIdle alloc) s ops) :
    (reached (run (step alloc) s ops)).TableInv :=
  run_inv (step alloc) (G := StartsIdle alloc) (I := TableInv)
    (fun _ op hs hop => tableInv_opInv.step hs op (hop.meets hs)) h hops

/-- The service crashes, an operator starts it before its restart is due, and the restart fires. -/
def crashThenStart : List Op :=
  [startDbus, .reap ⟨0, 1, .exited 1⟩, startDbus, .advance (fromSecs 5),
    .fireDueRestarts (fun _ => {})]

/-- The operator's start leaves a process and a pending restart, and the timer a second process. -/
theorem second_spawn_by_due_restart :
    ¬ ∀ (alloc : PidAllocator) (reg : UnitRegistry) (fake : Bool) (ops : List Op)
        (s : SupervisorState),
      run (step alloc) (SupervisorState.new reg fake) ops = .ok s → s.Consistent := by
  intro h
  have hrun := h .counting (.fromLoaded dbusUnits) true crashThenStart _ rfl
  exact absurd (hrun.single 0) (by decide)

/-- **The process table in every run**: as long as start requests and activations spawn idle units
only, the PID table and the units agree and no unit has two processes, two pending restarts, or one
of each. -/
theorem consistent_run (reg : UnitRegistry) (fake : Bool) (ops : List Op)
    (hops : Guarded (step alloc) (StartsIdle alloc) (SupervisorState.new reg fake) ops) :
    (reached (run (step alloc) (SupervisorState.new reg fake) ops)).Consistent := by
  have h := tableInv_run (TableInv.new reg fake) hops
  exact (consistent_iff h.tracked).mpr h

theorem consistent_run_dbus :
    (reached (run (step .counting) (SupervisorState.new (.fromLoaded dbusUnits) true)
      [startDbus, .reap ⟨0, 1, .exited 1⟩, .advance (fromSecs 5),
        .fireDueRestarts (fun _ => {})])).Consistent :=
  consistent_run (.fromLoaded dbusUnits) true _ (by decide)

end SupervisorState

end WriteonceOs.Svc
