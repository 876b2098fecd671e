import WriteonceOs.Svc.Restart

/-!
# Control group directories

A spawn makes the directory of its unit, and a removal succeeds when no process is left in it; both
can be read off the history.  The exit handler removes the directory of a unit that stays down and a
stop those of its plan.  Four ways down pass neither: a oneshot that has come and gone, a spawn that
fails behind the creation of the directory, a due restart that brings no process, and an exit during
the stop of other units.

* `Tied` — the processes in the control groups are the tracked ones;
* `NoLeakBut.start`, `NoLeakBut.fireDue` — starts, and those of the restart timer;
* `NoLeakBut.reap`, `NoLeakBut.stop` — exits and stops;
* `noLeak_run` — runs that come by none of the four ways.
-/

namespace WriteonceOs.Svc

open WriteonceOs.Library

/-! ### Directories and processes in the history -/

/-- The processes in the control group of a unit, from a history with its latest entry first. -/
def cgroupProcs (u : UnitId) : List Effect → List Pid
  | [] => []
  | .spawned v pid :: past => if v = u then pid :: cgroupProcs u past else cgroupProcs u past
  | .reaped pid :: past => (cgroupProcs u past).filter (· ≠ pid)
  | _ :: past => cgroupProcs u past

/-- Whether a unit has its directory; `late` tells of a spawn that failed whether the directory had
been made by then. -/
def cgroupDir (late : List Effect → Bool) (u : UnitId) : List Effect → Bool
  | [] => false
  | .spawned v _ :: past => v = u || cgroupDir late u past
  | .spawnFailed v :: past => (v = u && late past) || cgroupDir late u past
  | .removeCgroup v :: past => cgroupDir late u past && !(v = u && (cgroupProcs u past).isEmpty)
  | _ :: past => cgroupDir late u past

def procsIn (u : UnitId) (trace : List Effect) : List Pid := cgroupProcs u trace.reverse

def dirIn (late : List Effect → Bool) (u : UnitId) (trace : List Effect) : Bool :=
  cgroupDir late u trace.reverse

section History

variable {late : List Effect → Bool} {u v : UnitId} {p : Pid} (t : List Effect)

@[simp] theorem procsIn_spawned : procsIn u (t ++ [.spawned v p]) =
    if v = u then p :: procsIn u t else procsIn u t := by
  simp [procsIn, cgroupProcs]

@[simp] theorem procsIn_reaped :
    procsIn u (t ++ [.reaped p]) = (procsIn u t).filter (· ≠ p) := by
  simp [procsIn, cgroupProcs]

/-- Only forks and waits change the processes. -/
theorem procsIn_other {e : Effect} (hs : ∀ u p, e ≠ .spawned u p) (hr : ∀ p, e ≠ .reaped p) :
    procsIn u (t ++ [e]) = procsIn u t := by
  cases e with
  | spawned u p => exact absurd rfl (hs u p)
  | reaped p => exact absurd rfl (hr p)
  | _ => simp [procsIn, cgroupProcs]

@[simp] theorem dirIn_spawned :
    dirIn late u (t ++ [.spawned v p]) = (decide (v = u) || dirIn late u t) := by
  simp [dirIn, cgroupDir]

@[simp] theorem dirIn_spawnFailed : dirIn late u (t ++ [.spawnFailed v]) =
    (decide (v = u) && late t.reverse || dirIn late u t) := by
  simp [dirIn, cgroupDir]

@[simp] theorem dirIn_removeCgroup : dirIn late u (t ++ [.removeCgroup v]) =
    (dirIn late u t && !(decide (v = u) && (procsIn u t).isEmpty)) := by
  simp [dirIn, cgroupDir, procsIn]

/-- Only spawns make directories. -/
theorem dirIn_other {e : Effect} (hs : ∀ u p, e ≠ .spawned u p) (hf : ∀ u, e ≠ .spawnFailed u)
    (h : dirIn late u (t ++ [e]) = true) : dirIn late u t = true := by
  cases e with
  | spawned u p => exact absurd rfl (hs u p)
  | spawnFailed u => exact absurd rfl (hf u)
  | removeCgroup v =>
    rw [dirIn_removeCgroup, Bool.and_eq_true] at h
    exact h.1
  | _ => simpa [dirIn, cgroupDir] using h

theorem note_plain {e : Effect} (h : e.IsNote) :
    (∀ u p, e ≠ .spawned u p) ∧ (∀ p, e ≠ .reaped p) ∧ ∀ u, e ≠ .spawnFailed u := by
  refine ⟨?_, ?_, ?_⟩
  all_goals
    intros
    rintro rfl
    cases h

/-- What an exit notes leaves the processes alone. -/
theorem procsIn_notes {es : List Effect} (hes : ∀ e ∈ es, e.IsNote) :
    procsIn u (t ++ es) = procsIn u t := by
  induction es generalizing t with
  | nil => rw [List.append_nil]
  | cons e es ih =>
    obtain ⟨he, hes⟩ := List.forall_mem_cons.mp hes
    obtain ⟨hs, hr, -⟩ := note_plain he
    rw [← List.singleton_append, ← List.append_assoc, ih _ hes, procsIn_other _ hs hr]

/-- What an exit notes makes no directory. -/
theorem dirIn_notes {es : List Effect} (hes : ∀ e ∈ es, e.IsNote)
    (h : dirIn late u (t ++ es) = true) : dirIn late u t = true := by
  induction es generalizing t with
  | nil => rwa [List.append_nil] at h
  | cons e es ih =>
    obtain ⟨he, hes⟩ := List.forall_mem_cons.mp hes
    obtain ⟨hs, -, hf⟩ := note_plain he
    rw [← List.singleton_append, ← List.append_assoc] at h
    exact dirIn_other _ hs hf (ih _ hes h)

end History

namespace SupervisorState

variable {alloc : PidAllocator} {late : List Effect → Bool} {s s' t : SupervisorState}
  {u id : UnitId} {ans : StartAnswer} {plan : List UnitId}

/-! ### The processes are the tracked ones -/

/-- Outside fake mode, with the table that the control groups show. -/
structure Tied (s : SupervisorState) : Prop where
  tracked : s.Tracked
  table : ∀ p u, s.byPid.lookup p = some u ↔ p ∈ procsIn u s.trace
  real : s.fake = false

theorem Tied.new (reg : UnitRegistry) : (SupervisorState.new reg false).Tied where
  tracked := Tracked.new reg false
  table := fun p u => by simp [SupervisorState.new, procsIn, cgroupProcs]
  real := rfl

theorem Tied.emit (h : s.Tied) {e : Effect} (hs : ∀ u p, e ≠ .spawned u p)
    (hr : ∀ p, e ≠ .reaped p) : (s.emit e).Tied where
  tracked := h.tracked.emit hs hr
  table := fun p u => by
    rw [emit_trace, procsIn_other _ hs hr]
    exact h.table p u
  real := h.real

/-- A new process is in no control group yet. -/
theorem Tied.fresh (h : s.Tied) (u : UnitId) : alloc.next s.trace ∉ procsIn u s.trace := by
  intro hmem
  have hlookup := (h.table _ u).mpr hmem
  rw [h.tracked.lookup_next] at hlookup
  cases hlookup

/-- A oneshot that has come and gone leaves the processes as they were. -/
theorem Tied.procsIn_oneshot (h : s.Tied) (u id : UnitId) {es : List Effect}
    (hes : es = [] ∨ es = [.kill (alloc.next s.trace) .kill]) :
    procsIn u (s.trace ++ (.spawned id (alloc.next s.trace) :: es ++
      [.reaped (alloc.next s.trace)])) = procsIn u s.trace := by
  have hself : (procsIn u s.trace).filter (· ≠ alloc.next s.trace) = procsIn u s.trace := by
    refine List.filter_eq_self.mpr fun p hp => decide_eq_true ?_
    rintro rfl
    exact h.fresh u hp
  have hspawned : procsIn u (s.trace ++ (.spawned id (alloc.next s.trace) :: es)) =
      procsIn u (s.trace ++ [.spawned id (alloc.next s.trace)]) := by
    rcases hes with rfl | rfl
    · rfl
    · rw [← List.singleton_append, ← List.append_assoc, procsIn_other _ (by simp) (by simp)]
  rw [← List.append_assoc, procsIn_reaped, hspawned, procsIn_spawned]
  split
  · rw [List.filter_cons_of_neg (by simp), hself]
  · exact hself

theorem Tied.start (h : s.Tied) : (s.startUnitInternal alloc id ans).Tied where
  tracked := h.tracked.start
  table := by
    intro p u
    cases StartStep.of_start alloc s id ans with
    | idle _ hbyPid _ htrace =>
      rw [hbyPid, h.table]
      rcases htrace with htrace | ⟨-, htrace⟩
      · rw [htrace]
      · rw [htrace, procsIn_other _ (by simp) (by simp)]
    | running _ _ hbyPid _ htrace =>
      rw [hbyPid, lookup_insert_iff, htrace, procsIn_spawned, h.table]
      constructor
      · rintro (⟨rfl, rfl⟩ | ⟨-, hp⟩)
        · rw [if_pos rfl]
          exact List.mem_cons_self
        · split
          · exact List.mem_cons_of_mem _ hp
          · exact hp
      · intro hp
        by_cases hu : id = u
        · rw [if_pos hu] at hp
          rcases List.mem_cons.mp hp with rfl | hp
          · exact .inl ⟨rfl, hu⟩
          · refine .inr ⟨?_, hp⟩
            rintro rfl
            exact h.fresh u hp
        · rw [if_neg hu] at hp
          refine .inr ⟨?_, hp⟩
          rintro rfl
          exact h.fresh u hp
    | oneshot _ _ hbyPid _ es hes htrace =>
      rw [hbyPid, h.tracked.oneshot_lookup, htrace, h.procsIn_oneshot u id hes]
      exact h.table p u
  real := (start_frame alloc s id ans).fake.trans h.real

/-- The processes after an exit. -/
theorem procsIn_reap (s : SupervisorState) (r : Reap) (u : UnitId) :
    procsIn u (s.reapChild r).trace = (procsIn u s.trace).filter (· ≠ r.pid) := by
  obtain ⟨es, htrace, hes⟩ := reap_trace s r
  rw [htrace, ← List.singleton_append, ← List.append_assoc, procsIn_notes _ hes, procsIn_reaped]

theorem reap_fake (s : SupervisorState) (r : Reap) : (s.reapChild r).fake = s.fake := by
  cases ReapStep.of_reap s r with
  | untracked _ h => rw [h]; rfl
  | quiet _ _ frame => exact frame.fake
  | scheduled _ _ frame => exact frame.fake
  | suppressed _ _ frame => exact frame.fake

theorem Tied.reap (h : s.Tied) (r : Reap) : (s.reapChild r).Tied where
  tracked := h.tracked.reap r
  table := by
    intro p u
    rw [reap_lookup, procsIn_reap, List.mem_filter, h.table]
    simp [and_comm]
  real := (reap_fake s r).trans h.real

theorem tied_opInv (alloc : PidAllocator) : OpInv alloc (fun _ _ _ => True) Tied where
  start := fun _ _ _ h _ => h.start
  reap := fun _ r h => h.reap r
  advance := fun _ _ h => ⟨h.tracked, h.table, h.real⟩
  kill := fun _ _ _ h => h.emit (by simp) (by simp)
  cgroup := fun _ _ h => h.emit (by simp) (by simp)
  stopping := fun _ _ h => h.emit (by simp) (by simp)
  shutdown := fun _ h => h.emit (by simp) (by simp)
  setState := fun _ _ _ h => ⟨h.tracked, h.table, h.real⟩
  setShuttingDown := fun _ h => ⟨h.tracked, h.table, h.real⟩
  restoreShuttingDown := fun _ _ _ h => ⟨h.tracked, h.table, h.real⟩
  setPending := fun _ _ h => ⟨h.tracked, h.table, h.real⟩
  registry := by
    intro s target unit h
    obtain ⟨-, -, hbyPid, -, -, -, htrace⟩ := addWantedBy_frame s target unit
    refine ⟨(tracked_opInv alloc).registry s target unit h.tracked, fun p u => ?_, ?_⟩
    · rw [hbyPid, htrace]
      exact h.table p u
    · unfold addWantedBy
      split
      · exact h.real
      · exact h.real

/-! ### Leaks -/

/-- The unit has a process, or waits for its restart. -/
def Held (s : SupervisorState) (u : UnitId) : Prop := procsIn u s.trace ≠ [] ∨ s.Pending u

instance (s : SupervisorState) (u : UnitId) : Decidable (s.Held u) :=
  inferInstanceAs (Decidable (_ ∨ _))

/-- A unit without a process and without a pending restart has no directory. -/
def NoLeak (late : List Effect → Bool) (s : SupervisorState) : Prop :=
  ∀ u, procsIn u s.trace = [] → ¬ s.Pending u → dirIn late u s.trace = false

/-- The same in the middle of a loop of start attempts, whose units are left out. -/
def NoLeakBut (late : List Effect → Bool) (s : SupervisorState) (units : List UnitId) : Prop :=
  ∀ u, dirIn late u s.trace = true → s.Held u ∨ u ∈ units

theorem noLeak_iff : s.NoLeak late ↔ s.NoLeakBut late [] := by
  simp only [NoLeak, NoLeakBut, List.not_mem_nil, or_false]
  constructor
  · intro h u hdir
    by_contra hheld
    obtain ⟨hprocs, hpending⟩ := not_or.mp hheld
    rw [h u (not_not.mp hprocs) hpending] at hdir
    cases hdir
  · intro h u hprocs hpending
    by_contra hdir
    rcases h u (Bool.eq_true_of_not_eq_false hdir) with hheld | hheld
    · exact hheld hprocs
    · exact hpending hheld

/-! ### Starts -/

/-- The attempt gets to the spawn, and the spawn fails when it has made the directory. -/
def FailsLate (late : List Effect → Bool) (s : SupervisorState) (id : UnitId) (ans : StartAnswer) :
    Prop :=
  ¬ s.Spawns id ans ∧ s.failedDep id = none ∧ (s.registry.get id).file.service ≠ none ∧
    late s.trace.reverse = true

instance (late : List Effect → Bool) (s : SupervisorState) (id : UnitId) (ans : StartAnswer) :
    Decidable (s.FailsLate late id ans) :=
  inferInstanceAs (Decidable (_ ∧ _))

/-- A unit that has a directory, or gets one from the attempt, has something that holds it: a
process or a pending restart, a process that the attempt leaves running, or another attempt to
come. -/
def HoldsDir (late : List Effect → Bool) (s : SupervisorState) (id : UnitId) (ans : StartAnswer)
    (rest : List UnitId) : Prop :=
  dirIn late id s.trace = true ∨ s.Spawns id ans ∨ s.FailsLate late id ans →
    s.Held id ∨ (s.Spawns id ans ∧ ¬ s.registry.IsOneshot id) ∨ id ∈ rest

instance decidableIsOneshot (reg : UnitRegistry) (id : UnitId) : Decidable (reg.IsOneshot id) :=
  decidable_of_iff ((reg.get id).file.service.any (·.kind = .oneshot)) (by
    simp [UnitRegistry.IsOneshot, Option.any_eq_true])

instance (late : List Effect → Bool) (s : SupervisorState) (id : UnitId) (ans : StartAnswer)
    (rest : List UnitId) : Decidable (s.HoldsDir late id ans rest) :=
  inferInstanceAs (Decidable (_ → _))

theorem start_target (h : (s.registry.get id).file.service = none) :
    (s.startUnitInternal alloc id ans).trace = s.trace := by
  unfold startUnitInternal startUnitInternalClocked
  split
  · rfl
  · rw [h]
    rfl

/-- **A start attempt** makes at most the directory of its unit. -/
theorem dirIn_start (h : dirIn late u (s.startUnitInternal alloc id ans).trace = true) :
    dirIn late u s.trace = true ∨
      u = id ∧ (s.Spawns id ans ∨ s.FailsLate late id ans) := by
  cases StartStep.of_start alloc s id ans with
  | idle hspawn _ _ htrace =>
    rcases htrace with htrace | ⟨hdep, htrace⟩
    · rw [htrace] at h
      exact .inl h
    · have hservice : (s.registry.get id).file.service ≠ none := by
        intro hnone
        rw [start_target hnone] at htrace
        exact List.cons_ne_nil _ _ (List.self_eq_append_right.mp htrace)
      rw [htrace, dirIn_spawnFailed, Bool.or_eq_true, Bool.and_eq_true, decide_eq_true_eq] at h
      rcases h with ⟨hu, hlate⟩ | h
      · exact .inr ⟨hu.symm, .inr ⟨hspawn, hdep, hservice, hlate⟩⟩
      · exact .inl h
  | running hspawn _ _ _ htrace =>
    rw [htrace, dirIn_spawned, Bool.or_eq_true, decide_eq_true_eq] at h
    exact h.symm.imp_right fun hu => ⟨hu.symm, .inl hspawn⟩
  | oneshot hspawn _ _ _ es hes htrace =>
    have hspawned : dirIn late u (s.trace ++ [.spawned id (alloc.next s.trace)]) = true := by
      rw [htrace, ← List.append_assoc] at h
      have h := dirIn_other _ (by simp) (by simp) h
      rcases hes with rfl | rfl
      · exact h
      · rw [← List.singleton_append, ← List.append_assoc] at h
        exact dirIn_other _ (by simp) (by simp) h
    rw [dirIn_spawned, Bool.or_eq_true, decide_eq_true_eq] at hspawned
    exact hspawned.symm.imp_right fun hu => ⟨hu.symm, .inl hspawn⟩

/-- A start attempt takes nothing away. -/
theorem Held.start (h : s.Held u) (htied : s.Tied) : (s.startUnitInternal alloc id ans).Held u := by
  rcases h with hprocs | hpending
  · refine .inl ?_
    cases StartStep.of_start alloc s id ans with
    | idle _ _ _ htrace =>
      rcases htrace with htrace | ⟨-, htrace⟩
      · rwa [htrace]
      · rwa [htrace, procsIn_other _ (by simp) (by simp)]
    | running _ _ _ _ htrace =>
      rw [htrace, procsIn_spawned]
      split
      · exact List.cons_ne_nil _ _
      · exact hprocs
    | oneshot _ _ _ _ es hes htrace => rwa [htrace, htied.procsIn_oneshot u id hes]
  · refine .inr ?_
    rw [Pending, (start_frame alloc s id ans).pendingRestarts]
    exact hpending

/-- A spawned service that is no oneshot has a process. -/
theorem held_of_spawns (hspawn : s.Spawns id ans) (hkind : ¬ s.registry.IsOneshot id) :
    (s.startUnitInternal alloc id ans).Held id := by
  cases StartStep.of_start alloc s id ans with
  | idle hno => exact absurd hspawn hno
  | running _ _ _ _ htrace =>
    refine .inl ?_
    rw [htrace, procsIn_spawned, if_pos rfl]
    exact List.cons_ne_nil _ _
  | oneshot _ hone => exact absurd hone hkind

/-- **A start attempt that holds its directory.** -/
theorem NoLeakBut.start {rest : List UnitId} (h : s.NoLeakBut late (id :: rest)) (htied : s.Tied)
    (hholds : s.HoldsDir late id ans rest) :
    (s.startUnitInternal alloc id ans).NoLeakBut late rest := by
  have hown (hdir : dirIn late id s.trace = true ∨ s.Spawns id ans ∨ s.FailsLate late id ans) :
      (s.startUnitInternal alloc id ans).Held id ∨ id ∈ rest := by
    rcases hholds hdir with hheld | ⟨hspawn, hkind⟩ | hrest
    · exact .inl (hheld.start htied)
    · exact .inl (held_of_spawns hspawn hkind)
    · exact .inr hrest
  intro u hdir
  rcases dirIn_start hdir with hold | ⟨rfl, hmade⟩
  · rcases h u hold with hheld | hu
    · exact .inl (hheld.start htied)
    · rcases List.mem_cons.mp hu with rfl | hu
      · exact hown (.inl hold)
      · exact .inr hu
  · exact hown (.inr hmade)

/-- The attempts of the restart timer hold their directories. -/
def DueHold (alloc : PidAllocator) (late : List Effect → Bool) :
    SupervisorState → List (UnitId × StartAnswer) → Prop
  | _, [] => True
  | s, (id, ans) :: starts =>
    s.HoldsDir late id ans (starts.map Prod.fst) ∧
      DueHold alloc late (s.startUnitInternal alloc id ans) starts

instance decidableDueHold (late : List Effect → Bool) :
    ∀ (s : SupervisorState) (starts : List (UnitId × StartAnswer)),
      Decidable (DueHold alloc late s starts)
  | _, [] => inferInstanceAs (Decidable True)
  | s, (id, ans) :: starts =>
    have := decidableDueHold late (s.startUnitInternal alloc id ans) starts
    inferInstanceAs (Decidable (_ ∧ _))

theorem NoLeakBut.dueStarts (starts : List (UnitId × StartAnswer)) (s : SupervisorState)
    (htied : s.Tied) (h : s.NoLeakBut late (starts.map Prod.fst))
    (hholds : DueHold alloc late s starts) :
    (s.startEach alloc (fun _ _ => false) starts).NoLeakBut late [] := by
  induction starts generalizing s with
  | nil => exact h
  | cons start starts ih => exact ih _ htied.start (h.start htied hholds.1) hholds.2

/-- The timer's loop starts from what the due entries leave held. -/
theorem NoLeakBut.fireDue (h : s.NoLeakBut late []) (htied : s.Tied) (answers : ℕ → StartAnswer)
    (hholds : DueHold alloc late
      (s.setPending (s.pendingRestarts.filter (fun r => ¬ r.fireAt ≤ s.clock)))
      (s.dueRestarts.zipIdx.map fun d => (d.1, answers d.2))) :
    (s.fireDueRestarts alloc answers).NoLeakBut late [] := by
  refine NoLeakBut.dueStarts _ _ ⟨htied.tracked, htied.table, htied.real⟩ (fun u hdir => ?_) hholds
  rw [List.map_map, show (Prod.fst ∘ fun d : UnitId × ℕ => (d.1, answers d.2)) = Prod.fst from rfl,
    List.zipIdx_map_fst]
  rcases (h u hdir).resolve_right List.not_mem_nil with hprocs | ⟨r, hr, hu⟩
  · exact .inl (.inl hprocs)
  · by_cases hdue : r.fireAt ≤ s.clock
    · exact .inr (List.mem_map.mpr ⟨r, List.mem_filter.mpr ⟨hr, by simpa using hdue⟩, hu⟩)
    · exact .inl (.inr ⟨r, List.mem_filter.mpr ⟨hr, by simpa using hdue⟩, hu⟩)

/-! ### Exits -/

theorem Pending.reap (h : s.Pending u) (r : Reap) : (s.reapChild r).Pending u := by
  obtain ⟨entry, hentry, hu⟩ := h
  cases ReapStep.of_reap s r with
  | untracked _ heq =>
    rw [heq]
    exact ⟨entry, hentry, hu⟩
  | quiet _ _ _ _ hpending => exact ⟨entry, hpending ▸ hentry, hu⟩
  | scheduled _ _ _ _ _ _ _ _ hpending =>
    obtain ⟨delay, hpending⟩ := hpending
    exact ⟨entry, hpending ▸ List.mem_append_left _ hentry, hu⟩
  | suppressed _ _ _ _ _ _ _ _ hpending => exact ⟨entry, hpending ▸ hentry, hu⟩

theorem maybeScheduleRestart_frame (s : SupervisorState) (id : UnitId) (clean signaled : Bool) :
    (s.maybeScheduleRestart id clean signaled).shuttingDown = s.shuttingDown ∧
      (s.maybeScheduleRestart id clean signaled).fake = s.fake := by
  rcases s.maybeScheduleRestart_cases id clean signaled with
    ⟨-, heq⟩ | ⟨service, -, -, ⟨-, heq⟩ | ⟨-, delay, heq⟩⟩
  · rw [heq]
    exact ⟨rfl, rfl⟩
  · rw [heq]
    exact ⟨rfl, rfl⟩
  · rw [heq]
    exact ⟨rfl, rfl⟩

/-- Outside a stop, the unit of an exit waits for its restart or has its directory removed. -/
theorem reap_removes {r : Reap} (hreal : s.fake = false) (hflag : s.shuttingDown = false)
    (hlookup : s.byPid.lookup r.pid = some u) :
    (s.reapChild r).Pending u ∨ ∃ past, (s.reapChild r).trace = past ++ [.removeCgroup u] := by
  rw [reapChild_tracked hlookup]
  -- the state in which the restart policy is consulted
  generalize hs₀ : s.afterExit u r = s₀
  rw [afterExit] at hs₀
  have hflag₀ : s₀.shuttingDown = false := by
    rw [← hs₀]
    simpa using hflag
  have hreal₀ : s₀.fake = false := by
    rw [← hs₀]
    simpa using hreal
  obtain ⟨hshut, hfake⟩ := s₀.maybeScheduleRestart_frame u r.status.clean r.status.isSignaled
  rw [hflag₀] at hshut
  rw [hreal₀] at hfake
  simp only [hflag, Bool.false_eq_true, if_false]
  generalize s₀.maybeScheduleRestart u r.status.clean r.status.isSignaled = t at hshut hfake ⊢
  cases hany : t.pendingRestarts.any (fun r => r.unit = u) with
  | true =>
    rw [hshut]
    obtain ⟨entry, hentry, hu⟩ := List.any_eq_true.mp hany
    exact .inl ⟨entry, hentry, of_decide_eq_true hu⟩
  | false =>
    rw [hshut]
    refine .inr ⟨t.trace, ?_⟩
    simp [reapCgroup, hfake]

theorem dirIn_reap {r : Reap} (h : dirIn late u (s.reapChild r).trace = true) :
    dirIn late u s.trace = true := by
  obtain ⟨es, htrace, hes⟩ := reap_trace s r
  rw [htrace, ← List.singleton_append, ← List.append_assoc] at h
  exact dirIn_other _ (by simp) (by simp) (dirIn_notes _ hes h)

/-- A process that is not the child stays. -/
theorem mem_procsIn_reap {r : Reap} {p : Pid} (h : p ∈ procsIn u s.trace) (hp : r.pid ≠ p) :
    p ∈ procsIn u (s.reapChild r).trace := by
  rw [procsIn_reap, List.mem_filter]
  exact ⟨h, decide_eq_true hp.symm⟩

/-- **An exit outside a stop leaks nothing.** -/
theorem NoLeakBut.reap (h : s.NoLeakBut late []) (htied : s.Tied) (hflag : s.shuttingDown = false)
    (r : Reap) : (s.reapChild r).NoLeakBut late [] := by
  intro u hdir
  refine .inl ?_
  by_cases hown : s.byPid.lookup r.pid = some u
  · rcases reap_removes htied.real hflag hown with hpending | ⟨past, htrace⟩
    · exact .inr hpending
    · rw [htrace, dirIn_removeCgroup] at hdir
      refine .inl ?_
      rw [htrace, procsIn_other _ (by simp) (by simp)]
      intro hprocs
      simp [hprocs] at hdir
  · rcases (h u (dirIn_reap hdir)).resolve_right List.not_mem_nil with hprocs | hpending
    · obtain ⟨p, hp⟩ := List.exists_mem_of_ne_nil _ hprocs
      refine .inl (List.ne_nil_of_mem (mem_procsIn_reap hp ?_))
      rintro rfl
      exact hown ((htied.table _ u).mpr hp)
    · exact .inr (hpending.reap r)

/-! ### Stops -/

/-- Every process that exits during the stop belongs to the plan, or to a unit that waits for its
restart or keeps another process. -/
def StopHolds (s : SupervisorState) (plan : List UnitId) (ans : StopAnswer) : Prop :=
  ∀ round ∈ ans.rounds, ∀ r ∈ round.reaped, ∀ u ∈ s.byPid.lookup r.pid,
    u ∈ plan ∨ s.Pending u ∨ s.Survives ans u

instance (s : SupervisorState) (plan : List UnitId) (ans : StopAnswer) :
    Decidable (s.StopHolds plan ans) :=
  inferInstanceAs (Decidable (∀ round ∈ ans.rounds, ∀ r ∈ round.reaped,
    ∀ u ∈ s.byPid.lookup r.pid, _))

/-- What a stop of `plan` has left of the state `s`, when it reaps no process outside `reaped`. -/
structure StopLeaves (late : List Effect → Bool) (s : SupervisorState) (plan : List UnitId)
    (reaped : Reap → Prop) (t : SupervisorState) : Prop where
  real : t.fake = false
  dirs : ∀ u, dirIn late u t.trace = true → dirIn late u s.trace = true
  procs : ∀ u, ∀ p ∈ procsIn u s.trace, (∀ r, reaped r → r.pid ≠ p) → p ∈ procsIn u t.trace
  pending : ∀ u, u ∉ plan → s.Pending u → t.Pending u

theorem StopLeaves.emit {reaped : Reap → Prop} (h : StopLeaves late s plan reaped t) {e : Effect}
    (hs : ∀ u p, e ≠ .spawned u p) (hf : ∀ u, e ≠ .spawnFailed u) (hr : ∀ p, e ≠ .reaped p) :
    StopLeaves late s plan reaped (t.emit e) where
  real := h.real
  dirs := fun u hdir => h.dirs u (dirIn_other _ hs hf hdir)
  procs := fun u p hp hspared => by
    rw [emit_trace, procsIn_other _ hs hr]
    exact h.procs u p hp hspared
  pending := h.pending

theorem StopLeaves.reap {reaped : Reap → Prop} (h : StopLeaves late s plan reaped t) {r : Reap}
    (hr : reaped r) : StopLeaves late s plan reaped (t.reapChild r) where
  real := (reap_fake t r).trans h.real
  dirs := fun u hdir => h.dirs u (dirIn_reap hdir)
  procs := fun u p hp hspared => mem_procsIn_reap (h.procs u p hp hspared) (hspared r hr)
  pending := fun u hu hpending => (h.pending u hu hpending).reap r

theorem StopLeaves.term {reaped : Reap → Prop} (h : StopLeaves late s plan reaped t)
    (hid : id ∈ plan) : StopLeaves late s plan reaped (t.termUnit id) := by
  have hdropped : StopLeaves late s plan reaped
      (t.setPending (t.pendingRestarts.filter (fun r => r.unit ≠ id))) := by
    refine ⟨h.real, h.dirs, h.procs, fun u hu hpending => ?_⟩
    obtain ⟨entry, hentry, hunit⟩ := h.pending u hu hpending
    refine ⟨entry, List.mem_filter.mpr ⟨hentry, decide_eq_true fun heq => ?_⟩, hunit⟩
    exact hu (by rwa [← hunit, heq])
  rcases termUnit_cases t id with ⟨pid, -, heq⟩ | ⟨-, heq⟩
  · rw [heq]
    have hstate : StopLeaves late s plan reaped
        ((t.setPending (t.pendingRestarts.filter (fun r => r.unit ≠ id))).setState id
          .deactivating) :=
      ⟨hdropped.real, hdropped.dirs, hdropped.procs, hdropped.pending⟩
    exact hstate.emit (by simp) (by simp) (by simp)
  · rw [heq]
    exact ⟨hdropped.real, hdropped.dirs, hdropped.procs, hdropped.pending⟩

theorem StopLeaves.signalled (hreal : s.fake = false) (plan : List UnitId) (reaped : Reap → Prop) :
    StopLeaves late s plan reaped
      (plan.foldl termUnit ((s.setShuttingDown true).emit (.stopping plan))) := by
  refine List.foldlRecOn (motive := StopLeaves late s plan reaped) _ _ ?_
    fun t ht id hid => ht.term hid
  have hflagged : StopLeaves late s plan reaped (s.setShuttingDown true) :=
    ⟨hreal, fun _ h => h, fun _ _ h _ => h, fun _ _ h => h⟩
  exact hflagged.emit (by simp) (by simp) (by simp)

/-- **The end of a stop** removes the directories of its plan in which no process is left. -/
theorem reapCgroups_dirs (late : List Effect → Bool) (hreal : t.fake = false)
    (plan : List UnitId) :
    (plan.foldl reapCgroup t).pendingRestarts = t.pendingRestarts ∧
      ∀ u, procsIn u (plan.foldl reapCgroup t).trace = procsIn u t.trace ∧
        (dirIn late u (plan.foldl reapCgroup t).trace = true →
          dirIn late u t.trace = true ∧ (u ∈ plan → procsIn u t.trace ≠ [])) := by
  induction plan generalizing t with
  | nil => exact ⟨rfl, fun u => ⟨rfl, fun hdir => ⟨hdir, fun h => absurd h List.not_mem_nil⟩⟩⟩
  | cons id plan ih =>
    have hremoved : t.reapCgroup id = t.emit (.removeCgroup id) := by simp [reapCgroup, hreal]
    rw [List.foldl_cons, hremoved]
    obtain ⟨hpending, hrest⟩ := ih (t := t.emit (.removeCgroup id)) hreal
    refine ⟨hpending, fun u => ?_⟩
    obtain ⟨hprocs, hdirs⟩ := hrest u
    have hsame : procsIn u (t.emit (.removeCgroup id)).trace = procsIn u t.trace :=
      procsIn_other _ (by simp) (by simp)
    rw [hsame] at hprocs hdirs
    refine ⟨hprocs, fun hdir => ?_⟩
    obtain ⟨hleft, hplan⟩ := hdirs hdir
    rw [emit_trace, dirIn_removeCgroup, Bool.and_eq_true] at hleft
    refine ⟨hleft.1, fun hu => ?_⟩
    rcases List.mem_cons.mp hu with rfl | hu
    · intro hnone
      simp [hnone] at hleft
    · exact hplan hu

/-- What a stop leaves is held when the stop takes no other unit's last process. -/
theorem StopLeaves.noLeak {ans : StopAnswer} (h : s.NoLeakBut late []) (htied : s.Tied)
    (hholds : s.StopHolds plan ans)
    (ht : StopLeaves late s plan (fun r => ∃ round ∈ ans.rounds, r ∈ round.reaped) t) :
    (plan.foldl reapCgroup t).NoLeakBut late [] := by
  obtain ⟨hpending, hrest⟩ := reapCgroups_dirs late ht.real plan
  intro u hdir
  obtain ⟨hprocs, hdirs⟩ := hrest u
  obtain ⟨hleft, hplan⟩ := hdirs hdir
  refine .inl ?_
  rw [Held, hprocs, Pending, hpending]
  by_cases hu : u ∈ plan
  · exact .inl (hplan hu)
  · rcases (h u (ht.dirs u hleft)).resolve_right List.not_mem_nil with hheld | hwaits
    · obtain ⟨p, hp⟩ := List.exists_mem_of_ne_nil _ hheld
      by_cases hspared : ∀ r, (∃ round ∈ ans.rounds, r ∈ round.reaped) → r.pid ≠ p
      · exact .inl (List.ne_nil_of_mem (ht.procs u p hp hspared))
      · push Not at hspared
        obtain ⟨r, ⟨round, hround, hr⟩, rfl⟩ := hspared
        rcases hholds round hround r hr u ((htied.table _ u).mpr hp) with
          hin | hwaits | ⟨q, -, hq, hkept⟩
        · exact absurd hin hu
        · exact .inr (ht.pending u hu hwaits)
        · refine .inl (List.ne_nil_of_mem (ht.procs u q ((htied.table q u).mp hq) ?_))
          rintro r ⟨round, hround, hr⟩
          exact hkept round hround r hr
    · exact .inr (ht.pending u hu hwaits)

theorem NoLeakBut.stop {anchor : String} {ans : StopAnswer} {res : Except RequestError Unit}
    (h : s.NoLeakBut late []) (htied : s.Tied)
    (hholds : ∀ plan, s.registry.buildStopTransaction ans.ords anchor = .ok plan →
      s.StopHolds plan ans)
    (hstop : s.stopUnit anchor ans = .ok (s', res)) : s'.NoLeakBut late [] := by
  have hparts := stopUnit_drained s anchor ans
    (P := fun r => ∃ round ∈ ans.rounds, r ∈ round.reaped)
    (M := fun plan _ => StopLeaves late s plan fun r => ∃ round ∈ ans.rounds, r ∈ round.reaped)
    (fun round hround r hr => ⟨round, hround, hr⟩) fun plan _ =>
      { signalled := StopLeaves.signalled htied.real plan _
        advance := fun _ _ _ ht => ⟨ht.real, ht.dirs, ht.procs, ht.pending⟩
        kill := fun _ _ _ _ ht => ht.emit (by simp) (by simp) (by simp)
        reap := fun _ _ _ hr ht => ht.reap hr
        cgroup := fun _ _ ht => ht.emit (by simp) (by simp) (by simp) }
  rcases hparts with ⟨e, -, heq⟩ | ⟨plan, hplan, ⟨t, -, -, heq⟩ | ⟨t, ht, heq⟩⟩
  · rw [heq, Except.ok.injEq, Prod.mk.injEq] at hstop
    rw [← hstop.1]
    exact h
  · rw [heq] at hstop
    cases hstop
  · rw [heq, Except.ok.injEq, Prod.mk.injEq] at hstop
    rw [← hstop.1]
    exact ht.noLeak h htied (hholds plan hplan)

/-! ### Runs -/

/-- Outside a shutdown, start attempts hold the directories of their units, those of the timer
together, and a stop takes no other unit's last process. -/
def KeepsDirs (alloc : PidAllocator) (late : List Effect → Bool) (s : SupervisorState) : Op → Prop
  | .fireDueRestarts answers => s.shuttingDown = false →
    DueHold alloc late (s.setPending (s.pendingRestarts.filter (fun r => ¬ r.fireAt ≤ s.clock)))
      (s.dueRestarts.zipIdx.map fun d => (d.1, answers d.2))
  | .stopUnit anchor ans => s.shuttingDown = false →
    ∀ plan, s.registry.buildStopTransaction ans.ords anchor = .ok plan → s.StopHolds plan ans
  | op => s.shuttingDown = false →
    RequestsMeet alloc (fun s id ans => s.HoldsDir late id ans []) s op

instance decidableKeepsDirs (late : List Effect → Bool) (s : SupervisorState) :
    ∀ op, Decidable (KeepsDirs alloc late s op)
  | .fireDueRestarts _ => inferInstanceAs (Decidable (_ → _))
  | .stopUnit anchor ans =>
    inferInstanceAs (Decidable (s.shuttingDown = false →
      ∀ plan, s.registry.buildStopTransaction ans.ords anchor = .ok plan → s.StopHolds plan ans))
  | .activatePlan plan =>
    inferInstanceAs (Decidable (_ → RequestsMeet _ _ _ (.activatePlan plan)))
  | .startNamed name ords answers =>
    inferInstanceAs (Decidable (_ → RequestsMeet _ _ _ (.startNamed name ords answers)))
  | .reap r => inferInstanceAs (Decidable (_ → RequestsMeet _ _ _ (.reap r)))
  | .initiateShutdown => inferInstanceAs (Decidable (_ → RequestsMeet _ _ _ .initiateShutdown))
  | .addWantedBy target unit =>
    inferInstanceAs (Decidable (_ → RequestsMeet _ _ _ (.addWantedBy target unit)))
  | .advance dt => inferInstanceAs (Decidable (_ → RequestsMeet _ _ _ (.advance dt)))

theorem NoLeakBut.startEach {skip : SupervisorState → UnitId → Bool}
    {starts : List (UnitId × StartAnswer)} (h : s.NoLeakBut late []) (htied : s.Tied)
    (hholds : StartsMeet alloc skip (fun s id ans => s.HoldsDir late id ans []) s starts) :
    (s.startEach alloc skip starts).NoLeakBut late [] :=
  (startEach_inv (I := fun s => s.Tied ∧ s.NoLeakBut late [])
    (fun _ _ _ h hholds => ⟨h.1.start, NoLeakBut.start
      (fun u hdir => (h.2 u hdir).imp_right fun hu => absurd hu List.not_mem_nil) h.1 hholds⟩)
    starts s ⟨htied, h⟩ hholds).2

/-- An operation that keeps the directories leaks none, unless it ends in a shutdown. -/
theorem noLeak_step {op : Op} (htied : s.Tied)
    (h : s.shuttingDown = false → s.NoLeakBut late []) (hop : KeepsDirs alloc late s op)
    (hstep : step alloc s op = .ok s') (hrunning : s'.shuttingDown = false) :
    s'.NoLeakBut late [] := by
  have hop' : op ≠ .initiateShutdown := by
    rintro rfl
    cases hstep
    rw [initiateShutdown_shuttingDown] at hrunning
    cases hrunning
  have hflag : s.shuttingDown = false := (step_shuttingDown hop' hstep).symm.trans hrunning
  have hleft := h hflag
  cases op with
  | activatePlan plan =>
    cases hstep
    exact hleft.startEach htied (hop hflag)
  | startNamed name ords answers =>
    cases hstep
    unfold startNamed
    cases hplan : s.registry.buildTransaction ords name with
    | error e => exact hleft
    | ok plan => exact hleft.startEach htied (hop hflag plan hplan)
  | stopUnit anchor ans =>
    rw [step] at hstep
    cases hstop : s.stopUnit anchor ans with
    | error t =>
      rw [hstop] at hstep
      cases hstep
    | ok res =>
      rw [hstop] at hstep
      cases hstep
      exact hleft.stop htied (hop hflag) hstop
  | reap r =>
    cases hstep
    exact hleft.reap htied hflag r
  | fireDueRestarts answers =>
    cases hstep
    exact hleft.fireDue htied answers (hop hflag)
  | initiateShutdown => exact absurd rfl hop'
  | addWantedBy target unit =>
    cases hstep
    obtain ⟨-, -, -, hpending, -, -, htrace⟩ := addWantedBy_frame s target unit
    intro u hdir
    rw [htrace] at hdir
    rw [Held, Pending, hpending, htrace]
    exact hleft u hdir
  | advance dt =>
    cases hstep
    exact hleft

/-- A check of the disk, which succeeds. -/
def fsckUnits : List LoadedUnit :=
  [⟨"fsck.service", { service := some { execStart := "/sbin/fsck", kind := .oneshot } }⟩]

def checkDisk : List Op :=
  [.startNamed "fsck.service" ⟨.inserted, .inserted⟩
    (fun _ => { polls := [.exited 0 (.exited 0)] })]

/-- The check is over, and its directory is still there. -/
theorem oneshot_leaves_directory :
    ¬ ∀ (alloc : PidAllocator) (late : List Effect → Bool) (reg : UnitRegistry) (ops : List Op)
        (s : SupervisorState),
      run (step alloc) (SupervisorState.new reg false) ops = .ok s → s.shuttingDown = false →
        s.NoLeak late := by
  intro h
  have hleak := h .counting (fun _ => false) (.fromLoaded fsckUnits) checkDisk _ rfl rfl 0
  exact absurd hleak (by decide)

/-- **No directory is leaked** in a run whose start attempts hold the directories of their units and
whose stops take no other unit's last process: between operations, and outside a shutdown, a unit
without a process and without a pending restart has no directory. -/
theorem noLeak_run (alloc : PidAllocator) (late : List Effect → Bool) (reg : UnitRegistry)
    (ops : List Op)
    (hops : Guarded (step alloc) (KeepsDirs alloc late) (SupervisorState.new reg false) ops)
    (hrun : run (step alloc) (SupervisorState.new reg false) ops = .ok s)
    (hflag : s.shuttingDown = false) : s.NoLeak late := by
  have h : s.Tied ∧ (s.shuttingDown = false → s.NoLeakBut late []) := by
    refine run_ok_inv (step alloc) (G := KeepsDirs alloc late)
      (I := fun s => s.Tied ∧ (s.shuttingDown = false → s.NoLeakBut late [])) ?_
      ⟨Tied.new reg, ?_⟩ hops hrun
    · intro s op s' hs hop hstep
      have htied := (tied_opInv alloc).step hs.1 op (opStartsMeet_true s op)
      rw [hstep] at htied
      exact ⟨htied, noLeak_step hs.1 hs.2 hop hstep⟩
    · rintro - u hdir
      cases hdir
  exact noLeak_iff.mpr (h.2 hflag)

/-- Both crash and come back together; then `app` is stopped. -/
theorem noLeak_run_appOnDb :
    (reached (run (step .counting) (SupervisorState.new (.fromLoaded appOnDb) false)
      crashTogether)).NoLeak (fun _ => true) :=
  noLeak_run .counting (fun _ => true) (.fromLoaded appOnDb) crashTogether (by decide) rfl rfl

end SupervisorState

end WriteonceOs.Svc
