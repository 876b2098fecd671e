import WriteonceOs.Svc.Operations

/-!
# Restarts that are not lost

A service that is to be restarted always is owed a process from its first spawn until a stop takes
it down.  The exit handler pays with a pending restart or a full restart history; the timer drops
the entry whatever becomes of the start attempt, and a stop suppresses the restarts of every unit
whose process exits while it drains, also of units that it does not stop.

* `NoneLost.reap` — an exit outside a stop loses nothing;
* `dueStarts_inv` — the timer loses nothing when its attempts pass;
* `NoneLost.stop` — a stop that spares the other units loses nothing;
* `noneLost_run` — runs of such operations.
-/

namespace WriteonceOs.Svc

open WriteonceOs.Library

/-- A simple service with `restart = always`. -/
def UnitRegistry.AlwaysSimple (reg : UnitRegistry) (u : UnitId) : Prop :=
  ∃ service ∈ (reg.get u).file.service, service.kind = .simple ∧ service.restart = .always

instance (reg : UnitRegistry) (u : UnitId) : Decidable (reg.AlwaysSimple u) :=
  inferInstanceAs (Decidable (∃ service ∈ (reg.get u).file.service, _))

/-- A spawn obliges the supervisor to the unit, a stop of the unit releases it. -/
def Effect.onKept (u : UnitId) (kept : Bool) : Effect → Bool
  | .spawned v _ => v = u || kept
  | .stopping plan => !plan.contains u && kept
  | _ => kept

/-- The unit had a process, and no stop took it down since. -/
def kept (u : UnitId) (trace : List Effect) : Bool := trace.foldl (Effect.onKept u) false

theorem kept_append (u : UnitId) (t t' : List Effect) :
    kept u (t ++ t') = t'.foldl (Effect.onKept u) (kept u t) := List.foldl_append

namespace SupervisorState

variable {alloc : PidAllocator} {s s' : SupervisorState} {u id : UnitId} {ans : StartAnswer}

/-- The unit has a tracked process. -/
def Live (s : SupervisorState) (u : UnitId) : Prop :=
  ∃ p ∈ s.byPid.keys, s.byPid.lookup p = some u

/-- The unit has a pending restart. -/
def Pending (s : SupervisorState) (u : UnitId) : Prop := ∃ r ∈ s.pendingRestarts, r.unit = u

/-- The unit's restart history fills its burst. -/
def LimitHit (s : SupervisorState) (u : UnitId) : Prop :=
  ∃ service ∈ (s.registry.get u).file.service, 0 < service.startLimitBurst ∧
    service.startLimitBurst ≤ (s.units u).restartHistory.length

/-- The unit runs, will be restarted, or hit its start limit. -/
def Covered (s : SupervisorState) (u : UnitId) : Prop := s.Live u ∨ s.Pending u ∨ s.LimitHit u

/-- The unit is to be kept running. -/
def Owed (s : SupervisorState) (u : UnitId) : Prop :=
  s.registry.AlwaysSimple u ∧ kept u s.trace = true

def NoneLost (s : SupervisorState) : Prop := ∀ u, s.Owed u → s.Covered u

instance (s : SupervisorState) (u : UnitId) : Decidable (s.Live u) :=
  inferInstanceAs (Decidable (∃ p ∈ s.byPid.keys, _))

instance (s : SupervisorState) (u : UnitId) : Decidable (s.Pending u) :=
  inferInstanceAs (Decidable (∃ r ∈ s.pendingRestarts, _))

instance (s : SupervisorState) (u : UnitId) : Decidable (s.LimitHit u) :=
  inferInstanceAs (Decidable (∃ service ∈ (s.registry.get u).file.service, _))

instance (s : SupervisorState) (u : UnitId) : Decidable (s.Covered u) :=
  inferInstanceAs (Decidable (_ ∨ _ ∨ _))

instance (s : SupervisorState) (u : UnitId) : Decidable (s.Owed u) :=
  inferInstanceAs (Decidable (_ ∧ _))

theorem live_iff : s.Live u ↔ ∃ p, s.byPid.lookup p = some u := by
  constructor
  · intro h
    obtain ⟨p, -, hp⟩ := h
    exact ⟨p, hp⟩
  · intro h
    obtain ⟨p, hp⟩ := h
    have hsome : (s.byPid.lookup p).isSome := by simp [hp]
    exact ⟨p, AList.lookup_isSome.mp hsome, hp⟩

/-! ### Starts -/

/-- A start attempt adds an obligation only by leaving the unit's process running or done. -/
theorem kept_start (h : kept u (s.startUnitInternal alloc id ans).trace = true) :
    kept u s.trace = true ∨ (u = id ∧ s.Spawns id ans) := by
  cases StartStep.of_start alloc s id ans with
  | idle _ _ _ htrace =>
    rcases htrace with htrace | ⟨-, htrace⟩
    · exact Or.inl (htrace ▸ h)
    · rw [htrace, kept_append] at h
      exact Or.inl h
  | running hspawn _ _ _ htrace =>
    rw [htrace, kept_append] at h
    simp only [List.foldl_cons, List.foldl_nil, Effect.onKept, Bool.or_eq_true,
      decide_eq_true_eq] at h
    exact h.symm.imp_right fun hu => ⟨hu.symm, hspawn⟩
  | oneshot hspawn _ _ _ es hes htrace =>
    rw [htrace, kept_append] at h
    have h' : id = u ∨ kept u s.trace = true := by
      rcases hes with rfl | rfl <;> simpa [Effect.onKept] using h
    exact h'.symm.imp_right fun hu => ⟨hu.symm, hspawn⟩

/-- A start attempt takes nothing away. -/
theorem Covered.start (h : s.Covered u) (htracked : s.Tracked) :
    (s.startUnitInternal alloc id ans).Covered u := by
  have hframe := start_frame alloc s id ans
  rcases h with hlive | hpending | hlimit
  · left
    rw [live_iff] at hlive ⊢
    obtain ⟨p, hp⟩ := hlive
    refine ⟨p, ?_⟩
    cases StartStep.of_start alloc s id ans with
    | idle _ hbyPid _ _ => rw [hbyPid, hp]
    | running _ _ hbyPid _ _ =>
      rw [hbyPid, lookup_insert_iff]
      refine Or.inr ⟨?_, hp⟩
      intro heq
      subst heq
      rw [htracked.lookup_next] at hp
      cases hp
    | oneshot _ _ hbyPid _ _ _ _ => rw [hbyPid, htracked.oneshot_lookup, hp]
  · right; left
    rw [Pending, hframe.pendingRestarts]
    exact hpending
  · right; right
    rw [LimitHit, hframe.registry, hframe.history]
    exact hlimit

/-- A spawned simple service runs. -/
theorem covered_of_spawns (hspawn : s.Spawns id ans) (hsimple : s.registry.AlwaysSimple id) :
    (s.startUnitInternal alloc id ans).Covered id := by
  cases StartStep.of_start alloc s id ans with
  | idle hno _ _ _ => exact absurd hspawn hno
  | running _ _ hbyPid _ _ =>
    left
    rw [live_iff]
    exact ⟨_, by rw [hbyPid, AList.lookup_insert]⟩
  | oneshot _ hkind _ _ _ _ _ =>
    obtain ⟨service, hservice, hone⟩ := hkind
    obtain ⟨service', hservice', hsim, -⟩ := hsimple
    rw [hservice, Option.mem_some_iff] at hservice'
    rw [← hservice', hone] at hsim
    cases hsim

/-- What a start attempt leaves owed was owed, or is covered by the attempt. -/
theorem owed_start (h : (s.startUnitInternal alloc id ans).Owed u) :
    s.Owed u ∨ (u = id ∧ (s.startUnitInternal alloc id ans).Covered u) := by
  have hframe := start_frame alloc s id ans
  obtain ⟨hsimple, hkept⟩ := h
  rw [hframe.registry] at hsimple
  rcases kept_start hkept with hold | ⟨rfl, hspawn⟩
  · exact Or.inl ⟨hsimple, hold⟩
  · exact Or.inr ⟨rfl, covered_of_spawns hspawn hsimple⟩

theorem NoneLost.start (h : s.NoneLost) (htracked : s.Tracked) :
    (s.startUnitInternal alloc id ans).NoneLost := by
  intro u howed
  rcases owed_start howed with hold | ⟨-, hcovered⟩
  · exact (h u hold).start htracked
  · exact hcovered

theorem NoneLost.startEach (h : s.NoneLost) (htracked : s.Tracked)
    (skip : SupervisorState → UnitId → Bool) (starts : List (UnitId × StartAnswer)) :
    (s.startEach alloc skip starts).NoneLost :=
  (startEach_inv (I := fun s => s.Tracked ∧ s.NoneLost) (G := fun _ _ _ => True)
    (fun _ _ _ h _ => ⟨h.1.start, h.2.start h.1⟩) starts s ⟨htracked, h⟩
    (startsMeet_true s starts)).2

/-! ### The restart timer -/

/-- The attempts of the restart timer pass: one for a service that is owed its process and not
covered otherwise spawns it, or is followed by another attempt for the service. -/
def DuePass (alloc : PidAllocator) :
    SupervisorState → List (UnitId × StartAnswer) → Prop
  | _, [] => True
  | s, (id, ans) :: starts =>
    (s.Owed id → s.Covered id ∨ s.Spawns id ans ∨ id ∈ starts.map Prod.fst) ∧
      DuePass alloc (s.startUnitInternal alloc id ans) starts

instance decidableDuePass :
    ∀ (s : SupervisorState) (starts : List (UnitId × StartAnswer)),
      Decidable (DuePass alloc s starts)
  | _, [] => inferInstanceAs (Decidable True)
  | s, (id, ans) :: starts =>
    have := decidableDuePass (s.startUnitInternal alloc id ans) starts
    inferInstanceAs (Decidable (_ ∧ _))

theorem dueStarts_inv (starts : List (UnitId × StartAnswer)) (s : SupervisorState)
    (htracked : s.Tracked) (h : ∀ u, s.Owed u → s.Covered u ∨ u ∈ starts.map Prod.fst)
    (hpass : DuePass alloc s starts) :
    (s.startEach alloc (fun _ _ => false) starts).NoneLost := by
  induction starts generalizing s with
  | nil =>
    intro u hu
    rw [startEach] at hu ⊢
    simpa using h u hu
  | cons start starts ih =>
    obtain ⟨id, ans⟩ := start
    obtain ⟨hhead, hrest⟩ := hpass
    refine ih _ htracked.start (fun u hu => ?_) hrest
    simp only [Bool.false_eq_true, if_false] at hu ⊢
    rcases owed_start hu with hold | ⟨-, hcovered⟩
    · have hopen : s.Covered u ∨ s.Spawns id ans ∧ u = id ∨ u ∈ starts.map Prod.fst := by
        rcases h u hold with hcovered | hmem
        · exact Or.inl hcovered
        · rw [List.map_cons, List.mem_cons] at hmem
          rcases hmem with rfl | hmem
          · exact (hhead hold).imp_right (Or.imp_left fun hspawn => ⟨hspawn, rfl⟩)
          · exact Or.inr (Or.inr hmem)
      rcases hopen with hcovered | ⟨hspawn, rfl⟩ | hmem
      · exact Or.inl (hcovered.start htracked)
      · exact Or.inl (covered_of_spawns hspawn hold.1)
      · exact Or.inr hmem
    · exact Or.inl hcovered

/-- The timer's loop starts from what the due entries leave covered. -/
theorem NoneLost.fireDue (h : s.NoneLost) (htracked : s.Tracked) (answers : ℕ → StartAnswer)
    (hpass : DuePass alloc (s.setPending (s.pendingRestarts.filter (fun r => ¬ r.fireAt ≤ s.clock)))
      (s.dueRestarts.zipIdx.map fun d => (d.1, answers d.2))) :
    (s.fireDueRestarts alloc answers).NoneLost := by
  refine dueStarts_inv _ _ htracked (fun u hu => ?_) hpass
  rw [List.map_map, show (Prod.fst ∘ fun d : UnitId × ℕ => (d.1, answers d.2)) = Prod.fst from rfl,
    List.zipIdx_map_fst]
  rcases h u hu with hlive | ⟨r, hr, hu⟩ | hlimit
  · exact Or.inl (Or.inl hlive)
  · by_cases hdue : r.fireAt ≤ s.clock
    · exact Or.inr (List.mem_map.mpr ⟨r, List.mem_filter.mpr ⟨hr, by simpa using hdue⟩, hu⟩)
    · exact Or.inl (Or.inr (Or.inl ⟨r, List.mem_filter.mpr ⟨hr, by simpa using hdue⟩, hu⟩))
  · exact Or.inl (Or.inr (Or.inr hlimit))

/-! ### Exits -/

theorem kept_other (u : UnitId) (t : List Effect) {es : List Effect}
    (hes : ∀ e ∈ es, (∀ v p, e ≠ .spawned v p) ∧ ∀ plan, e ≠ .stopping plan) :
    kept u (t ++ es) = kept u t := by
  rw [kept_append]
  refine List.foldlRecOn (motive := fun b => b = kept u t) _ _ rfl fun b hb e he => ?_
  obtain ⟨hspawned, hstopping⟩ := hes e he
  cases e with
  | spawned v p => exact absurd rfl (hspawned v p)
  | stopping plan => exact absurd rfl (hstopping plan)
  | _ => exact hb

/-- An exit of another unit's process takes nothing away. -/
theorem Covered.reap_other {r : Reap} (h : s.Covered u) (frame : ReapFrame s r id s')
    (hlookup : s.byPid.lookup r.pid = some id) (hne : u ≠ id)
    (hpending : s.pendingRestarts ⊆ s'.pendingRestarts) : s'.Covered u := by
  rcases h with hlive | ⟨q, hq, hu⟩ | hlimit
  · left
    rw [live_iff] at hlive ⊢
    obtain ⟨p, hp⟩ := hlive
    refine ⟨p, ?_⟩
    rw [frame.byPid, lookup_erase_iff]
    refine ⟨?_, hp⟩
    intro heq
    subst heq
    rw [hlookup, Option.some.injEq] at hp
    exact hne hp.symm
  · exact Or.inr (Or.inl ⟨q, hpending hq, hu⟩)
  · right; right
    rw [LimitHit, frame.registry, frame.others u hne]
    exact hlimit

/-- An exit outside a stop is answered by a pending restart or a full history. -/
theorem NoneLost.reap (h : s.NoneLost) (hflag : s.shuttingDown = false) (r : Reap) :
    (s.reapChild r).NoneLost := by
  intro u howed
  obtain ⟨hsimple, hkept⟩ := howed
  cases ReapStep.of_reap s r with
  | untracked _ heq =>
    rw [heq] at hsimple hkept ⊢
    rw [emit_trace, advance_trace, kept_other u _ (by simp)] at hkept
    exact h u ⟨hsimple, hkept⟩
  | quiet id hlookup frame hquiet hpending _ es hes htrace =>
    rw [htrace, kept_other u _ (by rcases hes with rfl | rfl <;> simp)] at hkept
    rw [frame.registry] at hsimple
    refine (h u ⟨hsimple, hkept⟩).reap_other frame hlookup ?_
      (by rw [hpending]; exact List.Subset.refl _)
    intro heq'
    subst heq'
    -- an exit of the unit itself would have been followed by a restart
    obtain ⟨service, hservice, -, halways⟩ := hsimple
    rcases hquiet with hshut | hno
    · rw [hflag] at hshut
      cases hshut
    · have := hno service hservice
      simp [wantRestart, halways] at this
  | scheduled id hlookup frame _ service _ _ _ hpending _ htrace =>
    obtain ⟨delay, hpending⟩ := hpending
    rw [htrace, kept_other u _ (by simp)] at hkept
    rw [frame.registry] at hsimple
    by_cases hu : u = id
    · right; left
      exact ⟨⟨id, s.clock + r.dt + delay⟩, by rw [hpending]; simp, hu.symm⟩
    · refine (h u ⟨hsimple, hkept⟩).reap_other frame hlookup hu ?_
      rw [hpending]
      exact List.subset_append_left _ _
  | suppressed id hlookup frame _ service hservice _ hlimit hpending hhistory es hes htrace =>
    rw [htrace, kept_other u _ (by rcases hes with rfl | rfl <;> simp)] at hkept
    rw [frame.registry] at hsimple
    by_cases hu : u = id
    · right; right
      rw [LimitHit, frame.registry, hu, hhistory]
      exact ⟨service, hservice, hlimit⟩
    · exact (h u ⟨hsimple, hkept⟩).reap_other frame hlookup hu
        (by rw [hpending]; exact List.Subset.refl _)

/-! ### Stops -/

/-- The drain of a stop leaves the unit a process. -/
def Survives (s : SupervisorState) (ans : StopAnswer) (u : UnitId) : Prop :=
  ∃ p ∈ s.byPid.keys, s.byPid.lookup p = some u ∧
    ∀ round ∈ ans.rounds, ∀ r ∈ round.reaped, r.pid ≠ p

/-- Outside the plan of a stop, every unit that is owed its process waits for a restart, has hit its
start limit, or keeps a process through the drain. -/
def Spares (s : SupervisorState) (plan : List UnitId) (ans : StopAnswer) : Prop :=
  ∀ u ∈ List.range s.registry.len, s.Owed u →
    u ∈ plan ∨ s.Pending u ∨ s.LimitHit u ∨ s.Survives ans u

instance (s : SupervisorState) (ans : StopAnswer) (u : UnitId) : Decidable (s.Survives ans u) :=
  inferInstanceAs (Decidable (∃ p ∈ s.byPid.keys, _))

instance (s : SupervisorState) (plan : List UnitId) (ans : StopAnswer) :
    Decidable (s.Spares plan ans) :=
  inferInstanceAs (Decidable (∀ u ∈ List.range s.registry.len, _))

/-- What a stop of `plan` has left of the state `s` it began in, when it reaps no process outside
`reaped`. -/
structure StopKeeps (s : SupervisorState) (plan : List UnitId) (reaped : Reap → Prop)
    (t : SupervisorState) : Prop where
  registry : t.registry = s.registry
  shuttingDown : t.shuttingDown = true
  kept : ∀ u, kept u t.trace = true → u ∉ plan ∧ kept u s.trace = true
  pending : ∀ u, u ∉ plan → s.Pending u → t.Pending u
  history : ∀ u, (t.units u).restartHistory = (s.units u).restartHistory
  live : ∀ p u, s.byPid.lookup p = some u → (∀ r, reaped r → r.pid ≠ p) →
    t.byPid.lookup p = some u

theorem StopKeeps.congr {plan : List UnitId} {reaped : Reap → Prop} {t t' : SupervisorState}
    (h : StopKeeps s plan reaped t) (hregistry : t'.registry = t.registry)
    (hflag : t'.shuttingDown = t.shuttingDown)
    (htrace : ∀ u, Svc.kept u t'.trace = Svc.kept u t.trace)
    (hpending : ∀ u, u ∉ plan → t.Pending u → t'.Pending u)
    (hhistory : ∀ u, (t'.units u).restartHistory = (t.units u).restartHistory)
    (hlive : ∀ p u, t.byPid.lookup p = some u → (∀ r, reaped r → r.pid ≠ p) →
      t'.byPid.lookup p = some u) : StopKeeps s plan reaped t' where
  registry := hregistry.trans h.registry
  shuttingDown := hflag.trans h.shuttingDown
  kept := fun u hu => h.kept u (htrace u ▸ hu)
  pending := fun u hu hs => hpending u hu (h.pending u hu hs)
  history := fun u => (hhistory u).trans (h.history u)
  live := fun p u hs hp => hlive p u (h.live p u hs hp) hp

theorem StopKeeps.emit {plan : List UnitId} {reaped : Reap → Prop} {t : SupervisorState}
    (h : StopKeeps s plan reaped t) {e : Effect} (hs : ∀ v p, e ≠ .spawned v p)
    (hp : ∀ plan, e ≠ .stopping plan) : StopKeeps s plan reaped (t.emit e) :=
  h.congr rfl rfl (fun u => kept_other u _ (by simpa using ⟨hs, hp⟩)) (fun _ _ h => h)
    (fun _ => rfl) (fun _ _ h _ => h)

/-- An exit during a stop takes the process table's entry and nothing else. -/
theorem StopKeeps.reap {plan : List UnitId} {reaped : Reap → Prop} {t : SupervisorState}
    (h : StopKeeps s plan reaped t) {r : Reap} (hr : reaped r) :
    StopKeeps s plan reaped (t.reapChild r) := by
  cases ReapStep.of_reap t r with
  | untracked _ heq =>
    rw [heq]
    exact h.congr rfl rfl (fun u => kept_other u _ (by simp)) (fun _ _ h => h) (fun _ => rfl)
      (fun _ _ h _ => h)
  | quiet id _ frame _ hpending hhistory es hes htrace =>
    refine h.congr frame.registry frame.shuttingDown (fun u => ?_) (fun u _ hu => ?_) (fun u => ?_)
      (fun p u hp hspared => ?_)
    · rw [htrace, kept_other u _ (by rcases hes with rfl | rfl <;> simp)]
    · rw [Pending, hpending]
      exact hu
    · by_cases hu : u = id
      · rw [hu, hhistory]
      · rw [frame.others u hu]
    · rw [frame.byPid, lookup_erase_iff]
      exact ⟨fun heq => hspared r hr heq.symm, hp⟩
  | scheduled _ _ _ hflag _ _ _ _ _ _ _ =>
    rw [h.shuttingDown] at hflag
    cases hflag
  | suppressed _ _ _ hflag _ _ _ _ _ _ _ _ _ =>
    rw [h.shuttingDown] at hflag
    cases hflag

/-- The signals of a stop drop the restarts of the plan only. -/
theorem StopKeeps.signalled (s : SupervisorState) (plan : List UnitId) (reaped : Reap → Prop) :
    StopKeeps s plan reaped
      (plan.foldl termUnit ((s.setShuttingDown true).emit (.stopping plan))) := by
  refine List.foldlRecOn (motive := StopKeeps s plan reaped) _ _ ?_ fun t ht id hid => ?_
  · refine ⟨rfl, rfl, fun u hu => ?_, fun _ _ h => h, fun _ => rfl, fun _ _ h _ => h⟩
    rw [emit_trace, setShuttingDown_trace, kept_append] at hu
    simpa [Effect.onKept] using hu
  · have hpending : ∀ u, u ∉ plan → t.Pending u →
        ∃ r ∈ t.pendingRestarts.filter (fun r => r.unit ≠ id), r.unit = u := by
      rintro u hu ⟨r, hr, rfl⟩
      refine ⟨r, List.mem_filter.mpr ⟨hr, ?_⟩, rfl⟩
      simp only [ne_eq, decide_not, Bool.not_eq_eq_eq_not, Bool.not_true, decide_eq_false_iff_not]
      intro heq'
      subst heq'
      exact hu hid
    rcases termUnit_cases t id with ⟨pid, -, heq⟩ | ⟨-, heq⟩
    · rw [heq]
      exact ht.congr rfl rfl (fun u => kept_other u _ (by simp)) hpending (by simp)
        (fun _ _ h _ => h)
    · rw [heq]
      exact ht.congr rfl rfl (fun _ => rfl) hpending (by simp) (fun _ _ h _ => h)

/-- What a stop keeps and the units it spares are enough to lose nothing. -/
theorem StopKeeps.noneLost {plan : List UnitId} {ans : StopAnswer} {t : SupervisorState}
    (hspares : s.Spares plan ans)
    (ht : StopKeeps s plan (fun r => ∃ round ∈ ans.rounds, r ∈ round.reaped) t) :
    t.NoneLost := by
  intro u howed
  obtain ⟨hsimple, hkept⟩ := howed
  rw [ht.registry] at hsimple
  obtain ⟨hout, hkept⟩ := ht.kept u hkept
  have howed : s.Owed u := ⟨hsimple, hkept⟩
  have hlimit : s.LimitHit u → t.Covered u := by
    intro hlimit
    right; right
    rw [LimitHit, ht.registry, ht.history]
    exact hlimit
  have hrange : u < s.registry.len := by
    by_contra hno
    obtain ⟨service, hservice, -⟩ := hsimple
    rw [s.registry.get_eq_default (Nat.le_of_not_lt hno)] at hservice
    cases hservice
  rcases hspares u (List.mem_range.mpr hrange) howed with
    hin | hpending | hfull | ⟨p, -, hp, hspared⟩
  · exact absurd hin hout
  · exact Or.inr (Or.inl (ht.pending u hout hpending))
  · exact hlimit hfull
  · left
    rw [live_iff]
    exact ⟨p, ht.live p u hp fun r ⟨round, hround, hr⟩ => hspared round hround r hr⟩

theorem NoneLost.stop {anchor : String} {ans : StopAnswer} {res : Except RequestError Unit}
    (h : s.NoneLost)
    (hspares : ∀ plan, s.registry.buildStopTransaction ans.ords anchor = .ok plan →
      s.Spares plan ans)
    (hstop : s.stopUnit anchor ans = .ok (s', res)) : s'.NoneLost := by
  have hparts := stopUnit_ok_inv (P := fun r => ∃ round ∈ ans.rounds, r ∈ round.reaped)
    (M := fun plan => StopKeeps s plan fun r => ∃ round ∈ ans.rounds, r ∈ round.reaped)
    (fun round hround r hr => ⟨round, hround, hr⟩) (fun plan _ =>
      ⟨StopKeeps.signalled s plan _,
        fun _ _ ht => ht.congr rfl rfl (fun _ => rfl) (fun _ _ h => h) (fun _ => rfl)
          fun _ _ h _ => h,
        fun _ _ ht => ht.emit (by simp) (by simp), fun _ _ hr ht => ht.reap hr,
        fun _ _ ht => ht.emit (by simp) (by simp)⟩) hstop
  rcases hparts with heq | ⟨plan, t, hplan, ht, heq⟩
  · rw [heq]
    exact h
  · have hnone : t.NoneLost := ht.noneLost (hspares plan hplan)
    rw [heq]
    exact hnone

/-! ### Runs -/

/-- Outside a shutdown, the timer's attempts pass and a stop spares the units it does not take
down. -/
def KeepsRestarts (alloc : PidAllocator) (s : SupervisorState) : Op → Prop
  | .fireDueRestarts answers => s.shuttingDown = false →
    DuePass alloc (s.setPending (s.pendingRestarts.filter (fun r => ¬ r.fireAt ≤ s.clock)))
      (s.dueRestarts.zipIdx.map fun d => (d.1, answers d.2))
  | .stopUnit anchor ans => s.shuttingDown = false →
    ∀ plan, s.registry.buildStopTransaction ans.ords anchor = .ok plan → s.Spares plan ans
  | _ => True

instance decidableKeepsRestarts (s : SupervisorState) : ∀ op, Decidable (KeepsRestarts alloc s op)
  | .fireDueRestarts _ => inferInstanceAs (Decidable (_ → _))
  | .stopUnit anchor ans =>
    inferInstanceAs (Decidable (s.shuttingDown = false →
      ∀ plan, s.registry.buildStopTransaction ans.ords anchor = .ok plan → s.Spares plan ans))
  | .activatePlan _ | .startNamed _ _ _ | .reap _ | .initiateShutdown | .addWantedBy _ _
  | .advance _ => inferInstanceAs (Decidable True)

theorem NoneLost.addWantedBy (h : s.NoneLost) (target unit : String) :
    (s.addWantedBy target unit).NoneLost := by
  obtain ⟨hregistry, hunits, hbyPid, hpending, -, -, htrace⟩ := addWantedBy_frame s target unit
  have hget : ∀ v, (s.addWantedBy target unit).registry.get v = s.registry.get v := by
    intro v
    rw [UnitRegistry.get, hregistry]
    rfl
  intro u howed
  obtain ⟨hsimple, hkept⟩ := howed
  rw [UnitRegistry.AlwaysSimple, hget] at hsimple
  rw [htrace] at hkept
  rw [Covered, Live, Pending, LimitHit, hget, hunits, hbyPid, hpending]
  exact h u ⟨hsimple, hkept⟩

/-- An operation that keeps restarts loses none, unless it ends in a shutdown. -/
theorem noneLost_step {op : Op} (htracked : s.Tracked) (h : s.shuttingDown = false → s.NoneLost)
    (hop : KeepsRestarts alloc s op) (hstep : step alloc s op = .ok s')
    (hrunning : s'.shuttingDown = false) : s'.NoneLost := by
  have hop' : op ≠ .initiateShutdown := by
    intro heq
    subst heq
    cases hstep
    rw [initiateShutdown_shuttingDown] at hrunning
    cases hrunning
  have hflag : s.shuttingDown = false := (step_shuttingDown hop' hstep).symm.trans hrunning
  have hnone := h hflag
  cases op with
  | activatePlan plan =>
    cases hstep
    exact hnone.startEach htracked _ _
  | startNamed name ords answers =>
    cases hstep
    unfold startNamed
    cases s.registry.buildTransaction ords name with
    | error e => exact hnone
    | ok plan => exact hnone.startEach htracked _ _
  | stopUnit anchor ans =>
    rw [step] at hstep
    cases hstop : s.stopUnit anchor ans with
    | error t =>
      rw [hstop] at hstep
      cases hstep
    | ok res =>
      rw [hstop] at hstep
      cases hstep
      exact hnone.stop (hop hflag) hstop
  | reap r =>
    cases hstep
    exact hnone.reap hflag r
  | fireDueRestarts answers =>
    cases hstep
    exact hnone.fireDue htracked answers (hop hflag)
  | initiateShutdown => exact absurd rfl hop'
  | addWantedBy target unit =>
    cases hstep
    exact hnone.addWantedBy target unit
  | advance dt =>
    cases hstep
    exact hnone

/-- `app` needs `db`; both are always restarted, `app` sooner. -/
def appOnDb : List LoadedUnit :=
  [⟨"app.service",
      { unit := { after := ["db.service"], requires := ["db.service"] }
        service := some { execStart := "/usr/bin/app", restart := .always, restartSec := "1s" } }⟩,
    ⟨"db.service", { service := some { execStart := "/usr/bin/db", restart := .always } }⟩]

/-- Both crash; the restart of `app` comes due while `db` still waits for its own. -/
def crashBoth : List Op :=
  [.startNamed "app.service" ⟨.inserted, .inserted⟩ (fun _ => {}), .reap ⟨0, 1, .exited 1⟩,
    .reap ⟨0, 2, .exited 1⟩, .advance (fromSecs 1), .fireDueRestarts (fun _ => {}),
    .advance (fromSecs 4), .fireDueRestarts (fun _ => {})]

/-- The restart of `app` is dropped, and nothing brings `app` back. -/
theorem restart_lost_on_failed_requirement :
    ¬ ∀ (alloc : PidAllocator) (reg : UnitRegistry) (fake : Bool) (ops : List Op)
        (s : SupervisorState),
      run (step alloc) (SupervisorState.new reg fake) ops = .ok s → s.shuttingDown = false →
        s.NoneLost := by
  intro h
  have hlost := h .counting (.fromLoaded appOnDb) true crashBoth _ rfl rfl 0
  exact absurd hlost (by decide)

/-- **No restart is lost** in a run whose timer attempts pass and whose stops spare the other units:
every simple service with `restart = always` that once ran, and that no stop took down since, runs,
waits for its restart, or has hit its start limit. -/
theorem noneLost_run (alloc : PidAllocator) (reg : UnitRegistry) (fake : Bool) (ops : List Op)
    (hops : Guarded (step alloc) (KeepsRestarts alloc) (SupervisorState.new reg fake) ops)
    (hrun : run (step alloc) (SupervisorState.new reg fake) ops = .ok s)
    (hflag : s.shuttingDown = false) : s.NoneLost := by
  have h : s.Tracked ∧ (s.shuttingDown = false → s.NoneLost) := by
    refine run_ok_inv (step alloc) (G := KeepsRestarts alloc)
      (I := fun s => s.Tracked ∧ (s.shuttingDown = false → s.NoneLost)) ?_ ⟨?_, ?_⟩ hops hrun
    · intro s op s' hs hop hstep
      have htracked := (tracked_opInv alloc).step hs.1 op (opStartsMeet_true s op)
      rw [hstep] at htracked
      exact ⟨htracked, noneLost_step hs.1 hs.2 hop hstep⟩
    · exact Tracked.new reg fake
    · rintro - u ⟨-, hkept⟩
      cases hkept
  exact h.2 hflag

/-- Both crash and come back together; then `app` is stopped. -/
def crashTogether : List Op :=
  [.startNamed "app.service" ⟨.inserted, .inserted⟩ (fun _ => {}), .reap ⟨0, 1, .exited 1⟩,
    .reap ⟨0, 2, .exited 1⟩, .advance (fromSecs 5), .fireDueRestarts (fun _ => {}),
    .stopUnit "app.service" ⟨⟨.inserted, .inserted⟩, .inserted, [⟨0, [⟨0, 2, .signaled 15⟩]⟩]⟩]

theorem noneLost_run_appOnDb :
    (reached (run (step .counting) (SupervisorState.new (.fromLoaded appOnDb) true)
      crashTogether)).NoneLost :=
  noneLost_run .counting (.fromLoaded appOnDb) true crashTogether (by decide) rfl rfl

end SupervisorState

end WriteonceOs.Svc
