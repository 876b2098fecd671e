import WriteonceOs.Svc.EventLoop

/-!
# What a stop does to the units it does not stop

The drain of a stop waits for every child of the supervisor, under the shutdown flag that keeps the
plan's own units from being restarted.  The exit of a unit outside the plan is taken for an expected
one too: the unit ends inactive, and no restart is scheduled for it.

* `drained`, `exitsOf` — the children a stop reaps, and the exits of one unit among them;
* `stop_bystander` — what a stop leaves of a unit outside its plan;
* `outside_unchanged_iff` — when the event loop would have left the same;
* `stop_bystanders_iff` — exactly when a stop does not disturb them.
-/

namespace WriteonceOs.Svc

open WriteonceOs.Library

/-! ### The children a stop reaps -/

/-- More time before the first child. -/
def late (dt : Duration) : List Reap → List Reap
  | [] => []
  | r :: rs => { r with dt := dt + r.dt } :: rs

/-- The children that a drain reaps before it expects none any more, each with the time since the
previous one. -/
def drained : List Pid → Duration → List DrainRound → List Reap
  | [], _, _ => []
  | _ :: _, _, [] => []
  | pid :: expected, waited, round :: rounds =>
    late (waited + round.dt) round.reaped ++
      drained (round.reaped.foldl (fun left r => left.filter (· ≠ r.pid)) (pid :: expected))
        (if round.reaped = [] then waited + round.dt else 0) rounds

/-- The exits of unit `w` among some reaped children, with their times. -/
def exitsOf (w : UnitId) : (Pid → Option UnitId) → Instant → List Reap →
    List (Instant × ExitStatus)
  | _, _, [] => []
  | table, now, r :: rs =>
    let rest := exitsOf w (Function.update table r.pid none) (now + r.dt) rs
    if table r.pid = some w then (now + r.dt, r.status) :: rest else rest

/-- The table after some children. -/
def forgetAll (table : Pid → Option UnitId) (rs : List Reap) : Pid → Option UnitId :=
  rs.foldl (fun table r => Function.update table r.pid none) table

/-- The time after some children. -/
def timeAfter (now : Instant) (rs : List Reap) : Instant := rs.foldl (fun now r => now + r.dt) now

theorem exitsOf_append (w : UnitId) (rs rs' : List Reap) (table : Pid → Option UnitId)
    (now : Instant) : exitsOf w table now (rs ++ rs') =
      exitsOf w table now rs ++ exitsOf w (forgetAll table rs) (timeAfter now rs) rs' := by
  induction rs generalizing table now with
  | nil => rfl
  | cons r rs ih =>
    simp only [List.cons_append, exitsOf, ih]
    split
    · rfl
    · rfl

theorem exitsOf_late (w : UnitId) (table : Pid → Option UnitId) (now : Instant) (dt : Duration)
    (rs : List Reap) : exitsOf w table now (late dt rs) = exitsOf w table (now + dt) rs := by
  cases rs with
  | nil => rfl
  | cons r rs => simp only [late, exitsOf, Nat.add_assoc]

theorem forgetAll_late (table : Pid → Option UnitId) (dt : Duration) (rs : List Reap) :
    forgetAll table (late dt rs) = forgetAll table rs := by
  cases rs with
  | nil => rfl
  | cons r rs => rfl

theorem timeAfter_late (now : Instant) (dt : Duration) (rs : List Reap) :
    timeAfter now (late dt rs) + (if rs = [] then dt else 0) = timeAfter (now + dt) rs := by
  cases rs with
  | nil => rfl
  | cons r rs => simp [late, timeAfter, Nat.add_assoc]

namespace SupervisorState

variable {s t : SupervisorState} {w : UnitId}

/-- The PID table as a function. -/
def table (s : SupervisorState) (p : Pid) : Option UnitId := s.byPid.lookup p

/-- The children that a stop reaps. -/
def stopReaps (s : SupervisorState) (anchor : String) (ans : StopAnswer) : List Reap :=
  match s.registry.buildStopTransaction ans.ords anchor with
  | .error _ => []
  | .ok plan => drained (s.expectedPids plan) 0 ans.rounds

/-- The units that a stop is for. -/
def stopPlan (s : SupervisorState) (anchor : String) (ans : StopAnswer) : List UnitId :=
  match s.registry.buildStopTransaction ans.ords anchor with
  | .error _ => []
  | .ok plan => plan

/-- The exits of unit `w` that a stop waits through. -/
def stopExits (s : SupervisorState) (anchor : String) (ans : StopAnswer) (w : UnitId) :
    List (Instant × ExitStatus) :=
  exitsOf w s.table s.clock (s.stopReaps anchor ans)

/-- The pending restarts of a unit. -/
def restartsOf (s : SupervisorState) (w : UnitId) : List PendingRestart :=
  s.pendingRestarts.filter (fun r => r.unit = w)

/-- A policy that wants the unit back after such an exit. -/
def wants (s : SupervisorState) (w : UnitId) (status : ExitStatus) : Bool :=
  match (s.registry.get w).file.service with
  | none => false
  | some service => wantRestart service status.clean status.isSignaled

/-! ### One reaped child -/

theorem reap_table (s : SupervisorState) (r : Reap) :
    (s.reapChild r).table = Function.update s.table r.pid none := by
  funext p
  refine Option.ext fun u => ?_
  rw [table, reap_lookup]
  by_cases hp : p = r.pid
  · subst hp
    simp
  · simp [hp, table]

theorem reap_clock (s : SupervisorState) (r : Reap) : (s.reapChild r).clock = s.clock + r.dt := by
  cases ReapStep.of_reap s r with
  | untracked _ heq => rw [heq, emit_clock, advance_clock]
  | quiet _ _ frame => exact frame.clock
  | scheduled _ _ frame => exact frame.clock
  | suppressed _ _ frame => exact frame.clock

/-- The exits among some children, from the state that reaps them. -/
theorem exitsOf_cons (s : SupervisorState) (w : UnitId) (r : Reap) (rs : List Reap) :
    exitsOf w s.table s.clock (r :: rs) =
      if s.table r.pid = some w then
        (s.clock + r.dt, r.status) :: exitsOf w (s.reapChild r).table (s.reapChild r).clock rs
      else exitsOf w (s.reapChild r).table (s.reapChild r).clock rs := by
  rw [reap_table, reap_clock]
  rfl

/-- Somebody else's exit. -/
theorem reap_other (r : Reap) (h : s.table r.pid ≠ some w) :
    (s.reapChild r).units w = s.units w ∧ (s.reapChild r).restartsOf w = s.restartsOf w := by
  have hne : ∀ id, s.byPid.lookup r.pid = some id → w ≠ id := by
    intro id hid heq
    exact h (heq ▸ hid)
  cases ReapStep.of_reap s r with
  | untracked _ heq =>
    rw [heq]
    exact ⟨rfl, rfl⟩
  | quiet id hid frame _ hpending =>
    exact ⟨frame.others w (hne id hid), by rw [restartsOf, hpending, restartsOf]⟩
  | scheduled id hid frame _ _ _ _ _ hpending =>
    obtain ⟨delay, hpending⟩ := hpending
    refine ⟨frame.others w (hne id hid), ?_⟩
    rw [restartsOf, hpending, List.filter_append, restartsOf]
    simp [(hne id hid).symm]
  | suppressed id hid frame _ _ _ _ _ hpending =>
    exact ⟨frame.others w (hne id hid), by rw [restartsOf, hpending, restartsOf]⟩

/-- An exit under the shutdown flag. -/
theorem reap_flagged (r : Reap) (hflag : s.shuttingDown = true) (h : s.table r.pid = some w) :
    (s.reapChild r).units w = { s.units w with state := .inactive, pid := none } ∧
      (s.reapChild r).restartsOf w = s.restartsOf w := by
  have hlookup : s.byPid.lookup r.pid = some w := h
  have heq : s.reapChild r =
      ((((s.advance r.dt).emit (.reaped r.pid)).untrack r.pid).setPid w none).setState w
        .inactive := by
    rw [reapChild_tracked hlookup]
    simp [afterExit, hflag]
  rw [heq]
  refine ⟨UnitMeta.ext ?_ ?_ ?_, ?_⟩
  · simp
  · simp
  · simp
  · simp [restartsOf]

/-- A wanted restart of `w` finds the start limit used up. -/
def OverLimit (s : SupervisorState) (w : UnitId) (now : Instant) : Prop :=
  ∃ service, (s.registry.get w).file.service = some service ∧ 0 < service.startLimitBurst ∧
    service.startLimitBurst ≤ (s.recentAt service w now).length

/-- The state that an exit leaves the unit in, outside a stop. -/
theorem reap_state (r : Reap) (hflag : s.shuttingDown = false) (h : s.table r.pid = some w) :
    ((s.reapChild r).units w).state = .inactive ↔
      r.status.clean = true ∧ ¬ (s.wants w r.status = true ∧ s.OverLimit w (s.clock + r.dt)) := by
  have hlookup : s.byPid.lookup r.pid = some w := h
  rw [reapChild_tracked hlookup, hflag]
  generalize hs₀ : s.afterExit w r = s₀
  rw [afterExit] at hs₀
  have hregistry : s₀.registry = s.registry := by rw [← hs₀]; simp
  have hclock : s₀.clock = s.clock + r.dt := by rw [← hs₀]; simp
  have hstate : (s₀.units w).state = if r.status.clean then .inactive else .failed := by
    rw [← hs₀]
    simp [hflag]
  have hrecent : ∀ service, s₀.recentAt service w s₀.clock =
      s.recentAt service w (s.clock + r.dt) := by
    intro service
    rw [recentAt, hclock, recentAt, ← hs₀]
    simp
  -- removing the control group does not touch the unit
  have hcgroup : ∀ (b : Bool) (t : SupervisorState),
      (if b then t.reapCgroup w else t).units = t.units := by
    intro b t
    obtain ⟨es, -, htail⟩ := cgroup_tail t w b
    rw [htail]
  rw [hcgroup, if_neg (by simp)]
  rcases maybeScheduleRestart_cases s₀ w r.status.clean r.status.isSignaled with
    ⟨hno, heq⟩ | ⟨service, hservice, hwant, ⟨hlimit, heq⟩ | ⟨hlimit, delay, heq⟩⟩
  · have hwants : s.wants w r.status = false := by
      rw [hregistry] at hno
      unfold wants
      cases hservice : (s.registry.get w).file.service with
      | none => rfl
      | some service => exact hno service hservice
    rw [heq, hstate, hwants]
    cases r.status.clean <;> simp
  · rw [hregistry] at hservice
    rw [hrecent] at hlimit
    have hwants : s.wants w r.status = true := by
      unfold wants
      rw [hservice]
      exact hwant
    have hhit : s.OverLimit w (s.clock + r.dt) := ⟨service, hservice, hlimit⟩
    rw [heq]
    simp [hwants, hhit]
  · rw [hregistry] at hservice
    rw [hrecent] at hlimit
    have hhit : ¬ s.OverLimit w (s.clock + r.dt) := by
      intro hhit
      obtain ⟨service', hservice', hlimit'⟩ := hhit
      rw [hservice, Option.some.injEq] at hservice'
      exact hlimit (hservice' ▸ hlimit')
    rw [heq]
    simp only [emit_units, setPending_units, setHistory_state, hstate, hhit, and_false,
      not_false_eq_true, and_true]
    cases r.status.clean <;> simp

/-- What an exit outside a stop does to the restarts and the history of the unit: nothing if no
restart is wanted; a restart more if one is wanted and the limit is not hit; else the history loses
the restarts that are not recent. -/
inductive ExitStep (s : SupervisorState) (w : UnitId) (now : Instant) (status : ExitStatus)
    (t : SupervisorState) : Prop where
  | unwanted (hwant : s.wants w status = false) (hrestarts : t.restartsOf w = s.restartsOf w)
      (hhistory : (t.units w).restartHistory = (s.units w).restartHistory)
  | scheduled (hwant : s.wants w status = true) (hlimit : ¬ s.OverLimit w now)
      (hrestarts : (t.restartsOf w).length = (s.restartsOf w).length + 1)
  | suppressed (hwant : s.wants w status = true) (hlimit : s.OverLimit w now)
      (hrestarts : t.restartsOf w = s.restartsOf w) (service : ServiceSection)
      (hservice : (s.registry.get w).file.service = some service)
      (hhistory : (t.units w).restartHistory = s.recentAt service w now)

theorem ExitStep.of_reap (r : Reap) (hflag : s.shuttingDown = false)
    (h : s.table r.pid = some w) :
    ExitStep s w (s.clock + r.dt) r.status (s.reapChild r) := by
  have hid : ∀ {id : UnitId}, s.byPid.lookup r.pid = some id → id = w := by
    intro id hid
    have hw : s.byPid.lookup r.pid = some w := h
    rw [hid, Option.some.injEq] at hw
    exact hw
  cases ReapStep.of_reap s r with
  | untracked hlookup =>
    have hw : s.byPid.lookup r.pid = some w := h
    rw [hlookup] at hw
    cases hw
  | quiet id hlookup frame hquiet hpending hhistory =>
    obtain rfl := hid hlookup
    refine .unwanted ?_ (by rw [restartsOf, hpending, restartsOf]) hhistory
    rcases hquiet with hquiet | hquiet
    · rw [hflag] at hquiet
      cases hquiet
    · unfold wants
      cases hservice : (s.registry.get id).file.service with
      | none => rfl
      | some service => exact hquiet service hservice
  | scheduled id hlookup frame _ service hservice hwant hlimit hpending =>
    obtain rfl := hid hlookup
    obtain ⟨delay, hpending⟩ := hpending
    refine .scheduled ?_ ?_ ?_
    · unfold wants
      rw [hservice]
      exact hwant
    · intro hhit
      obtain ⟨service', hservice', hlimit'⟩ := hhit
      rw [hservice, Option.some.injEq] at hservice'
      exact hlimit (hservice' ▸ hlimit')
    · rw [restartsOf, hpending, List.filter_append, restartsOf]
      simp
  | suppressed id hlookup frame _ service hservice hwant hlimit hpending hhistory =>
    obtain rfl := hid hlookup
    refine .suppressed ?_ ⟨service, hservice, hlimit⟩ (by rw [restartsOf, hpending, restartsOf])
      service hservice hhistory
    unfold wants
    rw [hservice]
    exact hwant

/-! ### Outside a stop -/

theorem reapChildren_cons (s : SupervisorState) (r : Reap) (rs : List Reap) :
    s.reapChildren (r :: rs) = (s.reapChild r).reapChildren rs := rfl

/-- Without an exit of its own a unit stays as it is. -/
theorem reapChildren_other (rs : List Reap) (s : SupervisorState)
    (h : exitsOf w s.table s.clock rs = []) :
    (s.reapChildren rs).units w = s.units w ∧
      (s.reapChildren rs).restartsOf w = s.restartsOf w := by
  induction rs generalizing s with
  | nil => exact ⟨rfl, rfl⟩
  | cons r rs ih =>
    rw [exitsOf_cons] at h
    split at h
    · cases h
    · rename_i hw
      obtain ⟨hunits, hrestarts⟩ := reap_other r hw
      obtain ⟨hunits', hrestarts'⟩ := ih (s.reapChild r) h
      exact ⟨hunits'.trans hunits, hrestarts'.trans hrestarts⟩

/-- Exits only ever add restarts, and without adding one they only shorten the history. -/
theorem reapChildren_grow (rs : List Reap) (s : SupervisorState) (hflag : s.shuttingDown = false) :
    (s.restartsOf w).length ≤ ((s.reapChildren rs).restartsOf w).length ∧
      (((s.reapChildren rs).restartsOf w).length = (s.restartsOf w).length →
        ((s.reapChildren rs).units w).restartHistory.length ≤
          (s.units w).restartHistory.length) := by
  induction rs generalizing s with
  | nil => exact ⟨le_refl _, fun _ => le_refl _⟩
  | cons r rs ih =>
    obtain ⟨hle, hhistory⟩ := ih (s.reapChild r) ((reap_shuttingDown s r).trans hflag)
    rw [reapChildren_cons]
    by_cases hw : s.table r.pid = some w
    · cases ExitStep.of_reap r hflag hw with
      | unwanted _ hrestarts hsame =>
        rw [hrestarts] at hle hhistory
        rw [hsame] at hhistory
        exact ⟨hle, hhistory⟩
      | scheduled _ _ hrestarts => exact ⟨by omega, fun heq => by omega⟩
      | suppressed _ _ hrestarts service _ hsame =>
        rw [hrestarts] at hle hhistory
        rw [hsame] at hhistory
        exact ⟨hle, fun heq => (hhistory heq).trans (List.length_filter_le _ _)⟩
    · obtain ⟨hunits, hrestarts⟩ := reap_other r hw
      rw [hrestarts] at hle hhistory
      rw [hunits] at hhistory
      exact ⟨hle, hhistory⟩

/-- Exits of `w` that leave it inactive with its restarts and its history as they were: the last one
is clean and asks for no restart, and every restart asked for on the way is refused by a start limit
that no part of the history has fallen out of. -/
def Unmoved (s : SupervisorState) (w : UnitId) (exits : List (Instant × ExitStatus)) : Prop :=
  (∀ x ∈ exits, s.wants w x.2 = true → s.OverLimit w x.1 ∧
    ∀ service, (s.registry.get w).file.service = some service →
      s.recentAt service w x.1 = (s.units w).restartHistory) ∧
  ∀ last ∈ exits.getLast?, last.2.clean = true ∧ s.wants w last.2 = false

/-- What only the file and the history of the unit decide. -/
theorem unmoved_congr (hregistry : t.registry = s.registry)
    (hhistory : (t.units w).restartHistory = (s.units w).restartHistory)
    (exits : List (Instant × ExitStatus)) : t.Unmoved w exits ↔ s.Unmoved w exits := by
  simp only [Unmoved, wants, OverLimit, recentAt, hregistry, hhistory]

theorem unmoved_cons_iff {x y : Instant × ExitStatus} {exits : List (Instant × ExitStatus)} :
    s.Unmoved w (x :: y :: exits) ↔
      (s.wants w x.2 = true → s.OverLimit w x.1 ∧
        ∀ service, (s.registry.get w).file.service = some service →
          s.recentAt service w x.1 = (s.units w).restartHistory) ∧
      s.Unmoved w (y :: exits) := by
  simp only [Unmoved, List.forall_mem_cons, List.getLast?_cons_cons, and_assoc]

/-- The unit is inactive, with the restarts and the history it has in `s`. -/
def Rests (s t : SupervisorState) (w : UnitId) : Prop :=
  (t.units w).state = .inactive ∧ (t.units w).restartHistory = (s.units w).restartHistory ∧
    t.restartsOf w = s.restartsOf w

/-- One exit. -/
theorem rests_single_iff (r : Reap) (hflag : s.shuttingDown = false)
    (h : s.table r.pid = some w) :
    Rests s (s.reapChild r) w ↔ s.Unmoved w [(s.clock + r.dt, r.status)] := by
  have hunmoved : s.Unmoved w [(s.clock + r.dt, r.status)] ↔
      r.status.clean = true ∧ s.wants w r.status = false := by
    simp only [Unmoved, List.forall_mem_singleton, List.getLast?_singleton, Option.mem_some_iff,
      forall_eq']
    constructor
    · intro h
      exact h.2
    · intro h
      exact ⟨fun hwant => absurd (hwant.symm.trans h.2) (by simp), h⟩
  rw [hunmoved, Rests, reap_state r hflag h]
  cases ExitStep.of_reap r hflag h with
  | unwanted hwant hrestarts hhistory => simp [hwant, hrestarts, hhistory]
  | scheduled hwant hlimit hrestarts =>
    have hne : (s.reapChild r).restartsOf w ≠ s.restartsOf w := by
      intro heq
      rw [heq] at hrestarts
      omega
    simp [hwant, hne]
  | suppressed hwant hlimit => simp [hwant, hlimit]

/-- **When the event loop would leave the unit inactive and otherwise as it was.** -/
theorem outside_unchanged_iff (rs : List Reap) (s : SupervisorState)
    (hflag : s.shuttingDown = false) (hexits : exitsOf w s.table s.clock rs ≠ []) :
    Rests s (s.reapChildren rs) w ↔ s.Unmoved w (exitsOf w s.table s.clock rs) := by
  induction rs generalizing s with
  | nil => exact absurd rfl hexits
  | cons r rs ih =>
    have hflag' := (reap_shuttingDown s r).trans hflag
    have hregistry := reap_registry s r
    rw [exitsOf_cons] at hexits ⊢
    rw [reapChildren_cons]
    by_cases hw : s.table r.pid = some w
    · rw [if_pos hw]
      cases hrest : exitsOf w (s.reapChild r).table (s.reapChild r).clock rs with
      | nil =>
        obtain ⟨hunits, hrestarts⟩ := reapChildren_other rs _ hrest
        rw [← rests_single_iff r hflag hw, Rests, Rests, hunits, hrestarts]
      | cons x exits =>
        have hih := ih (s.reapChild r) hflag' (by simp [hrest])
        obtain ⟨hle, hshort⟩ := reapChildren_grow (w := w) rs (s.reapChild r) hflag'
        rw [hrest] at hih
        rw [unmoved_cons_iff]
        cases ExitStep.of_reap r hflag hw with
        | unwanted hwant hrestarts hhistory =>
          rw [unmoved_congr hregistry hhistory, Rests, hrestarts, hhistory] at hih
          rw [Rests, hih]
          simp [hwant]
        | scheduled hwant hlimit hrestarts =>
          refine iff_of_false (fun hrests => ?_) fun hunmoved => hlimit (hunmoved.1 hwant).1
          have hsame := congrArg List.length hrests.2.2
          omega
        | suppressed hwant hlimit hrestarts service hservice hhistory =>
          by_cases hall : s.recentAt service w (s.clock + r.dt) = (s.units w).restartHistory
          · rw [hall] at hhistory
            rw [unmoved_congr hregistry hhistory, Rests, hrestarts, hhistory] at hih
            rw [Rests, hih, iff_and_self]
            intro _ _
            refine ⟨hlimit, fun service' hservice' => ?_⟩
            rw [hservice, Option.some.injEq] at hservice'
            exact hservice' ▸ hall
          · refine iff_of_false (fun hrests => hall ?_) fun hunmoved =>
              hall ((hunmoved.1 hwant).2 service hservice)
            obtain ⟨-, hsame, hpending⟩ := hrests
            rw [hrestarts, hpending, hsame, hhistory] at hshort
            exact List.filter_sublist.eq_of_length_le (hshort rfl)
    · obtain ⟨hunits, hrestarts⟩ := reap_other r hw
      rw [if_neg hw] at hexits ⊢
      rw [← unmoved_congr hregistry (congrArg UnitMeta.restartHistory hunits),
        ← ih (s.reapChild r) hflag' hexits, Rests, Rests, hunits, hrestarts]

/-! ### Inside a stop -/

/-- A unit after some exits that were taken for expected ones. -/
def exited (exits : List (Instant × ExitStatus)) (unit : UnitMeta) : UnitMeta :=
  match exits with
  | [] => unit
  | _ :: _ => { unit with state := .inactive, pid := none }

theorem exited_append (exits exits' : List (Instant × ExitStatus)) (unit : UnitMeta) :
    exited (exits ++ exits') unit = exited exits' (exited exits unit) := by
  cases exits with
  | nil => rfl
  | cons x exits =>
    cases exits' with
    | nil => rw [List.append_nil, exited]
    | cons y exits' => rfl

/-- Exits under the shutdown flag. -/
theorem reapChildren_flagged (rs : List Reap) (s : SupervisorState)
    (hflag : s.shuttingDown = true) :
    (s.reapChildren rs).units w = exited (exitsOf w s.table s.clock rs) (s.units w) ∧
      (s.reapChildren rs).restartsOf w = s.restartsOf w ∧
      (s.reapChildren rs).shuttingDown = true := by
  induction rs generalizing s with
  | nil => exact ⟨rfl, rfl, hflag⟩
  | cons r rs ih =>
    obtain ⟨hunits, hrestarts, hshut⟩ := ih (s.reapChild r) ((reap_shuttingDown s r).trans hflag)
    rw [exitsOf_cons, reapChildren_cons]
    refine ⟨?_, ?_, hshut⟩
    · rw [hunits]
      split
      · rename_i hw
        rw [(reap_flagged r hflag hw).1, ← List.singleton_append, exited_append]
        rfl
      · rename_i hw
        rw [(reap_other r hw).1]
    · rw [hrestarts]
      by_cases hw : s.table r.pid = some w
      · exact (reap_flagged r hflag hw).2
      · exact (reap_other r hw).2

theorem foldl_drainReap (rs : List Reap) (expected : List Pid) (t : SupervisorState) :
    rs.foldl drainReap (expected, t) =
      (rs.foldl (fun left r => left.filter (· ≠ r.pid)) expected, t.reapChildren rs) := by
  induction rs generalizing expected t with
  | nil => rfl
  | cons r rs ih =>
    rw [List.foldl_cons, drainReap_eq]
    exact ih _ _

/-- SIGKILLs are marks in the history. -/
theorem killAll_eq (pids : List Pid) (t : SupervisorState) :
    t.killAll pids = { t with trace := t.trace ++ pids.map fun pid => .kill pid .kill } := by
  induction pids generalizing t with
  | nil => simp [killAll]
  | cons pid pids ih =>
    rw [killAll, List.foldl_cons, ← killAll, ih]
    simp [emit]

theorem reapChildren_table (rs : List Reap) (s : SupervisorState) :
    (s.reapChildren rs).table = forgetAll s.table rs := by
  induction rs generalizing s with
  | nil => rfl
  | cons r rs ih =>
    rw [reapChildren_cons, ih, reap_table]
    rfl

theorem reapChildren_clock (rs : List Reap) (s : SupervisorState) :
    (s.reapChildren rs).clock = timeAfter s.clock rs := by
  induction rs generalizing s with
  | nil => rfl
  | cons r rs ih =>
    rw [reapChildren_cons, ih, reap_clock]
    rfl

/-- **The drain.**  A unit that no stop is under way for only takes part in it with its exits. -/
theorem drain_bystander (killOrder : HashOrder Pid) (grace : Duration) (start : Instant)
    (rounds : List DrainRound) (escalated : Bool) (expected : List Pid) (waited : Duration)
    (now : Instant) (t t' : SupervisorState) (hflag : t.shuttingDown = true)
    (hclock : t.clock = now + waited)
    (h : drain killOrder grace start rounds escalated expected t = .ok t') :
    t'.units w = exited (exitsOf w t.table now (drained expected waited rounds)) (t.units w) ∧
      t'.restartsOf w = t.restartsOf w := by
  induction rounds generalizing escalated expected waited now t with
  | nil =>
    cases expected with
    | nil =>
      rw [drain_nil, Except.ok.injEq] at h
      subst h
      exact ⟨rfl, rfl⟩
    | cons pid expected =>
      rw [drain_waiting] at h
      cases h
  | cons round rounds ih =>
    cases expected with
    | nil =>
      rw [drain_nil, Except.ok.injEq] at h
      subst h
      exact ⟨rfl, rfl⟩
    | cons pid expected =>
      -- the state in which the round reaps
      obtain ⟨t₂, es, ht₂, hrest⟩ : ∃ t₂ es,
          t₂ = { t.advance round.dt with trace := t.trace ++ es } ∧
          drain killOrder grace start rounds
            (escalated || (!escalated && decide (grace < (t.advance round.dt).clock - start)))
            (round.reaped.foldl (fun left r => left.filter (· ≠ r.pid)) (pid :: expected))
            (t₂.reapChildren round.reaped) = .ok t' := by
        rw [drain_cons] at h
        dsimp only at h
        split at h
        · rw [killAll_eq, foldl_drainReap] at h
          exact ⟨_, _, rfl, h⟩
        · rw [foldl_drainReap] at h
          exact ⟨_, [], by simp [advance], h⟩
      have hclock₂ : t₂.clock = now + (waited + round.dt) := by
        rw [ht₂, advance_clock, hclock, Nat.add_assoc]
      have htable₂ : t₂.table = t.table := by
        rw [ht₂]
        rfl
      obtain ⟨hunits, hrestarts, hshut⟩ := reapChildren_flagged (w := w) round.reaped t₂
        (by rw [ht₂]; exact hflag)
      obtain ⟨hunits', hrestarts'⟩ := ih _ _ (if round.reaped = [] then waited + round.dt else 0)
        (timeAfter now (late (waited + round.dt) round.reaped)) _ hshut
        (by rw [reapChildren_clock, timeAfter_late, hclock₂]) hrest
      rw [drained, exitsOf_append, forgetAll_late, exitsOf_late, ← hclock₂, ← htable₂,
        ← reapChildren_table, exited_append]
      have hsame : t₂.units w = t.units w ∧ t₂.restartsOf w = t.restartsOf w := by
        rw [ht₂]
        exact ⟨rfl, rfl⟩
      rw [← hsame.1, ← hsame.2, ← hunits, ← hrestarts]
      exact ⟨hunits', hrestarts'⟩

/-! ### The whole stop -/

/-- The signals to the plan leave every other unit alone. -/
theorem termUnits_other (plan : List UnitId) (s : SupervisorState) (hw : w ∉ plan) :
    (plan.foldl termUnit s).units w = s.units w ∧
      (plan.foldl termUnit s).restartsOf w = s.restartsOf w ∧
      (plan.foldl termUnit s).table = s.table ∧ (plan.foldl termUnit s).clock = s.clock ∧
      (plan.foldl termUnit s).shuttingDown = s.shuttingDown := by
  induction plan generalizing s with
  | nil => exact ⟨rfl, rfl, rfl, rfl, rfl⟩
  | cons id plan ih =>
    rw [List.mem_cons, not_or] at hw
    obtain ⟨hne, hw⟩ := hw
    obtain ⟨hunits, hrestarts, htable, hclock, hflag⟩ := ih (s.termUnit id) hw
    have hfilter : (s.pendingRestarts.filter (fun r => r.unit ≠ id)).filter
        (fun r => r.unit = w) = s.restartsOf w := by
      rw [List.filter_filter, restartsOf]
      refine List.filter_congr fun r _ => ?_
      by_cases hr : r.unit = w
      · simp [hr, hne]
      · simp [hr]
    rw [List.foldl_cons]
    rcases termUnit_cases s id with ⟨pid, -, heq⟩ | ⟨-, heq⟩
    · rw [heq] at hunits hrestarts htable hclock hflag ⊢
      exact ⟨hunits.trans (Function.update_of_ne hne _ _), hrestarts.trans hfilter, htable, hclock,
        hflag⟩
    · rw [heq] at hunits hrestarts htable hclock hflag ⊢
      exact ⟨hunits.trans (Function.update_of_ne hne _ _), hrestarts.trans hfilter, htable, hclock,
        hflag⟩

theorem reapCgroups_frame (plan : List UnitId) (s : SupervisorState) :
    (plan.foldl reapCgroup s).units = s.units ∧
      (plan.foldl reapCgroup s).pendingRestarts = s.pendingRestarts := by
  have hstep : ∀ (t : SupervisorState) (id : UnitId),
      (t.reapCgroup id).units = t.units ∧
        (t.reapCgroup id).pendingRestarts = t.pendingRestarts := by
    intro t id
    rcases reapCgroup_cases t id with heq | heq
    · rw [heq]
      exact ⟨rfl, rfl⟩
    · rw [heq]
      exact ⟨rfl, rfl⟩
  exact ⟨foldl_frame (·.units) (fun t id => (hstep t id).1) s plan,
    foldl_frame (·.pendingRestarts) (fun t id => (hstep t id).2) s plan⟩

variable {anchor : String} {ans : StopAnswer} {s' : SupervisorState}
  {res : Except RequestError Unit}

/-- **A stop, for a unit outside its plan**: each of its exits is taken for an expected one, and
that is all. -/
theorem stop_bystander (hstop : s.stopUnit anchor ans = .ok (s', res))
    (hw : w ∉ s.stopPlan anchor ans) :
    s'.units w = exited (s.stopExits anchor ans w) (s.units w) ∧
      s'.restartsOf w = s.restartsOf w := by
  unfold stopExits stopReaps
  unfold stopPlan at hw
  cases hplan : s.registry.buildStopTransaction ans.ords anchor with
  | error e =>
    rw [stopUnit_refused hplan, Except.ok.injEq, Prod.mk.injEq] at hstop
    rw [← hstop.1]
    exact ⟨rfl, rfl⟩
  | ok plan =>
    rw [stopUnit_planned hplan] at hstop
    simp only [hplan] at hstop hw ⊢
    obtain ⟨hunits, hrestarts, htable, hclock, hflag⟩ :=
      termUnits_other plan ((s.setShuttingDown true).emit (.stopping plan)) hw
    generalize plan.foldl termUnit ((s.setShuttingDown true).emit (.stopping plan)) = t at *
    cases hdrain : drain ans.killOrder (s.stopGrace plan) t.clock ans.rounds false
        (s.expectedPids plan) t with
    | error t' =>
      rw [hdrain] at hstop
      cases hstop
    | ok t' =>
      rw [hdrain] at hstop
      cases hstop
      obtain ⟨hcgroups, hpending⟩ := reapCgroups_frame plan t'
      obtain ⟨hunits', hrestarts'⟩ := drain_bystander (w := w) _ _ _ _ _ _ 0 t.clock t t' hflag rfl
        hdrain
      rw [hclock, htable, hunits] at hunits'
      refine ⟨?_, ?_⟩
      · rw [setShuttingDown_units, hcgroups]
        exact hunits'
      · rw [restartsOf, setShuttingDown_pendingRestarts, hpending, ← restartsOf, hrestarts',
          hrestarts]
        rfl

/-- The units outside the plan: without an exit they are as before; with one, their state, their
pending restarts and their history are what the event loop would have made of the same exits. -/
def Undisturbed (s : SupervisorState) (anchor : String) (ans : StopAnswer) (s' : SupervisorState) :
    Prop :=
  ∀ w ∉ s.stopPlan anchor ans,
    (s.stopExits anchor ans w = [] → s'.units w = s.units w ∧ s'.restartsOf w = s.restartsOf w) ∧
    (s.stopExits anchor ans w ≠ [] →
      (s'.units w).state = ((s.reapChildren (s.stopReaps anchor ans)).units w).state ∧
      (s'.units w).restartHistory =
        ((s.reapChildren (s.stopReaps anchor ans)).units w).restartHistory ∧
      s'.restartsOf w = (s.reapChildren (s.stopReaps anchor ans)).restartsOf w)

/-- **When a stop does not disturb the units outside its plan.** -/
theorem stop_bystanders_iff (hflag : s.shuttingDown = false)
    (hstop : s.stopUnit anchor ans = .ok (s', res)) :
    s.Undisturbed anchor ans s' ↔ ∀ w ∉ s.stopPlan anchor ans, s.stopExits anchor ans w ≠ [] →
      s.Unmoved w (s.stopExits anchor ans w) := by
  refine forall₂_congr fun w hw => ?_
  obtain ⟨hunits, hrestarts⟩ := stop_bystander hstop hw
  cases hexits : s.stopExits anchor ans w with
  | nil =>
    rw [hexits] at hunits
    simp [hunits, hrestarts, exited]
  | cons x exits =>
    rw [hexits] at hunits
    have houtside := outside_unchanged_iff (w := w) (s.stopReaps anchor ans) s hflag
      (by rw [← stopExits, hexits]; simp)
    rw [← stopExits, hexits] at houtside
    rw [← houtside, hunits, hrestarts, Rests]
    simp [exited, eq_comm]

/-- The message bus crashes while the other service is stopped. -/
def crashWhileStopping : StopAnswer where
  ords := ⟨.inserted, .inserted⟩
  killOrder := .inserted
  rounds := [⟨0, [⟨0, 1, .exited 1⟩, ⟨0, 2, .exited 0⟩]⟩]

/-- Two services that run. -/
def busAndShell : SupervisorState :=
  (SupervisorState.new (.fromLoaded [⟨"dbus.service",
      { service := some { execStart := "/usr/bin/dbus-daemon", restart := .always } }⟩,
    ⟨"sshd.service", { service := some { execStart := "/usr/sbin/sshd" } }⟩]) true).activatePlan
      .counting [(⟨0, .start, .waiting⟩, {}), (⟨1, .start, .waiting⟩, {})]

/-- The message bus is left inactive, and no restart is scheduled for it. -/
theorem crash_lost_while_stopping :
    ¬ ∀ (s : SupervisorState) (anchor : String) (ans : StopAnswer) (s' : SupervisorState)
        (res : Except RequestError Unit), s.shuttingDown = false →
      s.stopUnit anchor ans = .ok (s', res) → s.Undisturbed anchor ans s' := by
  intro h
  have hund := (h busAndShell "sshd.service" crashWhileStopping _ _ (by decide) rfl 0
    (by decide)).2 (by decide)
  exact absurd hund.1 (by decide)

theorem stop_bystanders_iff_busAndShell :
    ¬ ∀ w ∉ busAndShell.stopPlan "sshd.service" crashWhileStopping,
      busAndShell.stopExits "sshd.service" crashWhileStopping w ≠ [] →
        busAndShell.Unmoved w (busAndShell.stopExits "sshd.service" crashWhileStopping w) := by
  intro h
  have hund := ((stop_bystanders_iff (by decide) rfl).mpr h 0 (by decide)).2 (by decide)
  exact absurd hund.1 (by decide)

end SupervisorState

end WriteonceOs.Svc
