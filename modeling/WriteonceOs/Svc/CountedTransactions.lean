import WriteonceOs.Svc.KahnLoop
import WriteonceOs.Svc.TransactionSpec

/-!
# The transactions with the counters of the code

`buildTransaction` and `buildStopTransaction` count the in-degrees of their sort without a bound.
Here are both with the loop as the source has it, which counts in a `u32`: a release build wraps a
counter that leaves its range, and a debug build panics.

* `countedTransaction_eq`, `countedStopTransaction_eq` — as long as the counters fit, both are those
  of the unbounded sort;
* `Wrapping.pops` — how often the loop queues a unit, whether the counters fit or not;
* `fits_of_perm` — a loop that emits every unit once has counters that fit;
* `start_transaction_iff`, `stop_transaction_iff` — when the transactions are what they should be.
-/

namespace WriteonceOs.Svc

open WriteonceOs.Library Relation

/-- What becomes of a counter that leaves its range: a release build wraps it, a debug build
panics. -/
inductive Build where
  | release
  | debug
  deriving DecidableEq, Repr

namespace UnitRegistry

section Counted

variable (reg : UnitRegistry) (build : Build) (ords : HashOrders)

/-- What the sort of a set returns within `fuel` iterations; none when it has panicked, or still
runs. -/
def countedUnits (set : List UnitId) (fuel : ℕ) : Option (Except (List String) (List UnitId)) :=
  match reg.loopAfter ords set fuel with
  | none => none
  | some s =>
    if build = .debug ∧ ((reg.orderMaps ords set).overflow || s.underflow) then none
    else if s.ready = [] then some (reg.loopResult ords set s)
    else none

/-- What a start transaction makes of the sort: an error, or a job for each unit. -/
def startResult : Except (List String) (List UnitId) → Except TransactionError (List Job)
  | .error names => .error (.orderingCycle names)
  | .ok sorted => .ok (sorted.map fun u => ⟨u, .start, .waiting⟩)

/-- What a stop transaction makes of the sort. -/
def stopResult : Except (List String) (List UnitId) → Except TransactionError (List UnitId)
  | .error names => .error (.orderingCycle names)
  | .ok sorted => .ok sorted.reverse

def countedTransaction (anchor : String) (fuel : ℕ) :
    Option (Except TransactionError (List Job)) :=
  match reg.lookup anchor with
  | none => some (.error (.unknownUnit anchor))
  | some anchorId =>
    (reg.countedUnits build ords (reg.startClosure anchorId) fuel).map startResult

def countedStopTransaction (anchor : String) (fuel : ℕ) :
    Option (Except TransactionError (List UnitId)) :=
  match reg.lookup anchor with
  | none => some (.error (.unknownUnit anchor))
  | some anchorId =>
    (reg.countedUnits build ords (reg.stopClosure anchorId) fuel).map stopResult

end Counted

/-! ### Counters that fit -/

section Fitting

variable {reg : UnitRegistry} {build : Build} {ords : HashOrders} {set : List UnitId}

theorem pops_add (orderOut : UnitId → List UnitId) (n m : ℕ) (s : SortState) :
    pops orderOut (n + m) s = (pops orderOut n s).bind (pops orderOut m) := by
  induction n generalizing s with
  | zero => rw [Nat.zero_add, pops, Option.bind_some]
  | succ n ih =>
    rw [Nat.succ_add, pops, pops, Option.bind_assoc]
    exact congrArg _ (funext ih)

/-- A loop that has ended stays as it is. -/
theorem pops_ended {orderOut : UnitId → List UnitId} {s : SortState} (h : s.ready = []) (n : ℕ) :
    pops orderOut n s = some s := by
  induction n with
  | zero => rfl
  | succ n ih =>
    have hpop : popReady orderOut s = some s := by rw [popReady, h]
    rw [pops, hpop, Option.bind_some, ih]

/-- A loop ends in one state. -/
theorem loopAfter_unique {n m : ℕ} {s t : SortState} (hs : reg.loopAfter ords set n = some s)
    (hsready : s.ready = []) (ht : reg.loopAfter ords set m = some t) (htready : t.ready = []) :
    s = t := by
  have hnm : reg.loopAfter ords set (n + m) = some s := by
    rw [loopAfter, pops_add, ← loopAfter, hs, Option.bind_some, pops_ended hsready]
  have hmn : reg.loopAfter ords set (m + n) = some t := by
    rw [loopAfter, pops_add, ← loopAfter, ht, Option.bind_some, pops_ended htready]
  rw [Nat.add_comm, hmn] at hnm
  exact (Option.some.inj hnm).symm

variable (ords) in
/-- **No counter leaves its range upwards** just when less than `2 ^ 32` directives lead to each
member. -/
theorem overflow_eq_false_iff (hset : set.Nodup) :
    (reg.orderMaps ords set).overflow = false ↔ reg.Fits set := by
  rw [← Bool.not_eq_true, (reg.orderMaps_mirrors ords).overflow]
  constructor
  · intro h v hv
    rw [← reg.orderTable_deg_eq ords hset hv]
    exact Nat.lt_of_not_le fun hle => h ⟨v, hv, hle⟩
  · rintro h ⟨v, hv, hle⟩
    rw [reg.orderTable_deg_eq ords hset hv] at hle
    exact absurd (h v hv) (Nat.not_lt_of_le hle)

theorem countedUnits_eq_some {fuel : ℕ} {result : Except (List String) (List UnitId)}
    (h : reg.countedUnits build ords set fuel = some result) :
    ∃ s, reg.loopAfter ords set fuel = some s ∧ s.ready = [] ∧
      result = reg.loopResult ords set s ∧
      (build = .debug → (reg.orderMaps ords set).overflow = false) := by
  rw [countedUnits] at h
  cases hloop : reg.loopAfter ords set fuel with
  | none =>
    rw [hloop] at h
    cases h
  | some s =>
    rw [hloop] at h
    dsimp only at h
    split at h
    · cases h
    · next hquiet =>
      split at h
      · next hready =>
        refine ⟨s, rfl, hready, (Option.some.inj h).symm, fun hdebug => ?_⟩
        rw [not_and, Bool.not_eq_true, Bool.or_eq_false_iff] at hquiet
        exact (hquiet hdebug).1
      · cases h

variable (build ords) in
/-- **With counters that fit**, either build returns what the unbounded sort does, and nothing
else. -/
theorem Fits.countedUnits_eq (h : reg.Fits set) (hset : set.Nodup) :
    reg.countedUnits build ords set set.length = some (reg.orderUnits ords set) ∧
      ∀ fuel result, reg.countedUnits build ords set fuel = some result →
        result = reg.orderUnits ords set := by
  obtain ⟨s, hs, hready, hresult⟩ := reg.loopAfter_orderUnits ords hset h
  have hover := (overflow_eq_false_iff ords hset).mpr h
  have hunder : s.underflow = false := ((reg.accounted_iff ords hset).mpr h).positive _ s hs
  refine ⟨?_, fun fuel result hcounted => ?_⟩
  · rw [countedUnits, hs]
    dsimp only
    rw [hover, hunder, if_neg (by simp), if_pos hready, hresult]
  · obtain ⟨t, ht, htready, rfl, -⟩ := countedUnits_eq_some hcounted
    rw [loopAfter_unique ht htready hs hready, hresult]

variable (build ords) in
theorem Fits.countedUnits_map {α : Type} (h : reg.Fits set) (hset : set.Nodup)
    (f : Except (List String) (List UnitId) → α) :
    (∃ fuel, (reg.countedUnits build ords set fuel).map f = some (f (reg.orderUnits ords set))) ∧
      ∀ fuel result, (reg.countedUnits build ords set fuel).map f = some result →
        result = f (reg.orderUnits ords set) := by
  obtain ⟨hends, honly⟩ := h.countedUnits_eq build ords hset
  refine ⟨⟨set.length, by rw [hends]; rfl⟩, fun fuel result hresult => ?_⟩
  obtain ⟨units, hunits, rfl⟩ := Option.map_eq_some_iff.mp hresult
  rw [honly fuel units hunits]

end Fitting

end UnitRegistry

/-! ### Counters that wrap -/

section Wrapping

variable {set : List UnitId} {orderOut : UnitId → List UnitId}

/-- What is missing of a whole number of turns of a counter that starts at `deg`. -/
def lead (deg : ℕ) : ℕ := 2 ^ 32 - deg % 2 ^ 32

/-- A counter that starts at `deg`, as one that is lowered from zero. -/
theorem ofNat_eq_neg_lead (deg : ℕ) : UInt32.ofNat deg = -UInt32.ofNat (lead deg) := by
  have hsum : UInt32.ofNat (deg + lead deg) = 0 := by
    rw [ofNat_eq_zero_iff_dvd, lead]
    omega
  rw [UInt32.ofNat_add] at hsum
  grind

theorem neg_ofNat_sub_one (p : ℕ) : -UInt32.ofNat p - 1 = -UInt32.ofNat (p + 1) := by
  rw [UInt32.ofNat_add]
  grind

/-- **Lowering counters along an adjacency list**, each of which has been lowered `turned` times
from zero: a unit is found at zero whenever its counter has made another turn. -/
theorem lower_turned {turned : UnitId → ℕ} {inDegree : UnitId → Option UInt32} {vs : List UnitId}
    (h : ∀ v ∈ set, inDegree v = some (-UInt32.ofNat (turned v))) (hvs : ∀ v ∈ vs, v ∈ set) :
    ∃ inDegree' zeros underflow, lower inDegree vs = some (inDegree', zeros, underflow) ∧
      (∀ v ∈ set, inDegree' v = some (-UInt32.ofNat (turned v + vs.count v))) ∧
      (∀ v ∈ zeros, v ∈ set) ∧
      ∀ v, turned v / 2 ^ 32 + zeros.count v = (turned v + vs.count v) / 2 ^ 32 := by
  induction vs generalizing turned inDegree with
  | nil => exact ⟨inDegree, [], false, rfl, h, nofun, fun v => rfl⟩
  | cons v vs ih =>
    have hv := hvs v List.mem_cons_self
    have hnext : ∀ x ∈ set, Function.update inDegree v (some (-UInt32.ofNat (turned v) - 1)) x =
        some (-UInt32.ofNat (Function.update turned v (turned v + 1) x)) := by
      intro x hx
      by_cases hxv : x = v
      · subst hxv
        rw [Function.update_self, Function.update_self, neg_ofNat_sub_one]
      · rw [Function.update_of_ne hxv, Function.update_of_ne hxv]
        exact h x hx
    obtain ⟨inDegree', zeros, underflow, hlower, hcounters, hzeros, hcount⟩ :=
      ih hnext fun x hx => hvs x (List.mem_cons_of_mem _ hx)
    have hturned : ∀ x, Function.update turned v (turned v + 1) x + vs.count x =
        turned x + (v :: vs).count x := by
      intro x
      by_cases hxv : x = v
      · subst hxv
        rw [Function.update_self, List.count_cons_self]
        omega
      · rw [Function.update_of_ne hxv, List.count_cons_of_ne (Ne.symm hxv)]
    have hzero : -UInt32.ofNat (turned v) - 1 = 0 ↔ 2 ^ 32 ∣ turned v + 1 := by
      rw [neg_ofNat_sub_one, ← ofNat_eq_zero_iff_dvd]
      grind
    refine ⟨inDegree', if -UInt32.ofNat (turned v) - 1 = 0 then v :: zeros else zeros,
      -UInt32.ofNat (turned v) == 0 || underflow, ?_, fun x hx => hturned x ▸ hcounters x hx, ?_,
      fun x => ?_⟩
    · rw [lower, h v hv]
      dsimp only
      rw [hlower]
      rfl
    · split
      · exact List.forall_mem_cons.mpr ⟨hv, hzeros⟩
      · exact hzeros
    · have hx := hcount x
      rw [hturned x] at hx
      rw [← hx]
      by_cases hxv : x = v
      · subst hxv
        rw [Function.update_self, Nat.succ_div]
        by_cases hdvd : 2 ^ 32 ∣ turned x + 1
        · rw [if_pos (hzero.mpr hdvd), if_pos hdvd, List.count_cons_self]
          omega
        · rw [if_neg (fun hz => hdvd (hzero.mp hz)), if_neg hdvd, Nat.add_zero]
      · rw [Function.update_of_ne hxv]
        split
        · rw [List.count_cons_of_ne (Ne.symm hxv)]
        · rfl

/-- How often the counter of a unit has been lowered, as if from zero. -/
def turnedBy (orderOut : UnitId → List UnitId) (start : UnitId → ℕ) (s : SortState)
    (v : UnitId) : ℕ :=
  start v + (s.sorted.flatMap orderOut).count v

/-- **The loop whose counters wrap**: a unit has been queued once for every turn of its counter. -/
structure Wrapping (set : List UnitId) (orderOut : UnitId → List UnitId) (start : UnitId → ℕ)
    (s : SortState) : Prop where
  counters : ∀ v ∈ set, s.inDegree v = some (-UInt32.ofNat (turnedBy orderOut start s v))
  sub : ∀ v ∈ s.sorted ++ s.ready, v ∈ set
  queued : ∀ v ∈ set, (s.sorted ++ s.ready).count v = turnedBy orderOut start s v / 2 ^ 32

variable {start : UnitId → ℕ} {s : SortState}

theorem Wrapping.pop (hout : ∀ u, ∀ v ∈ orderOut u, v ∈ set) {u : UnitId} {ready : List UnitId}
    (hready : s.ready = u :: ready) (h : Wrapping set orderOut start s) :
    ∃ s', popReady orderOut s = some s' ∧ Wrapping set orderOut start s' := by
  obtain ⟨inDegree, zeros, underflow, hlower, hcounters, hzeros, hcount⟩ :=
    lower_turned h.counters (hout u)
  refine ⟨{ inDegree, ready := ready ++ batch zeros, sorted := s.sorted ++ [u]
            underflow := s.underflow || underflow }, ?_, ?_⟩
  · rw [popReady, hready]
    dsimp only
    rw [hlower]
    rfl
  · have hturned : ∀ v, turnedBy orderOut start
        { inDegree, ready := ready ++ batch zeros, sorted := s.sorted ++ [u]
          underflow := s.underflow || underflow } v =
        turnedBy orderOut start s v + (orderOut u).count v := by
      intro v
      rw [turnedBy, turnedBy, List.flatMap_append, List.count_append, List.flatMap_singleton]
      exact (Nat.add_assoc _ _ _).symm
    have hlist : (s.sorted ++ [u]) ++ (ready ++ batch zeros) =
        (s.sorted ++ s.ready) ++ batch zeros := by
      rw [hready]
      simp
    refine ⟨fun v hv => (hturned v).symm ▸ hcounters v hv, ?_, fun v hv => ?_⟩
    · dsimp only
      rw [hlist]
      exact List.forall_mem_append.mpr ⟨h.sub, fun v hv => hzeros v (mem_batch.mp hv)⟩
    · have hbatch : (batch zeros).count v = zeros.count v :=
        (List.perm_insertionSort (· ≤ ·) zeros).count_eq v
      rw [hturned v, ← hcount v, ← h.queued v hv]
      dsimp only
      rw [hlist, List.count_append, hbatch]

theorem Wrapping.pops (hout : ∀ u, ∀ v ∈ orderOut u, v ∈ set) (n : ℕ)
    (h : Wrapping set orderOut start s) :
    ∃ s', Svc.pops orderOut n s = some s' ∧ Wrapping set orderOut start s' := by
  induction n generalizing s with
  | zero => exact ⟨s, rfl, h⟩
  | succ n ih =>
    cases hready : s.ready with
    | nil => exact ⟨s, UnitRegistry.pops_ended hready (n + 1), h⟩
    | cons u ready =>
      obtain ⟨s₁, hpop, h₁⟩ := h.pop hout hready
      rw [Svc.pops, hpop]
      exact ih h₁

end Wrapping

namespace UnitRegistry

section Emitted

variable {reg : UnitRegistry} {ords : HashOrders} {set : List UnitId}

/-- The loop starts with every counter at its in-degree. -/
theorem wrapping_loopStart (hset : set.Nodup) :
    Wrapping set (reg.orderMaps ords set).orderOut (fun v => lead (reg.directivesInto set v))
      (reg.loopStart ords set) := by
  have hcounter : ∀ v ∈ set, (reg.orderMaps ords set).inDegree v =
      some (-UInt32.ofNat (lead (reg.directivesInto set v))) := by
    intro v hv
    rw [(reg.orderMaps_mirrors ords).counts v, if_pos hv, reg.orderTable_deg_eq ords hset hv,
      ofNat_eq_neg_lead]
  have hperm : (reg.loopStart ords set).ready.Perm
      (set.filter fun id => (reg.orderMaps ords set).inDegree id = some 0) :=
    (List.perm_insertionSort _ _).trans ((ords.inDegree.perm set).filter _)
  refine ⟨hcounter, fun v hv => (List.mem_filter.mp (hperm.subset hv)).1, fun v hv => ?_⟩
  show (reg.loopStart ords set).ready.count v = (lead _ + 0) / 2 ^ 32
  rw [hperm.count_eq]
  by_cases hzero : reg.directivesInto set v % 2 ^ 32 = 0
  · have hnone : (reg.orderMaps ords set).inDegree v = some 0 := by
      rw [hcounter v hv, ← ofNat_eq_neg_lead, ofNat_eq_zero_iff_dvd.mpr
        (Nat.dvd_of_mod_eq_zero hzero)]
    rw [List.count_filter (by simpa using hnone), List.count_eq_one_of_mem hset hv, lead, hzero]
    rfl
  · have hsome : (reg.orderMaps ords set).inDegree v ≠ some 0 := by
      rw [hcounter v hv, ← ofNat_eq_neg_lead]
      exact fun h => hzero (Nat.mod_eq_zero_of_dvd
        (ofNat_eq_zero_iff_dvd.mp (Option.some.inj h)))
    rw [List.count_eq_zero.mpr (by simp [hsome]), lead]
    omega

variable (reg ords) in
theorem wrapping_loopAfter (hset : set.Nodup) (n : ℕ) : ∃ s, reg.loopAfter ords set n = some s ∧
    Wrapping set (reg.orderMaps ords set).orderOut (fun v => lead (reg.directivesInto set v))
      s := by
  refine (wrapping_loopStart hset).pops (fun u v hv => ?_) n
  rw [reg.orderMaps_out] at hv
  obtain ⟨e, he, rfl⟩ := List.mem_map.mp hv
  exact (reg.setEdges_mem e (List.mem_filter.mp he).1).2

variable (reg ords) in
/-- All directives between members have been entered. -/
theorem count_flatMap_orderOut (hset : set.Nodup) {sorted : List UnitId} (h : sorted.Perm set)
    {v : UnitId} (hv : v ∈ set) :
    (sorted.flatMap (reg.orderMaps ords set).orderOut).count v = reg.directivesInto set v := by
  have hopen := reg.openEntries_eq ords hset [] v
  have hall : set.filter (fun u => u ∉ ([] : List UnitId)) = set := by simp
  rw [openEntries, hall] at hopen
  rw [(h.flatMap_right _).count_eq, List.count_flatMap, ← reg.orderTable_deg_eq ords hset hv,
    orderTable_deg]
  refine hopen.trans ?_
  simp [openEdges]

/-- **A loop that emits every unit once** has counters that fit. -/
theorem fits_of_perm (hset : set.Nodup) {n : ℕ} {s : SortState}
    (hs : reg.loopAfter ords set n = some s) (hready : s.ready = []) (hperm : s.sorted.Perm set) :
    reg.Fits set := by
  intro v hv
  obtain ⟨s', hs', hwrap⟩ := wrapping_loopAfter reg ords hset n
  obtain rfl : s = s' := Option.some.inj (hs.symm.trans hs')
  have hqueued := hwrap.queued v hv
  rw [hready, List.append_nil, hperm.count_eq, List.count_eq_one_of_mem hset hv, turnedBy,
    count_flatMap_orderOut reg ords hset hperm hv, lead] at hqueued
  omega

theorem fits_of_counted {build : Build} (hset : set.Nodup) {fuel : ℕ} {sorted : List UnitId}
    (h : reg.countedUnits build ords set fuel = some (.ok sorted)) (hperm : sorted.Perm set) :
    reg.Fits set := by
  obtain ⟨s, hs, hready, hresult, -⟩ := countedUnits_eq_some h
  rw [loopResult] at hresult
  split at hresult
  · cases hresult
  · cases hresult
    exact fits_of_perm hset hs hready hperm

/-- A debug build gets to an end only with counters that fit. -/
theorem fits_of_debug (hset : set.Nodup) {fuel : ℕ} {result : Except (List String) (List UnitId)}
    (h : reg.countedUnits .debug ords set fuel = some result) : reg.Fits set := by
  obtain ⟨-, -, -, -, hover⟩ := countedUnits_eq_some h
  exact (overflow_eq_false_iff ords hset).mp (hover rfl)

end Emitted

/-! ### The two transactions with counters that fit -/

section Fitting

variable {reg : UnitRegistry} {anchor : String}

/-- The counters of the start transaction fit. -/
def StartFits (reg : UnitRegistry) (anchor : String) : Prop :=
  ∀ id, reg.lookup anchor = some id → reg.Fits (reg.startClosure id)

/-- The counters of the stop transaction fit. -/
def StopFits (reg : UnitRegistry) (anchor : String) : Prop :=
  ∀ id, reg.lookup anchor = some id → reg.Fits (reg.stopClosure id)

/-- **The start transaction is that of the unbounded sort**, as long as the counters fit. -/
theorem countedTransaction_eq (h : reg.StartFits anchor) (build : Build) (ords : HashOrders) :
    (∃ fuel, reg.countedTransaction build ords anchor fuel =
      some (reg.buildTransaction ords anchor)) ∧
    ∀ fuel result, reg.countedTransaction build ords anchor fuel = some result →
      result = reg.buildTransaction ords anchor := by
  unfold countedTransaction buildTransaction
  cases hlookup : reg.lookup anchor with
  | none => exact ⟨⟨0, rfl⟩, fun fuel result hresult => (Option.some.inj hresult).symm⟩
  | some id =>
    have hmap := (h id hlookup).countedUnits_map build ords
      (reg.startClosure_nodup (reg.lookup_lt hlookup)) startResult
    dsimp only
    cases horder : reg.orderUnits ords (reg.startClosure id) with
    | error names => exact horder ▸ hmap
    | ok sorted => exact horder ▸ hmap

/-- **The stop transaction is that of the unbounded sort**, as long as the counters fit. -/
theorem countedStopTransaction_eq (h : reg.StopFits anchor) (build : Build) (ords : HashOrders) :
    (∃ fuel, reg.countedStopTransaction build ords anchor fuel =
      some (reg.buildStopTransaction ords anchor)) ∧
    ∀ fuel result, reg.countedStopTransaction build ords anchor fuel = some result →
      result = reg.buildStopTransaction ords anchor := by
  unfold countedStopTransaction buildStopTransaction
  cases hlookup : reg.lookup anchor with
  | none => exact ⟨⟨0, rfl⟩, fun fuel result hresult => (Option.some.inj hresult).symm⟩
  | some id =>
    have hmap := (h id hlookup).countedUnits_map build ords
      (reg.stopClosure_nodup (reg.lookup_lt hlookup)) stopResult
    dsimp only
    cases horder : reg.orderUnits ords (reg.stopClosure id) with
    | error names => exact horder ▸ hmap
    | ok sorted => exact horder ▸ hmap

end Fitting

end UnitRegistry

/-! ### When the transactions are what they should be -/

section Right

variable {loaded : List LoadedUnit} {injected : List (String × String)}

/-- **The start transaction of a build**: it returns, and what it returns is what it should be. -/
def StartsRight (build : Build) (ords : HashOrders) (loaded : List LoadedUnit)
    (injected : List (String × String)) (anchor : String) : Prop :=
  let reg := builtRegistry loaded injected
  (∃ fuel, (reg.countedTransaction build ords anchor fuel).isSome) ∧
    ∀ fuel result, reg.countedTransaction build ords anchor fuel = some result →
      StartCorrect loaded injected anchor result

/-- **The stop transaction of a build.** -/
def StopsRight (build : Build) (ords : HashOrders) (loaded : List LoadedUnit)
    (injected : List (String × String)) (anchor : String) : Prop :=
  let reg := builtRegistry loaded injected
  (∃ fuel, (reg.countedStopTransaction build ords anchor fuel).isSome) ∧
    ∀ fuel result, reg.countedStopTransaction build ords anchor fuel = some result →
      StopCorrect loaded injected anchor result

/-- A list that names a set once each is the set in some order. -/
theorem Labels.perm_of_names {set sorted : List UnitId} {S : String → Prop}
    (hnames : (loaded.map LoadedUnit.name).Nodup) (h : Labels loaded injected set S)
    (hlt : ∀ u ∈ sorted, u < loaded.length)
    (hnd : (sorted.map (builtRegistry loaded injected).nameOf).Nodup)
    (hmem : ∀ n, n ∈ sorted.map (builtRegistry loaded injected).nameOf ↔ S n) :
    sorted.Perm set := by
  have hlen : ∀ u ∈ sorted, u < (builtRegistry loaded injected).len := by
    rw [built_len]
    exact hlt
  refine (List.perm_ext_iff_of_nodup (List.Nodup.of_map _ hnd) h.nodup).mpr fun u => ?_
  constructor
  · intro hu
    exact (h.mem_iff hnames (hlen u hu)).mpr ((hmem _).mp (List.mem_map_of_mem hu))
  · intro hu
    obtain ⟨w, hw, hwu⟩ := List.mem_map.mp ((hmem _).mpr ((h.mem_iff hnames (h.lt u hu)).mp hu))
    exact built_nameOf_inj hnames (hlen w hw) (h.lt u hu) hwu ▸ hw

section Start

variable (ords : HashOrders) (anchor : String) (hnames : (loaded.map LoadedUnit.name).Nodup)

include hnames

theorem startsRight_of_fits (h : (builtRegistry loaded injected).StartFits anchor)
    (build : Build) : StartsRight build ords loaded injected anchor := by
  obtain ⟨⟨fuel, hends⟩, honly⟩ := UnitRegistry.countedTransaction_eq h build ords
  refine ⟨⟨fuel, by rw [hends]; rfl⟩, fun fuel result hresult => ?_⟩
  rw [honly fuel result hresult]
  exact buildTransaction_correct hnames ords injected anchor

omit hnames in
theorem startFits_of_debug (h : StartsRight .debug ords loaded injected anchor) :
    (builtRegistry loaded injected).StartFits anchor := by
  intro id hlookup
  obtain ⟨⟨fuel, hends⟩, -⟩ := h
  rw [UnitRegistry.countedTransaction, hlookup, Option.isSome_map] at hends
  obtain ⟨units, hunits⟩ := Option.isSome_iff_exists.mp hends
  exact UnitRegistry.fits_of_debug
    (UnitRegistry.startClosure_nodup _ (UnitRegistry.lookup_lt _ hlookup)) hunits

/-- Without a cycle the right transaction is a plan, and a plan has counters that fit. -/
theorem startFits_of_acyclic (hacyclic : ¬ ∃ n, TransGen (PrecedesIn loaded
      (Needed loaded injected anchor)) n n)
    (h : StartsRight .release ords loaded injected anchor) :
    (builtRegistry loaded injected).StartFits anchor := by
  intro id hlookup
  obtain ⟨⟨fuel, hends⟩, hright⟩ := h
  have hresult := hright fuel
  rw [UnitRegistry.countedTransaction, hlookup] at hends hresult
  rw [Option.isSome_map] at hends
  obtain ⟨units, hunits⟩ := Option.isSome_iff_exists.mp hends
  dsimp only at hresult
  rw [hunits] at hresult
  have hcorrect := hresult _ rfl
  cases units with
  | error names => exact absurd (hcorrect.cycle.mp ⟨names, rfl⟩) hacyclic
  | ok sorted =>
    obtain ⟨hjobs, hnd, hmem, -⟩ := hcorrect.plan _ rfl
    have hmap : (sorted.map fun u => (⟨u, .start, .waiting⟩ : Job)).map
        (fun job => (builtRegistry loaded injected).nameOf job.unit) =
          sorted.map (builtRegistry loaded injected).nameOf := List.map_map
    have hlabels : Labels loaded injected _ _ :=
      startClosure_labels hnames (UnitRegistry.lookup_lt _ hlookup)
    rw [built_nameOf_lookup hnames hlookup] at hlabels
    exact UnitRegistry.fits_of_counted hlabels.nodup hunits (hlabels.perm_of_names hnames
      (fun u hu => (hjobs _ (List.mem_map_of_mem hu)).1) (hmap ▸ hnd) (hmap ▸ hmem))

end Start

section Stop

variable (ords : HashOrders) (anchor : String) (hnames : (loaded.map LoadedUnit.name).Nodup)

include hnames

theorem stopsRight_of_fits (h : (builtRegistry loaded injected).StopFits anchor)
    (build : Build) : StopsRight build ords loaded injected anchor := by
  obtain ⟨⟨fuel, hends⟩, honly⟩ := UnitRegistry.countedStopTransaction_eq h build ords
  refine ⟨⟨fuel, by rw [hends]; rfl⟩, fun fuel result hresult => ?_⟩
  rw [honly fuel result hresult]
  exact buildStopTransaction_correct hnames ords injected anchor

omit hnames in
theorem stopFits_of_debug (h : StopsRight .debug ords loaded injected anchor) :
    (builtRegistry loaded injected).StopFits anchor := by
  intro id hlookup
  obtain ⟨⟨fuel, hends⟩, -⟩ := h
  rw [UnitRegistry.countedStopTransaction, hlookup, Option.isSome_map] at hends
  obtain ⟨units, hunits⟩ := Option.isSome_iff_exists.mp hends
  exact UnitRegistry.fits_of_debug
    (UnitRegistry.stopClosure_nodup _ (UnitRegistry.lookup_lt _ hlookup)) hunits

theorem stopFits_of_acyclic (hacyclic : ¬ ∃ n, TransGen (PrecedesIn loaded
      (Dependent loaded injected anchor)) n n)
    (h : StopsRight .release ords loaded injected anchor) :
    (builtRegistry loaded injected).StopFits anchor := by
  intro id hlookup
  obtain ⟨⟨fuel, hends⟩, hright⟩ := h
  have hresult := hright fuel
  rw [UnitRegistry.countedStopTransaction, hlookup] at hends hresult
  rw [Option.isSome_map] at hends
  obtain ⟨units, hunits⟩ := Option.isSome_iff_exists.mp hends
  dsimp only at hresult
  rw [hunits] at hresult
  have hcorrect := hresult _ rfl
  cases units with
  | error names => exact absurd (hcorrect.cycle.mp ⟨names, rfl⟩) hacyclic
  | ok sorted =>
    obtain ⟨hlt, hnd, hmem, -⟩ := hcorrect.order _ rfl
    rw [List.map_reverse] at hnd hmem
    have hlabels : Labels loaded injected _ _ :=
      stopClosure_labels hnames (UnitRegistry.lookup_lt _ hlookup)
    rw [built_nameOf_lookup hnames hlookup] at hlabels
    exact UnitRegistry.fits_of_counted hlabels.nodup hunits (hlabels.perm_of_names hnames
      (fun u hu => hlt u (List.mem_reverse.mpr hu)) (List.nodup_reverse.mp hnd)
      fun n => List.mem_reverse.symm.trans (hmem n))

end Stop

end Right

/-- **The start transaction is right in either build** just when less than `2 ^ 32` directives lead
to each needed unit; and without a cycle, so is that of a release build. -/
theorem start_transaction_iff (ords : HashOrders) (loaded : List LoadedUnit)
    (injected : List (String × String)) (anchor : String)
    (hnames : (loaded.map LoadedUnit.name).Nodup) :
    let fits := (builtRegistry loaded injected).StartFits anchor
    ((∀ build, StartsRight build ords loaded injected anchor) ↔ fits) ∧
      ((¬ ∃ n, TransGen (PrecedesIn loaded (Needed loaded injected anchor)) n n) →
        (StartsRight .release ords loaded injected anchor ↔ fits)) :=
  ⟨⟨fun h => startFits_of_debug ords anchor (h .debug), startsRight_of_fits ords anchor hnames⟩,
    fun hacyclic => ⟨startFits_of_acyclic ords anchor hnames hacyclic,
      fun h => startsRight_of_fits ords anchor hnames h .release⟩⟩

theorem start_transaction_iff_webAndDb :
    StartsRight .release ⟨.inserted, .inserted⟩ webAndDb [] "web.service" := by
  have hfits : (builtRegistry webAndDb []).StartFits "web.service" := by
    intro id hid
    obtain rfl : 1 = id := Option.some.inj hid
    unfold UnitRegistry.Fits
    decide
  exact (start_transaction_iff ⟨.inserted, .inserted⟩ webAndDb [] "web.service" (by decide)).1.mpr
    hfits .release

/-- **The stop transaction is right in either build** just when less than `2 ^ 32` directives lead
to each dependent unit; and without a cycle, so is that of a release build. -/
theorem stop_transaction_iff (ords : HashOrders) (loaded : List LoadedUnit)
    (injected : List (String × String)) (anchor : String)
    (hnames : (loaded.map LoadedUnit.name).Nodup) :
    let fits := (builtRegistry loaded injected).StopFits anchor
    ((∀ build, StopsRight build ords loaded injected anchor) ↔ fits) ∧
      ((¬ ∃ n, TransGen (PrecedesIn loaded (Dependent loaded injected anchor)) n n) →
        (StopsRight .release ords loaded injected anchor ↔ fits)) :=
  ⟨⟨fun h => stopFits_of_debug ords anchor (h .debug), stopsRight_of_fits ords anchor hnames⟩,
    fun hacyclic => ⟨stopFits_of_acyclic ords anchor hnames hacyclic,
      fun h => stopsRight_of_fits ords anchor hnames h .release⟩⟩

theorem stop_transaction_iff_webAndDb :
    StopsRight .release ⟨.inserted, .inserted⟩ webAndDb [] "db.service" := by
  have hfits : (builtRegistry webAndDb []).StopFits "db.service" := by
    intro id hid
    obtain rfl : 0 = id := Option.some.inj hid
    unfold UnitRegistry.Fits
    decide
  exact (stop_transaction_iff ⟨.inserted, .inserted⟩ webAndDb [] "db.service" (by decide)).1.mpr
    hfits .release

/-! ### A loop without end -/

section SelfAfter

open UnitRegistry

variable {n : ℕ} (ords : HashOrders)

theorem selfAfter_stopClosure (n : ℕ) : (selfAfter n).stopClosure 0 = [0] := by
  have hid := (selfAfter n).lookup_lt (selfAfter_lookup n)
  refine eq_singleton ((selfAfter n).stopClosure_nodup hid) (fun u hu => ?_)
    (((selfAfter n).mem_stopClosure hid 0).mpr .refl)
  have hreach := ((selfAfter n).mem_stopClosure hid u).mp hu
  rw [← reflTransGen_swap, ← dependents_fun] at hreach
  exact List.mem_range.mp ((selfAfter n).stop_universe hid u hreach)

/-- With `2 ^ 32` directives the counter makes a turn whenever the target is emitted, so that the
target is always queued again. -/
theorem selfAfter_endless (hn : n = 2 ^ 32) (build : Build) (fuel : ℕ) :
    (selfAfter n).countedUnits build ords [0] fuel = none := by
  rw [Option.eq_none_iff_forall_ne_some]
  intro result h
  have hset : ([0] : List UnitId).Nodup := List.nodup_singleton 0
  have hinto := selfAfter_directivesInto n
  obtain ⟨s, hs, hready, -, -⟩ := countedUnits_eq_some h
  obtain ⟨s', hs', hwrap⟩ := wrapping_loopAfter (selfAfter n) ords hset fuel
  obtain rfl : s = s' := Option.some.inj (hs.symm.trans hs')
  have hsub := hwrap.sub
  have hqueued := hwrap.queued 0 List.mem_cons_self
  rw [hready, List.append_nil] at hsub hqueued
  have hsorted : s.sorted = List.replicate s.sorted.length 0 :=
    List.eq_replicate_of_mem fun v hv => List.mem_singleton.mp (hsub v hv)
  have hone := count_flatMap_orderOut (selfAfter n) ords hset
    (List.Perm.refl [0]) List.mem_cons_self
  rw [List.flatMap_singleton, hinto] at hone
  rw [turnedBy, hinto, hsorted, List.count_replicate_self, List.count_flatMap, List.map_replicate,
    Function.comp_apply, hone, List.sum_replicate_nat, lead, hn, Nat.mod_self] at hqueued
  omega

/-- A start that does not come to an end. -/
theorem selfAfter_never_started : ¬ ∃ build,
    StartsRight build ⟨.inserted, .inserted⟩ (selfAfterUnits (2 ^ 32)) [] "x.target" := by
  rintro ⟨build, ⟨fuel, hends⟩, -⟩
  have hnone := selfAfter_endless ⟨.inserted, .inserted⟩ rfl build fuel
  have hlookup := selfAfter_lookup (2 ^ 32)
  have hreg : builtRegistry (selfAfterUnits (2 ^ 32)) [] = selfAfter (2 ^ 32) := rfl
  rw [hreg, countedTransaction, hlookup] at hends
  dsimp only at hends
  rw [selfAfter_startClosure, hnone] at hends
  cases hends

/-- A stop that does not come to an end. -/
theorem selfAfter_never_stopped : ¬ ∃ build,
    StopsRight build ⟨.inserted, .inserted⟩ (selfAfterUnits (2 ^ 32)) [] "x.target" := by
  rintro ⟨build, ⟨fuel, hends⟩, -⟩
  have hnone := selfAfter_endless ⟨.inserted, .inserted⟩ rfl build fuel
  have hlookup := selfAfter_lookup (2 ^ 32)
  have hreg : builtRegistry (selfAfterUnits (2 ^ 32)) [] = selfAfter (2 ^ 32) := rfl
  rw [hreg, countedStopTransaction, hlookup] at hends
  dsimp only at hends
  rw [selfAfter_stopClosure, hnone] at hends
  cases hends

end SelfAfter

end WriteonceOs.Svc
