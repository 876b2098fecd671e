import Mathlib.Algebra.BigOperators.Group.List.Basic
import Mathlib.Algebra.GroupWithZero.Nat
import WriteonceOs.Svc.Transaction

/-!
# The counters of the topological sort

Both transactions sort their closure with the same loop.  It counts the open edges of a unit in a
`u32`, which the release build lets wrap, and looks a counter up with `get_mut(..).unwrap()`.  Here
the maps and the loop are as the source has them; `orderUnits` counts without a bound.

* `popReady`, `pops` — the loop, one iteration at a time;
* `Accounted` — the books of the loop, and the report of a cycle;
* `Tracking.pops` — the counters of the loop are those of `orderUnits` as long as they fit;
* `accounted_iff` — when the books are right;
* `loopAfter_orderUnits` — then the loop returns what `orderUnits` does.
-/

namespace WriteonceOs.Svc

open WriteonceOs.Library

/-! ### The maps -/

/-- The maps `order_out` and `in_degree`; the members have a counter.  `overflow` notes that a
counter was raised above its range. -/
structure OrderMaps where
  orderOut : UnitId → List UnitId
  inDegree : UnitId → Option UInt32
  overflow : Bool := false

/-- `order_out.entry(x).or_default().push(y)` and `*in_degree.entry(y).or_insert(0) += 1`. -/
def OrderMaps.addEdge (m : OrderMaps) (x y : UnitId) : OrderMaps where
  orderOut := Function.update m.orderOut x (m.orderOut x ++ [y])
  inDegree := Function.update m.inDegree y (some ((m.inDegree y).getD 0 + 1))
  overflow := m.overflow || (m.inDegree y).getD 0 + 1 == 0

/-- What the loop changes; `underflow` notes that a counter was lowered below zero. -/
structure SortState where
  inDegree : UnitId → Option UInt32
  ready : List UnitId
  sorted : List UnitId := []
  underflow : Bool := false

/-- Lower the counters along an adjacency list: the counters, the units that reach zero and whether
one was lowered below it.  A unit without a counter is a panic. -/
def lower : (UnitId → Option UInt32) → List UnitId →
    Option ((UnitId → Option UInt32) × List UnitId × Bool)
  | inDegree, [] => some (inDegree, [], false)
  | inDegree, v :: vs =>
    match inDegree v with
    | none => none
    | some d =>
      (lower (Function.update inDegree v (some (d - 1))) vs).map fun rest =>
        (rest.1, if d - 1 = 0 then v :: rest.2.1 else rest.2.1, d == 0 || rest.2.2)

/-- One iteration of the loop. -/
def popReady (orderOut : UnitId → List UnitId) (s : SortState) : Option SortState :=
  match s.ready with
  | [] => some s
  | u :: ready =>
    (lower s.inDegree (orderOut u)).map fun res =>
      { inDegree := res.1, ready := ready ++ batch res.2.1, sorted := s.sorted ++ [u]
        underflow := s.underflow || res.2.2 }

/-- The first `n` iterations. -/
def pops (orderOut : UnitId → List UnitId) : ℕ → SortState → Option SortState
  | 0, s => some s
  | n + 1, s => (popReady orderOut s).bind (pops orderOut n)

namespace UnitRegistry

variable (reg : UnitRegistry) (ords : HashOrders) (set : List UnitId)

/-- Enter the ordering edges of one unit. -/
def enterOrdering (m : OrderMaps) (id : UnitId) : OrderMaps :=
  let unit := (reg.get id).file.unit
  let m := unit.after.foldl (fun m xName =>
    match reg.lookup xName with
    | some x => if x ∈ set then m.addEdge x id else m
    | none => m) m
  unit.before.foldl (fun m yName =>
    match reg.lookup yName with
    | some y => if y ∈ set then m.addEdge id y else m
    | none => m) m

def orderMaps : OrderMaps :=
  (ords.unitSet.enum set).foldl (reg.enterOrdering set)
    { orderOut := fun _ => [], inDegree := fun id => if id ∈ set then some 0 else none }

/-- The loop before its first iteration. -/
def loopStart : SortState where
  inDegree := (reg.orderMaps ords set).inDegree
  ready := batch ((ords.inDegree.enum set).filter
    fun id => (reg.orderMaps ords set).inDegree id = some 0)

/-- The loop after its first `n` iterations; none when it has panicked. -/
def loopAfter (n : ℕ) : Option SortState :=
  pops (reg.orderMaps ords set).orderOut n (reg.loopStart ords set)

/-- What is returned when the loop ends. -/
def loopResult (s : SortState) : Except (List String) (List UnitId) :=
  if s.sorted.length ≠ set.length then
    .error (((ords.inDegree.enum set).filter fun id => 0 < (s.inDegree id).getD 0).map reg.nameOf)
  else .ok s.sorted

/-! ### The books -/

/-- The entries of `order_out` into `v`, with multiplicity, from units that are not emitted. -/
def openEntries (orderOut : UnitId → List UnitId) (sorted : List UnitId) (v : UnitId) : ℕ :=
  ((set.filter fun u => u ∉ sorted).map fun u => (orderOut u).count v).sum

/-- The unit is on an ordering cycle inside the set, or such a cycle leads to it. -/
def OnOrBehindCycle (v : UnitId) : Prop :=
  ∃ c, Relation.TransGen (reg.MustPrecedeIn set) c c ∧
    Relation.ReflTransGen (reg.MustPrecedeIn set) c v

/-- **The books of the loop** are right in every iteration, and a cycle is reported exactly. -/
structure Accounted : Prop where
  /-- No counter is missing. -/
  total : ∀ n, (reg.loopAfter ords set n).isSome = true
  /-- A counter holds the entries from the units that are not emitted. -/
  counters : ∀ n s, reg.loopAfter ords set n = some s → ∀ v ∈ set, v ∉ s.sorted →
    ∃ d, s.inDegree v = some d ∧
      d.toNat = openEntries set (reg.orderMaps ords set).orderOut s.sorted v
  /-- No counter is lowered below zero. -/
  positive : ∀ n s, reg.loopAfter ords set n = some s → s.underflow = false
  /-- No unit is queued twice. -/
  once : ∀ n s, reg.loopAfter ords set n = some s → (s.sorted ++ s.ready).Nodup
  /-- The names of an ordering cycle are those of the units on or behind one. -/
  cycle : ∀ n s names, reg.loopAfter ords set n = some s → s.ready = [] →
    reg.loopResult ords set s = .error names →
    ∃ ids : List UnitId, ids.Nodup ∧ names = ids.map reg.nameOf ∧
      ∀ v, v ∈ ids ↔ v ∈ set ∧ reg.OnOrBehindCycle set v

/-- The directives between members that lead to `v`: its own `after` and the others' `before`. -/
def directivesInto (v : UnitId) : ℕ :=
  (reg.namedIn set (reg.get v).file.unit.after).length +
    (set.map fun u => (reg.namedIn set (reg.get u).file.unit.before).count v).sum

end UnitRegistry

/-! ### One batch with counters that fit -/

section Batch

variable {set : List UnitId} {inDegree : UnitId → Option UInt32} {deg : UnitId → ℕ}

/-- The counters of the members hold the numbers `deg`, as far as these fit. -/
def Counts (set : List UnitId) (inDegree : UnitId → Option UInt32) (deg : UnitId → ℕ) : Prop :=
  ∀ v, inDegree v = if v ∈ set then some (UInt32.ofNat (deg v)) else none

theorem ofNat_eq_zero {k : ℕ} (h : k < 2 ^ 32) : UInt32.ofNat k = 0 ↔ k = 0 := by
  rw [UInt32.ofNat_eq_iff_mod_eq_toNat, Nat.mod_eq_of_lt h]
  rfl

theorem Counts.update (h : Counts set inDegree deg) {v : UnitId} (hv : v ∈ set) (k : ℕ) :
    Counts set (Function.update inDegree v (some (UInt32.ofNat k))) (Function.update deg v k) := by
  intro x
  by_cases hx : x = v
  · subst hx
    rw [Function.update_self, Function.update_self, if_pos hv]
  · rw [Function.update_of_ne hx, Function.update_of_ne hx]
    exact h x

/-- **Lowering counters that fit** is lowering the numbers. -/
theorem Counts.lower (h : Counts set inDegree deg) (hlt : ∀ v ∈ set, deg v < 2 ^ 32)
    {vs : List UnitId} (hvs : ∀ v ∈ vs, v ∈ set) (hle : ∀ v, vs.count v ≤ deg v) :
    ∃ inDegree', lower inDegree vs = some (inDegree', (relax deg vs).2, false) ∧
      Counts set inDegree' (relax deg vs).1 := by
  induction vs generalizing inDegree deg with
  | nil => exact ⟨inDegree, rfl, h⟩
  | cons v vs ih =>
    have hv := hvs v List.mem_cons_self
    have hpos : vs.count v + 1 ≤ deg v := by simpa using hle v
    have hone : 1 ≤ deg v := by omega
    have hsub : UInt32.ofNat (deg v) - 1 = UInt32.ofNat (deg v - 1) := (UInt32.ofNat_sub hone).symm
    have hzero : UInt32.ofNat (deg v - 1) = 0 ↔ deg v - 1 = 0 :=
      ofNat_eq_zero (by have := hlt v hv; omega)
    have hnonzero : (UInt32.ofNat (deg v) == 0) = false := by
      rw [beq_eq_false_iff_ne, Ne, ofNat_eq_zero (hlt v hv)]
      omega
    have hlt' : ∀ x ∈ set, Function.update deg v (deg v - 1) x < 2 ^ 32 := by
      intro x hx
      by_cases hxv : x = v
      · subst hxv
        rw [Function.update_self]
        exact Nat.lt_of_le_of_lt (Nat.sub_le _ _) (hlt x hx)
      · rw [Function.update_of_ne hxv]
        exact hlt x hx
    have hle' : ∀ x, vs.count x ≤ Function.update deg v (deg v - 1) x := by
      intro x
      by_cases hxv : x = v
      · subst hxv
        rw [Function.update_self]
        omega
      · have hx := hle x
        rw [List.count_cons_of_ne (Ne.symm hxv)] at hx
        rw [Function.update_of_ne hxv]
        exact hx
    obtain ⟨inDegree', hlower, hcounts⟩ := ih (h.update hv (deg v - 1)) hlt'
      (fun x hx => hvs x (List.mem_cons_of_mem _ hx)) hle'
    refine ⟨inDegree', ?_, hcounts⟩
    rw [Svc.lower, h v, if_pos hv]
    dsimp only
    rw [hsub, hlower, hnonzero]
    simp only [Option.map_some, relax, Function.update_self, hzero, Bool.false_or]

end Batch

/-! ### The loop with counters that fit -/

section Loop

variable {set : List UnitId} {es : List (UnitId × UnitId)} {orderOut : UnitId → List UnitId}

/-- **The loop follows the unbounded sort**, which has the numbers `deg`. -/
structure Tracking (set : List UnitId) (es : List (UnitId × UnitId)) (s : SortState)
    (deg : UnitId → ℕ) : Prop where
  counts : Counts set s.inDegree deg
  fits : ∀ v ∈ set, deg v < 2 ^ 32
  inv : KahnInv set es deg s.ready s.sorted
  clean : s.underflow = false

/-- **One iteration** that takes a unit from the queue. -/
theorem Tracking.pop {deg : UnitId → ℕ} {s : SortState} {u : UnitId} {ready : List UnitId}
    (hin : ∀ e ∈ es, e.1 ∈ set ∧ e.2 ∈ set)
    (hout : ∀ u, orderOut u = (es.filter (fun e => e.1 = u)).map Prod.snd)
    (hready : s.ready = u :: ready) (h : Tracking set es s deg) :
    ∃ s', popReady orderOut s = some s' ∧ s'.sorted = s.sorted ++ [u] ∧
      s'.ready = ready ++ batch (relax deg (orderOut u)).2 ∧
      Tracking set es s' (relax deg (orderOut u)).1 := by
  have hkahn := h.inv
  rw [hready] at hkahn
  have hvs : ∀ v ∈ orderOut u, v ∈ set := by
    intro v hv
    rw [hout u] at hv
    obtain ⟨e, he, rfl⟩ := List.mem_map.mp hv
    exact (hin e (List.mem_filter.mp he).1).2
  have hle : ∀ v, (orderOut u).count v ≤ deg v := by
    intro v
    rw [hout u]
    exact hkahn.count_le v
  obtain ⟨inDegree, hlower, hcounts⟩ := h.counts.lower h.fits hvs hle
  refine ⟨{ inDegree := inDegree, ready := ready ++ batch (relax deg (orderOut u)).2
            sorted := s.sorted ++ [u], underflow := s.underflow || false }, ?_, rfl, rfl, ?_⟩
  · rw [popReady, hready]
    dsimp only
    rw [hlower]
    rfl
  · refine ⟨hcounts, fun v hv => ?_, ?_, ?_⟩
    · rw [relax_fst]
      exact Nat.lt_of_le_of_lt (Nat.sub_le _ _) (h.fits v hv)
    · exact hkahn.pop hin (hout u ▸ List.Perm.refl _)
    · show (s.underflow || false) = false
      rw [h.clean]
      rfl

/-- **Every iteration** keeps the counters, and the queue runs empty. -/
theorem Tracking.pops (hin : ∀ e ∈ es, e.1 ∈ set ∧ e.2 ∈ set)
    (hout : ∀ u, orderOut u = (es.filter (fun e => e.1 = u)).map Prod.snd) (n : ℕ)
    {deg : UnitId → ℕ} {s : SortState} (h : Tracking set es s deg) :
    ∃ s', Svc.pops orderOut n s = some s' ∧
      Tracking set es s' (kahn orderOut n deg s.ready s.sorted).1 ∧
      s'.sorted = (kahn orderOut n deg s.ready s.sorted).2 ∧
      (s'.ready = [] ∨ s'.sorted.length = s.sorted.length + n) := by
  induction n generalizing deg s with
  | zero => exact ⟨s, rfl, h, rfl, Or.inr rfl⟩
  | succ n ih =>
    rw [Svc.pops]
    cases hready : s.ready with
    | nil =>
      -- the loop has ended
      have hpop : popReady orderOut s = some s := by rw [popReady, hready]
      have hstop : ∀ m, Svc.pops orderOut m s = some s := by
        intro m
        induction m with
        | zero => rfl
        | succ m ihm => rw [Svc.pops, hpop]; exact ihm
      refine ⟨s, by rw [hpop]; exact hstop n, h, rfl, Or.inl hready⟩
    | cons u ready =>
      obtain ⟨s₁, hpop, hsorted₁, hready₁, htrack₁⟩ := h.pop hin hout hready
      obtain ⟨s', hs', htrack, hsorted, hend⟩ := ih htrack₁
      rw [hready₁, hsorted₁] at htrack hsorted
      refine ⟨s', by rw [hpop]; exact hs', htrack, hsorted, hend.imp_right fun hlen => ?_⟩
      rw [hlen, hsorted₁, List.length_append, List.length_singleton]
      omega

end Loop

/-! ### The maps and the table -/

/-- The maps hold the edges of the table, and its in-degrees as far as they fit. -/
structure Mirrors (set : List UnitId) (m : OrderMaps) (table : EdgeTable UnitId) : Prop where
  out : m.orderOut = table.out
  counts : Counts set m.inDegree table.deg
  overflow : m.overflow = true ↔ ∃ v ∈ set, 2 ^ 32 ≤ table.deg v

theorem ofNat_eq_zero_iff_dvd {k : ℕ} : UInt32.ofNat k = 0 ↔ 2 ^ 32 ∣ k := by
  rw [UInt32.ofNat_eq_iff_mod_eq_toNat, Nat.dvd_iff_mod_eq_zero]
  rfl

theorem Mirrors.addEdge {set : List UnitId} {m : OrderMaps} {table : EdgeTable UnitId}
    (h : Mirrors set m table) (x : UnitId) {y : UnitId} (hy : y ∈ set) :
    Mirrors set (m.addEdge x y) (table.addEdge x y) := by
  obtain ⟨hout, hcounts, hover⟩ := h
  have hnext : (m.inDegree y).getD 0 + 1 = UInt32.ofNat (table.deg y + 1) := by
    rw [hcounts y, if_pos hy, Option.getD_some, UInt32.ofNat_add]
    rfl
  refine ⟨?_, ?_, ?_⟩
  · rw [OrderMaps.addEdge, EdgeTable.addEdge, hout]
  · rw [OrderMaps.addEdge, hnext]
    exact hcounts.update hy (table.deg y + 1)
  · rw [OrderMaps.addEdge, hnext, Bool.or_eq_true, hover, beq_iff_eq, ofNat_eq_zero_iff_dvd]
    have hdeg : ∀ v, (table.addEdge x y).deg v = if v = y then table.deg y + 1 else table.deg v :=
      fun v => Function.update_apply table.deg y (table.deg y + 1) v
    constructor
    · rintro (⟨v, hv, hle⟩ | hdvd)
      · refine ⟨v, hv, ?_⟩
        rw [hdeg]
        split
        · next heq =>
          subst heq
          exact Nat.le_succ_of_le hle
        · exact hle
      · refine ⟨y, hy, ?_⟩
        rw [hdeg, if_pos rfl]
        exact Nat.le_of_dvd (Nat.succ_pos _) hdvd
    · rintro ⟨v, hv, hle⟩
      rw [hdeg] at hle
      split at hle
      · next heq =>
        subst heq
        rcases Nat.lt_or_eq_of_le hle with hlt | heq
        · exact .inl ⟨v, hv, Nat.lt_succ_iff.mp hlt⟩
        · exact .inr (heq ▸ Nat.dvd_refl _)
      · exact .inl ⟨v, hv, hle⟩

namespace UnitRegistry

variable (reg : UnitRegistry) (ords : HashOrders) {set : List UnitId}

theorem mirrors_foldl (edge : UnitId → UnitId × UnitId) (hedge : ∀ x ∈ set, (edge x).2 ∈ set)
    (names : List String) {m : OrderMaps} {table : EdgeTable UnitId} (h : Mirrors set m table) :
    Mirrors set
      (names.foldl (fun m name =>
        match reg.lookup name with
        | some x => if x ∈ set then m.addEdge (edge x).1 (edge x).2 else m
        | none => m) m)
      (names.foldl (fun table name =>
        match reg.lookup name with
        | some x => if x ∈ set then table.addEdge (edge x).1 (edge x).2 else table
        | none => table) table) := by
  induction names generalizing m table with
  | nil => exact h
  | cons name names ih =>
    rw [List.foldl_cons, List.foldl_cons]
    apply ih
    cases reg.lookup name with
    | none => exact h
    | some x =>
      dsimp only
      split
      · rename_i hx
        exact h.addEdge _ (hedge x hx)
      · exact h

theorem enterOrdering_mirrors {id : UnitId} (hid : id ∈ set) {m : OrderMaps}
    {table : EdgeTable UnitId} (h : Mirrors set m table) :
    Mirrors set (reg.enterOrdering set m id) (reg.addOrdering set table id) :=
  reg.mirrors_foldl (fun y => (id, y)) (fun _ hy => hy) _
    (reg.mirrors_foldl (fun x => (x, id)) (fun _ _ => hid) _ h)

/-- **The maps mirror the table** of the unbounded sort. -/
theorem orderMaps_mirrors : Mirrors set (reg.orderMaps ords set) (reg.orderTable ords set) := by
  have hfold : ∀ (ids : List UnitId), (∀ id ∈ ids, id ∈ set) → ∀ {m : OrderMaps}
      {table : EdgeTable UnitId}, Mirrors set m table →
      Mirrors set (ids.foldl (reg.enterOrdering set) m)
        (ids.foldl (reg.addOrdering set) table) := by
    intro ids
    induction ids with
    | nil => exact fun _ _ _ h => h
    | cons id ids ih =>
      intro hids m table h
      exact ih (fun x hx => hids x (List.mem_cons_of_mem _ hx))
        (reg.enterOrdering_mirrors (hids id List.mem_cons_self) h)
  refine hfold _ (fun id hid => (ords.unitSet.perm set).subset hid) ⟨rfl, fun v => rfl, ?_⟩
  exact iff_of_false nofun fun ⟨v, _, hle⟩ => absurd hle (by simp [EdgeTable.empty])

theorem orderMaps_out (u : UnitId) :
    (reg.orderMaps ords set).orderOut u =
      ((reg.setEdges ords set).filter (fun e => e.1 = u)).map Prod.snd := by
  rw [(reg.orderMaps_mirrors ords).out]
  exact reg.orderTable_out ords set u

theorem loopStart_ready (hfits : ∀ v ∈ set, (reg.orderTable ords set).deg v < 2 ^ 32) :
    (reg.loopStart ords set).ready =
      batch ((ords.inDegree.enum set).filter fun id => (reg.orderTable ords set).deg id = 0) := by
  show batch _ = batch _
  congr 1
  apply List.filter_congr
  intro id hid
  have hmem := (ords.inDegree.perm set).subset hid
  apply decide_eq_decide.mpr
  rw [(reg.orderMaps_mirrors ords).counts id, if_pos hmem, Option.some.injEq,
    ofNat_eq_zero (hfits id hmem)]

/-- The loop starts with the numbers of the unbounded sort, if these fit. -/
theorem tracking_loopStart (hset : set.Nodup)
    (hfits : ∀ v ∈ set, (reg.orderTable ords set).deg v < 2 ^ 32) :
    Tracking set (reg.setEdges ords set) (reg.loopStart ords set)
      (reg.orderTable ords set).deg where
  counts := (reg.orderMaps_mirrors ords).counts
  fits := hfits
  inv := by
    rw [reg.loopStart_ready ords hfits]
    exact reg.sortUnits_start ords hset
  clean := rfl

/-! ### Counting entries -/

theorem sum_map_ite {l : List UnitId} (hl : l.Nodup) (a : UnitId) (f : UnitId → ℕ) :
    (l.map fun u => if u = a then f u else 0).sum = if a ∈ l then f a else 0 := by
  induction l with
  | nil => rfl
  | cons x l ih =>
    obtain ⟨hx, hl⟩ := List.nodup_cons.mp hl
    rw [List.map_cons, List.sum_cons, ih hl]
    by_cases hxa : x = a
    · subst hxa
      rw [if_pos rfl, if_neg hx, if_pos List.mem_cons_self, Nat.add_zero]
    · have hmem : a ∈ x :: l ↔ a ∈ l := by
        rw [List.mem_cons, or_iff_right (Ne.symm hxa)]
      rw [if_neg hxa, Nat.zero_add, if_congr hmem rfl rfl]

/-- The number of open entries is the number of open edges. -/
theorem openEntries_eq (hset : set.Nodup) (sorted : List UnitId) (v : UnitId) :
    openEntries set (reg.orderMaps ords set).orderOut sorted v =
      openEdges (reg.setEdges ords set) sorted v := by
  have hsources : ∀ e ∈ reg.setEdges ords set, e.1 ∈ set := fun e he => (reg.setEdges_mem e he).1
  have hout : (reg.orderMaps ords set).orderOut =
      fun u => ((reg.setEdges ords set).filter (fun e => e.1 = u)).map Prod.snd :=
    funext (reg.orderMaps_out ords)
  rw [openEntries, hout]
  generalize reg.setEdges ords set = es at hsources
  induction es with
  | nil => simp [openEdges]
  | cons e es ih =>
    obtain ⟨he, hes⟩ := List.forall_mem_cons.mp hsources
    have hcount : ∀ u, (((e :: es).filter (fun e => e.1 = u)).map Prod.snd).count v =
        (if u = e.1 then if e.2 = v then 1 else 0 else 0) +
          ((es.filter (fun e => e.1 = u)).map Prod.snd).count v := by
      intro u
      rw [List.filter_cons]
      by_cases hu : u = e.1
      · subst hu
        simp [List.count_cons, Nat.add_comm]
      · simp [hu, Ne.symm hu]
    rw [funext hcount, List.sum_map_add, ih hes, sum_map_ite (hset.filter _), openEdges, openEdges,
      List.countP_cons]
    have hopen : e.1 ∈ set.filter (fun u => u ∉ sorted) ↔ e.1 ∉ sorted := by
      rw [List.mem_filter, decide_eq_true_iff, and_iff_right he]
    by_cases hs : e.1 ∈ sorted
    · simp [hs]
    · by_cases hv : e.2 = v
      · simp [hs, hv, he, Nat.add_comm]
      · simp [hs, hv]

/-- The in-degree of a member is the number of directives that lead to it. -/
theorem orderTable_deg_eq (hset : set.Nodup) {v : UnitId} (hv : v ∈ set) :
    (reg.orderTable ords set).deg v = reg.directivesInto set v := by
  have hunit : ∀ id, (reg.unitEdges set id).countP (fun e => e.2 = v) =
      (if id = v then (reg.namedIn set (reg.get id).file.unit.after).length else 0) +
        (reg.namedIn set (reg.get id).file.unit.before).count v := by
    intro id
    rw [unitEdges, List.countP_append, List.countP_map, List.countP_map]
    congr 1
    by_cases hid : id = v
    · subst hid
      simp [Function.comp_def]
    · simp [Function.comp_def, hid]
  have hsum : (set.map fun id => (reg.unitEdges set id).countP (fun e => e.2 = v)).sum =
      reg.directivesInto set v := by
    rw [funext hunit, List.sum_map_add, sum_map_ite hset v, if_pos hv]
    rfl
  rw [orderTable_deg, setEdges, List.countP_flatMap, ← hsum]
  exact ((ords.unitSet.perm set).map _).sum_eq

/-! ### The books -/

/-- **The counters fit**: less than `2 ^ 32` directives lead to each member. -/
def Fits (set : List UnitId) : Prop := ∀ v ∈ set, reg.directivesInto set v < 2 ^ 32

theorem Fits.deg_lt {reg : UnitRegistry} (h : reg.Fits set) (ords : HashOrders)
    (hset : set.Nodup) : ∀ v ∈ set, (reg.orderTable ords set).deg v < 2 ^ 32 := by
  intro v hv
  rw [reg.orderTable_deg_eq ords hset hv]
  exact h v hv

/-- **The loop in every iteration**, when the counters fit. -/
theorem Fits.loopAfter {reg : UnitRegistry} (h : reg.Fits set) (ords : HashOrders)
    (hset : set.Nodup) (n : ℕ) :
    ∃ s, reg.loopAfter ords set n = some s ∧
      Tracking set (reg.setEdges ords set) s
        (kahn (reg.orderTable ords set).out n (reg.orderTable ords set).deg
          (reg.loopStart ords set).ready []).1 ∧
      s.sorted = (kahn (reg.orderTable ords set).out n (reg.orderTable ords set).deg
        (reg.loopStart ords set).ready []).2 ∧ (s.ready = [] ∨ s.sorted.length = n) := by
  have hpops := (reg.tracking_loopStart ords hset (h.deg_lt ords hset)).pops reg.setEdges_mem
    (reg.orderMaps_out ords) n
  rw [(reg.orderMaps_mirrors ords).out] at hpops
  obtain ⟨s, hs, htrack, hsorted, hend⟩ := hpops
  refine ⟨s, ?_, htrack, hsorted, hend.imp_right fun hlen => ?_⟩
  · rw [UnitRegistry.loopAfter, (reg.orderMaps_mirrors ords).out]
    exact hs
  · rw [hlen]
    exact Nat.zero_add n

theorem ofNat_pos {k : ℕ} (h : k < 2 ^ 32) : 0 < UInt32.ofNat k ↔ 0 < k := by
  rw [UInt32.lt_iff_toNat_lt, UInt32.toNat_ofNat_of_lt' h]
  rfl

/-- The counters above zero are those of the units whose number is. -/
theorem filter_counters {ords : HashOrders} {es : List (UnitId × UnitId)} {s : SortState}
    {deg : UnitId → ℕ} (h : Tracking set es s deg) :
    (ords.inDegree.enum set).filter (fun id => 0 < (s.inDegree id).getD 0) =
      (ords.inDegree.enum set).filter (fun id => 0 < deg id) := by
  apply List.filter_congr
  intro id hid
  have hmem := (ords.inDegree.perm set).subset hid
  apply decide_eq_decide.mpr
  rw [h.counts id, if_pos hmem, Option.getD_some, ofNat_pos (h.fits id hmem)]

/-- **The report of a cycle** when the counters fit. -/
theorem cycle_report {ords : HashOrders} {s : SortState} {deg : UnitId → ℕ}
    (h : Tracking set (reg.setEdges ords set) s deg) (hready : s.ready = []) (v : UnitId) :
    v ∈ (ords.inDegree.enum set).filter (fun id => 0 < (s.inDegree id).getD 0) ↔
      v ∈ set ∧ reg.OnOrBehindCycle set v := by
  have hinv := h.inv
  rw [hready] at hinv
  rw [filter_counters h, List.mem_filter, (ords.inDegree.perm set).mem_iff, decide_eq_true_iff]
  refine and_congr_right fun hv => ?_
  have hsettled := hinv.settled v hv
  rw [List.append_nil] at hsettled
  rw [Nat.pos_iff_ne_zero, Ne, hsettled, hinv.left_over_iff reg.setEdges_mem hv,
    edgeRel_setEdges]
  rfl

/-- **When the books are right**: less than `2 ^ 32` directives lead to each member. -/
theorem accounted_iff (hset : set.Nodup) : reg.Accounted ords set ↔ reg.Fits set := by
  constructor
  · intro h v hv
    obtain ⟨d, -, hd⟩ := h.counters 0 _ rfl v hv List.not_mem_nil
    have hcount : d.toNat = reg.directivesInto set v := by
      rw [hd, reg.openEntries_eq ords hset, ← reg.orderTable_deg_eq ords hset hv]
      exact ((reg.sortUnits_start ords hset).degree v).symm
    rw [← hcount]
    exact d.toNat_lt
  · intro h
    have hloop := h.loopAfter ords hset
    have htracking : ∀ n s, reg.loopAfter ords set n = some s →
        ∃ deg, Tracking set (reg.setEdges ords set) s deg := by
      intro n s hs
      obtain ⟨s', hs', htrack, -⟩ := hloop n
      obtain rfl := Option.some.inj (hs.symm.trans hs')
      exact ⟨_, htrack⟩
    refine ⟨fun n => ?_, fun n s hs v hv hleft => ?_, fun n s hs => ?_, fun n s hs => ?_,
      fun n s names hs hready hnames => ?_⟩
    · obtain ⟨s, hs, -⟩ := hloop n
      rw [hs]
      rfl
    · obtain ⟨deg, htrack⟩ := htracking n s hs
      refine ⟨UInt32.ofNat (deg v), by rw [htrack.counts v, if_pos hv], ?_⟩
      rw [reg.openEntries_eq ords hset, UInt32.toNat_ofNat_of_lt' (htrack.fits v hv)]
      exact htrack.inv.degree v
    · obtain ⟨deg, htrack⟩ := htracking n s hs
      exact htrack.clean
    · obtain ⟨deg, htrack⟩ := htracking n s hs
      exact htrack.inv.nodup
    · obtain ⟨deg, htrack⟩ := htracking n s hs
      rw [loopResult] at hnames
      split at hnames
      · refine ⟨_, ?_, (Except.error.inj hnames).symm, reg.cycle_report htrack hready⟩
        exact ((ords.inDegree.perm set).nodup_iff.mpr hset).filter _
      · cases hnames

/-- **The loop returns what the unbounded sort does**, when the counters fit. -/
theorem loopAfter_orderUnits (hset : set.Nodup) (h : reg.Fits set) :
    ∃ s, reg.loopAfter ords set set.length = some s ∧ s.ready = [] ∧
      reg.loopResult ords set s = reg.orderUnits ords set := by
  obtain ⟨s, hs, htrack, hsorted, hend⟩ := h.loopAfter ords hset set.length
  have hready : s.ready = [] := by
    rcases hend with hnil | hlen
    · exact hnil
    · have hle := (htrack.inv.nodup.subperm fun v hv => htrack.inv.sub v hv).length_le
      rw [List.length_append] at hle
      exact List.eq_nil_of_length_eq_zero (by omega)
  refine ⟨s, hs, hready, ?_⟩
  rw [loopResult, orderUnits, filter_counters htrack, hsorted,
    reg.loopStart_ready ords (h.deg_lt ords hset)]
  rfl

/-- **The Kahn loop of both transactions**: its books are right exactly when the counters fit. -/
theorem kahn_accounting_iff {reg : UnitRegistry} (ords : HashOrders) {anchor : String} {id : UnitId}
    (h : reg.lookup anchor = some id) :
    (reg.Accounted ords (reg.startClosure id) ↔ reg.Fits (reg.startClosure id)) ∧
      (reg.Accounted ords (reg.stopClosure id) ↔ reg.Fits (reg.stopClosure id)) :=
  ⟨reg.accounted_iff ords (reg.startClosure_nodup (reg.lookup_lt h)),
    reg.accounted_iff ords (reg.stopClosure_nodup (reg.lookup_lt h))⟩

/-- Two targets that require each other and start after each other. -/
def mutualTargets : List LoadedUnit :=
  [⟨"x.target", { unit := { requires := ["y.target"], after := ["y.target"] } }⟩,
    ⟨"y.target", { unit := { requires := ["x.target"], after := ["x.target"] } }⟩]

theorem kahn_accounting_iff_mutualTargets :
    (fromLoaded mutualTargets).Accounted ⟨.inserted, .inserted⟩
        ((fromLoaded mutualTargets).startClosure 0) ∧
      (fromLoaded mutualTargets).Accounted ⟨.inserted, .inserted⟩
        ((fromLoaded mutualTargets).stopClosure 0) := by
  have hlookup : (fromLoaded mutualTargets).lookup "x.target" = some 0 := by decide
  have h := kahn_accounting_iff ⟨.inserted, .inserted⟩ hlookup
  exact ⟨h.1.mpr (by unfold Fits; decide), h.2.mpr (by unfold Fits; decide)⟩

/-- A target that lists itself `n` times in `after`. -/
def selfAfterUnits (n : ℕ) : List LoadedUnit :=
  [⟨"x.target", { unit := { after := List.replicate n "x.target" } }⟩]

def selfAfter (n : ℕ) : UnitRegistry := fromLoaded (selfAfterUnits n)

theorem selfAfter_lookup (n : ℕ) : (selfAfter n).lookup "x.target" = some 0 := by
  have hnames : ((selfAfterUnits n).map LoadedUnit.name).Nodup := List.nodup_singleton "x.target"
  refine (fromLoaded_namesExact hnames "x.target" 0).mpr ?_
  rw [fromLoaded_units]
  exact ⟨_, rfl, rfl⟩

theorem eq_singleton {set : List UnitId} (hnd : set.Nodup) (hlt : ∀ u ∈ set, u < 1)
    (hmem : 0 ∈ set) : set = [0] := by
  have hall : ∀ u ∈ set, u = 0 := fun u hu => Nat.lt_one_iff.mp (hlt u hu)
  rw [List.eq_replicate_of_mem hall] at hnd hmem ⊢
  have hlen := List.nodup_replicate.mp hnd
  have hpos := List.length_pos_of_mem hmem
  rw [List.length_replicate] at hpos
  rw [Nat.le_antisymm hlen hpos]
  rfl

theorem selfAfter_startClosure (n : ℕ) : (selfAfter n).startClosure 0 = [0] := by
  have hid := (selfAfter n).lookup_lt (selfAfter_lookup n)
  refine eq_singleton ((selfAfter n).startClosure_nodup hid) (fun u hu => ?_)
    (((selfAfter n).mem_startClosure hid 0).mpr .refl)
  have hreach := ((selfAfter n).mem_startClosure hid u).mp hu
  rw [← requirementTargets_fun] at hreach
  exact List.mem_range.mp ((selfAfter n).start_universe hid u hreach)

theorem selfAfter_directivesInto (n : ℕ) : (selfAfter n).directivesInto [0] 0 = n := by
  have hunit : ((selfAfter n).get 0).file.unit = { after := List.replicate n "x.target" } := by
    rw [UnitRegistry.get, selfAfter, fromLoaded_units]
    rfl
  have hnamed : (selfAfter n).namedIn [0] (List.replicate n "x.target") = List.replicate n 0 := by
    rw [namedIn, pushNamed, List.filterMap_replicate_of_some (selfAfter_lookup n)]
    exact List.filter_replicate_of_pos (by simp)
  rw [directivesInto, hunit, List.map_singleton, hunit, hnamed, List.length_replicate]
  rfl

/-- At `2 ^ 32` entries the counter of the target is zero. -/
theorem selfAfter_not_accounted :
    ¬ (selfAfter (2 ^ 32)).Accounted ⟨.inserted, .inserted⟩
      ((selfAfter (2 ^ 32)).startClosure 0) := by
  intro h
  have hid := (selfAfter (2 ^ 32)).lookup_lt (selfAfter_lookup _)
  have hfits := ((selfAfter (2 ^ 32)).accounted_iff _
    ((selfAfter (2 ^ 32)).startClosure_nodup hid)).mp h
  rw [selfAfter_startClosure] at hfits
  have hlt := hfits 0 List.mem_cons_self
  rw [selfAfter_directivesInto] at hlt
  exact absurd hlt (Nat.lt_irrefl _)

end UnitRegistry

end WriteonceOs.Svc
