import WriteonceOs.Library.Worklist
import WriteonceOs.Library.FifoTopo
import WriteonceOs.Svc.Registry

/-!
# Start and stop transactions

`buildTransaction` closes the anchor under the requirement edges, orders the closure by the
`after`/`before` directives and emits one start job per unit.  `buildStopTransaction` does the same
over the reversed requirement edges and reverses the order.  Hash containers are lists of their
members; wherever the source iterates one, the members come in an arbitrary order that a
`HashOrder` supplies.  The in-degrees of the sort have no bound here; the source counts them in a
`u32`, and as long as that is enough both transactions are the ones below.

* `mem_startClosure`, `mem_stopClosure` — the loops compute reachability and reverse reachability;
* `orderUnits_ok`, `orderUnits_error_iff` — a returned order lists the set once each and respects
  the directives; the sort fails exactly on a cycle of them inside the set;
* `sortUnits_hash` — the sort does not depend on any iteration order.
-/

namespace WriteonceOs.Svc

open WriteonceOs.Library

inductive JobResult where
  | done | failed | dependency | timeout | canceled
  deriving DecidableEq, Repr

inductive JobKind where
  | start | stop | restart | reload
  deriving DecidableEq, Repr

inductive JobState where
  | waiting | running | finished (result : JobResult)
  deriving DecidableEq, Repr

structure Job where
  unit : UnitId
  kind : JobKind
  state : JobState
  deriving DecidableEq, Repr

inductive TransactionError where
  | unknownUnit (name : String)
  | requirementCycle (names : List String)
  | orderingCycle (names : List String)
  deriving DecidableEq, Repr

/-- The order in which a hash container with the given members is iterated. -/
structure HashOrder (α : Type) where
  enum : List α → List α
  perm : ∀ members, (enum members).Perm members

/-- Iteration in insertion order. -/
def HashOrder.inserted {α : Type} : HashOrder α := ⟨id, fun _ => List.Perm.refl _⟩

/-- The iteration orders of the set of units and of the in-degree map, in one build. -/
structure HashOrders where
  unitSet : HashOrder UnitId
  inDegree : HashOrder UnitId

namespace UnitRegistry

variable (reg : UnitRegistry)

/-- Enter the ordering edges that the directives of `id` declare inside `set`. -/
def addOrdering (set : List UnitId) (table : EdgeTable UnitId) (id : UnitId) :
    EdgeTable UnitId :=
  let unit := (reg.get id).file.unit
  -- `after = x`: x must finish before this unit
  let table := unit.after.foldl (fun table xName =>
    match reg.lookup xName with
    | some x => if x ∈ set then table.addEdge x id else table
    | none => table) table
  -- `before = y`: this unit must finish before y
  unit.before.foldl (fun table yName =>
    match reg.lookup yName with
    | some y => if y ∈ set then table.addEdge id y else table
    | none => table) table

/-- The ordering edges and in-degrees of a set of units. -/
def orderTable (ords : HashOrders) (set : List UnitId) : EdgeTable UnitId :=
  (ords.unitSet.enum set).foldl (reg.addOrdering set) EdgeTable.empty

/-- The final in-degrees and the emitted units of the topological sort of a set. -/
def sortUnits (ords : HashOrders) (set : List UnitId) : (UnitId → ℕ) × List UnitId :=
  let table := reg.orderTable ords set
  let ready := (ords.inDegree.enum set).filter (fun id => table.deg id = 0)
  kahn table.out set.length table.deg (batch ready) []

/-- The sort shared by both transactions; on a cycle, the names of the units left over. -/
def orderUnits (ords : HashOrders) (set : List UnitId) : Except (List String) (List UnitId) :=
  let result := reg.sortUnits ords set
  if result.2.length ≠ set.length then
    .error (((ords.inDegree.enum set).filter (fun id => 0 < result.1 id)).map reg.nameOf)
  else .ok result.2

/-- The units pulled in by `id`, transitively. -/
def startClosure (id : UnitId) : List UnitId := closure reg.requirementTargets reg.len id

/-- The reversed requirement edges: for each unit, the units that pull it in. -/
def dependents : EdgeMap :=
  (List.range reg.len).foldl (fun m u =>
    (reg.requirementTargets u).foldl (fun m v => pushEdge m v u) m) ∅

/-- The units that pull in `id`, transitively. -/
def stopClosure (id : UnitId) : List UnitId := closure (targetsOf reg.dependents) reg.len id

/-- The ordered list of start jobs for an anchor. -/
def buildTransaction (ords : HashOrders) (anchor : String) :
    Except TransactionError (List Job) :=
  match reg.lookup anchor with
  | none => .error (.unknownUnit anchor)
  | some anchorId =>
    match reg.orderUnits ords (reg.startClosure anchorId) with
    | .error names => .error (.orderingCycle names)
    | .ok sorted => .ok (sorted.map (fun u => ⟨u, .start, .waiting⟩))

/-- The ordered list of units to stop for an anchor. -/
def buildStopTransaction (ords : HashOrders) (anchor : String) :
    Except TransactionError (List UnitId) :=
  match reg.lookup anchor with
  | none => .error (.unknownUnit anchor)
  | some anchorId =>
    match reg.orderUnits ords (reg.stopClosure anchorId) with
    | .error names => .error (.orderingCycle names)
    | .ok sorted => .ok sorted.reverse

/-! ### The ordering edges -/

/-- `x` must finish before `y` starts: `y` is after `x`, or `x` is before `y`. -/
def MustPrecede (x y : UnitId) : Prop :=
  (∃ name ∈ (reg.get y).file.unit.after, reg.lookup name = some x) ∨
  (∃ name ∈ (reg.get x).file.unit.before, reg.lookup name = some y)

/-- Only units of the registry are ordered. -/
theorem MustPrecede.lt {reg : UnitRegistry} {x y : UnitId} (h : reg.MustPrecede x y) :
    x < reg.len ∧ y < reg.len := by
  have hdeclares : ∀ (names : UnitSection → List String) {id : UnitId} {name : String},
      names {} = [] → name ∈ names (reg.get id).file.unit → id < reg.len := by
    intro names id name hnil hname
    by_contra hge
    rw [reg.get_eq_default (Nat.le_of_not_lt hge)] at hname
    exact absurd hname (by simp [default, hnil])
  rcases h with ⟨name, hname, hx⟩ | ⟨name, hname, hy⟩
  · exact ⟨reg.lookup_lt hx, hdeclares (·.after) rfl hname⟩
  · exact ⟨hdeclares (·.before) rfl hname, reg.lookup_lt hy⟩

/-- The same between two members of a set. -/
def MustPrecedeIn (set : List UnitId) (x y : UnitId) : Prop :=
  x ∈ set ∧ y ∈ set ∧ reg.MustPrecede x y

/-- The members of `set` among some names. -/
def namedIn (set : List UnitId) (names : List String) : List UnitId :=
  (reg.pushNamed names).filter (· ∈ set)

/-- The ordering edges one unit declares. -/
def unitEdges (set : List UnitId) (id : UnitId) : List (UnitId × UnitId) :=
  (reg.namedIn set (reg.get id).file.unit.after).map (fun x => (x, id)) ++
    (reg.namedIn set (reg.get id).file.unit.before).map (fun y => (id, y))

/-- The ordering edges of a set, in the order in which they are entered. -/
def setEdges (ords : HashOrders) (set : List UnitId) : List (UnitId × UnitId) :=
  (ords.unitSet.enum set).flatMap (reg.unitEdges set)

theorem foldl_addEdge (set : List UnitId) (edge : UnitId → UnitId × UnitId) (names : List String)
    (table : EdgeTable UnitId) :
    names.foldl (fun table name =>
      match reg.lookup name with
      | some x => if x ∈ set then table.addEdge (edge x).1 (edge x).2 else table
      | none => table) table = table.addEdges ((reg.namedIn set names).map edge) := by
  induction names generalizing table with
  | nil => rfl
  | cons name names ih =>
    rw [List.foldl_cons, ih]
    cases hname : reg.lookup name with
    | none => simp [namedIn, pushNamed, hname]
    | some x =>
      by_cases hx : x ∈ set
      · simp [namedIn, pushNamed, hname, hx, EdgeTable.addEdges]
      · simp [namedIn, pushNamed, hname, hx]

theorem addOrdering_eq (set : List UnitId) (table : EdgeTable UnitId) (id : UnitId) :
    reg.addOrdering set table id = table.addEdges (reg.unitEdges set id) := by
  unfold addOrdering unitEdges
  rw [EdgeTable.addEdges, List.foldl_append]
  simp only [reg.foldl_addEdge set (fun x => (x, id)), reg.foldl_addEdge set (fun y => (id, y))]
  rfl

/-- The table holds exactly the edges of the set. -/
theorem orderTable_eq (ords : HashOrders) (set : List UnitId) :
    reg.orderTable ords set = EdgeTable.empty.addEdges (reg.setEdges ords set) := by
  unfold orderTable setEdges
  generalize (EdgeTable.empty : EdgeTable UnitId) = table
  induction ords.unitSet.enum set generalizing table with
  | nil => rfl
  | cons id ids ih =>
    rw [List.foldl_cons, ih, addOrdering_eq, List.flatMap_cons]
    simp [EdgeTable.addEdges]

theorem orderTable_out (ords : HashOrders) (set : List UnitId) (u : UnitId) :
    (reg.orderTable ords set).out u =
      ((reg.setEdges ords set).filter (fun e => e.1 = u)).map Prod.snd := by
  rw [orderTable_eq, EdgeTable.addEdges_out]
  rfl

theorem orderTable_deg (ords : HashOrders) (set : List UnitId) (v : UnitId) :
    (reg.orderTable ords set).deg v = (reg.setEdges ords set).countP (fun e => e.2 = v) := by
  rw [orderTable_eq, EdgeTable.addEdges_deg]
  simp [EdgeTable.empty]

theorem mem_namedIn {set : List UnitId} {names : List String} {v : UnitId} :
    v ∈ reg.namedIn set names ↔ v ∈ set ∧ ∃ name ∈ names, reg.lookup name = some v := by
  simp [namedIn, mem_pushNamed, and_comm]

/-- An edge is entered exactly when a directive declares it between two members. -/
theorem mem_setEdges {ords : HashOrders} {set : List UnitId} {x y : UnitId} :
    (x, y) ∈ reg.setEdges ords set ↔ reg.MustPrecedeIn set x y := by
  simp only [setEdges, List.mem_flatMap, (ords.unitSet.perm set).mem_iff, unitEdges,
    List.mem_append, List.mem_map, mem_namedIn, Prod.mk.injEq, MustPrecedeIn, MustPrecede]
  constructor
  · intro h
    obtain ⟨id, hid, ⟨x', ⟨hx, hname⟩, rfl, rfl⟩ | ⟨y', ⟨hy, hname⟩, rfl, rfl⟩⟩ := h
    · exact ⟨hx, hid, Or.inl hname⟩
    · exact ⟨hid, hy, Or.inr hname⟩
  · intro h
    obtain ⟨hx, hy, hname | hname⟩ := h
    · exact ⟨y, hy, Or.inl ⟨x, ⟨hx, hname⟩, rfl, rfl⟩⟩
    · exact ⟨x, hx, Or.inr ⟨y, ⟨hy, hname⟩, rfl, rfl⟩⟩

theorem setEdges_mem {ords : HashOrders} {set : List UnitId} :
    ∀ e ∈ reg.setEdges ords set, e.1 ∈ set ∧ e.2 ∈ set :=
  fun _ he => ⟨(reg.mem_setEdges.mp he).1, (reg.mem_setEdges.mp he).2.1⟩

theorem edgeRel_setEdges (ords : HashOrders) (set : List UnitId) :
    EdgeRel (reg.setEdges ords set) = reg.MustPrecedeIn set := by
  funext x y
  exact propext reg.mem_setEdges

/-! ### The sort -/

/-- The state of the sort before its first pop. -/
theorem sortUnits_start (ords : HashOrders) {set : List UnitId} (hset : set.Nodup) :
    KahnInv set (reg.setEdges ords set) (reg.orderTable ords set).deg
      (batch ((ords.inDegree.enum set).filter (fun id => (reg.orderTable ords set).deg id = 0)))
      [] :=
  KahnInv.init hset ((ords.inDegree.perm set).filter _) (reg.orderTable_deg ords set)

/-- The state of the sort after its last pop. -/
theorem sortUnits_inv (ords : HashOrders) {set : List UnitId} (hset : set.Nodup) :
    KahnInv set (reg.setEdges ords set) (reg.sortUnits ords set).1 []
      (reg.sortUnits ords set).2 :=
  kahn_inv reg.setEdges_mem (fun u => (reg.orderTable_out ords set u) ▸ List.Perm.refl _)
    set.length _ _ [] (reg.sortUnits_start ords hset) (by simp)

/-- **A returned order lists the set, once each, and respects every directive.** -/
theorem orderUnits_ok {ords : HashOrders} {set sorted : List UnitId} (hset : set.Nodup)
    (h : reg.orderUnits ords set = .ok sorted) :
    sorted.Perm set ∧ ∀ x y, reg.MustPrecedeIn set x y → Before sorted x y := by
  unfold orderUnits at h
  simp only at h
  split at h
  · cases h
  · rename_i hlen
    cases h
    have hinv := reg.sortUnits_inv ords hset
    have hnd : (reg.sortUnits ords set).2.Nodup := by simpa using hinv.nodup
    have hsub : (reg.sortUnits ords set).2 ⊆ set :=
      fun v hv => hinv.sub v (List.mem_append_left _ hv)
    have hperm : (reg.sortUnits ords set).2.Perm set :=
      (hnd.subperm hsub).perm_of_length_le (by omega)
    refine ⟨hperm, fun x y hxy => ?_⟩
    exact hinv.before (x, y) (reg.mem_setEdges.mpr hxy) (hperm.mem_iff.mpr hxy.2.1)

/-- **The sort fails exactly on a cycle of the directives inside the set.** -/
theorem orderUnits_error_iff (ords : HashOrders) {set : List UnitId} (hset : set.Nodup) :
    (∃ names, reg.orderUnits ords set = .error names) ↔
      ∃ v, Relation.TransGen (reg.MustPrecedeIn set) v v := by
  have hiff := (reg.sortUnits_inv ords hset).complete_iff hset reg.setEdges_mem
  rw [edgeRel_setEdges] at hiff
  unfold orderUnits
  simp only
  split
  · rename_i hlen
    simp only [Except.error.injEq, exists_eq', true_iff]
    by_contra hno
    exact hlen (hiff.mpr (fun v hv => hno ⟨v, hv⟩))
  · rename_i hlen
    simp only [reduceCtorEq, exists_const, false_iff, not_exists]
    exact hiff.mp (by omega)

/-- **The sort does not depend on any iteration order.** -/
theorem sortUnits_hash (ords ords' : HashOrders) (set : List UnitId) :
    reg.sortUnits ords set = reg.sortUnits ords' set := by
  have hedges : (reg.setEdges ords set).Perm (reg.setEdges ords' set) :=
    ((ords.unitSet.perm set).trans (ords'.unitSet.perm set).symm).flatMap_right _
  have hdeg : (reg.orderTable ords set).deg = (reg.orderTable ords' set).deg := by
    funext v
    rw [orderTable_deg, orderTable_deg]
    exact hedges.countP_eq _
  have hout : ∀ u, ((reg.orderTable ords set).out u).Perm ((reg.orderTable ords' set).out u) := by
    intro u
    rw [orderTable_out, orderTable_out]
    exact (hedges.filter _).map _
  have hready : ((ords.inDegree.enum set).filter
      (fun id => (reg.orderTable ords set).deg id = 0)).Perm
      ((ords'.inDegree.enum set).filter (fun id => (reg.orderTable ords' set).deg id = 0)) := by
    rw [hdeg]
    exact ((ords.inDegree.perm set).trans (ords'.inDegree.perm set).symm).filter _
  unfold sortUnits
  dsimp only
  rw [batch_perm hready, hdeg]
  exact kahn_congr hout _ _ _ _

/-- Two runs with different iteration orders return the same order or both fail. -/
theorem orderUnits_hash {ords ords' : HashOrders} {set sorted : List UnitId}
    (h : reg.orderUnits ords set = .ok sorted) : reg.orderUnits ords' set = .ok sorted := by
  unfold orderUnits at h ⊢
  simp only [reg.sortUnits_hash ords' ords set] at h ⊢
  split at h
  · cases h
  · rename_i hlen
    rw [if_neg hlen]
    exact h

/-! ### The closures -/

/-- The requirement edges, as the start loop follows them. -/
theorem requirementTargets_fun : (fun u v => v ∈ reg.requirementTargets u) = reg.Requires := by
  funext u v
  exact propext reg.mem_requirementTargets

theorem start_universe {id : UnitId} (hid : id < reg.len) (x : UnitId)
    (hx : Relation.ReflTransGen (fun u v => v ∈ reg.requirementTargets u) id x) :
    x ∈ List.range reg.len := by
  rw [List.mem_range]
  rw [requirementTargets_fun] at hx
  cases hx with
  | refl => exact hid
  | tail _ hlast => exact hlast.lt

theorem startClosure_nodup {id : UnitId} (hid : id < reg.len) : (reg.startClosure id).Nodup :=
  closure_nodup (reg.start_universe hid) (by simp)

/-- The start loop computes reachability along the requirement edges. -/
theorem mem_startClosure {id : UnitId} (hid : id < reg.len) (x : UnitId) :
    x ∈ reg.startClosure id ↔ Relation.ReflTransGen reg.Requires id x := by
  rw [startClosure, mem_closure_iff (reg.start_universe hid) (by simp) x, requirementTargets_fun]

theorem mem_foldl_pushEdge {u : UnitId} {vs : List UnitId} {m : EdgeMap} {t w : UnitId} :
    w ∈ targetsOf (vs.foldl (fun m v => pushEdge m v u) m) t ↔
      w ∈ targetsOf m t ∨ (w = u ∧ t ∈ vs) := by
  induction vs generalizing m with
  | nil => simp
  | cons v vs ih =>
    rw [List.foldl_cons, ih, mem_targetsOf_pushEdge, List.mem_cons]
    constructor
    · intro h'
      rcases h' with (h | ⟨ht, hw⟩) | ⟨hw, ht⟩
      · exact Or.inl h
      · exact Or.inr ⟨hw, Or.inl ht⟩
      · exact Or.inr ⟨hw, Or.inr ht⟩
    · intro h'
      rcases h' with h | ⟨hw, ht | ht⟩
      · exact Or.inl (Or.inl h)
      · exact Or.inl (Or.inr ⟨ht, hw⟩)
      · exact Or.inr ⟨hw, ht⟩

/-- The dependents of `v` are the units that pull it in. -/
theorem mem_dependents {u v : UnitId} :
    u ∈ targetsOf reg.dependents v ↔ u < reg.len ∧ reg.Requires u v := by
  have hfold : ∀ (us : List UnitId) (m : EdgeMap), u ∈ targetsOf (us.foldl (fun m u =>
      (reg.requirementTargets u).foldl (fun m v => pushEdge m v u) m) m) v ↔
      u ∈ targetsOf m v ∨ (u ∈ us ∧ reg.Requires u v) := by
    intro us
    induction us with
    | nil => simp
    | cons w us ih =>
      intro m
      rw [List.foldl_cons, ih, mem_foldl_pushEdge, mem_requirementTargets, List.mem_cons]
      constructor
      · intro h'
        rcases h' with (h | ⟨rfl, h⟩) | ⟨hu, h⟩
        · exact Or.inl h
        · exact Or.inr ⟨Or.inl rfl, h⟩
        · exact Or.inr ⟨Or.inr hu, h⟩
      · intro h'
        rcases h' with h | ⟨rfl | hu, h⟩
        · exact Or.inl (Or.inl h)
        · exact Or.inl (Or.inr ⟨rfl, h⟩)
        · exact Or.inr ⟨hu, h⟩
  unfold dependents
  rw [hfold]
  simp

/-- The reversed edges, as the stop loop follows them. -/
theorem dependents_fun :
    (fun v u => u ∈ targetsOf reg.dependents v) = Function.swap reg.Requires := by
  funext v u
  exact propext (reg.mem_dependents.trans ⟨And.right, fun h => ⟨h.left_lt, h⟩⟩)

theorem stop_universe {id : UnitId} (hid : id < reg.len) (x : UnitId)
    (hx : Relation.ReflTransGen (fun v u => u ∈ targetsOf reg.dependents v) id x) :
    x ∈ List.range reg.len := by
  rw [List.mem_range]
  rw [dependents_fun] at hx
  cases hx with
  | refl => exact hid
  | tail _ hlast => exact Requires.left_lt hlast

theorem stopClosure_nodup {id : UnitId} (hid : id < reg.len) : (reg.stopClosure id).Nodup :=
  closure_nodup (reg.stop_universe hid) (by simp)

/-- The stop loop computes reverse reachability along the requirement edges. -/
theorem mem_stopClosure {id : UnitId} (hid : id < reg.len) (x : UnitId) :
    x ∈ reg.stopClosure id ↔ Relation.ReflTransGen reg.Requires x id := by
  rw [stopClosure, mem_closure_iff (reg.stop_universe hid) (by simp) x, dependents_fun]
  exact Relation.reflTransGen_swap

/-! ### Returned transactions -/

/-- The order behind a start transaction. -/
theorem buildTransaction_ok {ords : HashOrders} {anchor : String} {plan : List Job}
    (h : reg.buildTransaction ords anchor = .ok plan) :
    ∃ id sorted, reg.lookup anchor = some id ∧
      plan = sorted.map (fun u => ⟨u, .start, .waiting⟩) ∧
      sorted.Perm (reg.startClosure id) ∧ sorted.Nodup ∧
      ∀ x y, reg.MustPrecedeIn (reg.startClosure id) x y → Before sorted x y := by
  unfold buildTransaction at h
  cases hid : reg.lookup anchor with
  | none =>
    rw [hid] at h
    cases h
  | some id =>
    rw [hid] at h
    dsimp only at h
    have hnd := reg.startClosure_nodup (reg.lookup_lt hid)
    cases hsorted : reg.orderUnits ords (reg.startClosure id) with
    | error names =>
      rw [hsorted] at h
      cases h
    | ok sorted =>
      rw [hsorted] at h
      cases h
      obtain ⟨hperm, hbefore⟩ := reg.orderUnits_ok hnd hsorted
      exact ⟨id, sorted, rfl, rfl, hperm, hperm.nodup_iff.mpr hnd, hbefore⟩

/-- The order behind a stop transaction. -/
theorem buildStopTransaction_ok {ords : HashOrders} {anchor : String} {order : List UnitId}
    (h : reg.buildStopTransaction ords anchor = .ok order) :
    ∃ id sorted, reg.lookup anchor = some id ∧ order = sorted.reverse ∧
      reg.orderUnits ords (reg.stopClosure id) = .ok sorted := by
  unfold buildStopTransaction at h
  cases hid : reg.lookup anchor with
  | none =>
    rw [hid] at h
    cases h
  | some id =>
    rw [hid] at h
    dsimp only at h
    cases hsorted : reg.orderUnits ords (reg.stopClosure id) with
    | error names =>
      rw [hsorted] at h
      cases h
    | ok sorted =>
      rw [hsorted] at h
      cases h
      exact ⟨id, sorted, rfl, rfl, hsorted⟩

end UnitRegistry

end WriteonceOs.Svc
