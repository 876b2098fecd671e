import Mathlib.Logic.Relation
import Mathlib.Order.WellFounded
import Mathlib.Data.Fintype.Card
import Mathlib.Data.Set.Finite.Basic
import Mathlib.Data.List.Nodup
import Mathlib.Data.List.Sort
import Mathlib.Data.List.Perm.Basic

/-!
# Kahn's topological sort with a first-in first-out queue

The sort over an edge list with repetitions: adjacency lists and in-degrees are filled edge by
edge, the nodes of in-degree zero are queued in increasing order, and every popped node lowers the
in-degree of its successors; what reaches zero is queued as one increasing batch.

* `relax_fst`, `relax_ready` — one batch: every in-degree drops by the number of edges, and the
  batch lists, once each, the nodes whose last open edges came from the popped node;
* `KahnInv.pop` — the loop invariant: the in-degree of a node counts its edges from nodes not yet
  emitted, so no counter is lowered below zero and no node is queued twice;
* `kahn_inv` — a counter as large as the node list empties the queue;
* `KahnInv.left_over_iff` — left over are the nodes on a cycle and those that a cycle leads to;
* `KahnInv.complete_iff` — everything is emitted exactly when the edges have no cycle;
* `KahnInv.chain_before` — a source is emitted before what its edges lead to;
* `kahn_congr` — the output depends on the adjacency lists only up to permutation.
-/

namespace WriteonceOs.Library

/-- `x` stands strictly before `y` in `l`. -/
def Before {α : Type*} (l : List α) (x y : α) : Prop := [x, y].Sublist l

instance {α : Type*} [DecidableEq α] (l : List α) (x y : α) : Decidable (Before l x y) :=
  inferInstanceAs (Decidable (List.Sublist _ _))

section Before

variable {α β : Type*} {l : List α} {x y z : α}

theorem Before.left_mem (h : Before l x y) : x ∈ l := List.Sublist.subset h (by simp)

theorem Before.right_mem (h : Before l x y) : y ∈ l := List.Sublist.subset h (by simp)

theorem Before.ne (hl : l.Nodup) (h : Before l x y) : x ≠ y := by
  simpa using List.Nodup.sublist h hl

theorem before_snoc (h : x ∈ l) : Before (l ++ [y]) x y :=
  (List.singleton_sublist.mpr h).append (List.Sublist.refl [y])

theorem Before.append_right (l' : List α) (h : Before l x y) : Before (l ++ l') x y :=
  List.Sublist.trans h (List.sublist_append_left l l')

theorem before_reverse : Before l.reverse x y ↔ Before l y x := by
  have hpair : [x, y] = [y, x].reverse := rfl
  rw [Before, hpair, List.reverse_sublist, Before]

theorem Before.map (f : α → β) (h : Before l x y) : Before (l.map f) (f x) (f y) :=
  List.Sublist.map f h

theorem before_cons_iff {w : α} : Before (w :: l) x y ↔ (x = w ∧ y ∈ l) ∨ Before l x y := by
  constructor
  · intro h
    cases h with
    | cons _ h => exact Or.inr h
    | cons_cons _ h => exact Or.inl ⟨rfl, List.singleton_sublist.mp h⟩
  · intro h'
    rcases h' with ⟨rfl, hy⟩ | h
    · exact (List.singleton_sublist.mpr hy).cons_cons x
    · exact List.Sublist.cons w h

/-- What stands before a member is the part of the list in front of it. -/
theorem before_middle_iff {done rest : List α} (hl : (done ++ y :: rest).Nodup) :
    Before (done ++ y :: rest) x y ↔ x ∈ done := by
  induction done with
  | nil =>
    rw [List.nil_append, List.nodup_cons] at hl
    rw [List.nil_append, before_cons_iff]
    constructor
    · intro h'
      rcases h' with ⟨-, hy⟩ | h
      · exact absurd hy hl.1
      · exact absurd h.right_mem hl.1
    · intro h
      simp at h
  | cons w done ih =>
    rw [List.cons_append, List.nodup_cons] at hl
    rw [List.cons_append, before_cons_iff, ih hl.2, List.mem_cons]
    simp

/-- Two different members of a list stand in one order or the other. -/
theorem before_or_before (hx : x ∈ l) (hy : y ∈ l) (hxy : x ≠ y) : Before l x y ∨ Before l y x := by
  induction l with
  | nil => simp at hx
  | cons w l ih =>
    rcases List.mem_cons.mp hx with hxw | hx
    · rcases List.mem_cons.mp hy with hyw | hy
      · exact absurd (hxw.trans hyw.symm) hxy
      · exact Or.inl (hxw ▸ (List.singleton_sublist.mpr hy).cons_cons x)
    · rcases List.mem_cons.mp hy with hyw | hy
      · exact Or.inr (hyw ▸ (List.singleton_sublist.mpr hx).cons_cons y)
      · rcases ih hx hy with h | h
        · exact Or.inl (List.Sublist.cons w h)
        · exact Or.inr (List.Sublist.cons w h)

/-- A relation that holds along the list holds between two members in list order. -/
theorem Before.rel {r : α → α → Prop} (hl : l.Pairwise r) (h : Before l x y) : r x y := by
  simpa using List.Pairwise.sublist h hl

theorem Before.trans (hl : l.Nodup) (hxy : Before l x y) (hyz : Before l y z) : Before l x z := by
  induction l with
  | nil => cases hxy
  | cons w l ih =>
    rw [List.nodup_cons] at hl
    cases hxy with
    | cons _ hxy =>
      cases hyz with
      | cons _ hyz => exact List.Sublist.cons w (ih hl.2 hxy hyz)
      | cons_cons _ hyz => exact absurd (Before.right_mem hxy) hl.1
    | cons_cons _ hy =>
      cases hyz with
      | cons _ hyz =>
        exact (List.singleton_sublist.mpr (Before.right_mem hyz)).cons_cons _
      | cons_cons _ hyz => exact absurd (List.singleton_sublist.mp hy) hl.1

theorem Before.asymm (hl : l.Nodup) (h : Before l x y) : ¬ Before l y x :=
  fun h' => (h.trans hl h').ne hl rfl

end Before

/-! ### The edge table -/

variable {α : Type*}

/-- Adjacency lists and in-degrees, filled edge by edge. -/
structure EdgeTable (α : Type*) where
  out : α → List α
  deg : α → ℕ

/-- No edges. -/
def EdgeTable.empty : EdgeTable α := ⟨fun _ => [], fun _ => 0⟩

/-- One more edge `x → y`. -/
def EdgeTable.addEdge [DecidableEq α] (t : EdgeTable α) (x y : α) : EdgeTable α where
  out := Function.update t.out x (t.out x ++ [y])
  deg := Function.update t.deg y (t.deg y + 1)

section Table

variable [DecidableEq α]

/-- The table of an edge list. -/
def EdgeTable.addEdges (t : EdgeTable α) (es : List (α × α)) : EdgeTable α :=
  es.foldl (fun t e => t.addEdge e.1 e.2) t

theorem EdgeTable.addEdges_out (t : EdgeTable α) (es : List (α × α)) (x : α) :
    (t.addEdges es).out x = t.out x ++ (es.filter (fun e => e.1 = x)).map Prod.snd := by
  induction es generalizing t with
  | nil => simp [EdgeTable.addEdges]
  | cons e es ih =>
    have hstep : t.addEdges (e :: es) = (t.addEdge e.1 e.2).addEdges es := rfl
    rw [hstep, ih]
    by_cases hx : e.1 = x
    · subst hx
      simp [EdgeTable.addEdge]
    · simp [EdgeTable.addEdge, hx, Function.update_of_ne (Ne.symm hx)]

theorem EdgeTable.addEdges_deg (t : EdgeTable α) (es : List (α × α)) (y : α) :
    (t.addEdges es).deg y = t.deg y + es.countP (fun e => e.2 = y) := by
  induction es generalizing t with
  | nil => simp [EdgeTable.addEdges]
  | cons e es ih =>
    have hstep : t.addEdges (e :: es) = (t.addEdge e.1 e.2).addEdges es := rfl
    rw [hstep, ih, List.countP_cons]
    by_cases hy : e.2 = y
    · subst hy
      simp only [EdgeTable.addEdge, Function.update_self, decide_true, if_true]
      omega
    · simp [EdgeTable.addEdge, hy, Function.update_of_ne (Ne.symm hy)]

end Table

variable [LinearOrder α]

/-! ### One batch -/

/-- Lower the in-degree along an adjacency list; the nodes that reach zero, in that order. -/
def relax : (α → ℕ) → List α → (α → ℕ) × List α
  | deg, [] => (deg, [])
  | deg, v :: vs =>
    let deg' := Function.update deg v (deg v - 1)
    let rest := relax deg' vs
    (rest.1, if deg' v = 0 then v :: rest.2 else rest.2)

theorem relax_fst (deg : α → ℕ) (vs : List α) (x : α) :
    (relax deg vs).1 x = deg x - vs.count x := by
  induction vs generalizing deg with
  | nil => simp [relax]
  | cons v vs ih =>
    simp only [relax, ih]
    by_cases hx : x = v
    · subst hx
      rw [Function.update_self, List.count_cons_self]
      omega
    · rw [Function.update_of_ne hx, List.count_cons_of_ne (Ne.symm hx)]

/-- As long as no in-degree is lowered below zero, the batch holds exactly the nodes all of whose
open edges were taken, once each. -/
theorem relax_ready (deg : α → ℕ) (vs : List α) (hle : ∀ x, vs.count x ≤ deg x) :
    (relax deg vs).2.Nodup ∧ ∀ x, x ∈ (relax deg vs).2 ↔ x ∈ vs ∧ vs.count x = deg x := by
  induction vs generalizing deg with
  | nil => simp [relax]
  | cons v vs ih =>
    have hv : vs.count v + 1 ≤ deg v := by simpa using hle v
    have hne : ∀ x, x ≠ v → (v :: vs).count x = vs.count x := fun x hx =>
      List.count_cons_of_ne (Ne.symm hx)
    have hle' : ∀ x, vs.count x ≤ Function.update deg v (deg v - 1) x := by
      intro x
      by_cases hx : x = v
      · subst hx
        rw [Function.update_self]
        omega
      · rw [Function.update_of_ne hx, ← hne x hx]
        exact hle x
    obtain ⟨hnd, hmem⟩ := ih _ hle'
    have hmem_ne : ∀ x, x ≠ v →
        (x ∈ (relax (Function.update deg v (deg v - 1)) vs).2 ↔
          x ∈ v :: vs ∧ (v :: vs).count x = deg x) := by
      intro x hx
      rw [hmem x, Function.update_of_ne hx, hne x hx]
      simp [hx]
    have hmem_v : v ∈ (relax (Function.update deg v (deg v - 1)) vs).2 ↔
        v ∈ vs ∧ vs.count v = deg v - 1 := by
      rw [hmem v, Function.update_self]
    simp only [relax, Function.update_self]
    split
    · rename_i hzero
      have hnot : v ∉ vs := fun hin => by
        have := List.count_pos_iff.mpr hin
        omega
      refine ⟨List.nodup_cons.mpr ⟨fun hin => hnot (hmem_v.mp hin).1, hnd⟩, fun x => ?_⟩
      by_cases hx : x = v
      · subst hx
        have hcount : vs.count x = 0 := List.count_eq_zero.mpr hnot
        simp only [List.mem_cons, true_or, List.count_cons_self, true_and, true_iff]
        omega
      · rw [List.mem_cons, or_iff_right hx]
        exact hmem_ne x hx
    · rename_i hpos
      refine ⟨hnd, fun x => ?_⟩
      by_cases hx : x = v
      · subst hx
        rw [hmem_v]
        simp only [List.mem_cons, true_or, List.count_cons_self, true_and]
        constructor
        · intro h
          obtain ⟨-, hc⟩ := h
          omega
        · intro hc
          exact ⟨List.count_pos_iff.mp (by omega), by omega⟩
      · exact hmem_ne x hx

/-- The batch depends on the adjacency list only up to permutation. -/
theorem relax_perm {vs ws : List α} (h : vs.Perm ws) :
    ∀ deg : α → ℕ, (relax deg vs).1 = (relax deg ws).1 ∧
      ((relax deg vs).2).Perm (relax deg ws).2 := by
  intro deg
  refine ⟨funext fun x => by rw [relax_fst, relax_fst, h.count_eq], ?_⟩
  induction h generalizing deg with
  | nil => exact List.Perm.refl _
  | cons v _ ih =>
    simp only [relax, Function.update_self]
    split
    · exact (ih _).cons v
    · exact ih _
  | swap a b l =>
    by_cases hab : a = b
    · subst hab
      exact List.Perm.refl _
    · have hcomm : Function.update (Function.update deg b (deg b - 1)) a (deg a - 1)
          = Function.update (Function.update deg a (deg a - 1)) b (deg b - 1) :=
        Function.update_comm (Ne.symm hab) _ _ _
      simp only [relax, Function.update_self, Function.update_of_ne hab,
        Function.update_of_ne (Ne.symm hab), hcomm]
      split <;> split
      · exact List.Perm.swap _ _ _
      · exact List.Perm.refl _
      · exact List.Perm.refl _
      · exact List.Perm.refl _
  | trans _ _ ih₁ ih₂ => exact (ih₁ deg).trans (ih₂ deg)

/-! ### The loop -/

/-- A batch in the order in which it joins the queue. -/
def batch (vs : List α) : List α := vs.insertionSort (· ≤ ·)

omit [LinearOrder α] in
theorem mem_batch [LinearOrder α] {vs : List α} {x : α} : x ∈ batch vs ↔ x ∈ vs :=
  List.mem_insertionSort _

theorem batch_sorted (vs : List α) : (batch vs).Pairwise (· ≤ ·) :=
  List.pairwise_insertionSort (· ≤ ·) vs

theorem batch_nodup {vs : List α} (h : vs.Nodup) : (batch vs).Nodup :=
  (List.perm_insertionSort (· ≤ ·) vs).nodup_iff.mpr h

theorem batch_perm {vs ws : List α} (h : vs.Perm ws) : batch vs = batch ws := by
  have hperm : (batch vs).Perm (batch ws) :=
    ((List.perm_insertionSort _ vs).trans h).trans (List.perm_insertionSort _ ws).symm
  exact hperm.eq_of_pairwise (fun a b _ _ => le_antisymm) (batch_sorted vs) (batch_sorted ws)

/-- At most `n` pops of the sort: in-degrees, queue and emitted nodes. -/
def kahn (out : α → List α) : ℕ → (α → ℕ) → List α → List α → (α → ℕ) × List α
  | 0, deg, _, sorted => (deg, sorted)
  | _ + 1, deg, [], sorted => (deg, sorted)
  | n + 1, deg, u :: queue, sorted =>
    let next := relax deg (out u)
    kahn out n next.1 (queue ++ batch next.2) (sorted ++ [u])

/-- The output depends on the adjacency lists only up to permutation. -/
theorem kahn_congr {out out' : α → List α} (h : ∀ u, (out u).Perm (out' u)) :
    ∀ (n : ℕ) (deg : α → ℕ) (queue sorted : List α),
      kahn out n deg queue sorted = kahn out' n deg queue sorted := by
  intro n
  induction n with
  | zero => intros; rfl
  | succ n ih =>
    intro deg queue sorted
    cases queue with
    | nil => rfl
    | cons u queue =>
      obtain ⟨h₁, h₂⟩ := relax_perm (h u) deg
      simp only [kahn, h₁, batch_perm h₂]
      exact ih _ _ _

/-- The number of edges into `v` whose source is not emitted yet. -/
def openEdges (es : List (α × α)) (sorted : List α) (v : α) : ℕ :=
  es.countP (fun e => e.2 = v ∧ e.1 ∉ sorted)

/-- Emitting `u` closes exactly its own edges. -/
theorem openEdges_snoc (es : List (α × α)) {sorted : List α} {u : α} (hu : u ∉ sorted) (v : α) :
    openEdges es sorted v =
      openEdges es (sorted ++ [u]) v + ((es.filter (fun e => e.1 = u)).map Prod.snd).count v := by
  induction es with
  | nil => rfl
  | cons e es ih =>
    simp only [openEdges, List.countP_cons] at ih ⊢
    rw [ih]
    by_cases hsrc : e.1 = u
    · by_cases hdst : e.2 = v
      · simp [hsrc, hdst, hu]
        omega
      · simp [hsrc, hdst]
    · by_cases hdst : e.2 = v
      · by_cases hs : e.1 ∈ sorted
        · simp [hsrc, hdst, hs]
        · simp [hsrc, hdst, hs]
          omega
      · simp [hsrc, hdst]

/-- What holds between two pops. -/
structure KahnInv (nodes : List α) (es : List (α × α)) (deg : α → ℕ) (queue sorted : List α) :
    Prop where
  nodup : (sorted ++ queue).Nodup
  sub : ∀ v ∈ sorted ++ queue, v ∈ nodes
  degree : ∀ v, deg v = openEdges es sorted v
  settled : ∀ v ∈ nodes, deg v = 0 ↔ v ∈ sorted ++ queue
  before : ∀ e ∈ es, e.2 ∈ sorted → Before sorted e.1 e.2

section Invariant

variable {nodes : List α} {es : List (α × α)} {deg : α → ℕ} {queue sorted : List α} {u : α}

theorem KahnInv.fresh (h : KahnInv nodes es deg (u :: queue) sorted) : u ∉ sorted := by
  have hd := (List.nodup_append.mp h.nodup).2.2
  exact fun hu => hd u hu u List.mem_cons_self rfl

/-- No in-degree is lowered below zero. -/
theorem KahnInv.count_le (h : KahnInv nodes es deg (u :: queue) sorted) (v : α) :
    ((es.filter (fun e => e.1 = u)).map Prod.snd).count v ≤ deg v := by
  rw [h.degree v, openEdges_snoc es h.fresh v]
  omega

/-- Every edge into a queued node starts at an emitted one. -/
theorem KahnInv.sources (h : KahnInv nodes es deg queue sorted) {v : α} (hv : v ∈ queue) :
    ∀ e ∈ es, e.2 = v → e.1 ∈ sorted := by
  intro e he hev
  have hmem : v ∈ sorted ++ queue := List.mem_append_right _ hv
  have hzero : openEdges es sorted v = 0 := by
    rw [← h.degree v, (h.settled v (h.sub v hmem)).mpr hmem]
  by_contra hne
  have := List.countP_eq_zero.mp hzero e he
  simp [hev, hne] at this

/-- **One pop keeps the invariant.** -/
theorem KahnInv.pop (hin : ∀ e ∈ es, e.1 ∈ nodes ∧ e.2 ∈ nodes) {out : List α}
    (hout : out.Perm ((es.filter (fun e => e.1 = u)).map Prod.snd))
    (h : KahnInv nodes es deg (u :: queue) sorted) :
    KahnInv nodes es (relax deg out).1 (queue ++ batch (relax deg out).2) (sorted ++ [u]) := by
  have hcount : ∀ v, out.count v = ((es.filter (fun e => e.1 = u)).map Prod.snd).count v :=
    fun v => hout.count_eq v
  obtain ⟨hnd, hready⟩ := relax_ready deg out (fun v => by rw [hcount]; exact h.count_le v)
  have hlist : sorted ++ [u] ++ (queue ++ batch (relax deg out).2)
      = sorted ++ u :: queue ++ batch (relax deg out).2 := by simp
  have hpos : ∀ v ∈ out, 0 < out.count v := fun v hv => List.count_pos_iff.mpr hv
  have hnodes : ∀ v ∈ out, v ∈ nodes := by
    intro v hv
    obtain ⟨e, he, rfl⟩ := List.mem_map.mp (hout.subset hv)
    exact (hin e (List.mem_filter.mp he).1).2
  refine ⟨?_, ?_, ?_, ?_, ?_⟩
  · rw [hlist, List.nodup_append]
    refine ⟨h.nodup, batch_nodup hnd, ?_⟩
    rintro v hv w hw rfl
    obtain ⟨hvo, hvc⟩ := (hready v).mp (mem_batch.mp hw)
    have hzero := (h.settled v (hnodes v hvo)).mpr hv
    have := hpos v hvo
    omega
  · rw [hlist]
    intro v hv
    rcases List.mem_append.mp hv with hv | hv
    · exact h.sub v hv
    · exact hnodes v ((hready v).mp (mem_batch.mp hv)).1
  · intro v
    rw [relax_fst, h.degree v, openEdges_snoc es h.fresh v, hcount]
    omega
  · rw [hlist]
    intro v hv
    rw [relax_fst, List.mem_append, mem_batch, hready v]
    constructor
    · intro hz
      by_cases hd : deg v = 0
      · exact Or.inl ((h.settled v hv).mp hd)
      · have hle := h.count_le v
        rw [← hcount] at hle
        exact Or.inr ⟨List.count_pos_iff.mp (by omega), by omega⟩
    · intro h'
      rcases h' with hs | ⟨-, hc⟩
      · rw [(h.settled v hv).mpr hs, Nat.zero_sub]
      · omega
  · intro e he hmem
    rcases List.mem_append.mp hmem with hmem | hmem
    · exact (h.before e he hmem).append_right [u]
    · rw [List.mem_singleton] at hmem
      have hsrc : e.1 ∈ sorted := h.sources List.mem_cons_self e he hmem
      rw [hmem]
      exact before_snoc hsrc

/-- A counter that covers the nodes not yet emitted empties the queue. -/
theorem kahn_inv {out : α → List α} (hin : ∀ e ∈ es, e.1 ∈ nodes ∧ e.2 ∈ nodes)
    (hout : ∀ u, (out u).Perm ((es.filter (fun e => e.1 = u)).map Prod.snd)) :
    ∀ (n : ℕ) (deg : α → ℕ) (queue sorted : List α), KahnInv nodes es deg queue sorted →
      nodes.length ≤ n + sorted.length →
      KahnInv nodes es (kahn out n deg queue sorted).1 [] (kahn out n deg queue sorted).2 := by
  intro n
  induction n with
  | zero =>
    intro deg queue sorted h hn
    have hlen := (h.nodup.subperm (fun v hv => h.sub v hv)).length_le
    rw [List.length_append] at hlen
    have hq : queue = [] := List.eq_nil_of_length_eq_zero (by omega)
    subst hq
    exact h
  | succ n ih =>
    intro deg queue sorted h hn
    cases queue with
    | nil => exact h
    | cons u queue =>
      refine ih _ _ _ (h.pop hin (hout u)) ?_
      rw [List.length_append, List.length_singleton]
      omega

/-- The queue the loop starts from: the nodes of in-degree zero, in increasing order. -/
theorem KahnInv.init (hnodes : nodes.Nodup) {ready : List α}
    (hready : ready.Perm (nodes.filter (fun v => deg v = 0)))
    (hdeg : ∀ v, deg v = es.countP (fun e => e.2 = v)) :
    KahnInv nodes es deg (batch ready) [] where
  nodup := batch_nodup (hready.nodup_iff.mpr (hnodes.filter _))
  sub := by
    intro v hv
    exact (List.mem_filter.mp (hready.subset (mem_batch.mp hv))).1
  degree := by
    intro v
    simp [openEdges, hdeg v]
  settled := by
    intro v hv
    rw [List.nil_append, mem_batch, hready.mem_iff, List.mem_filter]
    simp [hv]
  before := by
    intro e _ hmem
    simp at hmem

end Invariant

/-! ### Cycles -/

/-- The edge relation of an edge list. -/
def EdgeRel (es : List (α × α)) (x y : α) : Prop := (x, y) ∈ es

omit [LinearOrder α] in
/-- A finite set of nodes that each have a predecessor in the set contains a cycle. -/
theorem exists_cycle {r : α → α → Prop} (rest : List α) (hne : rest ≠ [])
    (hpred : ∀ v ∈ rest, ∃ u ∈ rest, r u v) :
    ∃ v ∈ rest, Relation.TransGen r v v := by
  by_contra hno
  let s : Type _ := {v // v ∈ rest}
  let t : s → s → Prop := fun u v => Relation.TransGen r u.1 v.1
  have : Finite s := (List.finite_toSet rest).to_subtype
  have : IsTrans s t := ⟨fun _ _ _ h₁ h₂ => h₁.trans h₂⟩
  have : Std.Irrefl t := ⟨fun v hv => hno ⟨v.1, v.2, hv⟩⟩
  have hwf : WellFounded t := Finite.wellFounded_of_trans_of_irrefl t
  obtain ⟨a, ha⟩ := List.exists_mem_of_ne_nil rest hne
  obtain ⟨m, -, hmin⟩ := hwf.has_min Set.univ ⟨⟨a, ha⟩, trivial⟩
  obtain ⟨u, hu, hr⟩ := hpred m.1 m.2
  exact hmin ⟨u, hu⟩ trivial (Relation.TransGen.single hr)

omit [LinearOrder α] in
/-- Going back from a node of such a set leads to a cycle. -/
theorem exists_cycle_above {r : α → α → Prop} {rest : List α}
    (hpred : ∀ v ∈ rest, ∃ u ∈ rest, r u v) {v : α} (hv : v ∈ rest) :
    ∃ c, Relation.TransGen r c c ∧ Relation.ReflTransGen r c v := by
  classical
  let above := rest.filter fun u => Relation.ReflTransGen r u v
  have hmem : ∀ u, u ∈ above ↔ u ∈ rest ∧ Relation.ReflTransGen r u v := by
    intro u
    rw [List.mem_filter, decide_eq_true_iff]
  have habove : ∀ w ∈ above, ∃ u ∈ above, r u w := by
    intro w hw
    obtain ⟨hrest, hreach⟩ := (hmem w).mp hw
    obtain ⟨u, hu, huw⟩ := hpred w hrest
    exact ⟨u, (hmem u).mpr ⟨hu, hreach.head huw⟩, huw⟩
  have hne : above ≠ [] := List.ne_nil_of_mem ((hmem v).mpr ⟨hv, .refl⟩)
  obtain ⟨c, hc, hcycle⟩ := exists_cycle above hne habove
  exact ⟨c, hcycle, ((hmem c).mp hc).2⟩

section Result

variable {nodes : List α} {es : List (α × α)} {deg : α → ℕ} {sorted : List α}

/-- A chain of edges into an emitted node goes forward in the output. -/
theorem KahnInv.chain_before (h : KahnInv nodes es deg [] sorted) {x y : α}
    (hxy : Relation.TransGen (EdgeRel es) x y) (hy : y ∈ sorted) : Before sorted x y := by
  have hnd : sorted.Nodup := by simpa using h.nodup
  induction hxy with
  | single hedge => exact h.before _ hedge hy
  | tail _ hedge ih =>
    have hb := h.before _ hedge hy
    exact (ih hb.left_mem).trans hnd hb

/-- An edge into a node that is not emitted is still open. -/
theorem KahnInv.open_source (hin : ∀ e ∈ es, e.1 ∈ nodes ∧ e.2 ∈ nodes)
    (h : KahnInv nodes es deg [] sorted) {v : α} (hv : v ∈ nodes) (hleft : v ∉ sorted) :
    ∃ u ∈ nodes, u ∉ sorted ∧ EdgeRel es u v := by
  have hdeg : deg v ≠ 0 := fun hz => hleft (by simpa using (h.settled v hv).mp hz)
  rw [h.degree v] at hdeg
  obtain ⟨e, he, hopen⟩ := List.countP_pos_iff.mp (Nat.pos_of_ne_zero hdeg)
  simp only [decide_eq_true_eq] at hopen
  have hpair : (e.1, v) = e := Prod.ext rfl hopen.1.symm
  refine ⟨e.1, (hin e he).1, hopen.2, ?_⟩
  rw [EdgeRel, hpair]
  exact he

/-- **What is left over**: the nodes on a cycle and those that a cycle leads to. -/
theorem KahnInv.left_over_iff (hin : ∀ e ∈ es, e.1 ∈ nodes ∧ e.2 ∈ nodes)
    (h : KahnInv nodes es deg [] sorted) {v : α} (hv : v ∈ nodes) :
    v ∉ sorted ↔
      ∃ c, Relation.TransGen (EdgeRel es) c c ∧ Relation.ReflTransGen (EdgeRel es) c v := by
  constructor
  · intro hleft
    have hrest : ∀ w, w ∈ nodes.filter (fun w => w ∉ sorted) ↔ w ∈ nodes ∧ w ∉ sorted := by
      intro w
      rw [List.mem_filter, decide_eq_true_iff]
    have hpred : ∀ w ∈ nodes.filter (fun w => w ∉ sorted),
        ∃ u ∈ nodes.filter (fun w => w ∉ sorted), EdgeRel es u w := by
      intro w hw
      obtain ⟨hwn, hws⟩ := (hrest w).mp hw
      obtain ⟨u, hu, hus, huw⟩ := h.open_source hin hwn hws
      exact ⟨u, (hrest u).mpr ⟨hu, hus⟩, huw⟩
    exact exists_cycle_above hpred ((hrest v).mpr ⟨hv, hleft⟩)
  · rintro ⟨c, hcycle, hreach⟩ hmem
    have hnd : sorted.Nodup := by simpa using h.nodup
    have hc : c ∈ sorted := by
      rcases Relation.reflTransGen_iff_eq_or_transGen.mp hreach with rfl | hpath
      · exact hmem
      · exact (h.chain_before hpath hmem).left_mem
    exact (h.chain_before hcycle hc).ne hnd rfl

/-- **The sort emits every node exactly when the edges have no cycle.** -/
theorem KahnInv.complete_iff (hnodes : nodes.Nodup) (hin : ∀ e ∈ es, e.1 ∈ nodes ∧ e.2 ∈ nodes)
    (h : KahnInv nodes es deg [] sorted) :
    sorted.length = nodes.length ↔ ∀ v, ¬ Relation.TransGen (EdgeRel es) v v := by
  have hnd : sorted.Nodup := by simpa using h.nodup
  have hsub : sorted ⊆ nodes := fun v hv => h.sub v (List.mem_append_left _ hv)
  constructor
  · intro hlen v hcyc
    have hperm : sorted.Perm nodes :=
      (hnd.subperm hsub).perm_of_length_le (by omega)
    have hv : v ∈ nodes := by
      rcases hcyc with hedge | ⟨-, hedge⟩
      · exact (hin _ hedge).2
      · exact (hin _ hedge).2
    exact (h.left_over_iff hin hv).mpr ⟨v, hcyc, .refl⟩ (hperm.mem_iff.mpr hv)
  · intro hacyc
    have hall : nodes ⊆ sorted := by
      intro v hv
      by_contra hleft
      obtain ⟨c, hcycle, -⟩ := (h.left_over_iff hin hv).mp hleft
      exact hacyc c hcycle
    exact Nat.le_antisymm (hnd.subperm hsub).length_le (hnodes.subperm hall).length_le

end Result

end WriteonceOs.Library
