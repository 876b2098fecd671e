import Mathlib.Logic.Relation
import Mathlib.Data.List.Nodup
import Mathlib.Data.List.Perm.Basic
import Mathlib.Data.List.Perm.Subperm

/-!
# Worklist closure of a successor function

The loop "pop a node, insert every successor that is new, push what was inserted", run from one
start node.  The visited set is kept in insertion order, so that it is a duplicate-free list.  The
loop is bounded by a counter of pops; every pop takes a different node, so a counter as large as
any finite universe that holds the start and is closed under successors empties the queue.

* `visit_spec` — one pop: what is added to the visited list is exactly what was new;
* `closure_nodup`, `mem_closure_iff` — the result lists, once each, the nodes reachable from the
  start.
-/

namespace WriteonceOs.Library

variable {α : Type*} [DecidableEq α]

/-- Insert the new nodes of a successor list into the visited list and the queue. -/
def visit : List α → List α → List α → List α × List α
  | seen, queue, [] => (seen, queue)
  | seen, queue, v :: vs =>
    if v ∈ seen then visit seen queue vs else visit (seen ++ [v]) (queue ++ [v]) vs

/-- At most `n` pops of the worklist loop. -/
def worklist (succ : α → List α) : ℕ → List α → List α → List α
  | 0, seen, _ => seen
  | _ + 1, seen, [] => seen
  | n + 1, seen, u :: queue =>
    let next := visit seen queue (succ u)
    worklist succ n next.1 next.2

/-- The nodes the loop visits from `a`, in the order of their insertion. -/
def closure (succ : α → List α) (n : ℕ) (a : α) : List α := worklist succ n [a] [a]

/-- One pop adds the same new nodes, once each, to the visited list and to the queue. -/
theorem visit_spec (seen queue vs : List α) (hseen : seen.Nodup) :
    ∃ new, visit seen queue vs = (seen ++ new, queue ++ new) ∧ (seen ++ new).Nodup ∧
      (∀ x ∈ new, x ∈ vs) ∧ ∀ x ∈ vs, x ∈ seen ++ new := by
  induction vs generalizing seen queue with
  | nil => exact ⟨[], by simp [visit], by simpa using hseen, by simp, by simp⟩
  | cons v vs ih =>
    by_cases hv : v ∈ seen
    · obtain ⟨new, heq, hnd, hsub, hall⟩ := ih seen queue hseen
      refine ⟨new, by simpa only [visit, if_pos hv] using heq, hnd,
        fun x hx => List.mem_cons_of_mem v (hsub x hx), ?_⟩
      intro x hx
      rcases List.mem_cons.mp hx with rfl | hx
      · exact List.mem_append_left _ hv
      · exact hall x hx
    · have hsnoc : (seen ++ [v]).Nodup := by
        rw [List.nodup_append]
        refine ⟨hseen, by simp, ?_⟩
        intro x hx y hy hxy
        rw [List.mem_singleton] at hy
        exact hv (hy ▸ hxy ▸ hx)
      obtain ⟨new, heq, hnd, hsub, hall⟩ := ih (seen ++ [v]) (queue ++ [v]) hsnoc
      refine ⟨v :: new, ?_, ?_, ?_, ?_⟩
      · simp only [visit, if_neg hv, heq, List.append_assoc, List.singleton_append]
      · simpa only [List.append_assoc, List.singleton_append] using hnd
      · intro x hx
        rcases List.mem_cons.mp hx with rfl | hx
        · exact List.mem_cons_self
        · exact List.mem_cons_of_mem v (hsub x hx)
      · intro x hx
        rcases List.mem_cons.mp hx with rfl | hx
        · simp
        · simpa only [List.append_assoc, List.singleton_append] using hall x hx

/-- What holds between two pops: the queue holds visited nodes, every visited node outside the
queue has its successors visited, and every visited node is reachable from the start. -/
structure WorklistInv (succ : α → List α) (a : α) (seen queue : List α) : Prop where
  start : a ∈ seen
  nodup : seen.Nodup
  queued : ∀ x ∈ queue, x ∈ seen
  expanded : ∀ x ∈ seen, x ∉ queue → ∀ y ∈ succ x, y ∈ seen
  reached : ∀ x ∈ seen, Relation.ReflTransGen (fun u v => v ∈ succ u) a x

omit [DecidableEq α] in
theorem WorklistInv.init (succ : α → List α) (a : α) : WorklistInv succ a [a] [a] where
  start := List.mem_singleton_self a
  nodup := List.nodup_singleton a
  queued := fun _ hx => hx
  expanded := fun _ hx hnot => absurd hx hnot
  reached := by
    intro x hx
    rw [List.mem_singleton.mp hx]

/-- One pop keeps the invariant. -/
theorem WorklistInv.pop {succ : α → List α} {a u : α} {seen queue : List α}
    (h : WorklistInv succ a seen (u :: queue)) :
    WorklistInv succ a (visit seen queue (succ u)).1 (visit seen queue (succ u)).2 := by
  obtain ⟨new, heq, hnd, hsub, hall⟩ := visit_spec seen queue (succ u) h.nodup
  rw [heq]
  have hu : u ∈ seen := h.queued u List.mem_cons_self
  refine ⟨List.mem_append_left _ h.start, hnd, ?_, ?_, ?_⟩
  · intro x hx
    rcases List.mem_append.mp hx with hx | hx
    · exact List.mem_append_left _ (h.queued x (List.mem_cons_of_mem u hx))
    · exact List.mem_append_right _ hx
  · intro x hx hnot y hy
    have hnew : x ∉ new := fun hmem => hnot (List.mem_append_right _ hmem)
    rcases List.mem_append.mp hx with hx | hx
    · by_cases hxu : x = u
      · exact hall y (hxu ▸ hy)
      · have hq : x ∉ u :: queue := by
          intro hmem
          rcases List.mem_cons.mp hmem with hmem | hmem
          · exact hxu hmem
          · exact hnot (List.mem_append_left _ hmem)
        exact List.mem_append_left _ (h.expanded x hx hq y hy)
    · exact absurd hx hnew
  · intro x hx
    rcases List.mem_append.mp hx with hx | hx
    · exact h.reached x hx
    · exact (h.reached u hu).tail (hsub x hx)

/-- A counter that covers the nodes of a closed universe not yet popped empties the queue. -/
theorem worklist_inv {succ : α → List α} {a : α} (U : List α)
    (hU : ∀ x, Relation.ReflTransGen (fun u v => v ∈ succ u) a x → x ∈ U) :
    ∀ (n : ℕ) (seen queue : List α), WorklistInv succ a seen queue →
      U.length + queue.length ≤ n + seen.length →
      WorklistInv succ a (worklist succ n seen queue) [] := by
  intro n
  induction n with
  | zero =>
    intro seen queue h hn
    have hsub : seen ⊆ U := fun x hx => hU x (h.reached x hx)
    have hlen : seen.length ≤ U.length := (h.nodup.subperm hsub).length_le
    have hq : queue = [] := List.eq_nil_of_length_eq_zero (by omega)
    subst hq
    exact h
  | succ n ih =>
    intro seen queue h hn
    cases queue with
    | nil => exact h
    | cons u queue =>
      apply ih _ _ h.pop
      obtain ⟨new, heq, -, -, -⟩ := visit_spec seen queue (succ u) h.nodup
      rw [heq]
      simp only [List.length_append, List.length_cons] at hn ⊢
      omega

section Closure

variable {succ : α → List α} {n : ℕ} {a : α} {U : List α}

theorem closure_inv (hU : ∀ x, Relation.ReflTransGen (fun u v => v ∈ succ u) a x → x ∈ U)
    (hn : U.length ≤ n) : WorklistInv succ a (closure succ n a) [] :=
  worklist_inv U hU n [a] [a] (WorklistInv.init succ a) (by simpa using hn)

theorem closure_nodup (hU : ∀ x, Relation.ReflTransGen (fun u v => v ∈ succ u) a x → x ∈ U)
    (hn : U.length ≤ n) : (closure succ n a).Nodup :=
  (closure_inv hU hn).nodup

/-- **The loop visits exactly the reachable nodes.** -/
theorem mem_closure_iff (hU : ∀ x, Relation.ReflTransGen (fun u v => v ∈ succ u) a x → x ∈ U)
    (hn : U.length ≤ n) (x : α) :
    x ∈ closure succ n a ↔ Relation.ReflTransGen (fun u v => v ∈ succ u) a x := by
  have h := closure_inv hU hn
  refine ⟨h.reached x, fun hx => ?_⟩
  induction hx with
  | refl => exact h.start
  | tail _ hbc ih => exact h.expanded _ ih List.not_mem_nil _ hbc

end Closure

end WriteonceOs.Library
