import Mathlib.Data.List.Destutter
import Mathlib.Data.List.Nodup
import Mathlib.Data.List.Sort

/-!
# Directory listings

A directory is listed in no particular order.  What a program makes of a listing should not depend
on the order: it may sort the entries, or look for one that only one entry can be.

* `sortOn_congr` — entries that a key tells apart are sorted in one way only;
* `sortDedup_strict` — a sorted list without repeats has each entry once, in order;
* `find?_congr` — the only entry of a kind is found in every order;
* `Listing`, `files` — a directory with everything below it, and its files in the order in which a
  depth-first search comes to them.
-/

namespace WriteonceOs.Library

/-! ### Sorting -/

section Sorting

variable {α κ : Type*} [LinearOrder κ] (key : α → κ)

/-- Sort by a key; entries of one key stay as they were. -/
def sortOn (xs : List α) : List α := xs.insertionSort fun a b => key a ≤ key b

theorem sortOn_perm (xs : List α) : (sortOn key xs).Perm xs := List.perm_insertionSort _ xs

@[simp] theorem mem_sortOn {xs : List α} {a : α} : a ∈ sortOn key xs ↔ a ∈ xs :=
  (sortOn_perm key xs).mem_iff

theorem sortOn_sorted (xs : List α) : (sortOn key xs).Pairwise fun a b => key a ≤ key b := by
  have : Std.Total fun a b : α => key a ≤ key b := ⟨fun a b => le_total (key a) (key b)⟩
  have : IsTrans α fun a b => key a ≤ key b := ⟨fun _ _ _ => le_trans⟩
  exact List.pairwise_insertionSort _ xs

/-- **Entries that a key tells apart are sorted in one way only.** -/
theorem sortOn_congr {xs ys : List α} (hperm : xs.Perm ys)
    (hinj : ∀ a ∈ xs, ∀ b ∈ xs, key a = key b → a = b) : sortOn key xs = sortOn key ys := by
  have hxs := sortOn_perm key xs
  have hys := sortOn_perm key ys
  refine (hxs.trans (hperm.trans hys.symm)).eq_of_pairwise ?_ (sortOn_sorted key xs)
    (sortOn_sorted key ys)
  intro a b ha hb hab hba
  have hb' : b ∈ xs := hperm.mem_iff.mpr (hys.mem_iff.mp hb)
  exact hinj a (hxs.mem_iff.mp ha) b hb' (le_antisymm hab hba)

/-- With distinct keys the order is strict. -/
theorem sortOn_strict {xs : List α} (h : (xs.map key).Nodup) :
    (sortOn key xs).Pairwise fun a b => key a < key b := by
  have hnodup : ((sortOn key xs).map key).Nodup := ((sortOn_perm key xs).map key).nodup_iff.mpr h
  have hne : (sortOn key xs).Pairwise fun a b => key a ≠ key b := List.pairwise_map.mp hnodup
  exact (sortOn_sorted key xs).imp₂ (fun _ _ hle hne => lt_of_le_of_ne hle hne) hne

end Sorting

/-! ### Repeats -/

section Repeats

variable {α : Type*} [LinearOrder α] {xs : List α}

/-- Sort, and keep one of equal neighbours. -/
def sortDedup (xs : List α) : List α := (sortOn id xs).destutter (· ≠ ·)

theorem mem_destutter_ne {xs : List α} {a : α} : a ∈ xs.destutter (· ≠ ·) ↔ a ∈ xs := by
  refine ⟨fun h => (List.destutter_sublist _ xs).subset h, ?_⟩
  have hmem (b : α) (l : List α) : a ∈ b :: l → a ∈ l.destutter' (· ≠ ·) b := by
    induction l generalizing b with
    | nil => exact id
    | cons c l ih =>
      intro ha
      by_cases hbc : b = c
      · subst hbc
        rw [List.destutter'_cons_neg _ (by simp)]
        rcases List.mem_cons.mp ha with rfl | ha
        · exact ih a List.mem_cons_self
        · exact ih b ha
      · rw [List.destutter'_cons_pos _ hbc]
        rcases List.mem_cons.mp ha with rfl | ha
        · exact List.mem_cons_self
        · exact List.mem_cons_of_mem _ (ih c ha)
  cases xs with
  | nil => exact id
  | cons b l => exact hmem b l

@[simp] theorem mem_sortDedup {a : α} : a ∈ sortDedup xs ↔ a ∈ xs := by
  rw [sortDedup, mem_destutter_ne, mem_sortOn]

/-- **Each once, and in order.** -/
theorem sortDedup_strict (xs : List α) : (sortDedup xs).Pairwise (· < ·) := by
  have hsorted : (sortDedup xs).Pairwise (· ≤ ·) :=
    (sortOn_sorted id xs).sublist (List.destutter_sublist _ _)
  have hne : (sortDedup xs).IsChain (· ≠ ·) := List.isChain_destutter _ _
  refine List.isChain_iff_pairwise.mp (List.isChain_iff_getElem.mpr fun i hi => ?_)
  have hle := List.isChain_iff_getElem.mp hsorted.isChain i hi
  exact lt_of_le_of_ne hle (List.isChain_iff_getElem.mp hne i hi)

end Repeats

/-! ### Searching -/

section Searching

variable {α : Type*} {p : α → Bool} {xs ys : List α}

theorem find?_of_unique {a : α} (ha : a ∈ xs) (hp : p a = true)
    (h : ∀ b ∈ xs, p b = true → b = a) : xs.find? p = some a := by
  cases hfind : xs.find? p with
  | none => exact absurd hp (by simpa using List.find?_eq_none.mp hfind a ha)
  | some b => rw [h b (List.mem_of_find?_eq_some hfind) (List.find?_some hfind)]

/-- **The only entry of a kind is found in every order.** -/
theorem find?_congr (hmem : ∀ a, a ∈ xs ↔ a ∈ ys)
    (huniq : ∀ a ∈ xs, ∀ b ∈ xs, p a = true → p b = true → a = b) :
    xs.find? p = ys.find? p := by
  cases hfind : xs.find? p with
  | none =>
    have hnone : ∀ b ∈ ys, ¬ p b = true := fun b hb =>
      List.find?_eq_none.mp hfind b ((hmem b).mpr hb)
    exact (List.find?_eq_none.mpr hnone).symm
  | some a =>
    have ha : a ∈ xs := List.mem_of_find?_eq_some hfind
    have hpa : p a = true := List.find?_some hfind
    refine (find?_of_unique ((hmem a).mp ha) hpa ?_).symm
    intro b hb hpb
    exact huniq b ((hmem b).mpr hb) a ha hpb hpa

end Searching

/-! ### Trees -/

/-- The entries of a directory as they are listed; a directory that cannot be read lists none. -/
inductive Listing (ν : Type*) where
  | done
  | file (name : ν) (rest : Listing ν)
  | dir (name : ν) (below rest : Listing ν)
  deriving DecidableEq, Repr

namespace Listing

variable {ν : Type*}

/-- The files from a place on, depth first. -/
def files (place : List ν) : Listing ν → List (List ν)
  | .done => []
  | .file name rest => (place ++ [name]) :: files place rest
  | .dir name below rest => files (place ++ [name]) below ++ files place rest

end Listing

end WriteonceOs.Library
