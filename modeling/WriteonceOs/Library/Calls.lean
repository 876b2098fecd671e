import Mathlib.Data.List.Basic

/-!
# Programs that call an operation

A program calls an operation and goes on with what it returns.  The operation may be undefined for
some arguments, as a sum is that overflows; a program that calls it there does not end.  Next to it
stands a total operation that agrees with it where it is defined.

* `value`, `checked` — the program with the total operation and with the other one;
* `calls` — the arguments that it calls the total one with;
* `checked_ne_none_iff` — it ends exactly when the operation is defined on these;
* `checked_eq_value` — and then with the same result.
-/

namespace WriteonceOs.Library

inductive Calling (ι β α : Type) where
  | done (a : α)
  | call (i : ι) (next : β → Calling ι β α)

namespace Calling

variable {ι β α γ δ : Type}

protected def bind : Calling ι β α → (α → Calling ι β γ) → Calling ι β γ
  | done a, f => f a
  | call i next, f => call i fun b => (next b).bind f

instance : Monad (Calling ι β) where
  pure := done
  bind := Calling.bind

def value (op : ι → β) : Calling ι β α → α
  | done a => a
  | call i next => (next (op i)).value op

def calls (op : ι → β) : Calling ι β α → List ι
  | done _ => []
  | call i next => i :: (next (op i)).calls op

def checked (op : ι → Option β) : Calling ι β α → Option α
  | done a => some a
  | call i next =>
    match op i with
    | none => none
    | some b => (next b).checked op

section Total

variable (op : ι → β)

@[simp] theorem value_pure (a : α) : (pure a : Calling ι β α).value op = a := rfl

@[simp] theorem value_bind (p : Calling ι β α) (f : α → Calling ι β γ) :
    (p >>= f).value op = (f (p.value op)).value op := by
  induction p with
  | done a => rfl
  | call i next ih => exact ih (op i)

@[simp] theorem value_ite (c : Prop) [Decidable c] (p q : Calling ι β α) :
    (if c then p else q).value op = if c then p.value op else q.value op :=
  apply_ite (value op) c p q

@[simp] theorem calls_pure (a : α) : (pure a : Calling ι β α).calls op = [] := rfl

@[simp] theorem calls_call (i : ι) (next : β → Calling ι β α) :
    (call i next).calls op = i :: (next (op i)).calls op := rfl

@[simp] theorem calls_bind (p : Calling ι β α) (f : α → Calling ι β γ) :
    (p >>= f).calls op = p.calls op ++ (f (p.value op)).calls op := by
  induction p with
  | done a => rfl
  | call i next ih => exact congrArg (i :: ·) (ih (op i))

theorem value_foldlM (f : γ → δ → Calling ι β γ) (l : List δ) (c : γ) :
    (l.foldlM f c).value op = l.foldl (fun c d => (f c d).value op) c := by
  induction l generalizing c with
  | nil => rfl
  | cons d l ih => rw [List.foldlM_cons, value_bind, ih, List.foldl_cons]

/-- Steps that call nothing make up a loop that calls nothing. -/
theorem calls_foldlM {I : γ → Prop} {f : γ → δ → Calling ι β γ}
    (h : ∀ c d, I c → (f c d).calls op = [] ∧ I ((f c d).value op)) (l : List δ) {c : γ}
    (hc : I c) : (l.foldlM f c).calls op = [] ∧ I ((l.foldlM f c).value op) := by
  induction l generalizing c with
  | nil => exact ⟨rfl, hc⟩
  | cons d l ih =>
    obtain ⟨hcalls, hnext⟩ := h c d hc
    rw [List.foldlM_cons, calls_bind, value_bind, hcalls]
    exact ih hnext

end Total

section Checked

variable {op : ι → β} {op' : ι → Option β}

/-- **The program ends** exactly when the operation is defined on every call. -/
theorem checked_ne_none_iff (hop : ∀ i, op' i = none ∨ op' i = some (op i))
    (p : Calling ι β α) : p.checked op' ≠ none ↔ ∀ i ∈ p.calls op, op' i ≠ none := by
  induction p with
  | done a => exact iff_of_true nofun nofun
  | call i next ih =>
    rw [calls_call, List.forall_mem_cons, checked]
    rcases hop i with hnone | hsome
    · rw [hnone]
      exact iff_of_false (fun h => h rfl) fun h => h.1 rfl
    · rw [hsome, ← ih (op i)]
      exact (and_iff_right nofun).symm

/-- A program that ends does so with the value. -/
theorem checked_eq_value (hop : ∀ i, op' i = none ∨ op' i = some (op i)) {p : Calling ι β α}
    (h : p.checked op' ≠ none) : p.checked op' = some (p.value op) := by
  induction p with
  | done a => rfl
  | call i next ih =>
    rw [checked] at h ⊢
    rcases hop i with hnone | hsome
    · rw [hnone] at h
      exact absurd rfl h
    · rw [hsome] at h ⊢
      exact ih (op i) h

end Checked

end Calling

end WriteonceOs.Library
