import Mathlib.Algebra.Order.Group.Multiset
import Mathlib.Tactic.Abel
import WriteonceOs.Library.Run

/-!
# Books of a run

A system takes entries in and gives them out again.  `collect` lists what the operations of a run
give out, in the order of the run; when every operation balances what it takes in, holds and gives
out, so does the run.

* `collect_forall` — what holds of everything that a step gives out;
* `ledger_run` — the books of a run balance.
-/

namespace WriteonceOs.Library

variable {σ ω α β : Type*} {step : σ → ω → Except σ σ} {out : σ → ω → List α}

/-- What the operations of a run give out. -/
def collect (step : σ → ω → Except σ σ) (out : σ → ω → List α) : σ → List ω → List α
  | _, [] => []
  | s, op :: ops =>
    out s op ++
      match step s op with
      | .error _ => []
      | .ok s' => collect step out s' ops

theorem collect_forall {P : α → Prop} (h : ∀ s op, ∀ a ∈ out s op, P a) (s : σ) (ops : List ω) :
    ∀ a ∈ collect step out s ops, P a := by
  induction ops generalizing s with
  | nil => exact fun _ ha => absurd ha List.not_mem_nil
  | cons op ops ih =>
    intro a ha
    rw [collect] at ha
    rcases List.mem_append.mp ha with ha | ha
    · exact h s op a ha
    · cases hop : step s op with
      | error t =>
        rw [hop] at ha
        exact absurd ha List.not_mem_nil
      | ok t =>
        rw [hop] at ha
        exact ih t a ha

/-- The entries that came in are those given out and those still held. -/
def Balances (taken held : σ → Multiset β) (given : List β) (s s' : σ) : Prop :=
  taken s' + held s = taken s + given + held s'

variable {taken held : σ → Multiset β}

/-- Nothing is taken in, held longer or given out. -/
theorem Balances.of_eq {s s' : σ} (htaken : taken s' = taken s) (hheld : held s' = held s) :
    Balances taken held [] s s' := by
  rw [Balances, htaken, hheld, Multiset.coe_nil, add_zero]

/-- The entries that meet a condition are given out. -/
theorem Balances.of_filter {s s' : σ} {l : List β} (p : β → Bool) (htaken : taken s' = taken s)
    (hheld : held s = l) (hheld' : held s' = ↑(l.filter fun a => !p a)) :
    Balances taken held (l.filter p) s s' := by
  have hsplit : (l : Multiset β) = ↑(l.filter p) + ↑(l.filter fun a => !p a) := by
    rw [Multiset.coe_add, Multiset.coe_eq_coe]
    exact (List.filter_append_perm p l).symm
  rw [Balances, htaken, hheld, hheld', add_assoc, ← hsplit]

/-- Books that are opened empty. -/
theorem Balances.of_empty {s s' : σ} {given : List β} (h : Balances taken held given s s')
    (htaken : taken s = 0) (hheld : held s = 0) : taken s' = given + held s' := by
  rw [Balances, htaken, hheld, add_zero, zero_add] at h
  exact h

theorem Balances.trans {s s' s'' : σ} {given given' : List β}
    (h : Balances taken held given s s') (h' : Balances taken held given' s' s'') :
    Balances taken held (given ++ given') s s'' := by
  have hsum : taken s'' + held s + (taken s' + held s') =
      taken s + ↑(given ++ given') + held s'' + (taken s' + held s') := by
    calc taken s'' + held s + (taken s' + held s')
        = (taken s'' + held s') + (taken s' + held s) := by abel
      _ = (taken s' + given' + held s'') + (taken s + given + held s') := by rw [h, h']
      _ = taken s + (given + given') + held s'' + (taken s' + held s') := by abel
      _ = taken s + ↑(given ++ given') + held s'' + (taken s' + held s') := by
        rw [Multiset.coe_add]
  exact add_right_cancel hsum

/-- **The books of a run balance** when those of every operation do. -/
theorem ledger_run {entry : α → β} {G : σ → ω → Prop} {I : σ → Prop}
    (hstep : ∀ s op, I s → G s op →
      Balances taken held ((out s op).map entry) s (reached (step s op)))
    (hok : ∀ s op s', I s → G s op → step s op = .ok s' → I s') {s : σ} {ops : List ω} (hI : I s)
    (hG : Guarded step G s ops) :
    Balances taken held ((collect step out s ops).map entry) s (reached (run step s ops)) := by
  induction ops generalizing s with
  | nil => exact .of_eq rfl rfl
  | cons op ops ih =>
    have h := hstep s op hI hG.1
    rw [run, collect, List.map_append]
    cases hop : step s op with
    | error t =>
      rw [hop] at h
      exact (List.append_nil _).symm ▸ h
    | ok t =>
      rw [hop] at h
      exact h.trans (ih (hok s op t hI hG.1 hop) (hG.2 t hop))

end WriteonceOs.Library
