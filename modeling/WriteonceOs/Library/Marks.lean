import Mathlib.Data.List.Induction
import Mathlib.Data.Set.Basic
import WriteonceOs.Library.Run

/-!
# Sets under marks

A set that is changed one element at a time: a mark puts an element in or takes it out.  The later
mark of an element wins.

* `mem_marks` — an element is in the marked set as its last mark says, or as before without one;
* `run_marks` — a system whose operations mark a view of its state: what a run does to the view.
-/

namespace WriteonceOs.Library

variable {α σ ω : Type*} [DecidableEq α]

/-- Put an element in or take it out. -/
def mark (s : Set α) (m : α × Bool) : Set α := {a | if a = m.1 then m.2 = true else a ∈ s}

/-- Marks one after the other. -/
def marks (s : Set α) (ms : List (α × Bool)) : Set α := ms.foldl mark s

/-- What the last mark of an element says. -/
def lastMark (ms : List (α × Bool)) (a : α) : Option Bool :=
  (ms.reverse.find? (·.1 = a)).map Prod.snd

theorem mem_mark {s : Set α} {m : α × Bool} {a : α} :
    a ∈ mark s m ↔ if a = m.1 then m.2 = true else a ∈ s := Iff.rfl

theorem lastMark_append_singleton (ms : List (α × Bool)) (m : α × Bool) (a : α) :
    lastMark (ms ++ [m]) a = if a = m.1 then some m.2 else lastMark ms a := by
  unfold lastMark
  rw [List.reverse_append, List.reverse_singleton, List.singleton_append, List.find?_cons]
  by_cases h : a = m.1
  · simp [h]
  · simp [h, Ne.symm h]

theorem mem_marks (s : Set α) (ms : List (α × Bool)) (a : α) :
    a ∈ marks s ms ↔ (lastMark ms a).elim (a ∈ s) (· = true) := by
  induction ms using List.reverseRecOn with
  | nil => rfl
  | append_singleton ms m ih =>
    rw [lastMark_append_singleton, marks, List.foldl_append, List.foldl_cons, List.foldl_nil,
      mem_mark]
    by_cases h : a = m.1
    · simp [h]
    · rw [if_neg h, if_neg h]
      exact ih

/-- **Refinement of a marked set**: where every guarded operation marks the view of the state, a
run of such operations marks the view once for each operation. -/
theorem run_marks {step : σ → ω → Except σ σ} {G : σ → ω → Prop} {view : σ → Set α}
    {markOf : ω → α × Bool}
    (hstep : ∀ s op s', G s op → step s op = .ok s' → view s' = mark (view s) (markOf op))
    {s s' : σ} {ops : List ω} (hG : Guarded step G s ops) (hrun : run step s ops = .ok s') :
    view s' = marks (view s) (ops.map markOf) := by
  induction ops generalizing s with
  | nil =>
    cases hrun
    rfl
  | cons op ops ih =>
    rw [run] at hrun
    cases hop : step s op with
    | error t =>
      rw [hop] at hrun
      cases hrun
    | ok t =>
      rw [hop] at hrun
      rw [ih (hG.2 t hop) hrun, hstep s op t hG.1 hop]
      rfl

end WriteonceOs.Library
