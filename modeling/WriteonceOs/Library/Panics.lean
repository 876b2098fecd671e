import Mathlib.Data.List.Basic
import Mathlib.Data.Nat.Basic

/-!
# Lines that cannot be written

A program that panics on the first line it cannot write: of what it was to do, it does what comes
before that line, and ends with the status of a panic.  The `n`-th answer is the one to the `n`-th
line.

* `Written` — the first lines can all be written;
* `upToPanic` — what is done;
* `upToPanic_cases` — everything, or what ends in a line that cannot be written.
-/

namespace WriteonceOs.Library

/-- The status of a panic. -/
def panicStatus : ℕ := 101

/-- The first `n` lines can be written. -/
def Written (writes : ℕ → Bool) (n : ℕ) : Prop := ∀ i < n, writes i = true

instance (writes : ℕ → Bool) (n : ℕ) : Decidable (Written writes n) :=
  inferInstanceAs (Decidable (∀ i < n, writes i = true))

theorem written_succ {writes : ℕ → Bool} {n : ℕ} :
    Written writes (n + 1) ↔ writes 0 = true ∧ Written (fun i => writes (i + 1)) n :=
  Nat.forall_lt_succ_left

theorem written_zero (writes : ℕ → Bool) : Written writes 0 :=
  fun i hi => absurd hi (Nat.not_lt_zero i)

section Acts

variable {α : Type*} (isLine : α → Bool)

/-- The acts up to the first line that cannot be written. -/
def upToPanic : (ℕ → Bool) → List α → List α
  | _, [] => []
  | writes, act :: acts =>
    if isLine act then
      if writes 0 then act :: upToPanic (fun i => writes (i + 1)) acts else [act]
    else act :: upToPanic writes acts

/-- **What is done**: everything where all lines can be written, and otherwise what ends in the
first line that cannot. -/
theorem upToPanic_cases (writes : ℕ → Bool) (acts : List α) :
    (Written writes (acts.countP isLine) ∧ upToPanic isLine writes acts = acts) ∨
    ∃ before line, isLine line = true ∧ before ++ [line] <+: acts ∧
      Written writes (before.countP isLine) ∧ writes (before.countP isLine) = false ∧
      upToPanic isLine writes acts = before ++ [line] := by
  induction acts generalizing writes with
  | nil => exact .inl ⟨written_zero writes, rfl⟩
  | cons act acts ih =>
    rw [upToPanic]
    by_cases hline : isLine act = true
    · rw [if_pos hline, List.countP_cons_of_pos hline, written_succ]
      by_cases hwrites : writes 0 = true
      · rw [if_pos hwrites]
        rcases ih fun i => writes (i + 1) with
          ⟨hall, hdone⟩ | ⟨before, line, hl, hprefix, hbefore, hfails, hdone⟩
        · exact .inl ⟨⟨hwrites, hall⟩, by rw [hdone]⟩
        · refine .inr ⟨act :: before, line, hl, List.cons_prefix_cons.mpr ⟨rfl, hprefix⟩, ?_⟩
          rw [List.countP_cons_of_pos hline, written_succ, hdone]
          exact ⟨⟨hwrites, hbefore⟩, hfails, rfl⟩
      · rw [if_neg hwrites]
        exact .inr ⟨[], act, hline, ⟨acts, rfl⟩, written_zero writes,
          (Bool.not_eq_true _).mp hwrites, rfl⟩
    · rw [if_neg hline, List.countP_cons_of_neg hline]
      rcases ih writes with ⟨hall, hdone⟩ | ⟨before, line, hl, hprefix, hbefore, hfails, hdone⟩
      · exact .inl ⟨hall, by rw [hdone]⟩
      · refine .inr ⟨act :: before, line, hl, List.cons_prefix_cons.mpr ⟨rfl, hprefix⟩, ?_⟩
        rw [List.countP_cons_of_neg hline, hdone]
        exact ⟨hbefore, hfails, rfl⟩

theorem upToPanic_prefix (writes : ℕ → Bool) (acts : List α) :
    upToPanic isLine writes acts <+: acts := by
  rcases upToPanic_cases isLine writes acts with
    ⟨-, hdone⟩ | ⟨before, line, -, hprefix, -, -, hdone⟩
  · exact hdone.symm ▸ List.prefix_rfl
  · rw [hdone]
    exact hprefix

/-- The lines that were tried tell whether there was a panic. -/
theorem written_upToPanic (writes : ℕ → Bool) (acts : List α) :
    Written writes ((upToPanic isLine writes acts).countP isLine) ↔
      Written writes (acts.countP isLine) := by
  rcases upToPanic_cases isLine writes acts with
    ⟨-, hdone⟩ | ⟨before, line, hline, hprefix, -, hfails, hdone⟩
  · rw [hdone]
  · have hcount : (before ++ [line]).countP isLine = before.countP isLine + 1 := by
      rw [List.countP_append, List.countP_singleton, if_pos hline]
    have hle := hprefix.sublist.countP_le (p := isLine)
    rw [hcount] at hle
    rw [hdone, hcount]
    refine iff_of_false (fun h => ?_) (fun h => ?_)
    · exact Bool.false_ne_true (hfails.symm.trans (h _ (Nat.lt_succ_self _)))
    · exact Bool.false_ne_true (hfails.symm.trans (h _ hle))

end Acts

end WriteonceOs.Library
