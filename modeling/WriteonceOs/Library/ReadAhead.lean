import Mathlib.Data.List.DropRight
import Mathlib.Data.List.TakeWhile

/-!
# Reading a line in pieces

A reader takes piece after piece until one has the end of a line in it, or is empty, at the end of
the file.  It keeps the first line of what it has taken; what stands behind that is read ahead.

* `firstLine`, `behind` — the line, and what stands behind it;
* `firstLine_append_behind` — together they are what was taken;
* `behind_flatten_iff` — when something is read ahead.
-/

namespace WriteonceOs.Library

variable {α : Type*} [DecidableEq α] (nl : α)

/-- The first line with its end, or everything where no line ends. -/
def firstLine (text : List α) : List α :=
  text.takeWhile (· ≠ nl) ++ (text.dropWhile (· ≠ nl)).take 1

/-- What stands behind the first line. -/
def behind (text : List α) : List α := (text.dropWhile (· ≠ nl)).drop 1

/-- No further piece is taken after this one. -/
def EndsLine (piece : List α) : Prop := piece = [] ∨ nl ∈ piece

instance (piece : List α) : Decidable (EndsLine nl piece) := inferInstanceAs (Decidable (_ ∨ _))

variable {nl}

theorem firstLine_append_behind (text : List α) : firstLine nl text ++ behind nl text = text := by
  rw [firstLine, behind, List.append_assoc, List.take_append_drop, List.takeWhile_append_dropWhile]

theorem behind_of_not_mem {text : List α} (h : nl ∉ text) : behind nl text = [] := by
  have hdrop : text.dropWhile (· ≠ nl) = [] :=
    List.dropWhile_eq_nil_iff.mpr fun a ha => decide_eq_true fun heq => h (heq ▸ ha)
  rw [behind, hdrop, List.drop_nil]

theorem behind_append_of_not_mem {before : List α} (h : nl ∉ before) (text : List α) :
    behind nl (before ++ text) = behind nl text := by
  have hkeep : ∀ a ∈ before, decide (a ≠ nl) = true :=
    fun a ha => decide_eq_true fun heq => h (heq ▸ ha)
  rw [behind, behind, List.dropWhile_append_of_pos hkeep]

/-- There is something behind the first line where a line ends before the last character. -/
theorem behind_ne_nil_iff {text : List α} : behind nl text ≠ [] ↔ nl ∈ text.dropLast := by
  induction text with
  | nil => exact iff_of_false (fun h => h rfl) List.not_mem_nil
  | cons a text ih =>
    by_cases ha : a = nl
    · have hbehind : behind nl (a :: text) = text := by
        rw [behind, List.dropWhile_cons_of_neg (by simp [ha])]
        rfl
      rw [hbehind, ha]
      cases text with
      | nil => exact iff_of_false (fun h => h rfl) List.not_mem_nil
      | cons b text => exact iff_of_true nofun List.mem_cons_self
    · have hnot : nl ∉ [a] := fun h => ha (List.mem_singleton.mp h).symm
      rw [← List.singleton_append, behind_append_of_not_mem hnot, ih]
      cases text with
      | nil => exact Iff.rfl
      | cons b text =>
        rw [List.singleton_append, List.dropLast_cons_cons, List.mem_cons]
        exact ⟨.inr, fun h => h.resolve_left (Ne.symm ha)⟩

/-- **Something is read ahead** where a piece has something behind the end of a line. -/
theorem behind_flatten_iff {pieces : List (List α)}
    (h : ∀ piece ∈ pieces.dropLast, ¬ EndsLine nl piece) :
    behind nl pieces.flatten ≠ [] ↔ ∃ piece ∈ pieces, nl ∈ piece.dropLast := by
  cases pieces using List.reverseRecOn with
  | nil => exact iff_of_false (fun h => h rfl) (by simp)
  | append_singleton before last =>
    rw [List.dropLast_concat] at h
    have hbefore : nl ∉ before.flatten := fun hmem => by
      obtain ⟨piece, hpiece, hnl⟩ := List.mem_flatten.mp hmem
      exact h piece hpiece (.inr hnl)
    rw [List.flatten_concat, behind_append_of_not_mem hbefore, behind_ne_nil_iff]
    constructor
    · exact fun hlast => ⟨last, by simp, hlast⟩
    · rintro ⟨piece, hpiece, hnl⟩
      rcases List.mem_append.mp hpiece with hpiece | hpiece
      · exact absurd (.inr (List.dropLast_subset piece hnl)) (h piece hpiece)
      · rwa [List.mem_singleton.mp hpiece] at hnl

end WriteonceOs.Library
