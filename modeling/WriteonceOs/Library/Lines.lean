import Mathlib.Data.List.DropRight
import Mathlib.Data.List.Forall2

/-!
# Lines of a text

* `lines` — the lines of a text, with or without carriage returns before the newlines;
* `unlines` — lines written one after the other, a newline after each;
* `lines_unlines_append` — reading back lines that were written;
* `lines_append` — a text that ends in a newline, and another one after it;
* `rows_unlines` — the same, carriage returns and all;
* `eq_unlines_append` — every text is lines that were written, and a rest.
-/

namespace WriteonceOs.Library

/-- A line without the carriage return at its end. -/
def chopReturn (line : List Char) : List Char :=
  if line.getLast? = some '\r' then line.dropLast else line

/-- The lines of a text whose first line has begun with `current`, in reverse. -/
def linesFrom (current : List Char) : List Char → List (List Char)
  | [] => if current = [] then [] else [current.reverse]
  | c :: rest =>
    if c = '\n' then chopReturn current.reverse :: linesFrom [] rest
    else linesFrom (c :: current) rest

/-- The lines of a text: what ends in a newline, or in a carriage return and a newline, and a last
line that does not. -/
def lines (text : List Char) : List (List Char) := linesFrom [] text

/-- Lines written one after the other, a newline after each. -/
def unlines (ls : List (List Char)) : List Char := ls.flatMap (· ++ ['\n'])

example : lines "a\r\n\nb\r".toList = ["a".toList, [], "b\r".toList] := by decide

@[simp] theorem lines_nil : lines [] = [] := rfl

@[simp] theorem unlines_nil : unlines [] = [] := rfl

@[simp] theorem unlines_cons (l : List Char) (ls : List (List Char)) :
    unlines (l :: ls) = l ++ '\n' :: unlines ls := by
  simp [unlines]

theorem unlines_append (ls ls' : List (List Char)) :
    unlines (ls ++ ls') = unlines ls ++ unlines ls' := by
  simp [unlines]

theorem unlines_terminated (ls : List (List Char)) :
    unlines ls = [] ∨ (unlines ls).getLast? = some '\n' := by
  cases ls using List.reverseRecOn with
  | nil => exact .inl rfl
  | append_singleton ls l => exact .inr (by simp [unlines])

theorem chopReturn_of_not_mem {line : List Char} (h : '\r' ∉ line) : chopReturn line = line := by
  unfold chopReturn
  rw [if_neg]
  intro hlast
  exact h (List.mem_of_getLast? hlast)

theorem mem_of_mem_chopReturn {line : List Char} {c : Char} (h : c ∈ chopReturn line) :
    c ∈ line := by
  unfold chopReturn at h
  split at h
  · exact List.dropLast_subset line h
  · exact h

/-- What a line begins with, the carriage return makes no difference. -/
theorem prefix_chopReturn {p line : List Char} (hp : '\r' ∉ p) :
    p <+: chopReturn line ↔ p <+: line := by
  unfold chopReturn
  split
  case isFalse => exact Iff.rfl
  case isTrue hlast =>
    obtain ⟨before, rfl⟩ := List.getLast?_eq_some_iff.mp hlast
    rw [List.dropLast_concat, List.prefix_concat_iff]
    constructor
    · exact .inr
    · rintro (rfl | h)
      · exact absurd (List.mem_append_right _ (List.mem_singleton_self _)) hp
      · exact h

/-! ### Reading lines -/

theorem linesFrom_append {l : List Char} (h : '\n' ∉ l) (current rest : List Char) :
    linesFrom current (l ++ rest) = linesFrom (l.reverse ++ current) rest := by
  induction l generalizing current with
  | nil => rfl
  | cons c l ih =>
    have hc : c ≠ '\n' := fun e => h (e ▸ List.mem_cons_self)
    have hl : '\n' ∉ l := fun m => h (List.mem_cons_of_mem _ m)
    rw [List.cons_append, linesFrom, if_neg hc, ih hl, List.reverse_cons, List.append_assoc]
    rfl

theorem lines_line {l : List Char} (h : '\n' ∉ l) (rest : List Char) :
    lines (l ++ '\n' :: rest) = chopReturn l :: lines rest := by
  rw [lines, linesFrom_append h, linesFrom, if_pos rfl, List.append_nil, List.reverse_reverse]
  rfl

theorem lines_of_not_mem {l : List Char} (h : '\n' ∉ l) (hne : l ≠ []) : lines l = [l] := by
  have hread := linesFrom_append h [] []
  rw [List.append_nil, List.append_nil] at hread
  rw [lines, hread, linesFrom, if_neg (by simpa using hne), List.reverse_reverse]

/-- **Lines that were written are read back.** -/
theorem lines_unlines_append {ls : List (List Char)} (h : ∀ l ∈ ls, '\n' ∉ l) (rest : List Char) :
    lines (unlines ls ++ rest) = ls.map chopReturn ++ lines rest := by
  induction ls with
  | nil => rfl
  | cons l ls ih =>
    obtain ⟨hl, hls⟩ := List.forall_mem_cons.mp h
    rw [unlines_cons, List.append_assoc, List.cons_append, lines_line hl, ih hls]
    rfl

theorem lines_unlines {ls : List (List Char)} (h : ∀ l ∈ ls, '\n' ∉ l) :
    lines (unlines ls) = ls.map chopReturn := by
  have hread := lines_unlines_append h []
  rwa [List.append_nil, lines_nil, List.append_nil] at hread

/-- **Every text is lines that were written, and a rest without a newline.** -/
theorem eq_unlines_append (text : List Char) :
    ∃ ls rest, (∀ l ∈ ls, '\n' ∉ l) ∧ '\n' ∉ rest ∧ text = unlines ls ++ rest := by
  induction text with
  | nil => exact ⟨[], [], by simp, by simp, rfl⟩
  | cons c text ih =>
    obtain ⟨ls, rest, hls, hrest, htext⟩ := ih
    by_cases hc : c = '\n'
    · exact ⟨[] :: ls, rest, by simpa using hls, hrest, by simp [hc, htext]⟩
    · cases ls with
      | nil => exact ⟨[], c :: rest, by simp, by simp [Ne.symm hc, hrest], by simp [htext]⟩
      | cons l ls =>
        obtain ⟨hl, hls⟩ := List.forall_mem_cons.mp hls
        refine ⟨(c :: l) :: ls, rest, ?_, hrest, by simp [htext]⟩
        exact List.forall_mem_cons.mpr ⟨by simp [Ne.symm hc, hl], hls⟩

/-- What is read of a rest without a newline. -/
theorem lines_rest {rest : List Char} (h : '\n' ∉ rest) :
    lines rest = if rest = [] then [] else [rest] := by
  split
  case isTrue hnil => rw [hnil, lines_nil]
  case isFalse hne => exact lines_of_not_mem h hne

/-- **A text that ends in a newline, and another one after it.** -/
theorem lines_append {text : List Char} (h : text = [] ∨ text.getLast? = some '\n')
    (more : List Char) : lines (text ++ more) = lines text ++ lines more := by
  obtain ⟨ls, rest, hls, hrest, rfl⟩ := eq_unlines_append text
  have hnil : rest = [] := by
    by_contra hne
    rcases h with h | h
    · exact hne (List.append_eq_nil_iff.mp h).2
    · rw [List.getLast?_append_of_ne_nil _ hne] at h
      exact hrest (List.mem_of_getLast? h)
  rw [hnil, List.append_nil, lines_unlines_append hls, lines_unlines hls]

/-- What a text ends with after its last newline. -/
def lastSegment (text : List Char) : List Char := text.rtakeWhile (· ≠ '\n')

theorem newline_not_mem_lastSegment (text : List Char) : '\n' ∉ lastSegment text := by
  intro h
  simpa using List.mem_rtakeWhile_imp h

theorem lastSegment_of_not_mem {text : List Char} (h : '\n' ∉ text) : lastSegment text = text := by
  rw [lastSegment, List.rtakeWhile_eq_self_iff]
  intro c hc
  have hne : c ≠ '\n' := fun heq => h (heq ▸ hc)
  simpa using hne

theorem lastSegment_append {l : List Char} (h : '\n' ∉ l) (text : List Char) :
    lastSegment (text ++ l) = lastSegment text ++ l := by
  have hl : ∀ c ∈ l.reverse, decide (c ≠ '\n') = true := by
    intro c hc
    have hne : c ≠ '\n' := fun heq => h (heq ▸ List.mem_reverse.mp hc)
    simpa using hne
  unfold lastSegment List.rtakeWhile
  rw [List.reverse_append, List.takeWhile_append_of_pos hl]
  simp

theorem lastSegment_append_left {text : List Char} (h : '\n' ∈ text) (before : List Char) :
    lastSegment (before ++ text) = lastSegment text := by
  unfold lastSegment List.rtakeWhile
  rw [List.reverse_append, List.takeWhile_append, if_neg]
  intro hlen
  have hall := List.takeWhile_eq_self_iff.mp
    ((List.takeWhile_sublist _).eq_of_length hlen) '\n' (List.mem_reverse.mpr h)
  simp at hall

/-- **The last line of a text that ends in a newline.** -/
theorem getLastD_lines {text : List Char} (h : text = [] ∨ text.getLast? = some '\n')
    (l : List Char) : (lines (text ++ (l ++ ['\n']))).getLastD [] = chopReturn (lastSegment l) := by
  have hsplit : l.rdropWhile (· ≠ '\n') ++ lastSegment l = l := List.rdropWhile_append_rtakeWhile
  have hbefore : text ++ l.rdropWhile (· ≠ '\n') = [] ∨
      (text ++ l.rdropWhile (· ≠ '\n')).getLast? = some '\n' := by
    by_cases hnil : l.rdropWhile (· ≠ '\n') = []
    · rw [hnil, List.append_nil]
      exact h
    · have hlast := List.rdropWhile_last_not _ _ hnil
      rw [List.getLast?_append_of_ne_nil _ hnil, List.getLast?_eq_some_getLast hnil]
      exact .inr (congrArg some (by simpa using hlast))
  have htext : text ++ (l ++ ['\n']) =
      (text ++ l.rdropWhile (· ≠ '\n')) ++ (lastSegment l ++ ['\n']) := by
    conv_lhs => rw [← hsplit]
    simp only [List.append_assoc]
  rw [htext, lines_append hbefore, lines_line (newline_not_mem_lastSegment l)]
  simp

theorem mem_lines {text l : List Char} (h : l ∈ lines text) :
    '\n' ∉ l ∧ ∀ c ∈ l, c ∈ text := by
  obtain ⟨ls, rest, hls, hrest, rfl⟩ := eq_unlines_append text
  rw [lines_unlines_append hls, lines_rest hrest, List.mem_append, List.mem_map] at h
  rcases h with ⟨k, hk, rfl⟩ | h
  · refine ⟨fun hmem => hls k hk (mem_of_mem_chopReturn hmem), fun c hc => ?_⟩
    refine List.mem_append_left _ (List.mem_flatMap.mpr ⟨k, hk, ?_⟩)
    exact List.mem_append_left _ (mem_of_mem_chopReturn hc)
  · split at h
    · cases h
    · obtain rfl := List.mem_singleton.mp h
      exact ⟨hrest, fun c hc => List.mem_append_right _ hc⟩

/-- Without carriage returns, what is read is what was written. -/
theorem map_chopReturn {ls : List (List Char)} (h : ∀ l ∈ ls, '\r' ∉ l) :
    ls.map chopReturn = ls := by
  rw [List.map_congr_left fun l hl => chopReturn_of_not_mem (h l hl), List.map_id']

/-! ### Rows -/

/-- What stands between the newlines, carriage returns included. -/
def rowsFrom (current : List Char) : List Char → List (List Char)
  | [] => if current = [] then [] else [current.reverse]
  | c :: rest =>
    if c = '\n' then current.reverse :: rowsFrom [] rest
    else rowsFrom (c :: current) rest

def rows (text : List Char) : List (List Char) := rowsFrom [] text

theorem rowsFrom_append {l : List Char} (h : '\n' ∉ l) (current rest : List Char) :
    rowsFrom current (l ++ rest) = rowsFrom (l.reverse ++ current) rest := by
  induction l generalizing current with
  | nil => rfl
  | cons c l ih =>
    have hc : c ≠ '\n' := fun e => h (e ▸ List.mem_cons_self)
    have hl : '\n' ∉ l := fun m => h (List.mem_cons_of_mem _ m)
    rw [List.cons_append, rowsFrom, if_neg hc, ih hl, List.reverse_cons, List.append_assoc]
    rfl

theorem rows_unlines_append {ls : List (List Char)} (h : ∀ l ∈ ls, '\n' ∉ l) (rest : List Char) :
    rows (unlines ls ++ rest) = ls ++ rows rest := by
  induction ls with
  | nil => rfl
  | cons l ls ih =>
    obtain ⟨hl, hls⟩ := List.forall_mem_cons.mp h
    rw [unlines_cons, List.append_assoc, List.cons_append, rows, rowsFrom_append hl, rowsFrom,
      if_pos rfl, List.append_nil, List.reverse_reverse]
    exact congrArg (l :: ·) (ih hls)

/-- **Rows that were written are read back.** -/
theorem rows_unlines {ls : List (List Char)} (h : ∀ l ∈ ls, '\n' ∉ l) : rows (unlines ls) = ls := by
  have hread := rows_unlines_append h []
  rwa [List.append_nil, show rows [] = [] from rfl, List.append_nil] at hread

theorem rows_rest {rest : List Char} (h : '\n' ∉ rest) :
    rows rest = if rest = [] then [] else [rest] := by
  have hread := rowsFrom_append h [] []
  rw [List.append_nil, List.append_nil] at hread
  rw [rows, hread, rowsFrom]
  simp

/-- **Row by row, a line is the row or the row without its carriage return.** -/
theorem lines_rows (text : List Char) :
    List.Forall₂ (fun l row => l = row ∨ l = chopReturn row) (lines text) (rows text) := by
  obtain ⟨ls, rest, hls, hrest, rfl⟩ := eq_unlines_append text
  rw [lines_unlines_append hls, rows_unlines_append hls, lines_rest hrest, rows_rest hrest]
  refine List.rel_append ?_ ?_
  · rw [List.forall₂_map_left_iff]
    exact List.forall₂_same.mpr fun _ _ => .inr rfl
  · exact List.forall₂_same.mpr fun _ _ => .inl rfl

theorem newline_not_mem_rows {text row : List Char} (h : row ∈ rows text) : '\n' ∉ row := by
  obtain ⟨ls, rest, hls, hrest, rfl⟩ := eq_unlines_append text
  rw [rows_unlines_append hls, rows_rest hrest, List.mem_append] at h
  rcases h with h | h
  · exact hls row h
  · split at h
    · cases h
    · rwa [List.mem_singleton.mp h]

end WriteonceOs.Library
