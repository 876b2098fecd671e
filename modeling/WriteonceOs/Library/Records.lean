import WriteonceOs.Library.Words
import Mathlib.Data.List.DropRight
import Mathlib.Data.List.Nodup

/-!
# Records of fields

Rows whose fields are separated by a letter, and the field that names a row.

* `fields_record`, `record_fields` — fields put together and taken apart;
* `splitN` — the first fields, and the rest in one piece;
* `key_append` — the name of a row is what stands before the first separator;
* `nodup_rename_iff` — when names stay distinct under a renaming.
-/

namespace WriteonceOs.Library.Records

variable {α : Type*} [DecidableEq α]

def fields (sep : α) (row : List α) : List (List α) := row.splitOn sep

def record (sep : α) (parts : List (List α)) : List α := List.intercalate [sep] parts

/-- At most `n` pieces: the last one is what is left. -/
def splitN (n : ℕ) (sep : α) (row : List α) : List (List α) :=
  let parts := fields sep row
  if parts.length ≤ n then parts
  else parts.take (n - 1) ++ [record sep (parts.drop (n - 1))]

/-- What a row is called: its first field. -/
def key (sep : α) (row : List α) : List α := row.takeWhile (· ≠ sep)

variable {sep : α} {row part : List α} {parts : List (List α)}

/-! ### Fields -/

theorem fields_record (hne : parts ≠ []) (h : ∀ part ∈ parts, sep ∉ part) :
    fields sep (record sep parts) = parts :=
  List.splitOn_intercalate sep h hne

theorem record_fields : record sep (fields sep row) = row := List.intercalate_splitOn sep

theorem free_of_mem_fields (h : part ∈ fields sep row) : sep ∉ part := by
  intro hmem
  have hpart : part ∈ row.splitOnP (· == sep) := h
  have hfree := free_of_mem_splitOnP hpart sep hmem
  simp at hfree

omit [DecidableEq α] in
theorem mem_record (h : part ∈ parts) {a : α} (ha : a ∈ part) : a ∈ record sep parts := by
  induction parts with
  | nil => cases h
  | cons first parts ih =>
    cases parts with
    | nil =>
      obtain rfl := List.mem_singleton.mp h
      simpa [record] using ha
    | cons next rest =>
      rw [record, List.intercalate_cons_cons]
      rcases List.mem_cons.mp h with rfl | h
      · exact List.mem_append_left _ (List.mem_append_left _ ha)
      · exact List.mem_append_right _ (ih h)

theorem mem_of_mem_fields (h : part ∈ fields sep row) {a : α} (ha : a ∈ part) : a ∈ row := by
  have hmem : a ∈ record sep (fields sep row) := mem_record h ha
  rwa [record_fields] at hmem

theorem fields_append (xs ys : List α) :
    fields sep (xs ++ sep :: ys) = fields sep xs ++ fields sep ys :=
  List.splitOnP_append_cons xs ys (by simp)

theorem fields_of_not_mem (h : sep ∉ row) : fields sep row = [row] := by
  refine List.splitOnP_eq_singleton fun a ha => ?_
  have hne : a ≠ sep := fun heq => h (heq ▸ ha)
  simpa using hne

/-- There is one field more than there are separators. -/
theorem length_fields : (fields sep row).length = row.count sep + 1 := by
  induction row with
  | nil => rfl
  | cons a row ih =>
    by_cases ha : a = sep
    · subst ha
      have hcut : fields a (a :: row) = fields a [] ++ fields a row := fields_append [] row
      rw [fields_of_not_mem List.not_mem_nil] at hcut
      rw [hcut, List.length_append, ih, List.count_cons_self, List.length_singleton]
      omega
    · have hcut : fields sep (a :: row) = (fields sep row).modifyHead (List.cons a) := by
        unfold fields
        rw [List.splitOn_cons_eq_if_modifyHead, if_neg (by simpa using ha)]
      rw [hcut, List.length_modifyHead, ih, List.count_cons_of_ne ha]

/-! ### Names -/

theorem key_append {xs : List α} (h : sep ∉ xs) (ys : List α) : key sep (xs ++ sep :: ys) = xs := by
  have hxs : ∀ a ∈ xs, decide (a ≠ sep) = true :=
    fun a ha => decide_eq_true fun heq => h (heq ▸ ha)
  rw [key, List.takeWhile_append_of_pos hxs]
  simp

theorem not_mem_key : sep ∉ key sep row := by
  intro hmem
  have hne := List.mem_takeWhile_imp hmem
  simp at hne

/-- A row that has a separator is its name, the separator and the rest. -/
theorem eq_key_append (h : sep ∈ row) : ∃ rest, row = key sep row ++ sep :: rest := by
  obtain ⟨before, rest, rfl, hbefore⟩ := List.eq_append_cons_of_mem h
  exact ⟨rest, by rw [key_append hbefore]⟩

theorem key_record {parts : List (List α)} (hne : parts ≠ []) (h : sep ∉ part) :
    key sep (record sep (part :: parts)) = part := by
  cases parts with
  | nil => exact absurd rfl hne
  | cons next rest =>
    rw [record, List.intercalate_cons_cons, List.append_assoc]
    exact key_append h _

/-- A row begins with a name and a separator when it is called so. -/
theorem prefix_iff_key {name : List α} (hname : sep ∉ name) :
    name ++ [sep] <+: row ↔ sep ∈ row ∧ key sep row = name := by
  constructor
  · intro h
    obtain ⟨rest, rfl⟩ := h
    rw [List.append_assoc, List.singleton_append]
    exact ⟨List.mem_append_right _ List.mem_cons_self, key_append hname rest⟩
  · intro h
    obtain ⟨rest, hrow⟩ := eq_key_append h.1
    rw [hrow, h.2]
    exact ⟨rest, by simp⟩

/-! ### Four pieces -/

/-- Four pieces are the row cut at its first three separators. -/
theorem splitN_four {a b c d : List α} (h : splitN 4 sep row = [a, b, c, d]) :
    row = record sep [a, b, c, d] ∧ sep ∉ a ∧ sep ∉ b ∧ sep ∉ c := by
  have hrow : record sep (fields sep row) = row := record_fields
  have hfree := fun part (hp : part ∈ fields sep row) => free_of_mem_fields hp
  unfold splitN at h
  simp only at h
  split at h
  case isTrue =>
    rw [h] at hrow hfree
    exact ⟨hrow.symm, hfree a (by simp), hfree b (by simp), hfree c (by simp)⟩
  case isFalse hlong =>
    match hparts : fields sep row with
    | [] | [_] | [_, _] | [_, _, _] | [_, _, _, _] => simp [hparts] at hlong
    | w :: x :: y :: z₁ :: z₂ :: rest =>
      rw [hparts] at h hrow hfree
      simp only [Nat.add_one_sub_one, List.take_succ_cons, List.take_zero, List.drop_succ_cons,
        List.drop_zero, List.cons_append, List.nil_append, List.cons.injEq, and_true] at h
      obtain ⟨rfl, rfl, rfl, rfl⟩ := h
      refine ⟨?_, hfree w (by simp), hfree x (by simp), hfree y (by simp)⟩
      rw [← hrow]
      simp [record, List.intercalate_cons_cons]

/-- Whatever the last piece is, the first three cuts are found again. -/
theorem splitN_record {a b c : List α} (ha : sep ∉ a) (hb : sep ∉ b) (hc : sep ∉ c)
    (d : List α) : splitN 4 sep (record sep [a, b, c, d]) = [a, b, c, d] := by
  have hfields : fields sep (record sep [a, b, c, d]) = a :: b :: c :: fields sep d := by
    simp only [record, List.intercalate_cons_cons, List.intercalate_singleton, List.append_assoc,
      List.singleton_append]
    rw [fields_append, fields_append, fields_append, fields_of_not_mem ha, fields_of_not_mem hb,
      fields_of_not_mem hc]
    rfl
  have hlast : record sep (fields sep d) = d := record_fields
  unfold splitN
  simp only [hfields]
  split
  case isTrue hlength =>
    cases hparts : fields sep d with
    | nil => exact absurd hparts (List.splitOn_ne_nil sep d)
    | cons p parts =>
      rw [hparts] at hlength hlast
      have hnil : parts = [] := by
        simp only [List.length_cons] at hlength
        exact List.length_eq_zero_iff.mp (by omega)
      rw [hnil] at hlast ⊢
      have hp : p = d := by simpa [record] using hlast
      rw [hp]
  case isFalse =>
    simp [hlast]

/-- A row of four fields is cut into them. -/
theorem splitN_of_length (h : (fields sep row).length = 4) : splitN 4 sep row = fields sep row := by
  unfold splitN
  simp [h]

/-! ### Renaming -/

/-- **One name replaced**: the names stay distinct when the new one is not another one's. -/
theorem nodup_rename_iff {names : List α} (h : names.Nodup) {old new : α} (hold : old ∈ names) :
    (names.map fun n => if n = old then new else n).Nodup ↔ (new ∈ names → new = old) := by
  constructor
  · intro hnodup hmem
    by_contra hne
    have hinj := List.inj_on_of_nodup_map hnodup hmem hold
    rw [if_neg hne, if_pos rfl] at hinj
    exact hne (hinj rfl)
  · intro hnew
    refine List.Nodup.map_on ?_ h
    intro m hm n hn heq
    split at heq
    case isTrue hmo =>
      split at heq
      case isTrue hno => rw [hmo, hno]
      case isFalse hno => exact absurd (heq ▸ hnew (heq ▸ hn)) hno
    case isFalse hmo =>
      split at heq
      case isTrue hno => exact absurd (heq.trans (hnew (heq ▸ hm))) hmo
      case isFalse => exact heq

end WriteonceOs.Library.Records
