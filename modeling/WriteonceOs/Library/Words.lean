import Mathlib.Data.List.Basic
import Mathlib.Data.List.Induction

/-!
# Words of a text

A text over any alphabet, cut into words at separators, and a pattern replaced in it.

* `words_append_separator` — the words of two texts with a separator between them;
* `words_trimEnd` — separators at the end make no difference;
* `exists_word_prefix` — where in a text a word with a given beginning stands;
* `isPrefixOf_replace` — beginnings that a replacement leaves alone;
* `words_replace` — replacing a pattern without separators replaces it in every word;
* `foldl_lastSet` — of the words that set something, the last one wins.
-/

namespace WriteonceOs.Library

variable {α : Type*}

/-- The longest separator-free parts that are not empty. -/
def words (sep : α → Bool) (text : List α) : List (List α) := (text.splitOnP sep).filter (· ≠ [])

/-- Whether a text has a NUL, so that no C string holds it. -/
def hasNul (text : List Char) : Bool := text.contains '\x00'

/-- Remove what satisfies `p` from the end. -/
def trimEnd (p : α → Bool) (text : List α) : List α := (text.reverse.dropWhile p).reverse

theorem not_mem_intercalate {a : α} {between : List α} {parts : List (List α)}
    (hbetween : a ∉ between) (hparts : ∀ part ∈ parts, a ∉ part) :
    a ∉ List.intercalate between parts := by
  induction parts with
  | nil => simp
  | cons part parts ih =>
    obtain ⟨hpart, hrest⟩ := List.forall_mem_cons.mp hparts
    cases parts with
    | nil => simpa using hpart
    | cons next rest =>
      rw [List.intercalate_cons_cons]
      simp only [List.mem_append, not_or]
      exact ⟨⟨hpart, hbetween⟩, ih hrest⟩

/-- A text without `a` begins another one only before its first `a`. -/
theorem prefix_append_cons {p xs ys : List α} {a : α} (ha : a ∉ p) :
    p <+: xs ++ a :: ys ↔ p <+: xs := by
  refine ⟨fun h => ?_, fun h => h.trans (List.prefix_append xs _)⟩
  rcases List.prefix_or_prefix_of_prefix h (List.prefix_append xs _) with hp | ⟨q, rfl⟩
  · exact hp
  · have hq := (List.prefix_append_right_inj xs).mp h
    cases q with
    | nil => simp
    | cons b q =>
      obtain ⟨rfl, -⟩ := List.cons_prefix_cons.mp hq
      exact absurd (List.mem_append_right _ List.mem_cons_self) ha

section Words

variable {sep : α → Bool}

@[simp] theorem words_nil : words sep [] = [] := by simp [words]

/-- **Two texts with a separator between them.** -/
theorem words_append_separator {a : α} (ha : sep a = true) (xs ys : List α) :
    words sep (xs ++ a :: ys) = words sep xs ++ words sep ys := by
  rw [words, List.splitOnP_append_cons xs ys ha, List.filter_append]
  rfl

/-- A text without separators, checked letter by letter. -/
theorem free_of_all {xs : List α} (h : xs.all (fun a => !sep a) = true) :
    ∀ a ∈ xs, sep a = false := by
  simpa using h

/-- No piece of a split contains a separator. -/
theorem free_of_mem_splitOnP {text piece : List α} (h : piece ∈ text.splitOnP sep) :
    ∀ a ∈ piece, sep a = false := by
  induction text generalizing piece with
  | nil =>
    obtain rfl := List.mem_singleton.mp h
    simp
  | cons b text ih =>
    rw [List.splitOnP_cons_eq_if_modifyHead] at h
    split at h
    case isTrue =>
      rcases List.mem_cons.mp h with rfl | h
      · simp
      · exact ih h
    case isFalse hb =>
      cases hsplit : text.splitOnP sep with
      | nil =>
        rw [hsplit] at h
        cases h
      | cons q qs =>
        rw [hsplit] at h ih
        rcases List.mem_cons.mp h with rfl | h
        · intro a ha
          rcases List.mem_cons.mp ha with rfl | ha
          · simpa using hb
          · exact ih List.mem_cons_self a ha
        · exact ih (List.mem_cons_of_mem _ h)

/-- The letters of a word are letters of the text. -/
theorem mem_of_mem_words {text word : List α} (h : word ∈ words sep text) : word ⊆ text := by
  have hpiece : ∀ piece ∈ text.splitOnP sep, piece ⊆ text := by
    clear h
    induction text with
    | nil =>
      intro piece hpiece
      rw [List.mem_singleton.mp hpiece]
      exact List.Subset.refl []
    | cons b text ih =>
      intro piece hpiece
      rw [List.splitOnP_cons_eq_if_modifyHead] at hpiece
      split at hpiece
      case isTrue =>
        rcases List.mem_cons.mp hpiece with rfl | hpiece
        · exact List.nil_subset _
        · exact List.subset_cons_of_subset b (ih piece hpiece)
      case isFalse =>
        cases hsplit : text.splitOnP sep with
        | nil =>
          rw [hsplit] at hpiece
          cases hpiece
        | cons q qs =>
          rw [hsplit] at hpiece ih
          rcases List.mem_cons.mp hpiece with rfl | hpiece
          · exact List.cons_subset_cons b (ih q List.mem_cons_self)
          · exact List.subset_cons_of_subset b (ih piece (List.mem_cons_of_mem _ hpiece))
  exact hpiece word (List.mem_filter.mp h).1

theorem words_of_free {xs : List α} (hxs : ∀ a ∈ xs, sep a = false) (hne : xs ≠ []) :
    words sep xs = [xs] := by
  rw [words, List.splitOnP_eq_singleton hxs]
  simp [hne]

theorem trimEnd_concat (p : α → Bool) (xs : List α) (a : α) :
    trimEnd p (xs ++ [a]) = if p a then trimEnd p xs else xs ++ [a] := by
  by_cases ha : p a = true <;> simp [trimEnd, ha]

/-- **Separators at the end make no difference.** -/
theorem words_trimEnd {p : α → Bool} {text : List α}
    (hp : ∀ a ∈ text, p a = true → sep a = true) :
    words sep (trimEnd p text) = words sep text := by
  induction text using List.reverseRecOn with
  | nil => rfl
  | append_singleton xs a ih =>
    rw [trimEnd_concat]
    split
    · rename_i ha
      rw [ih (fun b hb => hp b (List.mem_append_left _ hb)),
        words_append_separator (hp a (by simp) ha)]
      simp
    · rfl

end Words

/-! ### Words with a given beginning -/

section Beginnings

variable {p sep : α → Bool}

theorem trimEnd_trimEnd (p : α → Bool) (text : List α) :
    trimEnd p (trimEnd p text) = trimEnd p text := by
  induction text using List.reverseRecOn with
  | nil => rfl
  | append_singleton xs a ih =>
    rw [trimEnd_concat]
    split
    · exact ih
    · rename_i ha
      rw [trimEnd_concat, if_neg ha]

/-- What ends in an element that stays is not cut by the trimming. -/
theorem infix_trimEnd {q : List α} {b : α} (hb : p b = false) {text : List α} :
    q ++ [b] <:+: trimEnd p text ↔ q ++ [b] <:+: text := by
  induction text using List.reverseRecOn with
  | nil => rfl
  | append_singleton xs a ih =>
    rw [trimEnd_concat]
    split
    · rename_i ha
      have hne : ¬ q ++ [b] <:+ xs ++ [a] := by
        rintro ⟨ys, hys⟩
        rw [← List.append_assoc] at hys
        rw [(List.append_singleton_inj.mp hys).2, ha] at hb
        cases hb
      rw [ih, List.infix_concat_iff, or_iff_right hne]
    · rfl

theorem prefix_trimEnd {q : List α} {b : α} (hb : p b = false) {text : List α} :
    q ++ [b] <+: trimEnd p text ↔ q ++ [b] <+: text := by
  induction text using List.reverseRecOn with
  | nil => rfl
  | append_singleton xs a ih =>
    rw [trimEnd_concat]
    split
    · rename_i ha
      have hne : q ++ [b] ≠ xs ++ [a] := by
        intro h
        rw [(List.append_singleton_inj.mp h).2, ha] at hb
        cases hb
      rw [ih, List.prefix_concat_iff, or_iff_right hne]
    · rfl

/-- A pattern stands at the start of the text or right behind a separator. -/
def StartsWord (sep : α → Bool) (pat text : List α) : Prop :=
  pat <+: text ∨ ∃ a, sep a = true ∧ a :: pat <:+: text

theorem startsWord_append_separator {pat : List α} (hpat : ∀ b ∈ pat, sep b = false) {a : α}
    (ha : sep a = true) {xs : List α} (hxs : ∀ b ∈ xs, sep b = false) (ys : List α) :
    StartsWord sep pat (xs ++ a :: ys) ↔ pat <+: xs ∨ StartsWord sep pat ys := by
  have hfree : a ∉ pat := fun h => by simp [hpat a h] at ha
  have hhead : ∀ b, sep b = true → (b :: pat <:+: xs ++ a :: ys ↔ b :: pat <:+: a :: ys) := by
    intro b hb
    clear hfree
    induction xs with
    | nil => rfl
    | cons x xs ih =>
      have hno : ¬ b :: pat <+: x :: (xs ++ a :: ys) := by
        intro h
        rw [(List.cons_prefix_cons.mp h).1, hxs x List.mem_cons_self] at hb
        cases hb
      rw [List.cons_append, List.infix_cons_iff, or_iff_right hno,
        ih (fun c hc => hxs c (List.mem_cons_of_mem _ hc))]
  rw [StartsWord, prefix_append_cons hfree]
  refine or_congr_right ⟨?_, ?_⟩
  · rintro ⟨b, hb, h⟩
    rcases List.infix_cons_iff.mp ((hhead b hb).mp h) with hpre | hinf
    · exact Or.inl (List.cons_prefix_cons.mp hpre).2
    · exact Or.inr ⟨b, hb, hinf⟩
  · rintro (hpre | ⟨b, hb, hinf⟩)
    · exact ⟨a, ha, (hhead a ha).mpr (List.cons_prefix_cons.mpr ⟨rfl, hpre⟩).isInfix⟩
    · exact ⟨b, hb, (hhead b hb).mpr (List.infix_cons_iff.mpr (Or.inr hinf))⟩

/-- The part of a text before its first separator. -/
theorem free_or_separator (sep : α → Bool) (text : List α) :
    (∀ b ∈ text, sep b = false) ∨ ∃ xs a ys, (∀ b ∈ xs, sep b = false) ∧ sep a = true ∧
      text = xs ++ a :: ys := by
  induction text with
  | nil => exact Or.inl (by simp)
  | cons b text ih =>
    cases hb : sep b with
    | true => exact Or.inr ⟨[], b, text, by simp, hb, rfl⟩
    | false =>
      refine ih.imp (fun hfree => List.forall_mem_cons.mpr ⟨hb, hfree⟩) ?_
      rintro ⟨xs, a, ys, hxs, ha, rfl⟩
      exact ⟨b :: xs, a, ys, List.forall_mem_cons.mpr ⟨hb, hxs⟩, ha, rfl⟩

/-- **A word begins with a pattern where the pattern starts a word.** -/
theorem exists_word_prefix {pat : List α} (hpat : ∀ b ∈ pat, sep b = false) (hne : pat ≠ [])
    (text : List α) : (∃ w ∈ words sep text, pat <+: w) ↔ StartsWord sep pat text := by
  have hpart : ∀ xs : List α, (∀ b ∈ xs, sep b = false) →
      ((∃ w ∈ words sep xs, pat <+: w) ↔ pat <+: xs) := by
    intro xs hxs
    by_cases hnil : xs = []
    · subst hnil
      simp [hne]
    · simp [words_of_free hxs hnil]
  induction hn : text.length using Nat.strongRecOn generalizing text with
  | ind n ih =>
    subst hn
    rcases free_or_separator sep text with hfree | ⟨xs, a, ys, hxs, ha, rfl⟩
    · rw [hpart text hfree, StartsWord, or_iff_left]
      rintro ⟨a, ha, hinf⟩
      rw [hfree a (hinf.subset List.mem_cons_self)] at ha
      cases ha
    · have hys : (∃ w ∈ words sep ys, pat <+: w) ↔ StartsWord sep pat ys :=
        ih ys.length (by simp; omega) ys rfl
      rw [startsWord_append_separator hpat ha hxs, ← hpart xs hxs, ← hys,
        words_append_separator ha]
      simp only [List.mem_append, or_and_right, exists_or]

end Beginnings
/-! ### Replacing a pattern -/

section Replace

variable [DecidableEq α] (pat rep : List α)

/-- Replace a pattern from left to right, the first `skip` elements being part of a match. -/
def replaceFrom : ℕ → List α → List α
  | _, [] => []
  | skip + 1, _ :: rest => replaceFrom skip rest
  | 0, a :: rest =>
    if pat.isPrefixOf (a :: rest) then rep ++ replaceFrom (pat.length - 1) rest
    else a :: replaceFrom 0 rest

/-- Replace every match of a pattern, matches taken from left to right and not overlapping. -/
def replace (text : List α) : List α := replaceFrom pat rep 0 text

variable {pat rep} {sep : α → Bool}

theorem replace_match {a : α} {rest : List α} (h : pat.isPrefixOf (a :: rest) = true) :
    replace pat rep (a :: rest) = rep ++ replaceFrom pat rep (pat.length - 1) rest := by
  rw [replace, replaceFrom, if_pos h]

theorem replace_skip {a : α} {rest : List α} (h : ¬ pat.isPrefixOf (a :: rest) = true) :
    replace pat rep (a :: rest) = a :: replace pat rep rest := by
  rw [replace, replaceFrom, if_neg h]
  rfl

/-- A match of a pattern without separators ends before a separator. -/
theorem isPrefixOf_append_separator (hpat : ∀ b ∈ pat, sep b = false) {a : α} (ha : sep a = true)
    (xs ys : List α) : pat.isPrefixOf (xs ++ a :: ys) = pat.isPrefixOf xs := by
  induction pat generalizing xs with
  | nil => rfl
  | cons b pat ih =>
    cases xs with
    | nil =>
      have hne : b ≠ a := by
        intro heq
        have hb := hpat b List.mem_cons_self
        rw [heq, ha] at hb
        cases hb
      simp [List.isPrefixOf, hne]
    | cons x xs =>
      simp only [List.cons_append, List.isPrefixOf]
      rw [ih (fun c hc => hpat c (List.mem_cons_of_mem _ hc))]

theorem length_le_of_isPrefixOf {xs : List α} (h : pat.isPrefixOf xs = true) :
    pat.length ≤ xs.length := (List.isPrefixOf_iff_prefix.mp h).length_le

theorem replaceFrom_append_separator (hpat : ∀ b ∈ pat, sep b = false) (hne : pat ≠ []) {a : α}
    (ha : sep a = true) (ys : List α) (xs : List α) (skip : ℕ) (hskip : skip ≤ xs.length) :
    replaceFrom pat rep skip (xs ++ a :: ys) =
      replaceFrom pat rep skip xs ++ a :: replace pat rep ys := by
  induction xs generalizing skip with
  | nil =>
    obtain rfl : skip = 0 := Nat.le_zero.mp hskip
    have hno : pat.isPrefixOf (a :: ys) = false := by
      rw [← List.nil_append (a :: ys), isPrefixOf_append_separator hpat ha]
      cases pat with
      | nil => exact absurd rfl hne
      | cons b pat => rfl
    simp [replaceFrom, hno, replace]
  | cons x xs ih =>
    cases skip with
    | succ skip => exact ih skip (Nat.le_of_succ_le_succ hskip)
    | zero =>
      have hprefix : pat.isPrefixOf (x :: (xs ++ a :: ys)) = pat.isPrefixOf (x :: xs) := by
        rw [← List.cons_append]
        exact isPrefixOf_append_separator hpat ha _ _
      simp only [List.cons_append, replaceFrom, hprefix]
      split
      · rename_i hmatch
        have hlen := length_le_of_isPrefixOf hmatch
        rw [ih _ (by rw [List.length_cons] at hlen; omega), List.append_assoc]
      · rw [ih 0 (Nat.zero_le _), List.cons_append]

theorem replace_append_separator (hpat : ∀ b ∈ pat, sep b = false) (hne : pat ≠ []) {a : α}
    (ha : sep a = true) (xs ys : List α) :
    replace pat rep (xs ++ a :: ys) = replace pat rep xs ++ a :: replace pat rep ys :=
  replaceFrom_append_separator hpat hne ha ys xs 0 (Nat.zero_le _)

theorem mem_replaceFrom {skip : ℕ} {text : List α} {a : α}
    (ha : a ∈ replaceFrom pat rep skip text) : a ∈ rep ∨ a ∈ text := by
  induction text generalizing skip with
  | nil =>
    cases skip with
    | zero => cases ha
    | succ skip => cases ha
  | cons b rest ih =>
    cases skip with
    | succ skip => exact (ih ha).imp_right (List.mem_cons_of_mem _)
    | zero =>
      simp only [replaceFrom] at ha
      split at ha
      · rcases List.mem_append.mp ha with h | h
        · exact Or.inl h
        · exact (ih h).imp_right (List.mem_cons_of_mem _)
      · rcases List.mem_cons.mp ha with h | h
        · exact Or.inr (h ▸ List.mem_cons_self)
        · exact (ih h).imp_right (List.mem_cons_of_mem _)

theorem replace_ne_nil (hrep : rep ≠ []) {text : List α} (h : text ≠ []) :
    replace pat rep text ≠ [] := by
  cases text with
  | nil => exact absurd rfl h
  | cons a rest =>
    by_cases hmatch : pat.isPrefixOf (a :: rest) = true
    · simp [replace_match hmatch, hrep]
    · simp [replace_skip hmatch]

/-- Where neither the pattern nor its replacement can begin, the beginning of a text stays. -/
theorem isPrefixOf_replace {p r : α} {pat rep pre : List α} (hp : p ∉ pre) (hr : r ∉ pre)
    (text : List α) :
    pre.isPrefixOf (replace (p :: pat) (r :: rep) text) = pre.isPrefixOf text := by
  induction pre generalizing text with
  | nil => rfl
  | cons c pre ih =>
    simp only [List.mem_cons, not_or] at hp hr
    cases text with
    | nil => rfl
    | cons a rest =>
      by_cases hmatch : (p :: pat).isPrefixOf (a :: rest) = true
      · have ha : p = a := by
          simp only [List.isPrefixOf, Bool.and_eq_true, beq_iff_eq] at hmatch
          exact hmatch.1
        have hcr : (c == r) = false := beq_eq_false_iff_ne.mpr (Ne.symm hr.1)
        have hcp : (c == p) = false := beq_eq_false_iff_ne.mpr (Ne.symm hp.1)
        rw [replace_match hmatch, List.cons_append, ← ha]
        simp only [List.isPrefixOf, hcr, hcp, Bool.false_and]
      · rw [replace_skip hmatch]
        simp only [List.isPrefixOf, ih hp.2 hr.2 rest]

/-- **Words are replaced one by one.** -/
theorem words_replace (hpat : ∀ b ∈ pat, sep b = false) (hne : pat ≠ [])
    (hrep : ∀ b ∈ rep, sep b = false) (hrepne : rep ≠ []) (text : List α) :
    words sep (replace pat rep text) = (words sep text).map (replace pat rep) := by
  induction hn : text.length using Nat.strongRecOn generalizing text with
  | ind n ih =>
    subst hn
    by_cases hsep : ∃ a ∈ text, sep a = true
    · obtain ⟨a, hmem, ha⟩ := hsep
      obtain ⟨xs, ys, rfl⟩ := List.append_of_mem hmem
      have hxs := ih xs.length (by simp) xs rfl
      have hys := ih ys.length (by simp; omega) ys rfl
      rw [replace_append_separator hpat hne ha, words_append_separator ha,
        words_append_separator ha, List.map_append, hxs, hys]
    · have hfree : ∀ a ∈ text, sep a = false := by
        intro a ha
        exact Bool.eq_false_iff.mpr (fun h => hsep ⟨a, ha, h⟩)
      by_cases hnil : text = []
      · subst hnil
        rfl
      · have hfree' : ∀ a ∈ replace pat rep text, sep a = false :=
          fun a ha => (mem_replaceFrom ha).elim (hrep a) (hfree a)
        rw [words_of_free hfree' (replace_ne_nil hrepne hnil), words_of_free hfree hnil]
        rfl

end Replace

/-! ### What words set -/

/-- **The last word wins.**  Each word sets what is looked at, or leaves it as it is. -/
theorem foldl_lastSet {σ β ω : Type*} {step : σ → ω → σ} {view : σ → β} {sets : ω → Option β}
    (h : ∀ s w, view (step s w) = (sets w).getD (view s)) (s : σ) (ws : List ω) :
    view (ws.foldl step s) = (ws.filterMap sets).getLast?.getD (view s) := by
  induction ws using List.reverseRecOn with
  | nil => rfl
  | append_singleton ws w ih =>
    rw [List.foldl_append, List.foldl_cons, List.foldl_nil, h, ih, List.filterMap_append]
    cases hw : sets w with
    | none => simp [hw]
    | some b => simp [hw]

end WriteonceOs.Library
