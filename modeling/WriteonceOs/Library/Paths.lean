import Mathlib.Data.List.DropRight

/-!
# Paths and where they lead

Slash-separated paths over characters, joined as texts and walked component by component: an empty
component and `.` stay, `..` ascends, every other component descends.  A directory is the list of
names that leads to it from the root; there are no links.

* `resolve_join` — a relative path is walked from where its base leads;
* `resolve_join_last` — a path whose last component is a name leads into the directory that the
  part before it leads to;
* `child_of_base_iff` — when that directory is the base.
-/

namespace WriteonceOs.Library.Paths

/-- The names from the root to a directory or file. -/
abbrev Place := List (List Char)

def components (path : List Char) : List (List Char) := path.splitOnP (· = '/')

/-- Where one component leads. -/
def visit (dir : Place) (component : List Char) : Place :=
  if component = [] ∨ component = ['.'] then dir
  else if component = ['.', '.'] then dir.dropLast
  else dir ++ [component]

def walk (dir : Place) (cs : List (List Char)) : Place := cs.foldl visit dir

def isAbsolute (path : List Char) : Bool := path.head? = some '/'

/-- Where a path leads, seen from the working directory. -/
def resolve (cwd : Place) (path : List Char) : Place :=
  walk (if isAbsolute path then [] else cwd) (components path)

/-- An absolute path replaces the base, another one is put behind it. -/
def join (base path : List Char) : List Char :=
  if isAbsolute path then path
  else if base = [] ∨ base.getLast? = some '/' then base ++ path
  else base ++ '/' :: path

/-- What a directory entry can be called. -/
structure IsName (c : List Char) : Prop where
  ne_nil : c ≠ []
  ne_dot : c ≠ ['.']
  ne_dotdot : c ≠ ['.', '.']
  noSlash : '/' ∉ c

instance (c : List Char) : Decidable (IsName c) :=
  decidable_of_iff (c ≠ [] ∧ c ≠ ['.'] ∧ c ≠ ['.', '.'] ∧ '/' ∉ c)
    ⟨fun ⟨h₁, h₂, h₃, h₄⟩ => ⟨h₁, h₂, h₃, h₄⟩, fun ⟨h₁, h₂, h₃, h₄⟩ => ⟨h₁, h₂, h₃, h₄⟩⟩

/-- The part of a path up to its last slash. -/
def leading (path : List Char) : List Char := path.rdropWhile (· ≠ '/')

/-- The part of a path after its last slash. -/
def lastPart (path : List Char) : List Char := path.rtakeWhile (· ≠ '/')

theorem leading_append_lastPart (path : List Char) : leading path ++ lastPart path = path :=
  List.rdropWhile_append_rtakeWhile

@[simp] theorem visit_nil (dir : Place) : visit dir [] = dir := by simp [visit]

theorem visit_name {c : List Char} (h : IsName c) (dir : Place) : visit dir c = dir ++ [c] := by
  simp [visit, h.ne_nil, h.ne_dot, h.ne_dotdot]

/-- Names are walked down one after the other. -/
theorem walk_names {cs : List (List Char)} (h : ∀ c ∈ cs, IsName c) (dir : Place) :
    walk dir cs = dir ++ cs := by
  induction cs generalizing dir with
  | nil => exact (List.append_nil dir).symm
  | cons c cs ih =>
    obtain ⟨hc, hcs⟩ := List.forall_mem_cons.mp h
    show walk (visit dir c) cs = dir ++ c :: cs
    rw [visit_name hc, ih hcs, List.append_assoc]
    rfl

theorem walk_append (dir : Place) (cs ds : List (List Char)) :
    walk dir (cs ++ ds) = walk (walk dir cs) ds := List.foldl_append

@[simp] theorem components_nil : components [] = [[]] := rfl

theorem components_append_slash (p q : List Char) :
    components (p ++ '/' :: q) = components p ++ components q :=
  List.splitOnP_append_cons _ _ (by simp)

theorem components_noSlash {p : List Char} (h : '/' ∉ p) : components p = [p] := by
  refine List.splitOnP_eq_singleton (fun c hc => ?_)
  exact decide_eq_false (fun heq => h (heq ▸ hc))

theorem isAbsolute_append {p : List Char} (h : p ≠ []) (q : List Char) :
    isAbsolute (p ++ q) = isAbsolute p := by
  cases p with
  | nil => exact absurd rfl h
  | cons c p => rfl

theorem isAbsolute_noSlash {p : List Char} (h : '/' ∉ p) : isAbsolute p = false := by
  cases p with
  | nil => rfl
  | cons c p =>
    simp only [List.mem_cons, not_or] at h
    simp [isAbsolute, Ne.symm h.1]

/-- What ends in a slash leads to the same place as what stands before it, followed by nothing. -/
theorem resolve_append_slash {base : List Char} (hbase : base ≠ []) (cwd : Place)
    (path : List Char) :
    resolve cwd (base ++ '/' :: path) = walk (resolve cwd base) (components path) := by
  rw [resolve, isAbsolute_append hbase, components_append_slash, walk_append]
  rfl

/-- **A relative path is walked from where its base leads.** -/
theorem resolve_join {path : List Char} (hpath : isAbsolute path = false) (cwd : Place)
    (base : List Char) :
    resolve cwd (join base path) = walk (resolve cwd base) (components path) := by
  unfold join
  rw [if_neg (by simp [hpath])]
  by_cases hnil : base = []
  · subst hnil
    have hempty : resolve cwd [] = cwd := by simp [resolve, isAbsolute, walk]
    rw [if_pos (Or.inl rfl), List.nil_append, hempty, resolve, if_neg (by simp [hpath])]
  · by_cases hslash : base.getLast? = some '/'
    · obtain ⟨b, rfl⟩ := List.getLast?_eq_some_iff.mp hslash
      rw [if_pos (Or.inr hslash), List.append_assoc, List.singleton_append]
      by_cases hb : b = []
      · subst hb
        have hcomp : components ('/' :: path) = [] :: components path :=
          components_append_slash [] path
        simp only [List.nil_append, resolve, hcomp]
        rfl
      · rw [resolve_append_slash hb, resolve_append_slash hb, components_nil]
        simp [walk]
    · rw [if_neg (by simp [hnil, hslash]), resolve_append_slash hnil]

theorem resolve_join_absolute {path : List Char} (hpath : isAbsolute path = true) (cwd : Place)
    (base : List Char) : resolve cwd (join base path) = walk [] (components path) := by
  simp [join, hpath, resolve]

/-! ### The last component -/

theorem lastPart_noSlash (path : List Char) : '/' ∉ lastPart path := by
  intro h
  have := List.mem_rtakeWhile_imp h
  simp at this

/-- The leading part is empty or ends in a slash. -/
theorem leading_cases (path : List Char) : leading path = [] ∨ ∃ l, leading path = l ++ ['/'] := by
  by_cases h : leading path = []
  · exact Or.inl h
  · right
    have hlast := List.rdropWhile_last_not (fun c => decide (c ≠ '/')) path h
    have hslash : (leading path).getLast h = '/' := by
      by_contra hne
      exact hlast (decide_eq_true hne)
    refine ⟨(leading path).dropLast, ?_⟩
    conv_lhs => rw [← List.dropLast_append_getLast h]
    rw [hslash]

theorem leading_eq_nil_iff {path : List Char} : leading path = [] ↔ '/' ∉ path := by
  rw [leading, List.rdropWhile_eq_nil_iff]
  constructor
  · intro h hc
    have := h _ hc
    simp at this
  · intro h c hc
    exact decide_eq_true (fun heq => h (heq ▸ hc))

theorem leading_append {path suffix : List Char} (h : '/' ∉ suffix) :
    leading (path ++ suffix) = leading path := by
  have hall : ∀ c ∈ suffix.reverse, decide (c ≠ '/') = true :=
    fun c hc => decide_eq_true (fun heq => h (heq ▸ List.mem_reverse.mp hc))
  rw [leading, List.rdropWhile, List.reverse_append, List.dropWhile_append_of_pos hall]
  rfl

theorem lastPart_append {path suffix : List Char} (h : '/' ∉ suffix) :
    lastPart (path ++ suffix) = lastPart path ++ suffix := by
  have hsplit := leading_append_lastPart (path ++ suffix)
  rw [leading_append h] at hsplit
  have hself : leading path ++ (lastPart path ++ suffix) = path ++ suffix := by
    rw [← List.append_assoc, leading_append_lastPart]
  exact List.append_cancel_left (hsplit.trans hself.symm)

/-- **Into the directory of the leading part.** -/
theorem resolve_join_last {path : List Char} (h : IsName (lastPart path)) (cwd : Place)
    (base : List Char) : resolve cwd (join base path) =
      resolve cwd (join base (leading path)) ++ [lastPart path] := by
  have hlast : components (lastPart path) = [lastPart path] := components_noSlash h.noSlash
  have hstep : ∀ dir, walk dir [lastPart path] = dir ++ [lastPart path] := visit_name h
  have hpath := leading_append_lastPart path
  rcases leading_cases path with hnil | ⟨l, hl⟩
  · rw [hnil, List.nil_append] at hpath
    have hrel : isAbsolute path = false := by
      rw [← hpath]
      exact isAbsolute_noSlash h.noSlash
    rw [hnil, resolve_join hrel, resolve_join rfl, ← hstep, ← hlast, hpath]
    simp [walk]
  · have hpath' : path = l ++ '/' :: lastPart path := by
      conv_lhs => rw [← hpath]
      rw [hl, List.append_assoc, List.singleton_append]
    have hcomp : components path = components l ++ [lastPart path] := by
      conv_lhs => rw [hpath']
      rw [components_append_slash, hlast]
    have hlead : components (leading path) = components l ++ [[]] := by
      rw [hl, components_append_slash, components_nil]
    have habs : isAbsolute (leading path) = isAbsolute path := by
      conv_rhs => rw [← hpath]
      exact (isAbsolute_append (by simp [hl]) _).symm
    have hwalk : ∀ dir, walk dir (components path) =
        walk dir (components (leading path)) ++ [lastPart path] := by
      intro dir
      rw [hcomp, hlead, walk_append, walk_append, hstep]
      simp [walk]
    cases hrel : isAbsolute path with
    | true => rw [resolve_join_absolute hrel, resolve_join_absolute (habs.trans hrel), hwalk]
    | false => rw [resolve_join hrel, resolve_join (habs.trans hrel), hwalk]

/-- **Direct children of the base**: the leading part has to lead back to it. -/
theorem child_of_base_iff {path : List Char} (h : IsName (lastPart path)) (cwd : Place)
    (base : List Char) : (∃ name, resolve cwd (join base path) = resolve cwd base ++ [name]) ↔
      resolve cwd (join base (leading path)) = resolve cwd base := by
  rw [resolve_join_last h]
  constructor
  · intro h'
    obtain ⟨name, hname⟩ := h'
    exact (List.append_inj' hname rfl).1
  · intro h'
    exact ⟨lastPart path, by rw [h']⟩

/-- A path without a slash stays in the base. -/
theorem child_of_noSlash {path : List Char} (h : IsName path) (cwd : Place) (base : List Char) :
    resolve cwd (join base path) = resolve cwd base ++ [path] := by
  rw [resolve_join (isAbsolute_noSlash h.noSlash), components_noSlash h.noSlash]
  exact visit_name h _

end WriteonceOs.Library.Paths
