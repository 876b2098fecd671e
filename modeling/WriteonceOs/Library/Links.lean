import Mathlib.Data.List.Dedup
import WriteonceOs.Library.FileTree

/-!
# Symbolic links in file trees

A symbolic link is a file whose mode says so; its text is the path that it stands for.  A path that
the kernel resolves goes through the links on its way, also through one at its end, and gives up
when there are too many.

* `resolve`, `follow` — where a path leads, and where a place leads when it is a link;
* `follow_plain` — what is no link leads to itself;
* `follow_ends` — where a path leads there is something, and no link;
* `SameInodes.follow` — paths go by the contents and the modes.
-/

namespace WriteonceOs.Library

open Paths (Place components)

/-- The type of an inode in its mode, and the type of a symbolic link. -/
def typeMask : UInt32 := 0o170000

def typeLink : UInt32 := 0o120000

/-- What a symbolic link stands for. -/
def Node.linkText (n : Node) : Option (List Char) :=
  match n.content with
  | .dir => none
  | .file s => if n.mode &&& typeMask = typeLink then some s else none

/-- Why a path leads nowhere. -/
inductive PathError where
  | notFound | notDir | loop
  deriving DecidableEq, Repr

namespace FileTree

variable (t : FileTree)

def linkAt (p : Place) : Option (List Char) := (t.node p).bind Node.linkText

/-- Component by component, up to the first link. -/
def walkWith (onLink : Place → List Char → List (List Char) → Except PathError Place) :
    Place → List (List Char) → Except PathError Place
  | p, [] => .ok p
  | p, c :: cs =>
    if t.isDir p = false then .error .notDir
    else if c = [] ∨ c = ['.'] then walkWith onLink p cs
    else if c = ['.', '.'] then walkWith onLink p.dropLast cs
    else
      match t.linkAt (p ++ [c]) with
      | some s => onLink p s cs
      | none =>
        if (t.node (p ++ [c])).isSome then walkWith onLink (p ++ [c]) cs else .error .notFound

/-- The directory that the text of a link is read from. -/
def linkBase (dir : Place) (s : List Char) : Place := if Paths.isAbsolute s then [] else dir

/-- Where a path leads from a directory, through at most `n` links. -/
def resolve : ℕ → Place → List (List Char) → Except PathError Place
  | 0 => t.walkWith fun _ _ _ => .error .loop
  | n + 1 => t.walkWith fun dir s cs => resolve n (linkBase dir s) (components s ++ cs)

/-- Where the path of a place leads: a link at its end is followed. -/
def follow (n : ℕ) (p : Place) : Except PathError Place :=
  match t.linkAt p, n with
  | none, _ => if (t.node p).isSome then .ok p else .error .notFound
  | some _, 0 => .error .loop
  | some s, n + 1 => t.resolve n (linkBase p.dropLast s) (components s)

/-- Whether the path of a place leads to a directory. -/
def leadsToDir (n : ℕ) (p : Place) : Bool :=
  match t.follow n p with
  | .ok q => t.isDir q
  | .error _ => false

variable {t} {t' : FileTree} {n : ℕ} {p q : Place} {s : List Char}

theorem linkAt_isDir (h : t.isDir p = true) : t.linkAt p = none := by
  rw [isDir_iff] at h
  cases hnode : t.node p with
  | none => simp [linkAt, hnode]
  | some n =>
    rw [hnode, Option.map_some, Option.some.injEq] at h
    simp [linkAt, hnode, Node.linkText, h]

theorem node_of_link (h : t.linkAt p = some s) : t.node p ≠ none := by
  intro hnone
  simp [linkAt, hnone] at h

theorem isDir_of_link (h : t.linkAt p = some s) : t.isDir p = false := by
  cases hdir : t.isDir p with
  | false => rfl
  | true =>
    rw [linkAt_isDir hdir] at h
    cases h

/-- **What is no link leads to itself.** -/
theorem follow_plain (h : t.linkAt p = none) (hp : t.node p ≠ none) : t.follow n p = .ok p := by
  simp only [follow, h]
  exact if_pos (Option.isSome_iff_ne_none.mpr hp)

theorem leadsToDir_plain (h : t.linkAt p = none) : t.leadsToDir n p = t.isDir p := by
  cases hp : t.node p with
  | none => simp [leadsToDir, follow, h, isDir, hp]
  | some node => simp [leadsToDir, follow_plain h, hp]

/-- A directory that is no link. -/
theorem leadsToDir_and_plain :
    (t.leadsToDir n p && (t.linkAt p).isNone) = t.isDir p := by
  cases h : t.linkAt p with
  | none => rw [leadsToDir_plain h, Option.isNone_none, Bool.and_true]
  | some s => rw [isDir_of_link h, Option.isNone_some, Bool.and_false]

/-! ### Where paths lead -/

/-- What a walk may end at. -/
def Ends (t : FileTree) (q : Place) : Prop := t.node q ≠ none ∧ t.linkAt q = none

theorem ends_of_isDir (h : t.isDir p = true) : t.Ends p := by
  refine ⟨fun hnone => ?_, linkAt_isDir h⟩
  rw [isDir, hnone] at h
  cases h

/-- Above a directory there is a directory. -/
theorem isDir_parent (h : t.isDir p = true) : t.isDir p.dropLast = true := by
  by_cases hne : p = []
  · rw [hne] at h ⊢
    exact h
  · exact isDir_dropLast hne (ends_of_isDir h).1

theorem isDir_root (h : t.isDir p = true) : t.isDir [] = true := by
  by_cases hne : p = []
  · rwa [← hne]
  · exact isDir_above List.nil_prefix (Ne.symm hne) (ends_of_isDir h).1

theorem walkWith_ends {onLink : Place → List Char → List (List Char) → Except PathError Place}
    (hlink : ∀ dir s cs, t.isDir dir = true → onLink dir s cs = .ok q → t.Ends q)
    (cs : List (List Char)) (p : Place) (hp : t.Ends p) (h : t.walkWith onLink p cs = .ok q) :
    t.Ends q := by
  induction cs generalizing p with
  | nil =>
    cases h
    exact hp
  | cons c cs ih =>
    rw [walkWith] at h
    split at h
    case isTrue => cases h
    case isFalse hdir =>
      have hdir : t.isDir p = true := by simpa using hdir
      split at h
      case isTrue => exact ih p hp h
      case isFalse =>
        split at h
        case isTrue => exact ih _ (ends_of_isDir (isDir_parent hdir)) h
        case isFalse =>
          cases hl : t.linkAt (p ++ [c]) with
          | some s =>
            rw [hl] at h
            exact hlink p s cs hdir h
          | none =>
            rw [hl] at h
            simp only at h
            split at h
            case isTrue hsome => exact ih _ ⟨Option.isSome_iff_ne_none.mp hsome, hl⟩ h
            case isFalse => cases h

theorem linkBase_isDir (h : t.isDir p = true) (s : List Char) : t.isDir (linkBase p s) = true := by
  rw [linkBase]
  split
  · exact isDir_root h
  · exact h

theorem resolve_ends (n : ℕ) (cs : List (List Char)) (p : Place) (hp : t.Ends p)
    (h : t.resolve n p cs = .ok q) : t.Ends q := by
  induction n generalizing p cs with
  | zero => exact walkWith_ends (fun _ _ _ _ h => by cases h) cs p hp h
  | succ n ih =>
    refine walkWith_ends (fun dir s cs hdir h => ?_) cs p hp h
    exact ih _ _ (ends_of_isDir (linkBase_isDir hdir s)) h

/-- **Where the path of a place leads there is something, and no link.** -/
theorem follow_ends (hne : p ≠ []) (h : t.follow n p = .ok q) : t.Ends q := by
  cases hl : t.linkAt p with
  | none =>
    simp only [follow, hl] at h
    split at h
    case isTrue hsome =>
      cases h
      exact ⟨Option.isSome_iff_ne_none.mp hsome, hl⟩
    case isFalse => cases h
  | some s =>
    cases n with
    | zero =>
      simp only [follow, hl] at h
      cases h
    | succ n =>
      simp only [follow, hl] at h
      have hdir := isDir_dropLast hne (node_of_link hl)
      exact resolve_ends n _ _ (ends_of_isDir (linkBase_isDir hdir s)) h

/-! ### What paths go by -/

/-- The same inodes, up to their owners. -/
def SameInodes (t t' : FileTree) : Prop :=
  ∀ q, (t.node q).map (fun n => (n.content, n.mode)) =
    (t'.node q).map fun n => (n.content, n.mode)

theorem SameInodes.isSome (h : t.SameInodes t') (q : Place) :
    (t.node q).isSome = (t'.node q).isSome := by
  have hq := congrArg Option.isSome (h q)
  rwa [Option.isSome_map, Option.isSome_map] at hq

theorem SameInodes.isDir (h : t.SameInodes t') (q : Place) : t.isDir q = t'.isDir q := by
  have hq := congrArg (Option.map Prod.fst) (h q)
  rw [Option.map_map, Option.map_map] at hq
  exact congrArg (fun x => decide (x = some Content.dir)) hq

theorem SameInodes.linkAt (h : t.SameInodes t') (q : Place) : t.linkAt q = t'.linkAt q := by
  have hq := h q
  rw [FileTree.linkAt, FileTree.linkAt]
  cases hn : t.node q with
  | none =>
    rw [hn, Option.map_none] at hq
    rw [Option.map_eq_none_iff.mp hq.symm]
  | some n =>
    rw [hn, Option.map_some] at hq
    obtain ⟨n', hn', heq⟩ := Option.map_eq_some_iff.mp hq.symm
    rw [Prod.mk.injEq] at heq
    rw [hn', Option.bind_some, Option.bind_some, Node.linkText, Node.linkText, heq.1, heq.2]

theorem SameInodes.walkWith (h : t.SameInodes t')
    {onLink onLink' : Place → List Char → List (List Char) → Except PathError Place}
    (hlink : ∀ dir s cs, onLink dir s cs = onLink' dir s cs) (cs : List (List Char)) (p : Place) :
    t.walkWith onLink p cs = t'.walkWith onLink' p cs := by
  induction cs generalizing p with
  | nil => rfl
  | cons c cs ih =>
    rw [FileTree.walkWith, FileTree.walkWith, h.isDir, h.linkAt, h.isSome, ih p, ih p.dropLast,
      ih (p ++ [c])]
    cases t'.linkAt (p ++ [c]) with
    | none => rfl
    | some s => simp only [hlink]

theorem SameInodes.resolve (h : t.SameInodes t') (n : ℕ) (cs : List (List Char)) (p : Place) :
    t.resolve n p cs = t'.resolve n p cs := by
  induction n generalizing p cs with
  | zero => exact h.walkWith (fun _ _ _ => rfl) cs p
  | succ n ih => exact h.walkWith (fun _ _ _ => ih _ _) cs p

/-- **Paths go by the contents and the modes.** -/
theorem SameInodes.follow (h : t.SameInodes t') (n : ℕ) (p : Place) :
    t.follow n p = t'.follow n p := by
  cases hl : t'.linkAt p with
  | none =>
    have hl₀ := (h.linkAt p).trans hl
    simp only [FileTree.follow, hl, hl₀, h.isSome]
  | some s =>
    have hl₀ := (h.linkAt p).trans hl
    cases n with
    | zero => simp only [FileTree.follow, hl, hl₀]
    | succ n => simp only [FileTree.follow, hl, hl₀, h.resolve]

theorem SameInodes.symm (h : t.SameInodes t') : t'.SameInodes t := fun q => (h q).symm

theorem SameInodes.trans {t'' : FileTree} (h : t.SameInodes t') (h' : t'.SameInodes t'') :
    t.SameInodes t'' := fun q => (h q).trans (h' q)

/-! ### One inode's owner -/

/-- The owner of the inode at a place. -/
def ownerAt (t : FileTree) (p : Place) : Option (UInt32 × UInt32) := (t.node p).map Node.owner

def setOwner (t : FileTree) (p : Place) (owner : UInt32 × UInt32) : FileTree :=
  t.adjust (fun q n => if q = p then { n with owner } else n) (by
    intro q n
    split
    · rfl
    · rfl)

theorem setOwner_same (t : FileTree) (p : Place) (owner : UInt32 × UInt32) :
    (t.setOwner p owner).SameInodes t := by
  intro q
  simp only [setOwner, adjust, Option.map_map]
  refine congrArg (fun f => (t.node q).map f) (funext fun n => ?_)
  simp only [Function.comp_apply]
  split
  · rfl
  · rfl

theorem ownerAt_setOwner {owner : UInt32 × UInt32} :
    (t.setOwner p owner).ownerAt q =
      if q = p then (t.node q).map fun _ => owner else t.ownerAt q := by
  simp only [ownerAt, setOwner, adjust, Option.map_map]
  split
  case isTrue hq =>
    refine congrArg (fun f => (t.node q).map f) (funext fun n => ?_)
    simp
  case isFalse hq =>
    refine congrArg (fun f => (t.node q).map f) (funext fun n => ?_)
    simp

/-- The same inode with the same owner. -/
theorem SameInodes.node_eq (h : t.SameInodes t') (howner : t.ownerAt q = t'.ownerAt q) :
    t.node q = t'.node q := by
  have hq := h q
  rw [ownerAt, ownerAt] at howner
  cases hn : t.node q with
  | none =>
    rw [hn, Option.map_none] at hq
    exact (Option.map_eq_none_iff.mp hq.symm).symm
  | some n =>
    rw [hn, Option.map_some] at hq howner
    obtain ⟨n', hn', heq⟩ := Option.map_eq_some_iff.mp hq.symm
    rw [hn', Option.map_some, Option.some.injEq] at howner
    rw [Prod.mk.injEq] at heq
    rw [hn']
    cases n
    cases n'
    simp only at heq howner
    rw [heq.1, heq.2, howner]

theorem chown_same_inodes (t : FileTree) (p : Place) (owner : UInt32 × UInt32) :
    (t.chown p owner).SameInodes t := by
  intro q
  simp only [chown, adjust, Option.map_map]
  refine congrArg (fun f => (t.node q).map f) (funext fun n => ?_)
  simp only [Function.comp_apply]
  split
  · rfl
  · rfl

theorem ownerAt_chown {owner : UInt32 × UInt32} (hq : t.node q ≠ none) :
    (t.chown p owner).ownerAt q = if p <+: q then some owner else t.ownerAt q := by
  obtain ⟨n, hn⟩ := Option.ne_none_iff_exists'.mp hq
  simp only [ownerAt, chown, adjust, hn, Option.map_some]
  split
  · rfl
  · rfl

/-! ### Reading directories -/

/-- The names in a directory. -/
def children (t : FileTree) (p : Place) : List (List Char) :=
  (t.places.filterMap fun q =>
    if q.dropLast = p ∧ (t.node q).isSome then q.getLast? else none).dedup

theorem mem_children {c : List Char} : c ∈ t.children p ↔ t.node (p ++ [c]) ≠ none := by
  rw [children, List.mem_dedup, List.mem_filterMap]
  constructor
  · rintro ⟨q, -, hq⟩
    split at hq
    case isTrue h =>
      obtain ⟨rfl, hsome⟩ := h
      obtain ⟨dir, rfl⟩ := List.getLast?_eq_some_iff.mp hq
      rw [List.dropLast_concat]
      exact Option.isSome_iff_ne_none.mp hsome
    case isFalse => cases hq
  · intro h
    refine ⟨p ++ [c], t.mem_places _ h, ?_⟩
    rw [if_pos ⟨List.dropLast_concat, Option.isSome_iff_ne_none.mpr h⟩]
    exact List.getLast?_concat

/-- No place is deeper. -/
def depth (t : FileTree) : ℕ := (t.places.map List.length).foldr max 0

theorem length_le_depth (h : t.node p ≠ none) : p.length ≤ t.depth := by
  have hmem := List.mem_map_of_mem (f := List.length) (t.mem_places p h)
  rw [depth]
  generalize t.places.map List.length = ls at hmem
  induction ls with
  | nil => cases hmem
  | cons l ls ih =>
    rw [List.foldr_cons]
    rcases List.mem_cons.mp hmem with rfl | hmem
    · exact le_max_left _ _
    · exact (ih hmem).trans (le_max_right _ _)

/-- The order in which a directory is read. -/
structure ReadOrder where
  enum : Place → List (List Char) → List (List Char)
  perm : ∀ p names, (enum p names).Perm names

def ReadOrder.listed : ReadOrder where
  enum := fun _ names => names
  perm := fun _ _ => .refl _

end FileTree

end WriteonceOs.Library
