import WriteonceOs.Library.Paths
import Mathlib.Logic.Function.Basic

/-!
# File trees

Files and directories by their places, without links.  The parent of everything is a directory, and
the places that are taken are listed, so that a directory can be seen to be empty.

* `find` — where a path leads, with a directory at every step on the way;
* `write`, `chmod`, `chown`, `makeDirs`, `rename` — what changes, and what has to be there;
* `write_other`, `rename_other` and the like — what does not change;
* `write_same`, `chown_same`, `makeDirs_same` — what is there already is not changed again.
-/

namespace WriteonceOs.Library

open Paths (Place visit components)

inductive Content where
  | dir
  | file (text : List Char)
  deriving DecidableEq, Repr

structure Node where
  content : Content
  owner : UInt32 × UInt32
  mode : UInt32
  deriving DecidableEq, Repr

/-- A file that root creates. -/
def Node.newFile (text : List Char) : Node := ⟨.file text, (0, 0), 0o644⟩

def Node.newDir : Node := ⟨.dir, (0, 0), 0o755⟩

@[ext] structure FileTree where
  node : Place → Option Node
  places : List Place
  mem_places : ∀ p, node p ≠ none → p ∈ places
  parent : ∀ p c, node (p ++ [c]) ≠ none → (node p).map Node.content = some .dir

namespace FileTree

/-- The root directory and nothing below. -/
def bare : FileTree where
  node p := if p = [] then some .newDir else none
  places := [[]]
  mem_places p hp := by
    by_cases h : p = []
    · exact List.mem_singleton.mpr h
    · exact absurd (if_neg h) hp
  parent p c hp := absurd (if_neg (by simp)) hp

variable (t : FileTree)

/-! ### Looking -/

def isDir (p : Place) : Bool := (t.node p).map Node.content = some .dir

/-- The text of a file. -/
def text (p : Place) : Option (List Char) :=
  match (t.node p).map Node.content with
  | some (.file s) => some s
  | _ => none

/-- Nothing lies below. -/
def isEmpty (p : Place) : Bool :=
  t.places.all fun q => !(p.isPrefixOf q && q ≠ p && (t.node q).isSome)

def walk : Place → List (List Char) → Option Place
  | p, [] => some p
  | p, c :: cs => if t.isDir p then walk (visit p c) cs else none

/-- Where a relative path leads: every component but the last has to be a directory. -/
def find (base : Place) (path : List Char) : Option Place := t.walk base (components path)

def pathExists (base : Place) (path : List Char) : Bool :=
  (t.find base path).any fun p => (t.node p).isSome

/-! ### Changing -/

/-- A new node in a directory, in the place of none or of a file. -/
def put (p : Place) (n : Node) (h : p ≠ [] ∧ t.isDir p.dropLast = true ∧ t.isDir p = false) :
    FileTree where
  node := Function.update t.node p (some n)
  places := if p ∈ t.places then t.places else p :: t.places
  mem_places q hq := by
    by_cases hqp : q = p
    · subst hqp
      split
      · assumption
      · exact List.mem_cons_self
    · rw [Function.update_of_ne hqp] at hq
      have hmem := t.mem_places q hq
      split
      · exact hmem
      · exact List.mem_cons_of_mem _ hmem
  parent q c hq := by
    obtain ⟨hne, hparent, hdir⟩ := h
    by_cases hqp : q = p
    · subst hqp
      have hbelow : q ++ [c] ≠ q := by simp
      rw [Function.update_of_ne hbelow] at hq
      have hd := t.parent q c hq
      simp [isDir, hd] at hdir
    · rw [Function.update_of_ne hqp]
      by_cases hlast : q ++ [c] = p
      · rw [← hlast, List.dropLast_concat] at hparent
        simpa [isDir] using hparent
      · rw [Function.update_of_ne hlast] at hq
        exact t.parent q c hq

/-- A file written anew, or with its owner and mode kept. -/
def write (p : Place) (s : List Char) : Option FileTree :=
  if h : p ≠ [] ∧ t.isDir p.dropLast = true ∧ t.isDir p = false then
    some (t.put p (((t.node p).map fun n => { n with content := .file s }).getD (.newFile s)) h)
  else none

/-- A change of the nodes that leaves their contents alone. -/
def adjust (f : Place → Node → Node) (h : ∀ p n, (f p n).content = n.content) : FileTree where
  node p := (t.node p).map (f p)
  places := t.places
  mem_places p hp := t.mem_places p fun hnone => hp (by rw [hnone]; rfl)
  parent p c hp := by
    have hd := t.parent p c fun hnone => hp (by rw [hnone]; rfl)
    rw [Option.map_map]
    rw [← hd]
    cases t.node p with
    | none => rfl
    | some n => exact congrArg some (h p n)

def chmod (p : Place) (mode : UInt32) : FileTree :=
  t.adjust (fun q n => if q = p then { n with mode } else n) (by
    intro q n
    split
    · rfl
    · rfl)

/-- Everything from a place on gets an owner. -/
def chown (p : Place) (owner : UInt32 × UInt32) : FileTree :=
  t.adjust (fun q n => if p <+: q then { n with owner } else n) (by
    intro q n
    split
    · rfl
    · rfl)

/-- The directories along a path, made where they are missing. -/
def makeDirsFrom : FileTree → Place → List (List Char) → Option FileTree
  | t, p, [] => if t.isDir p then some t else none
  | t, p, c :: cs =>
    if h : visit p c ≠ [] ∧ t.isDir (visit p c).dropLast = true ∧ t.isDir (visit p c) = false then
      if t.isDir p ∧ t.node (visit p c) = none then
        makeDirsFrom (t.put (visit p c) .newDir h) (visit p c) cs
      else none
    else if t.isDir p then makeDirsFrom t (visit p c) cs else none

def makeDirs (base : Place) (path : List Char) : Option FileTree :=
  makeDirsFrom t base (components path)

/-- What a place may be renamed to. -/
structure Renamable (t : FileTree) (src dst : Place) : Prop where
  source : (t.node src).isSome = true
  ne_nil : dst ≠ []
  parent : t.isDir dst.dropLast = true
  not_inside : ¬ src <+: dst
  target : t.node dst = none ∨ (t.isDir src = true ∧ t.isDir dst = true ∧ t.isEmpty dst = true) ∨
    (t.isDir src = false ∧ (t.node dst).isSome = true ∧ t.isDir dst = false)

instance (src dst : Place) : Decidable (Renamable t src dst) :=
  decidable_of_iff ((t.node src).isSome = true ∧ dst ≠ [] ∧ t.isDir dst.dropLast = true ∧
    ¬ src <+: dst ∧ (t.node dst = none ∨ (t.isDir src = true ∧ t.isDir dst = true ∧
      t.isEmpty dst = true) ∨
    (t.isDir src = false ∧ (t.node dst).isSome = true ∧ t.isDir dst = false)))
    ⟨fun ⟨h₁, h₂, h₃, h₄, h₅⟩ => ⟨h₁, h₂, h₃, h₄, h₅⟩,
      fun ⟨h₁, h₂, h₃, h₄, h₅⟩ => ⟨h₁, h₂, h₃, h₄, h₅⟩⟩

/-- Where the node of a place comes from. -/
def origin (src dst q : Place) : Option Place :=
  if dst <+: q then some (src ++ q.drop dst.length)
  else if src <+: q then none
  else some q

theorem origin_below {src dst q : Place} (h : dst <+: q) (c : List Char) :
    origin src dst (q ++ [c]) = some (src ++ q.drop dst.length ++ [c]) := by
  rw [origin, if_pos (h.trans (List.prefix_append q [c])),
    List.drop_append_of_le_length h.length_le, List.append_assoc]

theorem origin_apart {src dst q : Place} (hd : ¬ dst <+: q) (hs : ¬ src <+: q) :
    origin src dst q = some q := by
  rw [origin, if_neg hd, if_neg hs]

/-- Everything from `src` on is found from `dst` on. -/
def move (src dst : Place) (h : Renamable t src dst) : FileTree where
  node q := (origin src dst q).bind t.node
  places := t.places ++ t.places.map fun q => if src <+: q then dst ++ q.drop src.length else q
  mem_places q hq := by
    unfold origin at hq
    split at hq
    case isTrue hd =>
      have hmem := t.mem_places _ hq
      refine List.mem_append_right _ (List.mem_map.mpr ⟨_, hmem, ?_⟩)
      rw [if_pos (List.prefix_append src _), List.drop_left]
      obtain ⟨rest, rfl⟩ := hd
      rw [List.drop_left]
    case isFalse =>
      split at hq
      case isTrue => exact absurd rfl hq
      case isFalse => exact List.mem_append_left _ (t.mem_places _ hq)
  parent q c hq := by
    by_cases hd : dst <+: q
    · rw [origin_below hd] at hq
      rw [origin, if_pos hd]
      exact t.parent _ c hq
    · by_cases hlast : dst <+: q ++ [c]
      · have heq : dst = q ++ [c] := (List.prefix_concat_iff.mp hlast).resolve_right hd
        have hs : ¬ src <+: q := fun hs =>
          h.not_inside (heq ▸ hs.trans (List.prefix_append q [c]))
        rw [origin_apart hd hs]
        have hparent := h.parent
        rw [heq, List.dropLast_concat] at hparent
        simpa [isDir] using hparent
      · by_cases hs : src <+: q ++ [c]
        · rw [origin, if_neg hlast, if_pos hs] at hq
          exact absurd rfl hq
        · have hs' : ¬ src <+: q := fun h' => hs (h'.trans (List.prefix_append q [c]))
          rw [origin_apart hlast hs] at hq
          rw [origin_apart hd hs']
          exact t.parent q c hq

/-- The directory entry that a relative path names: its last component is a name. -/
def entry (base : Place) (path : List Char) : Option Place :=
  -- a slash at the end makes no difference
  let cs := (components path).rdropWhile (· = [])
  match cs.getLast? with
  | none => none
  | some c =>
    if c = ['.'] ∨ c = ['.', '.'] then none
    else (t.walk base cs.dropLast).map fun dir => dir ++ [c]

/-- A file or directory renamed, over nothing, over a file, or over an empty directory. -/
def rename (src dst : Place) : Option FileTree :=
  if src = dst then some t
  else if h : Renamable t src dst then some (t.move src dst h) else none

/-! ### What is seen -/

variable {t} {t' : FileTree} {p q : Place} {s : List Char}

theorem isDir_iff : t.isDir p = true ↔ (t.node p).map Node.content = some .dir :=
  decide_eq_true_iff

theorem text_eq_some_iff : t.text p = some s ↔ (t.node p).map Node.content = some (.file s) := by
  unfold text
  split
  case h_1 r h => rw [h]; simp
  case h_2 h => exact iff_of_false nofun (h s)

theorem isDir_of_text (h : t.text p = some s) : t.isDir p = false := by
  have hcontent := text_eq_some_iff.mp h
  simp [isDir, hcontent]

/-- What is there and no file is a directory. -/
theorem isDir_of_text_eq_none (hset : t.node p ≠ none) (h : t.text p = none) :
    t.isDir p = true := by
  obtain ⟨n, hn⟩ := Option.ne_none_iff_exists'.mp hset
  cases hcontent : n.content with
  | dir => simp [isDir, hn, hcontent]
  | file s => simp [text, hn, hcontent] at h

/-- What lies above something is a directory. -/
theorem isDir_above (h : p <+: q) (hne : p ≠ q) (hq : t.node q ≠ none) :
    t.isDir p = true := by
  obtain ⟨rest, rfl⟩ := h
  induction rest using List.reverseRecOn with
  | nil => exact absurd (List.append_nil p).symm hne
  | append_singleton rest c ih =>
    rw [← List.append_assoc] at hq
    have hd := t.parent _ c hq
    by_cases hrest : p = p ++ rest
    · rw [← hrest] at hd
      exact isDir_iff.mpr hd
    · refine ih hrest fun hnone => ?_
      rw [hnone] at hd
      cases hd

theorem isDir_dropLast (hne : p ≠ []) (h : t.node p ≠ none) : t.isDir p.dropLast = true :=
  isDir_above (List.dropLast_prefix p)
    (fun heq => by
      have hlen := congrArg List.length heq
      have hpos := List.length_pos_iff.mpr hne
      rw [List.length_dropLast] at hlen
      omega) h

theorem walk_eq {cs : List (List Char)} (h : t.walk p cs = some q) : q = Paths.walk p cs := by
  induction cs generalizing p with
  | nil => exact (Option.some.inj h).symm
  | cons c cs ih =>
    rw [walk] at h
    split at h
    · exact ih h
    · cases h

/-- A path leads where its components lead. -/
theorem find_eq {path : List Char} (h : t.find p path = some q) :
    q = Paths.walk p (components path) := walk_eq h

/-- What is there is found, by the names that lead to it. -/
theorem walk_of_node {cs : List (List Char)} (hcs : ∀ c ∈ cs, Paths.IsName c)
    (h : t.node (p ++ cs) ≠ none) : t.walk p cs = some (p ++ cs) := by
  induction cs generalizing p with
  | nil => rw [List.append_nil, walk]
  | cons c cs ih =>
    obtain ⟨hc, hcs⟩ := List.forall_mem_cons.mp hcs
    have hdir : t.isDir p = true :=
      isDir_above (List.prefix_append p (c :: cs)) (by simp) h
    have hsplit : p ++ c :: cs = visit p c ++ cs := by rw [Paths.visit_name hc]; simp
    rw [walk, if_pos hdir, hsplit]
    exact ih hcs (hsplit ▸ h)

theorem node_of_text (h : t.text p = some s) : t.node p ≠ none := by
  intro hnone
  simp [text, hnone] at h

/-! ### Writing -/

theorem write_eq_some (h : t.write p s = some t') :
    p ≠ [] ∧ t.isDir p.dropLast = true ∧ t.isDir p = false ∧
      t'.node = Function.update t.node p
        (some (((t.node p).map fun n => { n with content := .file s }).getD (.newFile s))) := by
  unfold write at h
  split at h
  case isTrue hp =>
    cases h
    exact ⟨hp.1, hp.2.1, hp.2.2, rfl⟩
  case isFalse => cases h

theorem write_other (h : t.write p s = some t') (hq : q ≠ p) : t'.node q = t.node q := by
  obtain ⟨-, -, -, hnode⟩ := write_eq_some h
  rw [hnode, Function.update_of_ne hq]

theorem write_text (h : t.write p s = some t') : t'.text p = some s := by
  obtain ⟨-, -, -, hnode⟩ := write_eq_some h
  rw [text_eq_some_iff, hnode, Function.update_self]
  cases t.node p with
  | none => rfl
  | some n => rfl

/-- A file that is there keeps its owner and mode. -/
theorem write_node (h : t.write p s = some t') {n : Node} (hn : t.node p = some n) :
    t'.node p = some { n with content := .file s } := by
  obtain ⟨-, -, -, hnode⟩ := write_eq_some h
  rw [hnode, Function.update_self, hn]
  rfl

theorem text_of_node (h : t'.node q = t.node q) : t'.text q = t.text q := by
  unfold text
  rw [h]

/-- **What is there already is not changed.** -/
theorem write_same (hne : p ≠ []) (h : t.text p = some s) : t.write p s = some t := by
  have hcontent := text_eq_some_iff.mp h
  have hset : t.node p ≠ none := by
    intro hnone
    rw [hnone] at hcontent
    cases hcontent
  obtain ⟨n, hn⟩ := Option.ne_none_iff_exists'.mp hset
  have hp : p ≠ [] ∧ t.isDir p.dropLast = true ∧ t.isDir p = false :=
    ⟨hne, isDir_dropLast hne hset, isDir_of_text h⟩
  rw [write, dif_pos hp]
  refine congrArg some (FileTree.ext ?_ ?_)
  · rw [hn] at hcontent
    have hnode : ((t.node p).map fun n => { n with content := .file s }).getD (.newFile s) = n := by
      rw [hn]
      show { n with content := .file s } = n
      rw [← Option.some.inj hcontent]
    show Function.update t.node p _ = t.node
    rw [hnode, ← hn, Function.update_eq_self]
  · exact if_pos (t.mem_places p hset)

/-! ### Owners and modes -/

section Adjust

variable {f : Place → Node → Node} (hf : ∀ p n, (f p n).content = n.content)

theorem adjust_content (q : Place) :
    ((t.adjust f hf).node q).map Node.content = (t.node q).map Node.content := by
  show ((t.node q).map (f q)).map Node.content = _
  cases t.node q with
  | none => rfl
  | some n => exact congrArg some (hf q n)

theorem adjust_text (q : Place) : (t.adjust f hf).text q = t.text q := by
  unfold text
  rw [adjust_content]

theorem adjust_same (h : ∀ q n, t.node q = some n → f q n = n) : t.adjust f hf = t := by
  refine FileTree.ext (funext fun q => ?_) rfl
  show (t.node q).map (f q) = t.node q
  cases hn : t.node q with
  | none => rfl
  | some n => exact congrArg some (h q n hn)

end Adjust

theorem chmod_same {mode : UInt32} (h : (t.node p).map Node.mode = some mode) :
    t.chmod p mode = t := by
  refine adjust_same _ fun q n hn => ?_
  split
  case isTrue hq =>
    rw [← hq, hn] at h
    rw [← Option.some.inj h]
  case isFalse => rfl

theorem chmod_mode {mode : UInt32} (h : t.node p ≠ none) :
    ((t.chmod p mode).node p).map Node.mode = some mode := by
  obtain ⟨n, hn⟩ := Option.ne_none_iff_exists'.mp h
  show ((t.node p).map _).map Node.mode = _
  rw [hn]
  exact congrArg (some ∘ Node.mode) (if_pos rfl)

theorem chown_other {owner : UInt32 × UInt32} (h : ¬ p <+: q) :
    (t.chown p owner).node q = t.node q := by
  show (t.node q).map _ = t.node q
  cases t.node q with
  | none => rfl
  | some n => exact congrArg some (if_neg h)

theorem chown_owner {owner : UInt32 × UInt32} (h : p <+: q) {n : Node}
    (hn : (t.chown p owner).node q = some n) : n.owner = owner := by
  have hmap : (t.node q).map (fun n => if p <+: q then { n with owner } else n) = some n := hn
  obtain ⟨n', -, rfl⟩ := Option.map_eq_some_iff.mp hmap
  rw [if_pos h]

theorem chown_same {owner : UInt32 × UInt32}
    (h : ∀ q n, p <+: q → t.node q = some n → n.owner = owner) : t.chown p owner = t := by
  refine adjust_same _ fun q n hn => ?_
  split
  case isTrue hq => rw [← h q n hq hn]
  case isFalse => rfl

/-! ### Making directories -/

section MakeDirs

variable {cs : List (List Char)}

/-- One directory on the way: made, or there already. -/
theorem makeDirsFrom_cons {c : List Char} (h : makeDirsFrom t p (c :: cs) = some t') :
    t.isDir p = true ∧
      (makeDirsFrom t (visit p c) cs = some t' ∨
        ∃ hput, t.node (visit p c) = none ∧
          makeDirsFrom (t.put (visit p c) .newDir hput) (visit p c) cs = some t') := by
  rw [makeDirsFrom] at h
  split at h
  case isTrue hput =>
    split at h
    case isTrue hnew => exact ⟨hnew.1, .inr ⟨hput, hnew.2, h⟩⟩
    case isFalse => cases h
  case isFalse =>
    split at h
    case isTrue hdir => exact ⟨hdir, .inl h⟩
    case isFalse => cases h

theorem put_other {n : Node} {hput : p ≠ [] ∧ t.isDir p.dropLast = true ∧ t.isDir p = false}
    (h : q ≠ p) : (t.put p n hput).node q = t.node q := Function.update_of_ne h _ _

/-- **What is there stays.** -/
theorem makeDirsFrom_node (h : makeDirsFrom t p cs = some t') (hq : t.node q ≠ none) :
    t'.node q = t.node q := by
  induction cs generalizing t p with
  | nil =>
    rw [makeDirsFrom] at h
    split at h
    · rw [← Option.some.inj h]
    · cases h
  | cons c cs ih =>
    obtain ⟨-, h | ⟨hput, hnone, h⟩⟩ := makeDirsFrom_cons h
    · exact ih h hq
    · have hne : q ≠ visit p c := fun heq => hq (heq ▸ hnone)
      rw [ih h (by rwa [put_other hne]), put_other hne]

/-- Only directories come. -/
theorem makeDirsFrom_text (h : makeDirsFrom t p cs = some t') : t'.text q = t.text q := by
  induction cs generalizing t p with
  | nil =>
    rw [makeDirsFrom] at h
    split at h
    · rw [← Option.some.inj h]
    · cases h
  | cons c cs ih =>
    obtain ⟨-, h | ⟨hput, hnone, h⟩⟩ := makeDirsFrom_cons h
    · exact ih h
    · rw [ih h]
      by_cases hq : q = visit p c
      · unfold text
        rw [hq, hnone]
        show (match (Function.update t.node _ _ _).map Node.content with
          | some (.file s) => some s
          | _ => none) = none
        rw [Function.update_self]
        rfl
      · exact text_of_node (put_other hq)

theorem makeDirsFrom_isDir (h : makeDirsFrom t p cs = some t') (hq : t.isDir q = true) :
    t'.isDir q = true := by
  have hset : t.node q ≠ none := by
    intro hnone
    simp [isDir, hnone] at hq
  unfold isDir at hq ⊢
  rwa [makeDirsFrom_node h hset]

/-- **The path leads to a directory afterwards.** -/
theorem makeDirsFrom_walk (h : makeDirsFrom t p cs = some t') :
    t'.walk p cs = some (Paths.walk p cs) ∧ t'.isDir (Paths.walk p cs) = true := by
  induction cs generalizing t p with
  | nil =>
    rw [makeDirsFrom] at h
    split at h
    case isTrue hdir =>
      rw [← Option.some.inj h]
      exact ⟨rfl, hdir⟩
    case isFalse => cases h
  | cons c cs ih =>
    have hdir : t'.isDir p = true :=
      makeDirsFrom_isDir h (makeDirsFrom_cons h).1
    rw [walk, if_pos hdir]
    obtain ⟨-, h | ⟨hput, -, h⟩⟩ := makeDirsFrom_cons h
    · exact ih h
    · exact ih h

/-- **Directories that are there are not made again.** -/
theorem makeDirsFrom_same (hw : t.walk p cs = some q) (hq : t.isDir q = true) :
    makeDirsFrom t p cs = some t := by
  induction cs generalizing p with
  | nil =>
    obtain rfl := Option.some.inj hw
    exact if_pos hq
  | cons c cs ih =>
    rw [walk] at hw
    split at hw
    case isTrue hdir =>
      have hnext : t.isDir (visit p c) = true := by
        cases cs with
        | nil =>
          obtain rfl := Option.some.inj hw
          exact hq
        | cons d ds =>
          rw [walk] at hw
          split at hw
          case isTrue hd => exact hd
          case isFalse => cases hw
      rw [makeDirsFrom, dif_neg (by simp [hnext]), if_pos hdir]
      exact ih hw
    case isFalse => cases hw

/-- Nothing changes off the path. -/
theorem makeDirsFrom_other (hcs : ∀ c ∈ cs, Paths.IsName c) (h : makeDirsFrom t p cs = some t')
    (hq : ¬ q <+: p ++ cs) : t'.node q = t.node q := by
  induction cs generalizing t p with
  | nil =>
    rw [makeDirsFrom] at h
    split at h
    · rw [← Option.some.inj h]
    · cases h
  | cons c cs ih =>
    obtain ⟨hc, hcs⟩ := List.forall_mem_cons.mp hcs
    have hvisit := Paths.visit_name hc p
    have hpath : p ++ c :: cs = visit p c ++ cs := by rw [hvisit, List.append_assoc]; rfl
    rw [hpath] at hq
    obtain ⟨-, h | ⟨hput, -, h⟩⟩ := makeDirsFrom_cons h
    · exact ih hcs h hq
    · have hne : q ≠ visit p c := fun heq => hq (heq ▸ List.prefix_append _ _)
      rw [ih hcs h hq, put_other hne]

end MakeDirs

/-! ### Renaming -/

/-- An entry is where the path leads. -/
theorem entry_eq {path : List Char} (h : t.entry p path = some q) :
    q = Paths.walk p (components path) := by
  have hstay : ∀ (cs : List (List Char)) (dir : Place), (∀ c ∈ cs, c = []) →
      Paths.walk dir cs = dir := by
    intro cs
    induction cs with
    | nil => exact fun _ _ => rfl
    | cons c cs ih =>
      intro dir hcs
      obtain ⟨hc, hrest⟩ := List.forall_mem_cons.mp hcs
      show Paths.walk (visit dir c) cs = dir
      rw [hc, Paths.visit_nil, ih dir hrest]
  have hsplit := List.rdropWhile_append_rtakeWhile (p := (· = ([] : List Char)))
    (l := components path)
  have hempty : ∀ c ∈ (components path).rtakeWhile (· = []), c = [] :=
    fun c hc => by simpa using List.mem_rtakeWhile_imp hc
  unfold entry at h
  simp only at h
  split at h
  case h_1 => cases h
  case h_2 c hc =>
    split at h
    case isTrue => cases h
    case isFalse hdots =>
      obtain ⟨dir, hdir, rfl⟩ := Option.map_eq_some_iff.mp h
      obtain ⟨before, hbefore⟩ := List.getLast?_eq_some_iff.mp hc
      rw [hbefore, List.dropLast_concat] at hdir
      have hne : c ≠ [] := by
        have hlast := List.rdropWhile_last_not (· = ([] : List Char)) (components path)
          (by rw [hbefore]; simp)
        simpa [hbefore] using hlast
      rw [← hsplit, Paths.walk_append, hstay _ _ hempty, hbefore, Paths.walk_append, ← walk_eq hdir]
      show dir ++ [c] = visit dir c
      rw [visit, if_neg (by simp only [not_or]; exact ⟨hne, fun h => hdots (.inl h)⟩),
        if_neg fun h => hdots (.inr h)]

section Rename

variable {src dst : Place}

theorem rename_cases (h : t.rename src dst = some t') :
    (src = dst ∧ t' = t) ∨ (src ≠ dst ∧ Renamable t src dst ∧
      ∀ q, t'.node q = (origin src dst q).bind t.node) := by
  unfold rename at h
  split at h
  case isTrue heq => exact .inl ⟨heq, (Option.some.inj h).symm⟩
  case isFalse hne =>
    split at h
    case isTrue hr =>
      cases h
      exact .inr ⟨hne, hr, fun q => rfl⟩
    case isFalse => cases h

/-- **What lies neither at the one place nor at the other stays.** -/
theorem rename_other (h : t.rename src dst = some t') (hs : ¬ src <+: q) (hd : ¬ dst <+: q) :
    t'.node q = t.node q := by
  obtain ⟨-, rfl⟩ | ⟨-, -, hnode⟩ := rename_cases h
  · rfl
  · rw [hnode, origin_apart hd hs]
    rfl

/-- Nothing is left behind. -/
theorem rename_source (h : t.rename src dst = some t') (hne : src ≠ dst) : t'.node src = none := by
  obtain ⟨heq, -⟩ | ⟨-, hr, hnode⟩ := rename_cases h
  · exact absurd heq hne
  · rw [hnode]
    by_cases hd : dst <+: src
    · -- a place above the source is no free one
      exfalso
      have hsrc : t.node src ≠ none := Option.isSome_iff_ne_none.mp hr.source
      have hdir := isDir_above hd (Ne.symm hne) hsrc
      rcases hr.target with hnone | ⟨-, -, hempty⟩ | ⟨-, -, hfile⟩
      · simp [isDir, hnone] at hdir
      · have hmem := List.all_eq_true.mp hempty src (t.mem_places src hsrc)
        rw [List.isPrefixOf_iff_prefix.mpr hd, hr.source] at hmem
        simp [hne] at hmem
      · rw [hdir] at hfile
        cases hfile
    · rw [origin, if_neg hd, if_pos (List.prefix_refl src)]
      rfl

/-- A directory takes no place above a file. -/
theorem not_prefix_of_rename (h : t.rename src dst = some t') (hdir : t.isDir src = true)
    (hne : src ≠ dst) (hq : t.text q = some s) : ¬ dst <+: q := by
  obtain ⟨heq, -⟩ | ⟨-, hr, -⟩ := rename_cases h
  · exact absurd heq hne
  · intro hd
    have hset : t.node q ≠ none := node_of_text hq
    have habove : dst = q ∨ t.isDir dst = true := by
      by_cases heq : dst = q
      · exact .inl heq
      · exact .inr (isDir_above hd heq hset)
    have hfile := isDir_of_text hq
    rcases hr.target with hnone | ⟨-, hdst, hempty⟩ | ⟨hsrc, -, -⟩
    · rcases habove with rfl | hdst
      · exact hset hnone
      · simp [isDir, hnone] at hdst
    · have hdq : q ≠ dst := by
        rintro rfl
        rw [hdst] at hfile
        cases hfile
      have hmem := List.all_eq_true.mp hempty q (t.mem_places q hset)
      rw [List.isPrefixOf_iff_prefix.mpr hd, Option.isSome_iff_ne_none.mpr hset] at hmem
      simp [hdq] at hmem
    · rw [hdir] at hsrc
      cases hsrc

end Rename

end FileTree

end WriteonceOs.Library
