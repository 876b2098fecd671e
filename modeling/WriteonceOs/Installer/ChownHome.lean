import WriteonceOs.Installer.Accounts
import WriteonceOs.Library.Links

/-!
# The owners of the home directory

The home directory is handed to the user inode by inode, by a walk that goes into directories and
not through links.  The change of an owner does go through links: it is the inode that a link leads
to which changes hands, on the host of the installer as well, and the link itself keeps its owner.

* `mem_walkdir` — the walk finds everything below its start, and nothing else;
* `chownEach_ok` — whose owner changes;
* `chownRecursive_plain` — without links, everything below the start is re-owned and nothing else;
* `moveHome_eq` — the user's directory is the placeholder's under another name;
* `rehomed_iff` — when a home directory with links is handed over as it should.
-/

namespace WriteonceOs.Installer

open WriteonceOs.Library
open Paths (Place components)

namespace ChownHome

open Customize (base fileAt find_fileAt moveHome skeletonPath targetPath normal components_target
  target_names nameOk_pi)
open FileTree (ReadOrder)

/-! ### The walk and the changes -/

/-- How many links the kernel goes through. -/
def maxLinks : ℕ := 40

/-- The entries from a place on; a directory that is no link is gone into. -/
def walkdir (order : ReadOrder) (tree : FileTree) : ℕ → Place → List Place
  | 0, p => [p]
  | n + 1, p =>
    p ::
      if tree.leadsToDir maxLinks p then
        (order.enum p (tree.children p)).flatMap fun c =>
          if tree.leadsToDir maxLinks (p ++ [c]) && (tree.linkAt (p ++ [c])).isNone then
            walkdir order tree n (p ++ [c])
          else [p ++ [c]]
      else []

/-- `chown` on one entry after the other.  The ids are an account's: the one that leaves an owner
as it is does not occur. -/
def chownEach (failed : Place → PathError → Failure) (owner : UInt32 × UInt32) :
    List Place → FileTree → Except Failure FileTree
  | [], tree => .ok tree
  | p :: ps, tree =>
    match tree.follow maxLinks p with
    | .error e => .error (failed p e)
    | .ok q => chownEach failed owner ps (tree.setOwner q owner)

def osError : PathError → Text
  | .notFound => "No such file or directory (os error 2)".toList
  | .notDir => "Not a directory (os error 20)".toList
  | .loop => "Too many levels of symbolic links (os error 40)".toList

/-- The path of an entry below the start of the walk. -/
def entryPath (root path : Text) (start p : Place) : Text :=
  Paths.join root path ++ (p.drop start.length).flatMap fun c => '/' :: c

def chownFailed (root path : Text) (start p : Place) (e : PathError) : Failure :=
  "chown(".toList ++ entryPath root path start p ++ ") failed: ".toList ++ osError e

def chownRecursive (order : ReadOrder) (root path : Text) (uid gid : UInt32) (tree : FileTree) :
    Except Failure FileTree :=
  match tree.find (base root) path with
  | none => .error (chownFailed root path [] [] .notFound)
  | some start =>
    chownEach (chownFailed root path start) (uid, gid) (walkdir order tree (tree.depth + 1) start)
      tree

def renameHome (order : ReadOrder) (root : Text) (user : ResolvedUser) (tree : FileTree) :
    Except Failure FileTree := do
  let tree ← moveHome root user tree
  chownRecursive order root (targetPath user) user.uid user.gid tree

section Walk

variable {order : ReadOrder} {tree tree' : FileTree} {p q : Place} {n : ℕ}

/-- **The walk finds everything below its start**, when it may go deep enough. -/
theorem mem_walkdir (hdir : tree.isDir p = true) (hn : tree.depth < n + p.length) :
    q ∈ walkdir order tree n p ↔ p <+: q ∧ tree.node q ≠ none := by
  induction n generalizing p q with
  | zero =>
    have hle := FileTree.length_le_depth (FileTree.ends_of_isDir hdir).1
    omega
  | succ n ih =>
    have hself : tree.leadsToDir maxLinks p = true := by
      rw [FileTree.leadsToDir_plain (FileTree.linkAt_isDir hdir), hdir]
    rw [walkdir, if_pos hself, List.mem_cons, List.mem_flatMap]
    simp only [(order.perm p _).mem_iff, FileTree.mem_children, FileTree.leadsToDir_and_plain]
    constructor
    · rintro (rfl | ⟨c, hc, hq⟩)
      · exact ⟨List.prefix_rfl, (FileTree.ends_of_isDir hdir).1⟩
      · split at hq
        case isTrue hsub =>
          rw [ih hsub (by rw [List.length_append, List.length_singleton]; omega)] at hq
          exact ⟨(List.prefix_append p [c]).trans hq.1, hq.2⟩
        case isFalse =>
          obtain rfl := List.mem_singleton.mp hq
          exact ⟨List.prefix_append p [c], hc⟩
    · rintro ⟨⟨rest, rfl⟩, hnode⟩
      cases rest with
      | nil => exact .inl (List.append_nil p)
      | cons c rest =>
        have hsplit : p ++ c :: rest = (p ++ [c]) ++ rest := by
          rw [List.append_assoc, List.singleton_append]
        rw [hsplit] at hnode ⊢
        have habove : p ++ [c] <+: p ++ [c] ++ rest := List.prefix_append _ _
        have hc : tree.node (p ++ [c]) ≠ none := by
          by_cases hrest : rest = []
          · rwa [hrest, List.append_nil] at hnode
          · refine (FileTree.ends_of_isDir (FileTree.isDir_above habove ?_ hnode)).1
            simpa using hrest
        refine .inr ⟨c, hc, ?_⟩
        split
        case isTrue hsub =>
          rw [ih hsub (by rw [List.length_append, List.length_singleton]; omega)]
          exact ⟨habove, hnode⟩
        case isFalse hsub =>
          -- what lies below is below a directory
          have hrest : rest = [] := by
            by_contra hne
            refine hsub (FileTree.isDir_above habove ?_ hnode)
            simpa using hne
          rw [hrest, List.append_nil]
          exact List.mem_singleton_self _

/-- What the changes make of the owners. -/
structure Chowned (owner : UInt32 × UInt32) (ps : List Place) (tree tree' : FileTree) : Prop where
  same : tree'.SameInodes tree
  places : tree'.places = tree.places
  reached : ∀ p ∈ ps, ∀ q, tree.follow maxLinks p = .ok q →
    tree'.ownerAt q = (tree.node q).map fun _ => owner
  other : ∀ q, (∀ p ∈ ps, tree.follow maxLinks p ≠ .ok q) → tree'.ownerAt q = tree.ownerAt q

variable {failed : Place → PathError → Failure} {owner : UInt32 × UInt32} {ps : List Place}

theorem map_owner_setOwner (tree : FileTree) (p q : Place) (owner : UInt32 × UInt32) :
    ((tree.setOwner p owner).node q).map (fun _ => owner) = (tree.node q).map fun _ => owner := by
  simp only [FileTree.setOwner, FileTree.adjust, Option.map_map, Function.comp_def]

/-- **Whose owner changes**: that of the inodes which the entries lead to. -/
theorem chownEach_ok (h : chownEach failed owner ps tree = .ok tree') :
    Chowned owner ps tree tree' := by
  induction ps generalizing tree with
  | nil =>
    cases h
    exact ⟨fun _ => rfl, rfl, fun _ hp => absurd hp List.not_mem_nil, fun _ _ => rfl⟩
  | cons p ps ih =>
    rw [chownEach] at h
    cases hfollow : tree.follow maxLinks p with
    | error e =>
      rw [hfollow] at h
      cases h
    | ok q₀ =>
      rw [hfollow] at h
      have hstep := ih h
      have hsame := FileTree.setOwner_same tree q₀ owner
      have hfollow' : ∀ r, (tree.setOwner q₀ owner).follow maxLinks r = tree.follow maxLinks r :=
        hsame.follow maxLinks
      have hlast : (∃ r ∈ ps, tree.follow maxLinks r = .ok q₀) ∨
          ∀ r ∈ ps, tree.follow maxLinks r ≠ .ok q₀ := by
        by_cases hlater : ∃ r ∈ ps, tree.follow maxLinks r = .ok q₀
        · exact .inl hlater
        · exact .inr fun r hr heq => hlater ⟨r, hr, heq⟩
      refine ⟨hstep.same.trans hsame, hstep.places, fun r hr q hq => ?_, fun q hq => ?_⟩
      · rcases List.mem_cons.mp hr with rfl | hr
        · rw [hfollow, Except.ok.injEq] at hq
          subst hq
          rcases hlast with ⟨r', hr', heq⟩ | hnone
          · rw [hstep.reached r' hr' q₀ ((hfollow' r').trans heq), map_owner_setOwner]
          · rw [hstep.other q₀ fun r' hr' => (hfollow' r').symm ▸ hnone r' hr',
              FileTree.ownerAt_setOwner, if_pos rfl]
        · rw [hstep.reached r hr q ((hfollow' r).trans hq), map_owner_setOwner]
      · obtain ⟨hhead, htail⟩ := List.forall_mem_cons.mp hq
        have hne : q ≠ q₀ := by
          rintro rfl
          exact hhead hfollow
        rw [hstep.other q fun r hr => (hfollow' r).symm ▸ htail r hr, FileTree.ownerAt_setOwner,
          if_neg hne]

/-- The changes go through exactly when every entry leads somewhere. -/
theorem chownEach_isOk :
    (∃ tree', chownEach failed owner ps tree = .ok tree') ↔
      ∀ p ∈ ps, ∃ q, tree.follow maxLinks p = .ok q := by
  induction ps generalizing tree with
  | nil => simp [chownEach]
  | cons p ps ih =>
    rw [chownEach, List.forall_mem_cons]
    cases hfollow : tree.follow maxLinks p with
    | error e => simp
    | ok q₀ =>
      simp only [ih, (FileTree.setOwner_same tree q₀ owner).follow]
      simp

end Walk

/-! ### The home directory -/

section Home

variable {order : ReadOrder} {root : Text} {user : ResolvedUser} {tree named tree' : FileTree}
  {q : Place}

theorem skeleton_names : ∀ c ∈ components skeletonPath, Paths.IsName c := by decide

/-- The entry for a path of names, in a directory that is there. -/
theorem entry_fileAt {path : Text} (hnames : ∀ c ∈ components path, Paths.IsName c)
    (hdir : tree.isDir (base root ++ (components path).dropLast) = true) :
    tree.entry (base root) path = some (fileAt root path) := by
  obtain ⟨before, c, hsplit⟩ : ∃ before c, components path = before ++ [c] :=
    ⟨_, _, (List.dropLast_append_getLast (List.splitOnP_ne_nil _ path)).symm⟩
  rw [hsplit] at hnames
  have hc : Paths.IsName c := hnames c (by simp)
  have hbefore : ∀ d ∈ before, Paths.IsName d := fun d hd => hnames d (by simp [hd])
  have hkept : (before ++ [c]).rdropWhile (· = []) = before ++ [c] := by
    rw [List.rdropWhile_concat_neg _ _ _ (by simpa using hc.ne_nil)]
  rw [hsplit, List.dropLast_concat] at hdir
  rw [Customize.fileAt_names (hsplit ▸ hnames), FileTree.entry]
  simp only [hsplit, hkept, List.getLast?_concat, List.dropLast_concat]
  rw [if_neg (by simp only [not_or]; exact ⟨hc.ne_dot, hc.ne_dotdot⟩),
    FileTree.walk_of_node hbefore (FileTree.ends_of_isDir hdir).1, Option.map_some,
    List.append_assoc]

/-- The user's directory is the placeholder's under another name. -/
theorem moveHome_eq (hname : Paths.IsName user.name)
    (hhome : tree.isDir (fileAt root skeletonPath) = true) :
    (moveHome root user tree).toOption =
      tree.rename (fileAt root skeletonPath) (fileAt root (targetPath user)) := by
  have hset := (FileTree.ends_of_isDir hhome).1
  have hexists : tree.pathExists (base root) skeletonPath = true := by
    rw [FileTree.pathExists, find_fileAt skeleton_names hset]
    exact Option.isSome_iff_ne_none.mpr hset
  have hskeleton : components skeletonPath = ["home".toList, "writeonce".toList] := by decide
  have habove : tree.isDir (base root ++ ["home".toList]) = true := by
    refine FileTree.isDir_above ?_ ?_ hset
    · rw [Customize.fileAt_names skeleton_names, hskeleton]
      exact ⟨["writeonce".toList], by rw [List.append_assoc]; rfl⟩
    · rw [Customize.fileAt_names skeleton_names, hskeleton]
      simp
  rw [moveHome, if_neg (by simp [hexists])]
  split
  case isTrue hsame =>
    have hwriteonce : user.name = "writeonce".toList := by
      have hnormal : normal (targetPath user) = ["home".toList, user.name] := by
        rw [normal, components_target hname, List.filter_eq_self]
        exact fun c hc => decide_eq_true
          ⟨(target_names hname c (components_target hname ▸ hc)).ne_nil,
            (target_names hname c (components_target hname ▸ hc)).ne_dot⟩
      rw [hnormal] at hsame
      have hskeleton : normal skeletonPath = ["home".toList, "writeonce".toList] := by decide
      rw [hskeleton] at hsame
      simpa using hsame.symm
    have htarget : targetPath user = skeletonPath := by
      rw [targetPath, hwriteonce]
      rfl
    rw [htarget, FileTree.rename, if_pos rfl]
    rfl
  case isFalse =>
    rw [Customize.renamePath, entry_fileAt skeleton_names habove,
      entry_fileAt (target_names hname) (by rw [components_target hname]; exact habove),
      Option.bind_some, Option.bind_some]
    cases tree.rename (fileAt root skeletonPath) (fileAt root (targetPath user)) with
    | none => rfl
    | some named => rfl

/-- The directory is found under the user's name. -/
theorem named_isDir {src dst : Place} (hsrc : tree.isDir src = true)
    (h : tree.rename src dst = some named) : named.isDir dst = true := by
  rcases FileTree.rename_cases h with ⟨rfl, rfl⟩ | ⟨-, -, hnode⟩
  · exact hsrc
  · rw [FileTree.isDir_iff, hnode, FileTree.origin, if_pos List.prefix_rfl, List.drop_length,
      List.append_nil, Option.bind_some]
    exact FileTree.isDir_iff.mp hsrc

/-- Outside the directory, what is there was there. -/
theorem named_outside {src dst : Place} (h : tree.rename src dst = some named)
    (hq : ¬ dst <+: q) (hset : named.node q ≠ none) : named.ownerAt q = tree.ownerAt q := by
  rcases FileTree.rename_cases h with ⟨-, rfl⟩ | ⟨-, -, hnode⟩
  · rfl
  · rw [hnode, FileTree.origin, if_neg hq] at hset
    rw [FileTree.ownerAt, hnode, FileTree.origin, if_neg hq]
    split at hset
    case isTrue => exact absurd rfl hset
    case isFalse hsrc =>
      rw [if_neg hsrc]
      rfl

/-- **What handing over the home directory has to do**: it goes through, everything in the user's
directory is the user's, and everything outside has the owner that it had. -/
structure Rehomed (order : ReadOrder) (root : Text) (user : ResolvedUser) (tree tree' : FileTree) :
    Prop where
  ok : renameHome order root user tree = .ok tree'
  inside : ∀ q, fileAt root (targetPath user) <+: q → tree'.node q ≠ none →
    tree'.ownerAt q = some (user.uid, user.gid)
  outside : ∀ q, ¬ fileAt root (targetPath user) <+: q → tree'.node q ≠ none →
    tree'.ownerAt q = tree.ownerAt q

/-- A link leads to something that is in the directory or the owner's already. -/
def LeadsHome (owner : UInt32 × UInt32) (home : Place) (tree : FileTree) (l : Place) : Prop :=
  ∃ q, tree.follow maxLinks l = .ok q ∧ (home <+: q ∨ tree.ownerAt q = some owner)

/-- Every link in the directory is the owner's, and leads to something that is in the directory or
the owner's. -/
def LinksHome (owner : UInt32 × UInt32) (home : Place) (tree : FileTree) : Prop :=
  ∀ l, home <+: l → ∀ s, tree.linkAt l = some s →
    tree.ownerAt l = some owner ∧ LeadsHome owner home tree l

theorem node_ne_none_iff (h : tree'.SameInodes tree) (q : Place) :
    tree'.node q ≠ none ↔ tree.node q ≠ none := by
  rw [← Option.isSome_iff_ne_none, ← Option.isSome_iff_ne_none, h.isSome]

/-- What the changes of the owners from a directory on come to. -/
theorem chownRecursive_eq {path : Text} (hdir : tree.isDir (fileAt root path) = true)
    (hnames : ∀ c ∈ components path, Paths.IsName c) (uid gid : UInt32) :
    chownRecursive order root path uid gid tree =
      chownEach (chownFailed root path (fileAt root path)) (uid, gid)
        (walkdir order tree (tree.depth + 1) (fileAt root path)) tree := by
  rw [chownRecursive, find_fileAt hnames (FileTree.ends_of_isDir hdir).1]

theorem mem_walk_home {home : Place} (hdir : tree.isDir home = true) :
    q ∈ walkdir order tree (tree.depth + 1) home ↔ home <+: q ∧ tree.node q ≠ none :=
  mem_walkdir hdir (by omega)

theorem ownerAt_eq_some {owner : UInt32 × UInt32} (hq : tree.node q ≠ none) :
    ((tree.node q).map fun _ => owner) = some owner := by
  obtain ⟨n, hn⟩ := Option.ne_none_iff_exists'.mp hq
  rw [hn, Option.map_some]

/-- Only links lead elsewhere, and no path leads to a link. -/
theorem chowned_owner {owner : UInt32 × UInt32} {home : Place} (hdir : tree.isDir home = true)
    (hne : home ≠ [])
    (h : Chowned owner (walkdir order tree (tree.depth + 1) home) tree tree') :
    (∀ l, home <+: l → tree.linkAt l ≠ none → tree'.ownerAt l = tree.ownerAt l) ∧
      ∀ q, home <+: q → tree.node q ≠ none → tree.linkAt q = none →
        tree'.ownerAt q = some owner := by
  constructor
  · intro l _ hlink
    refine h.other l fun p hp heq => hlink ?_
    obtain ⟨hbelow, -⟩ := (mem_walk_home hdir).mp hp
    have hp : p ≠ [] := by
      rintro rfl
      exact hne (List.prefix_nil.mp hbelow)
    exact (FileTree.follow_ends hp heq).2
  · intro q hbelow hset hplain
    rw [h.reached q ((mem_walk_home hdir).mpr ⟨hbelow, hset⟩) q (FileTree.follow_plain hplain hset),
      ownerAt_eq_some hset]

/-- What the changes from a directory on should make of the owners. -/
def ReOwned (owner : UInt32 × UInt32) (home : Place) (tree tree' : FileTree) : Prop :=
  ∀ q, tree.node q ≠ none →
    tree'.ownerAt q = if home <+: q then some owner else tree.ownerAt q

/-- The owners show that the links lead home. -/
theorem ReOwned.linksHome {failed : Place → PathError → Failure} {owner : UInt32 × UInt32}
    {home : Place} (h : ReOwned owner home tree tree') (hdir : tree.isDir home = true)
    (hne : home ≠ [])
    (hok : chownEach failed owner (walkdir order tree (tree.depth + 1) home) tree = .ok tree') :
    LinksHome owner home tree := by
  intro l hbelow s hlink
  have hchowned := chownEach_ok hok
  have hset := FileTree.node_of_link hlink
  have hmem : l ∈ walkdir order tree (tree.depth + 1) home :=
    (mem_walk_home hdir).mpr ⟨hbelow, hset⟩
  obtain ⟨q, hq⟩ := chownEach_isOk.mp ⟨tree', hok⟩ l hmem
  have hl : l ≠ [] := by
    rintro rfl
    exact hne (List.prefix_nil.mp hbelow)
  constructor
  · rw [← (chowned_owner hdir hne hchowned).1 l hbelow (by rw [hlink]; simp), h l hset,
      if_pos hbelow]
  · refine ⟨q, hq, ?_⟩
    by_cases hin : home <+: q
    · exact .inl hin
    · have hthere := (FileTree.follow_ends hl hq).1
      have hnew := hchowned.reached l hmem q hq
      rw [h q hthere, if_neg hin, ownerAt_eq_some hthere] at hnew
      exact .inr hnew

/-- Every entry leads home when the links do. -/
theorem LinksHome.leads {owner : UInt32 × UInt32} {home : Place}
    (h : LinksHome owner home tree) (hdir : tree.isDir home = true) {p : Place}
    (hp : p ∈ walkdir order tree (tree.depth + 1) home) : LeadsHome owner home tree p := by
  obtain ⟨hbelow, hset⟩ := (mem_walk_home hdir).mp hp
  cases hlink : tree.linkAt p with
  | none => exact ⟨p, FileTree.follow_plain hlink hset, .inl hbelow⟩
  | some s => exact (h p hbelow s hlink).2

/-- Links that lead home are no harm. -/
theorem LinksHome.reOwned {owner : UInt32 × UInt32} {home : Place}
    (h : LinksHome owner home tree) (hdir : tree.isDir home = true) (hne : home ≠ [])
    (hchowned : Chowned owner (walkdir order tree (tree.depth + 1) home) tree tree') :
    ReOwned owner home tree tree' := by
  intro q hset
  split
  case isTrue hin =>
    cases hlink : tree.linkAt q with
    | none => exact (chowned_owner hdir hne hchowned).2 q hin hset hlink
    | some s =>
      rw [(chowned_owner hdir hne hchowned).1 q hin (by rw [hlink]; simp)]
      exact (h q hin s hlink).1
  case isFalse hin =>
    by_cases hreached : ∃ p ∈ walkdir order tree (tree.depth + 1) home,
        tree.follow maxLinks p = .ok q
    · obtain ⟨p, hp, hq⟩ := hreached
      obtain ⟨q', hq', hheld⟩ := h.leads hdir hp
      rw [hq, Except.ok.injEq] at hq'
      subst hq'
      rw [hchowned.reached p hp q hq, ownerAt_eq_some hset]
      exact (hheld.resolve_left hin).symm
    · exact hchowned.other q fun p hp heq => hreached ⟨p, hp, heq⟩

/-- **The changes from a directory on** re-own it and nothing else when its links lead home. -/
theorem linksHome_iff (order : ReadOrder) (failed : Place → PathError → Failure)
    {owner : UInt32 × UInt32} {home : Place} (hdir : tree.isDir home = true) (hne : home ≠ []) :
    (∃ tree', chownEach failed owner (walkdir order tree (tree.depth + 1) home) tree = .ok tree' ∧
      ReOwned owner home tree tree') ↔ LinksHome owner home tree := by
  constructor
  · rintro ⟨tree', hok, howners⟩
    exact howners.linksHome hdir hne hok
  · intro h
    obtain ⟨tree', hok⟩ : ∃ tree', chownEach failed owner
        (walkdir order tree (tree.depth + 1) home) tree = .ok tree' :=
      chownEach_isOk.mpr fun p hp => (h.leads hdir hp).imp fun _ hq => hq.1
    exact ⟨tree', hok, h.reOwned hdir hne (chownEach_ok hok)⟩

/-- **Without links, everything from the start on is re-owned**, and nothing else. -/
theorem chownRecursive_plain {path : Text} (order : ReadOrder) (uid gid : UInt32)
    (hdir : tree.isDir (fileAt root path) = true) (hne : fileAt root path ≠ [])
    (hnames : ∀ c ∈ components path, Paths.IsName c)
    (hplain : ∀ l, fileAt root path <+: l → tree.linkAt l = none) :
    chownRecursive order root path uid gid tree =
      Customize.chownRecursive root path uid gid tree := by
  have hlinks : LinksHome (uid, gid) (fileAt root path) tree := by
    intro l hl s hs
    rw [hplain l hl] at hs
    cases hs
  obtain ⟨tree', hok, howners⟩ :=
    (linksHome_iff order (chownFailed root path (fileAt root path)) hdir hne).mpr hlinks
  have hchowned := chownEach_ok hok
  have hset := (FileTree.ends_of_isDir hdir).1
  have heq : tree' = tree.chown (fileAt root path) (uid, gid) := by
    have hsame := hchowned.same.trans
      (FileTree.chown_same_inodes tree (fileAt root path) (uid, gid)).symm
    refine FileTree.ext (funext fun q => hsame.node_eq ?_) hchowned.places
    by_cases hq : tree.node q = none
    · have hnone (t : FileTree) (ht : t.SameInodes tree) : t.ownerAt q = none := by
        rw [FileTree.ownerAt, not_not.mp fun h => (node_ne_none_iff ht q).mp h hq]
        rfl
      rw [hnone _ hchowned.same, hnone _ (FileTree.chown_same_inodes _ _ _)]
    · rw [howners q hq, FileTree.ownerAt_chown hq]
  rw [chownRecursive_eq hdir hnames, hok, heq, Customize.chownRecursive, find_fileAt hnames hset,
    Option.filter_some, if_pos (Option.isSome_iff_ne_none.mpr hset)]
  rfl

theorem target_ne_nil (hname : Paths.IsName user.name) : fileAt root (targetPath user) ≠ [] := by
  rw [Customize.fileAt_target hname]
  simp

/-- **The home directory is handed over as it should** exactly when, under the user's name, every
link in it is the user's already, and leads to something in it or to something that is the user's
already. -/
theorem rehomed_iff (hname : NameOk user.name)
    (hhome : tree.isDir (fileAt root skeletonPath) = true)
    (hnamed : tree.rename (fileAt root skeletonPath) (fileAt root (targetPath user)) =
      some named) :
    (∃ tree', Rehomed order root user tree tree') ↔
      LinksHome (user.uid, user.gid) (fileAt root (targetPath user)) named := by
  have hname := Customize.isName_of_nameOk hname
  have hdir := named_isDir hhome hnamed
  have hne : fileAt root (targetPath user) ≠ [] := target_ne_nil hname
  have hmove : moveHome root user tree = .ok named := by
    rw [← moveHome_eq hname hhome] at hnamed
    cases hmoves : moveHome root user tree with
    | error e =>
      rw [hmoves] at hnamed
      cases hnamed
    | ok tree₁ =>
      rw [hmoves] at hnamed
      rw [Option.some.inj hnamed]
  have hrename : renameHome order root user tree =
      chownEach (chownFailed root (targetPath user) (fileAt root (targetPath user)))
        (user.uid, user.gid)
        (walkdir order named (named.depth + 1) (fileAt root (targetPath user))) named := by
    rw [renameHome, hmove]
    exact chownRecursive_eq hdir (target_names hname) _ _
  refine Iff.trans ?_ (linksHome_iff order
    (chownFailed root (targetPath user) (fileAt root (targetPath user))) hdir hne)
  constructor
  · rintro ⟨tree', hok, hinside, houtside⟩
    rw [hrename] at hok
    have hsame := (chownEach_ok hok).same
    refine ⟨tree', hok, fun q hset => ?_⟩
    have hset' := (node_ne_none_iff hsame q).mpr hset
    split
    case isTrue hin => exact hinside q hin hset'
    case isFalse hin => rw [houtside q hin hset', named_outside hnamed hin hset]
  · rintro ⟨tree', hok, howners⟩
    have hsame := (chownEach_ok hok).same
    refine ⟨tree', hrename.trans hok, fun q hin hset => ?_, fun q hin hset => ?_⟩
    · rw [howners q ((node_ne_none_iff hsame q).mp hset), if_pos hin]
    · have hset := (node_ne_none_iff hsame q).mp hset
      rw [howners q hset, if_neg hin, named_outside hnamed hin hset]

end Home

/-! ### Links that are shipped -/

instance decidableLeadsHome (owner : UInt32 × UInt32) (home : Place) (tree : FileTree)
    (l : Place) : Decidable (LeadsHome owner home tree l) :=
  decidable_of_iff (∃ q ∈ (tree.follow maxLinks l).toOption,
      home <+: q ∨ tree.ownerAt q = some owner) (by
    rw [LeadsHome]
    cases tree.follow maxLinks l with
    | error e => simp [Except.toOption]
    | ok q => simp [Except.toOption])

instance decidableLinksHome (owner : UInt32 × UInt32) (home : Place) (tree : FileTree) :
    Decidable (LinksHome owner home tree) :=
  decidable_of_iff (∀ l ∈ tree.places, home <+: l → ∀ s ∈ tree.linkAt l,
      tree.ownerAt l = some owner ∧ LeadsHome owner home tree l)
    ⟨fun h l hl s hs => h l (tree.mem_places l (FileTree.node_of_link hs)) hl s hs,
      fun h l _ hl s hs => h l hl s hs⟩

/-- A host with a home directory at the mount point, and a link in it. -/
def withLink (link text : Text) : Option FileTree := do
  let tree ← FileTree.bare.makeDirs [] "etc".toList
  let tree ← tree.makeDirs [] "mnt/home/writeonce".toList
  let tree ← tree.write ["etc".toList, "passwd".toList] Customize.stagedPasswd
  let home := ["mnt".toList, "home".toList, "writeonce".toList]
  let tree ← tree.write (home ++ [".xinitrc".toList]) Customize.stagedXinitrc
  let tree ← tree.write (home ++ [link]) text
  some (tree.chmod (home ++ [link]) (typeLink ||| 0o777))

/-- The link leads to a file of the host. -/
def leadingOut : FileTree := (withLink ".bashrc".toList "/etc/passwd".toList).get (by decide)

/-- The link leads to a file beside it, and has the owner of the placeholder. -/
def leadingIn : FileTree :=
  ((withLink ".xsession".toList ".xinitrc".toList).get (by decide)).setOwner
    ["mnt".toList, "home".toList, "writeonce".toList, ".xsession".toList] (1000, 1000)

def pi : ResolvedUser := (Customize.planFor "pi".toList).user

/-- Whose a file of the host is once the home directory is handed over. -/
def passwdOwner (tree : FileTree) : Option (UInt32 × UInt32) :=
  match renameHome .listed Customize.mountPoint pi tree with
  | .ok tree' => tree'.ownerAt ["etc".toList, "passwd".toList]
  | .error _ => none

/-- The host's file is handed over with the home directory. -/
theorem host_file_reowned :
    ¬ ∀ (order : ReadOrder) (root : Text) (user : ResolvedUser) (tree named : FileTree),
      NameOk user.name → tree.isDir (fileAt root skeletonPath) = true →
      tree.rename (fileAt root skeletonPath) (fileAt root (targetPath user)) = some named →
      ∃ tree', Rehomed order root user tree tree' := by
  intro h
  have hrenames : (leadingOut.rename (fileAt Customize.mountPoint skeletonPath)
      (fileAt Customize.mountPoint (targetPath pi))).isSome = true := by
    decide +kernel
  obtain ⟨named, hnamed⟩ := Option.isSome_iff_exists.mp hrenames
  obtain ⟨tree', hok, -, houtside⟩ :=
    h .listed Customize.mountPoint pi leadingOut named nameOk_pi (by decide +kernel) hnamed
  have hnew : passwdOwner leadingOut = some (1000, 1000) := by decide +kernel
  have hold : leadingOut.ownerAt ["etc".toList, "passwd".toList] = some (0, 0) := by
    decide +kernel
  simp only [passwdOwner, hok] at hnew
  have hset : tree'.node ["etc".toList, "passwd".toList] ≠ none := by
    intro hnone
    rw [FileTree.ownerAt, hnone] at hnew
    cases hnew
  have hkept := houtside _ (by decide +kernel) hset
  rw [hnew, hold] at hkept
  exact absurd hkept (by decide)

theorem rehomed_iff_leadingIn :
    ∃ tree', Rehomed .listed Customize.mountPoint pi leadingIn tree' := by
  have hlinks : (leadingIn.rename (fileAt Customize.mountPoint skeletonPath)
      (fileAt Customize.mountPoint (targetPath pi))).any (fun tree => decide
        (LinksHome (pi.uid, pi.gid) (fileAt Customize.mountPoint (targetPath pi)) tree)) =
      true := by
    decide +kernel
  obtain ⟨named, hnamed, hlinked⟩ := (Option.any_eq_true _ _).mp hlinks
  exact (rehomed_iff nameOk_pi (by decide +kernel) hnamed).mpr (of_decide_eq_true hlinked)

end ChownHome

end WriteonceOs.Installer
