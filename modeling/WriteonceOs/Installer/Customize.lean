import WriteonceOs.Installer.Spec
import WriteonceOs.Library.Decimal
import WriteonceOs.Library.Dialogue
import WriteonceOs.Library.FileTree
import WriteonceOs.Library.Lines
import WriteonceOs.Library.Records
import WriteonceOs.Svc.Config

/-!
# Customisation of the extracted system

The changes to the extracted tree before the boot partition is filled: the three account files, the
home directory, the keyboard layout and the services that are enabled for the network.

* `rewritePasswd`, `rewriteShadow`, `rewriteGroup` — the account files, line by line;
* `renameHome`, `patchXinitrc`, `writeVconsoleConf`, `applyNetwork` — the other steps;
* `apply` — one step after the other.

What a failed step leaves behind is not looked at.
-/

namespace WriteonceOs.Installer

open WriteonceOs.Library
open Paths (Place components)
open Records (splitN record)
open WriteonceOs.Svc (isWhitespace)

namespace Customize

/-! ### Files below the mount point -/

section Files

variable (root : Text)

/-- The place of the mount point. -/
def base : Place := Paths.resolve [] root

def readText (path : Text) (tree : FileTree) : Option Text :=
  (tree.find (base root) path).bind tree.text

def writeText (path text : Text) (tree : FileTree) : Option FileTree :=
  (tree.find (base root) path).bind fun p => tree.write p text

def orFail {α : Type} (e : Failure) : Option α → Except Failure α
  | none => .error e
  | some a => .ok a

/-- A file read, changed and written back. -/
def editFile (path : Text) (readError writeError : Failure) (change : Text → Text)
    (tree : FileTree) : Except Failure FileTree := do
  let raw ← orFail readError (readText root path tree)
  orFail writeError (writeText root path (change raw) tree)

end Files

/-! ### Account files -/

def placeholderName : Text := "writeonce".toList

/-- The loop over the lines: the placeholder's line is replaced, or the new one is put at the end
when there was none. -/
def rewriteLines (placeholder : Text → Bool) (own : Text) (other : Text → Text) :
    Bool → List Text → List Text
  | written, [] => if written then [] else [own]
  | written, line :: rest =>
    if placeholder line then own :: rewriteLines placeholder own other true rest
    else other line :: rewriteLines placeholder own other written rest

/-- How the placeholder's line is recognised in the files of the accounts. -/
def isPlaceholder (line : Text) : Bool := (placeholderName ++ [':']).isPrefixOf line

def homeOf (user : ResolvedUser) : Text := "/home/".toList ++ user.name

def passwdFields (user : ResolvedUser) : List Text :=
  [user.name, ['x'], decimal user.uid.toNat, decimal user.gid.toNat, user.realName, homeOf user,
    user.shell]

/-- `day` is the day of the change, counted from the epoch. -/
def shadowFields (day : ℕ) (user : ResolvedUser) : List Text :=
  [user.name, user.passwordHash, decimal day, ['0'], "99999".toList, ['7'], [], [], []]

def groupFields (user : ResolvedUser) : List Text :=
  [user.name, ['x'], decimal user.gid.toNat, []]

def passwdText (user : ResolvedUser) (raw : Text) : Text :=
  unlines (rewriteLines isPlaceholder (record ':' (passwdFields user)) id false (lines raw))

-- the source treats the line of root apart, and keeps it as well
def shadowText (day : ℕ) (user : ResolvedUser) (raw : Text) : Text :=
  unlines (rewriteLines isPlaceholder (record ':' (shadowFields day user)) id false (lines raw))

/-- The members of a group without the placeholder. -/
def otherMembers (members : Text) : List Text :=
  (members.splitOn ',').filter fun m => m ≠ [] ∧ m ≠ placeholderName

def newMembers (user : ResolvedUser) (gname members : Text) : List Text :=
  let others := otherMembers members
  if gname ∈ user.groups ∧ user.name ∉ others then others ++ [user.name] else others

def isPlaceholderGroup (line : Text) : Bool :=
  match splitN 4 ':' line with
  | [gname, _, _, _] => gname = placeholderName
  | _ => false

def groupLine (user : ResolvedUser) (line : Text) : Text :=
  match splitN 4 ':' line with
  | [gname, password, gid, members] =>
    record ':' [gname, password, gid, List.intercalate [','] (newMembers user gname members)]
  | _ => line

def groupText (user : ResolvedUser) (raw : Text) : Text :=
  unlines (rewriteLines isPlaceholderGroup (record ':' (groupFields user)) (groupLine user) false
    (lines raw))

def passwdPath : Text := "etc/passwd".toList

def shadowPath : Text := "etc/shadow".toList

def groupPath : Text := "etc/group".toList

section Steps

variable (root : Text)

/-- The message of a file that cannot be read. -/
def readError (path : Text) : Failure := "read ".toList ++ Paths.join root path

def rewritePasswd (user : ResolvedUser) : FileTree → Except Failure FileTree :=
  editFile root passwdPath (readError root passwdPath) "write /etc/passwd".toList (passwdText user)

def setMode (path : Text) (mode : UInt32) (tree : FileTree) : Except Failure FileTree :=
  match tree.find (base root) path with
  | none => .error "No such file or directory (os error 2)".toList
  | some p => .ok (tree.chmod p mode)

def rewriteShadow (day : ℕ) (user : ResolvedUser) (tree : FileTree) : Except Failure FileTree := do
  let tree ← editFile root shadowPath (readError root shadowPath) "write /etc/shadow".toList
    (shadowText day user) tree
  setMode root shadowPath 0o640 tree

def rewriteGroup (user : ResolvedUser) : FileTree → Except Failure FileTree :=
  editFile root groupPath (readError root groupPath) "write /etc/group".toList (groupText user)

/-! ### The home directory -/

def skeletonPath : Text := "home/writeonce".toList

def targetPath (user : ResolvedUser) : Text := "home/".toList ++ user.name

/-- What the comparison of paths looks at. -/
def normal (path : Text) : List Text := (components path).filter fun c => c ≠ [] ∧ c ≠ ['.']

/-- `rename`, by paths. -/
def renamePath (src dst : Text) (tree : FileTree) : Option FileTree :=
  (tree.entry (base root) src).bind fun s =>
    (tree.entry (base root) dst).bind fun d => tree.rename s d

def moveHome (user : ResolvedUser) (tree : FileTree) : Except Failure FileTree :=
  if tree.pathExists (base root) skeletonPath = false then
    orFail "create /home dir".toList (tree.makeDirs (base root) (targetPath user))
  else if normal skeletonPath = normal (targetPath user) then .ok tree
  else
    orFail ("rename ".toList ++ Paths.join root skeletonPath ++ " → ".toList ++
      Paths.join root (targetPath user)) (renamePath root skeletonPath (targetPath user) tree)

def chownRecursive (path : Text) (uid gid : UInt32) (tree : FileTree) : Except Failure FileTree :=
  let place := (tree.find (base root) path).filter fun p => (tree.node p).isSome
  orFail ("chown(".toList ++ Paths.join root path ++
    ") failed: No such file or directory (os error 2)".toList)
    (place.map fun p => tree.chown p (uid, gid))

def renameHome (user : ResolvedUser) (tree : FileTree) : Except Failure FileTree := do
  let tree ← moveHome root user tree
  chownRecursive root (targetPath user) user.uid user.gid tree

/-! ### The keyboard -/

def xinitrcPath (user : ResolvedUser) : Text := targetPath user ++ "/.xinitrc".toList

def setxkbmapPrefix : Text := "setxkbmap ".toList

def setxkb (keyboard : ResolvedKeyboard) : Text :=
  match keyboard.variant with
  | some v => setxkbmapPrefix ++ "-layout ".toList ++ keyboard.layout ++ " -variant ".toList ++ v
  | none => setxkbmapPrefix ++ keyboard.layout

def isSetxkbmap (line : Text) : Bool := setxkbmapPrefix.isPrefixOf (line.dropWhile isWhitespace)

def xinitrcText (keyboard : ResolvedKeyboard) (raw : Text) : Text :=
  List.intercalate ['\n']
    ((lines raw).map fun line => if isSetxkbmap line then setxkb keyboard else line) ++ ['\n']

def patchXinitrc (user : ResolvedUser) (keyboard : ResolvedKeyboard) (tree : FileTree) :
    Except Failure FileTree :=
  if tree.pathExists (base root) (xinitrcPath user) = false then .ok tree
  else
    editFile root (xinitrcPath user) "Is a directory (os error 21)".toList "write .xinitrc".toList
      (xinitrcText keyboard) tree

def vconsolePath : Text := "etc/vconsole.conf".toList

def vconsoleText (keyboard : ResolvedKeyboard) : Text :=
  match keyboard.variant with
  | some v => "KEYMAP=".toList ++ keyboard.layout ++ '-' :: v ++ ['\n']
  | none => "KEYMAP=".toList ++ keyboard.layout ++ ['\n']

def writeVconsoleConf (keyboard : ResolvedKeyboard) (tree : FileTree) : Except Failure FileTree :=
  orFail "write /etc/vconsole.conf".toList
    (writeText root vconsolePath (vconsoleText keyboard) tree)

/-! ### The network -/

def enabledPath : Text := "etc/writeonce/enabled.d".toList

def networkUnits : List Text :=
  ["iwd.service".toList, "dhcpcd.service".toList, "writeonce-modules-load.service".toList]

def stubPath (unit : Text) : Text := enabledPath ++ '/' :: unit ++ ".toml".toList

def stubText (unit : Text) : Text :=
  "# Pre-enabled by writeonce-installer (network.enabled_at_boot=true).\n".toList ++
    "unit = \"".toList ++ unit ++ "\"\n".toList

def writeStubs : List Text → FileTree → Except Failure FileTree
  | [], tree => .ok tree
  | unit :: rest, tree => do
    let tree ← orFail ("write ".toList ++ Paths.join root (stubPath unit))
      (writeText root (stubPath unit) (stubText unit) tree)
    writeStubs rest tree

def defaultTargetPath : Text := "etc/writeonce/services/default.target.toml".toList

def headlessText : Text :=
  ("# Rewritten by writeonce-installer (network.enabled_at_boot=true).\n" ++
    "# default.target requires multi-user.target so enabled.d entries\n" ++
    "# (iwd, dhcpcd, modules-load) fire at boot — necessary for SSH/headless.\n" ++
    "\n" ++
    "[unit]\n" ++
    "description = \"Default supervisor target — headless (network at boot)\"\n" ++
    "requires    = [\"multi-user.target\"]\n" ++
    "after       = [\"multi-user.target\"]\n").toList

def retarget (tree : FileTree) : Except Failure FileTree :=
  if tree.pathExists (base root) defaultTargetPath = false then .ok tree
  else
    orFail ("rewrite ".toList ++ Paths.join root defaultTargetPath)
      (writeText root defaultTargetPath headlessText tree)

def applyNetwork (network : ResolvedNetwork) (tree : FileTree) : Except Failure FileTree :=
  if network.enabledAtBoot = false then .ok tree
  else do
    let tree ← orFail ("create ".toList ++ Paths.join root enabledPath)
      (tree.makeDirs (base root) enabledPath)
    let tree ← writeStubs root networkUnits tree
    retarget root tree

/-! ### All steps -/

/-- `customize::apply` on the day `day`. -/
def apply (day : ℕ) (plan : InstallationPlan) (tree : FileTree) : Except Failure FileTree := do
  let tree ← rewritePasswd root plan.user tree
  let tree ← rewriteShadow root day plan.user tree
  let tree ← rewriteGroup root plan.user tree
  let tree ← renameHome root plan.user tree
  let tree ← patchXinitrc root plan.user plan.keyboard tree
  let tree ← writeVconsoleConf root plan.keyboard tree
  applyNetwork root plan.network tree

end Steps

/-! ### What a run consists of -/

section Runs

theorem orFail_ok {α : Type} {e : Failure} {x : Option α} {a : α} :
    orFail e x = .ok a ↔ x = some a := by
  cases x with
  | none => exact iff_of_false nofun nofun
  | some b => simp [orFail]

variable {root : Text} {day : ℕ} {plan : InstallationPlan} {tree tree' : FileTree} {path : Text}

/-- The place of a path below the mount point. -/
def fileAt (root path : Text) : Place := Paths.walk (base root) (components path)

theorem fileAt_names (h : ∀ c ∈ components path, Paths.IsName c) :
    fileAt root path = base root ++ components path := Paths.walk_names h _

/-- What is there is found. -/
theorem find_fileAt (h : ∀ c ∈ components path, Paths.IsName c)
    (hset : tree.node (fileAt root path) ≠ none) :
    tree.find (base root) path = some (fileAt root path) := by
  rw [fileAt_names h] at hset ⊢
  exact FileTree.walk_of_node h hset

theorem readText_some {s : Text} (h : readText root path tree = some s) :
    tree.find (base root) path = some (fileAt root path) ∧
      tree.text (fileAt root path) = some s := by
  obtain ⟨p, hp, htext⟩ := Option.bind_eq_some_iff.mp h
  have heq : p = fileAt root path := FileTree.find_eq hp
  rw [heq] at hp htext
  exact ⟨hp, htext⟩

theorem writeText_some {s : Text} (h : writeText root path s tree = some tree') :
    tree.find (base root) path = some (fileAt root path) ∧
      tree.write (fileAt root path) s = some tree' := by
  obtain ⟨p, hp, hwrite⟩ := Option.bind_eq_some_iff.mp h
  have heq : p = fileAt root path := FileTree.find_eq hp
  rw [heq] at hp hwrite
  exact ⟨hp, hwrite⟩

/-- A file that was edited: what it was, and what it is. -/
theorem editFile_ok {e e' : Failure} {change : Text → Text}
    (h : editFile root path e e' change tree = .ok tree') :
    ∃ raw, tree.text (fileAt root path) = some raw ∧
      tree.find (base root) path = some (fileAt root path) ∧
      tree.write (fileAt root path) (change raw) = some tree' := by
  obtain ⟨raw, hread, hwrite⟩ := bind_eq_ok.mp h
  obtain ⟨hfind, htext⟩ := readText_some (orFail_ok.mp hread)
  exact ⟨raw, htext, hfind, (writeText_some (orFail_ok.mp hwrite)).2⟩

/-- The trees between the steps of a run. -/
structure Run (root : Text) (day : ℕ) (plan : InstallationPlan) (tree tree' : FileTree) where
  passwd : FileTree
  shadowText : FileTree
  shadow : FileTree
  group : FileTree
  moved : FileTree
  home : FileTree
  xinitrc : FileTree
  vconsole : FileTree
  rewritePasswd : rewritePasswd root plan.user tree = .ok passwd
  editShadow : editFile root shadowPath (readError root shadowPath) "write /etc/shadow".toList
    (Customize.shadowText day plan.user) passwd = .ok shadowText
  setMode : setMode root shadowPath 0o640 shadowText = .ok shadow
  rewriteGroup : rewriteGroup root plan.user shadow = .ok group
  moveHome : moveHome root plan.user group = .ok moved
  chown : chownRecursive root (targetPath plan.user) plan.user.uid plan.user.gid moved = .ok home
  patchXinitrc : patchXinitrc root plan.user plan.keyboard home = .ok xinitrc
  writeVconsole : writeVconsoleConf root plan.keyboard xinitrc = .ok vconsole
  applyNetwork : applyNetwork root plan.network vconsole = .ok tree'

/-- **A run that succeeds is one step after the other.** -/
theorem apply_ok (h : apply root day plan tree = .ok tree') :
    Nonempty (Run root day plan tree tree') := by
  obtain ⟨t₁, h₁, h⟩ := bind_eq_ok.mp h
  obtain ⟨t₂, h₂, h⟩ := bind_eq_ok.mp h
  obtain ⟨t₃, h₃, h⟩ := bind_eq_ok.mp h
  obtain ⟨t₄, h₄, h⟩ := bind_eq_ok.mp h
  obtain ⟨t₅, h₅, h⟩ := bind_eq_ok.mp h
  obtain ⟨t₆, h₆, h₇⟩ := bind_eq_ok.mp h
  obtain ⟨s, hs, hmode⟩ := bind_eq_ok.mp h₂
  obtain ⟨m, hm, hown⟩ := bind_eq_ok.mp h₄
  exact ⟨t₁, s, t₂, t₃, m, t₄, t₅, t₆, h₁, hs, hmode, h₃, hm, hown, h₅, h₆, h₇⟩

end Runs

/-! ### What the steps leave alone -/

section Frames

variable {root : Text} {user : ResolvedUser} {keyboard : ResolvedKeyboard}
  {network : ResolvedNetwork} {tree tree' : FileTree} {path s : Text} {q : Place}

theorem writeText_other (h : writeText root path s tree = some tree') (hq : q ≠ fileAt root path) :
    tree'.node q = tree.node q :=
  FileTree.write_other (writeText_some h).2 hq

theorem setMode_ok {mode : UInt32} (h : setMode root path mode tree = .ok tree') :
    tree' = tree.chmod (fileAt root path) mode := by
  unfold setMode at h
  split at h
  case h_1 => cases h
  case h_2 p hp =>
    have heq : p = fileAt root path := FileTree.find_eq hp
    rw [← Except.ok.inj h, heq]

theorem chownRecursive_ok {uid gid : UInt32}
    (h : chownRecursive root path uid gid tree = .ok tree') :
    tree.find (base root) path = some (fileAt root path) ∧
      tree' = tree.chown (fileAt root path) (uid, gid) := by
  obtain ⟨p, hp, rfl⟩ := Option.map_eq_some_iff.mp (orFail_ok.mp h)
  have hfind := (Option.filter_eq_some_iff.mp hp).1
  have heq : p = fileAt root path := FileTree.find_eq hfind
  rw [heq] at hfind
  exact ⟨hfind, by rw [heq]⟩

/-- What the move of the home directory can be. -/
theorem moveHome_cases (h : moveHome root user tree = .ok tree') :
    tree.makeDirs (base root) (targetPath user) = some tree' ∨
      (normal skeletonPath = normal (targetPath user) ∧ tree' = tree) ∨
      tree.rename (fileAt root skeletonPath) (fileAt root (targetPath user)) = some tree' := by
  unfold moveHome at h
  split at h
  case isTrue => exact .inl (orFail_ok.mp h)
  case isFalse =>
    split at h
    case isTrue hsame => exact .inr (.inl ⟨hsame, (Except.ok.inj h).symm⟩)
    case isFalse =>
      obtain ⟨src, hsrc, h⟩ := Option.bind_eq_some_iff.mp (orFail_ok.mp h)
      obtain ⟨dst, hdst, h⟩ := Option.bind_eq_some_iff.mp h
      rw [FileTree.entry_eq hsrc, FileTree.entry_eq hdst] at h
      exact .inr (.inr h)

/-- **The move takes no file's place** outside of the home directories: a directory is renamed over
nothing or over an empty directory. -/
theorem moveHome_text (h : moveHome root user tree = .ok tree')
    (hhome : tree.text (fileAt root skeletonPath) = none ∨ ¬ fileAt root (targetPath user) <+: q)
    (hsrc : ¬ fileAt root skeletonPath <+: q) (hq : tree.text q = some s) :
    tree'.text q = some s := by
  rcases moveHome_cases h with h | ⟨-, rfl⟩ | h
  · rw [FileTree.makeDirsFrom_text h, hq]
  · exact hq
  · by_cases heq : fileAt root skeletonPath = fileAt root (targetPath user)
    · rw [FileTree.rename, if_pos heq] at h
      rw [← Option.some.inj h, hq]
    · have hdst : ¬ fileAt root (targetPath user) <+: q := by
        rcases hhome with hnone | hdst
        · obtain ⟨he, -⟩ | ⟨-, hr, -⟩ := FileTree.rename_cases h
          · exact absurd he heq
          · have hset := Option.isSome_iff_ne_none.mp hr.source
            exact FileTree.not_prefix_of_rename h (FileTree.isDir_of_text_eq_none hset hnone) heq hq
        · exact hdst
      rw [FileTree.text_of_node (FileTree.rename_other h hsrc hdst), hq]

/-- The placeholder's home directory does not become a file. -/
theorem moveHome_skeleton (h : moveHome root user tree = .ok tree')
    (hnone : tree.text (fileAt root skeletonPath) = none) :
    tree'.text (fileAt root skeletonPath) = none := by
  rcases moveHome_cases h with h | ⟨-, rfl⟩ | h
  · rw [FileTree.makeDirsFrom_text h, hnone]
  · exact hnone
  · by_cases heq : fileAt root skeletonPath = fileAt root (targetPath user)
    · rw [FileTree.rename, if_pos heq] at h
      rw [← Option.some.inj h, hnone]
    · rw [FileTree.text, FileTree.rename_source h heq]
      rfl

/-- The script of the session: there is none, or it is edited. -/
theorem patchXinitrc_cases (h : patchXinitrc root user keyboard tree = .ok tree') :
    (tree.pathExists (base root) (xinitrcPath user) = false ∧ tree' = tree) ∨
      ∃ raw, tree.text (fileAt root (xinitrcPath user)) = some raw ∧
        tree.write (fileAt root (xinitrcPath user)) (xinitrcText keyboard raw) = some tree' := by
  unfold patchXinitrc at h
  split at h
  case isTrue hexists => exact .inl ⟨hexists, (Except.ok.inj h).symm⟩
  case isFalse =>
    obtain ⟨raw, htext, -, hwrite⟩ := editFile_ok h
    exact .inr ⟨raw, htext, hwrite⟩

theorem patchXinitrc_other (h : patchXinitrc root user keyboard tree = .ok tree')
    (hq : q ≠ fileAt root (xinitrcPath user)) : tree'.node q = tree.node q := by
  obtain ⟨-, rfl⟩ | ⟨raw, -, hwrite⟩ := patchXinitrc_cases h
  · rfl
  · exact FileTree.write_other hwrite hq

theorem writeStubs_other {units : List Text} (h : writeStubs root units tree = .ok tree')
    (hq : ∀ unit ∈ units, q ≠ fileAt root (stubPath unit)) : tree'.node q = tree.node q := by
  induction units generalizing tree with
  | nil => rw [Except.ok.inj h]
  | cons unit units ih =>
    obtain ⟨hunit, hunits⟩ := List.forall_mem_cons.mp hq
    obtain ⟨t, hwrite, h⟩ := bind_eq_ok.mp h
    rw [ih h hunits, writeText_other (orFail_ok.mp hwrite) hunit]

theorem retarget_other (h : retarget root tree = .ok tree')
    (hq : q ≠ fileAt root defaultTargetPath) : tree'.node q = tree.node q := by
  unfold retarget at h
  split at h
  case isTrue => rw [Except.ok.inj h]
  case isFalse => exact writeText_other (orFail_ok.mp h) hq

/-- The steps for the network: directories, stubs and the default target. -/
theorem applyNetwork_cases (h : applyNetwork root network tree = .ok tree') :
    (network.enabledAtBoot = false ∧ tree' = tree) ∨ (network.enabledAtBoot = true ∧
      ∃ made stubs, tree.makeDirs (base root) enabledPath = some made ∧
        writeStubs root networkUnits made = .ok stubs ∧ retarget root stubs = .ok tree') := by
  unfold applyNetwork at h
  split at h
  case isTrue hoff => exact .inl ⟨hoff, (Except.ok.inj h).symm⟩
  case isFalse hon =>
    obtain ⟨made, hmade, h⟩ := bind_eq_ok.mp h
    obtain ⟨stubs, hstubs, h⟩ := bind_eq_ok.mp h
    exact .inr ⟨by simpa using hon, made, stubs, orFail_ok.mp hmade, hstubs, h⟩

/-- Places that nothing after the move of the home directory writes. -/
structure Untouched (root : Text) (user : ResolvedUser) (q : Place) : Prop where
  xinitrc : q ≠ fileAt root (xinitrcPath user)
  vconsole : q ≠ fileAt root vconsolePath
  stubs : ∀ unit ∈ networkUnits, q ≠ fileAt root (stubPath unit)
  target : q ≠ fileAt root defaultTargetPath

theorem applyNetwork_text (h : applyNetwork root network tree = .ok tree')
    (hq : Untouched root user q) : tree'.text q = tree.text q := by
  obtain ⟨-, rfl⟩ | ⟨-, made, stubs, hmade, hstubs, h⟩ := applyNetwork_cases h
  · rfl
  · rw [FileTree.text_of_node (retarget_other h hq.target),
      FileTree.text_of_node (writeStubs_other hstubs hq.stubs), FileTree.makeDirsFrom_text hmade]

/-- A path of names, none of those that are written after the move of the home directory. -/
structure Plain (path : Text) : Prop where
  names : ∀ c ∈ components path, Paths.IsName c
  last : (components path).getLast? ≠ some ".xinitrc".toList
  ne_nil : components path ≠ []
  vconsole : components path ≠ components vconsolePath
  stubs : ∀ unit ∈ networkUnits, components path ≠ components (stubPath unit)
  target : components path ≠ components defaultTargetPath

theorem fileAt_ne {path' : Text} (h : ∀ c ∈ components path, Paths.IsName c)
    (h' : ∀ c ∈ components path', Paths.IsName c) (hne : components path ≠ components path') :
    fileAt root path ≠ fileAt root path' := by
  rw [fileAt_names h, fileAt_names h']
  exact fun heq => hne (List.append_cancel_left heq)

theorem components_xinitrc :
    components (xinitrcPath user) = components (targetPath user) ++ [".xinitrc".toList] :=
  Paths.components_append_slash _ _

theorem fileAt_xinitrc :
    fileAt root (xinitrcPath user) = fileAt root (targetPath user) ++ [".xinitrc".toList] := by
  rw [fileAt, components_xinitrc, Paths.walk_append]
  have hname : Paths.IsName ".xinitrc".toList := by decide
  exact Paths.visit_name hname _

theorem Plain.untouched (h : Plain path) : Untouched root user (fileAt root path) where
  xinitrc heq := by
    rw [fileAt_names h.names, fileAt_xinitrc] at heq
    have hlast := congrArg List.getLast? heq
    rw [List.getLast?_append_of_ne_nil _ h.ne_nil, List.getLast?_concat] at hlast
    exact h.last hlast
  vconsole := fileAt_ne h.names (by decide) h.vconsole
  stubs unit hunit := by
    have hnames : ∀ unit ∈ networkUnits, ∀ c ∈ components (stubPath unit), Paths.IsName c := by
      decide
    exact fileAt_ne h.names (hnames unit hunit) (h.stubs unit hunit)
  target := fileAt_ne h.names (by decide) h.target

theorem plain_passwd : Plain passwdPath := by constructor <;> decide

theorem plain_shadow : Plain shadowPath := by constructor <;> decide

theorem plain_group : Plain groupPath := by constructor <;> decide

theorem plain_skeleton : Plain skeletonPath := by constructor <;> decide

variable {day : ℕ} {plan : InstallationPlan}

/-- **What the steps after the move of the home directory leave alone.** -/
theorem Run.text_of_moved (run : Run root day plan tree tree') (hq : Untouched root plan.user q) :
    tree'.text q = run.moved.text q := by
  rw [applyNetwork_text run.applyNetwork hq,
    FileTree.text_of_node (writeText_other (orFail_ok.mp run.writeVconsole) hq.vconsole),
    FileTree.text_of_node (patchXinitrc_other run.patchXinitrc hq.xinitrc),
    (chownRecursive_ok run.chown).2]
  exact FileTree.adjust_text _ q

theorem editFile_other {e e' : Failure} {change : Text → Text}
    (h : editFile root path e e' change tree = .ok tree') (hq : q ≠ fileAt root path) :
    tree'.node q = tree.node q := by
  obtain ⟨raw, -, -, hwrite⟩ := editFile_ok h
  exact FileTree.write_other hwrite hq

theorem editFile_text {e e' : Failure} {change : Text → Text}
    (h : editFile root path e e' change tree = .ok tree') :
    ∃ raw, tree.text (fileAt root path) = some raw ∧
      tree'.text (fileAt root path) = some (change raw) := by
  obtain ⟨raw, htext, -, hwrite⟩ := editFile_ok h
  exact ⟨raw, htext, FileTree.write_text hwrite⟩

theorem Run.text_of_passwd (run : Run root day plan tree tree')
    (hq : q ≠ fileAt root shadowPath) : run.shadow.text q = run.passwd.text q := by
  rw [setMode_ok run.setMode, FileTree.chmod, FileTree.adjust_text]
  exact FileTree.text_of_node (editFile_other run.editShadow hq)

/-- The three account files are all that is written before the move. -/
theorem Run.text_of_group (run : Run root day plan tree tree') (hp : q ≠ fileAt root passwdPath)
    (hs : q ≠ fileAt root shadowPath) (hg : q ≠ fileAt root groupPath) :
    run.group.text q = tree.text q := by
  rw [FileTree.text_of_node (editFile_other run.rewriteGroup hg), run.text_of_passwd hs]
  exact FileTree.text_of_node (editFile_other run.rewritePasswd hp)

/-- The home directory of the placeholder is no file, or the account's name is a file name. -/
def HomeIsFree (root : Text) (user : ResolvedUser) (tree : FileTree) : Prop :=
  tree.text (fileAt root skeletonPath) = none ∨ Paths.IsName user.name

theorem components_target (h : Paths.IsName user.name) :
    components (targetPath user) = ["home".toList, user.name] := by
  show components ("home".toList ++ '/' :: user.name) = _
  rw [Paths.components_append_slash, Paths.components_noSlash h.noSlash]
  rfl

theorem target_names (h : Paths.IsName user.name) :
    ∀ c ∈ components (targetPath user), Paths.IsName c := by
  rw [components_target h]
  intro c hc
  rcases List.mem_cons.mp hc with rfl | hc
  · decide
  · rw [List.mem_singleton.mp hc]
    exact h

theorem fileAt_target (h : Paths.IsName user.name) :
    fileAt root (targetPath user) = base root ++ ["home".toList, user.name] := by
  rw [fileAt_names (target_names h), components_target h]

/-- **Below `etc`, the move and what comes after it leave the files alone.** -/
theorem Run.text_of_etc (run : Run root day plan tree tree')
    (hhome : HomeIsFree root plan.user tree) (hplain : Plain path)
    (hetc : ∃ file, components path = ["etc".toList, file])
    (hs : run.group.text (fileAt root path) = some s) :
    tree'.text (fileAt root path) = some s := by
  obtain ⟨file, hetc⟩ := hetc
  have hpath : fileAt root path = base root ++ ["etc".toList, file] := by
    rw [fileAt_names hplain.names, hetc]
  have hskeleton : fileAt root skeletonPath = base root ++ ["home".toList, placeholderName] :=
    fileAt_names plain_skeleton.names
  have happart : ∀ name : Text, ¬ base root ++ ["home".toList, name] <+: fileAt root path := by
    intro name hprefix
    rw [hpath, List.prefix_append_right_inj] at hprefix
    have hhead := (List.cons_prefix_cons.mp hprefix).1
    exact absurd hhead (by decide)
  rw [run.text_of_moved hplain.untouched]
  refine moveHome_text run.moveHome ?_ (hskeleton ▸ happart _) hs
  rcases hhome with hnone | hname
  · refine .inl ?_
    rw [run.text_of_group (fileAt_ne plain_skeleton.names plain_passwd.names (by decide))
      (fileAt_ne plain_skeleton.names plain_shadow.names (by decide))
      (fileAt_ne plain_skeleton.names plain_group.names (by decide)), hnone]
  · exact .inr (fileAt_target hname ▸ happart _)

/-! ### The account files of a run -/

variable (run : Run root day plan tree tree') (hhome : HomeIsFree root plan.user tree)

include run hhome

theorem Run.passwd_text : ∃ raw, tree.text (fileAt root passwdPath) = some raw ∧
    tree'.text (fileAt root passwdPath) = some (passwdText plan.user raw) := by
  obtain ⟨raw, hraw, htext⟩ := editFile_text run.rewritePasswd
  refine ⟨raw, hraw, run.text_of_etc hhome plain_passwd ⟨"passwd".toList, by decide⟩ ?_⟩
  rw [FileTree.text_of_node (editFile_other run.rewriteGroup
    (fileAt_ne plain_passwd.names plain_group.names (by decide))),
    run.text_of_passwd (fileAt_ne plain_passwd.names plain_shadow.names (by decide)), htext]

theorem Run.shadow_text : ∃ raw, tree.text (fileAt root shadowPath) = some raw ∧
    tree'.text (fileAt root shadowPath) = some (Customize.shadowText day plan.user raw) := by
  obtain ⟨raw, hraw, htext⟩ := editFile_text run.editShadow
  rw [FileTree.text_of_node (editFile_other run.rewritePasswd
    (fileAt_ne plain_shadow.names plain_passwd.names (by decide)))] at hraw
  refine ⟨raw, hraw, run.text_of_etc hhome plain_shadow ⟨"shadow".toList, by decide⟩ ?_⟩
  rw [FileTree.text_of_node (editFile_other run.rewriteGroup
    (fileAt_ne plain_shadow.names plain_group.names (by decide))), setMode_ok run.setMode,
    FileTree.chmod, FileTree.adjust_text, htext]

theorem Run.group_text : ∃ raw, tree.text (fileAt root groupPath) = some raw ∧
    tree'.text (fileAt root groupPath) = some (groupText plan.user raw) := by
  obtain ⟨raw, hraw, htext⟩ := editFile_text run.rewriteGroup
  rw [run.text_of_passwd (fileAt_ne plain_group.names plain_shadow.names (by decide)),
    FileTree.text_of_node (editFile_other run.rewritePasswd
      (fileAt_ne plain_group.names plain_passwd.names (by decide)))] at hraw
  exact ⟨raw, hraw, run.text_of_etc hhome plain_group ⟨"group".toList, by decide⟩ htext⟩

end Frames

/-! ### A staged tree -/

def stagedPasswd : Text :=
  ("root:x:0:0:root:/root:/bin/bash\n" ++
    "writeonce:x:1000:1000:WriteOnce User:/home/writeonce:/bin/bash\n").toList

def stagedShadow : Text :=
  ("# `!` locks the account.\n" ++
    "root:!:19501:0:99999:7:::\n" ++
    "writeonce:!:19501:0:99999:7:::\n").toList

def stagedGroup : Text :=
  ("root:x:0:\n" ++
    "audio:x:18:writeonce\n" ++
    "writeonce:x:1000:\n").toList

def stagedXinitrc : Text := ("#!/bin/sh\n" ++ "setxkbmap us\n").toList

def stagedTree : Option FileTree := do
  let tree ← FileTree.bare.makeDirs [] "mnt/etc".toList
  let tree ← tree.makeDirs [] "mnt/home/writeonce".toList
  let tree ← tree.write ["mnt".toList, "etc".toList, "passwd".toList] stagedPasswd
  let tree ← tree.write ["mnt".toList, "etc".toList, "shadow".toList] stagedShadow
  let tree ← tree.write ["mnt".toList, "etc".toList, "group".toList] stagedGroup
  tree.write ["mnt".toList, "home".toList, "writeonce".toList, ".xinitrc".toList] stagedXinitrc

/-- A small skeleton at a mount point. -/
def staged : FileTree := stagedTree.get (by decide)

def mountPoint : Text := "/mnt".toList

end Customize

end WriteonceOs.Installer
