import Mathlib
import WriteonceOs.Boot.CmdLine
import WriteonceOs.Installer.Customize
import WriteonceOs.Installer.Install

/-!
# The installation behind the wipe

Steps 5 to 11: the partitions, the file systems, the extracted system, the boot partition, and the
digests that are read again.  The guards unmount what is still mounted when a step fails, and the
working directory is removed at the end, through whatever is mounted below it then.  What a failed
copy leaves behind is not looked at.

* `writeDisk` — the steps;
* `finish`, `perform` — what is done at the end in any case;
* `unmounted_perform` — something stays mounted only where an `umount` has failed;
* `installed` — what the device holds when the installation is complete;
* `installed_root` — the root that is then searched at boot.
-/

namespace WriteonceOs.Installer

open Std.Do
open WriteonceOs.Library
open WriteonceOs.Boot (formatCmdline fileBytes fullCmdline)

set_option mvcgen.warning false

/-! ### The device and its answers -/

inductive Volume where
  | esp | root
  deriving DecidableEq, Repr

/-- The artifacts with their digests, as `Manifest::resolve` puts them together. -/
structure ResolvedArtifacts where
  kernel : Text
  initramfs : Text
  bootloader : Text
  sysroot : Text
  cmdlineTemplate : Text
  kernelSha : Text
  initramfsSha : Text
  bootloaderSha : Text

def Manifest.resolve (m : Manifest) (cmdline dir : Text) : ResolvedArtifacts where
  kernel := Paths.join dir m.kernel
  initramfs := Paths.join dir m.initramfs
  bootloader := Paths.join dir m.bootloader
  sysroot := Paths.join dir m.sysroot
  cmdlineTemplate := cmdline
  kernelSha := m.kernelSha256
  initramfsSha := m.initramfsSha256
  bootloaderSha := m.bootloaderSha256

/-- The files of the boot partition, by their paths below its root. -/
abbrev Files := Text → Option ByteArray

/-- How a command ends. -/
inductive Exit where
  | success
  | failure (status : Text)
  | unspawned (error : Text)
  deriving DecidableEq, Repr

/-- What the commands, the host and the device answer. -/
structure WriteAnswers where
  exit : Command → Exit
  -- the `umount` commands, in their order
  umounts : ℕ → Exit
  blkid : Exit × Text
  tempdir : Except Failure Text
  createDirs : Text → Bool
  unpack : Text → Except Failure FileTree
  day : ℕ
  -- an artifact, read when it is copied, and whether a file can be written
  artifact : Text → Option ByteArray
  writes : Text → Bool
  sha256 : ByteArray → Text
  -- what the device has kept of the boot partition when it is mounted anew
  medium : Files → Files
  -- what stays when the working directory is removed through a mount
  spared : Files → Files
  remains : FileTree → FileTree

/-- The device, its mounts and the active guards with the latest first, and the commands run. -/
structure Disk where
  esp : Files := fun _ => none
  root : FileTree := .bare
  mounts : List (Volume × Text) := []
  guards : List Text := []
  umounts : ℕ := 0
  commands : List Command := []

abbrev Step := EStateM Failure Disk

/-- The question mark. -/
def orThrow {α : Type} : Except Failure α → Step α
  | .ok a => pure a
  | .error e => throw e

section Steps

variable (ans : WriteAnswers)

/-- A command whose failure ends the installation. -/
def runCommand (command : Command) (unspawned failed : Failure) : Step Unit := do
  modify fun s => { s with commands := s.commands ++ [command] }
  match ans.exit command with
  | .success => pure ()
  | .failure status => throw (failed ++ status)
  | .unspawned _ => throw unspawned

/-! ### Mounts -/

def mountRoot (workdir : Text) : Text := Paths.join workdir "root".toList

def espDir (workdir : Text) : Text := Paths.join (mountRoot workdir) "boot/efi".toList

def verifyDir (workdir : Text) : Text := Paths.join workdir "verify-esp".toList

/-- Whether a path lies below another one. -/
def below (target path : Text) : Bool := (target ++ ['/']).isPrefixOf path

def mounted (mounts : List (Volume × Text)) (target : Text) : Bool :=
  mounts.any fun m => m.2 = target

/-- A mount below the mount point keeps it busy. -/
def busy (mounts : List (Volume × Text)) (target : Text) : Bool :=
  mounts.any fun m => below target m.2

def umountCommand (isLazy : Bool) (target : Text) : Command :=
  if isLazy then ["umount".toList, "-l".toList, target] else ["umount".toList, target]

/-- One `umount`: a busy mount is only detached lazily, and all below it with it. -/
def tryUmount (isLazy : Bool) (target : Text) (s : Disk) : Exit × Disk :=
  let s' := { s with
    umounts := s.umounts + 1
    commands := s.commands ++ [umountCommand isLazy target] }
  match ans.umounts s.umounts with
  | .success =>
    if mounted s.mounts target = false then (.failure "exit status: 32".toList, s')
    else if isLazy = false ∧ busy s.mounts target then (.failure "exit status: 32".toList, s')
    else (.success, { s' with
      mounts := s.mounts.filter fun m => m.2 ≠ target ∧ ¬ below target m.2 })
  | exit => (exit, s')

/-- `umount`, and `umount -l` where that fails. -/
def umount (target : Text) : Step Unit := do
  match ← modifyGet (tryUmount ans false target) with
  | .success => pure ()
  | .unspawned e => throw e
  | .failure _ =>
    match ← modifyGet (tryUmount ans true target) with
    | .success => pure ()
    | .unspawned e => throw e
    | .failure status => throw ("umount -l ".toList ++ target ++ " failed: ".toList ++ status)

def createDirAll (path : Text) (e : Failure) : Step Unit :=
  if ans.createDirs path then pure () else throw e

def mount (volume : Volume) (source target fsType : Text) : Step Unit := do
  createDirAll ans target "create mount point".toList
  runCommand ans ["mount".toList, "-t".toList, fsType, source, target] "spawn mount".toList
    ("mount -t ".toList ++ fsType ++ ' ' :: source ++ ' ' :: target ++ " failed: ".toList)
  modify fun s => { s with mounts := (volume, target) :: s.mounts }

/-- `MountGuard::new`. -/
def addGuard (target : Text) : Step Unit :=
  modify fun s => { s with guards := target :: s.guards }

/-- `MountGuard::forget`, of the guard made last. -/
def forgetGuard : Step Unit := modify fun s => { s with guards := s.guards.tail }

/-! ### Partitions and file systems -/

/-- A list of strings as it is shown for debugging. -/
def debugArgs (args : List Text) : Text :=
  '[' :: ", ".toList.intercalate (args.map fun arg => '"' :: arg ++ ['"']) ++ [']']

def sgdisk (command : Command) : Step Unit :=
  runCommand ans command "spawn sgdisk — install gptfdisk on the host".toList
    ("sgdisk ".toList ++ debugArgs command.tail ++ " failed with status ".toList)

/-- A command whose answer does not count. -/
def runIgnored (command : Command) : Step Unit :=
  modify fun s => { s with commands := s.commands ++ [command] }

/-- `create_gpt`. -/
def partitionDevice (device : Text) (plan : PartitionPlan) : Step Unit := do
  sgdisk ans (zapAll device)
  sgdisk ans (newPartitions device plan)
  runIgnored ["partprobe".toList, device]

/-- What `mkfs.vfat` makes of the partition. -/
def emptyEsp : Step Unit := modify fun s => { s with esp := fun _ => none }

def setRoot (tree : FileTree) : Step Unit := modify fun s => { s with root := tree }

def formatEsp (esp : Text) : Step Unit := do
  runCommand ans ["mkfs.vfat".toList, "-F".toList, "32".toList, "-n".toList, "WRITEONCE".toList,
    esp] "spawn mkfs.vfat — install dosfstools".toList "mkfs.vfat failed: ".toList
  emptyEsp

def readExt4Uuid (device : Text) : Except Failure Text :=
  match ans.blkid with
  | (.unspawned _, _) => .error "spawn blkid — install util-linux".toList
  | (.failure status, stderr) => .error ("blkid failed: ".toList ++ status ++ ' ' :: stderr)
  | (.success, stdout) =>
    if Svc.trim stdout = [] then .error ("blkid returned empty UUID for ".toList ++ device)
    else .ok (Svc.trim stdout)

/-- The root file system, and the UUID that it got. -/
def formatRoot (root : Text) : Step Text := do
  runCommand ans ["mkfs.ext4".toList, "-F".toList, "-L".toList, "writeonce-root".toList,
    "-E".toList, "lazy_itable_init=0,lazy_journal_init=0".toList, root]
    "spawn mkfs.ext4 — install e2fsprogs".toList "mkfs.ext4 failed: ".toList
  setRoot .bare
  orThrow (readExt4Uuid ans root)

/-! ### The contents -/

def extractSysroot (tarball : Text) : Step Unit := do
  let tree ← orThrow (ans.unpack tarball)
  setRoot tree

/-- A change below the mount point of the root file system. -/
def editRoot (change : FileTree → Except Failure FileTree) : Step Unit := do
  let s ← get
  let tree ← orThrow (change s.root)
  setRoot tree

/-- The system set up for the plan. -/
def customize (plan : InstallationPlan) (workdir : Text) : Step Unit :=
  editRoot (Customize.apply (mountRoot workdir) ans.day plan)

/-- The directory on which the boot partition is mounted. -/
def makeEspDir (workdir : Text) (tree : FileTree) : Except Failure FileTree :=
  Customize.orFail "create boot/efi".toList
    (tree.makeDirs (Customize.base (mountRoot workdir)) "boot/efi".toList)

def bootloaderFile : Text := "EFI/BOOT/BOOTX64.EFI".toList

def kernelFile : Text := "EFI/WriteOnce/bzImage".toList

def initramfsFile : Text := "EFI/WriteOnce/initramfs.img".toList

def cmdlineFile : Text := "EFI/WriteOnce/cmdline.txt".toList

def writeFile (path : Text) (e : Failure) (data : Option ByteArray) : Step Unit :=
  match data with
  | none => throw e
  | some bytes =>
    if ans.writes path then
      modify fun s => { s with esp := Function.update s.esp path (some bytes) }
    else throw e

def populateEsp (espDir : Text) (a : ResolvedArtifacts) (cmdline : Text) : Step Unit := do
  createDirAll ans (Paths.join espDir "EFI/BOOT".toList) "create EFI/BOOT".toList
  createDirAll ans (Paths.join espDir "EFI/WriteOnce".toList) "create EFI/WriteOnce".toList
  writeFile ans bootloaderFile "copy bootloader".toList (ans.artifact a.bootloader)
  writeFile ans kernelFile "copy kernel".toList (ans.artifact a.kernel)
  writeFile ans initramfsFile "copy initramfs".toList (ans.artifact a.initramfs)
  writeFile ans cmdlineFile "write cmdline.txt".toList (some (fileBytes cmdline))

/-! ### The digests read again -/

def checkFile (files : Files) (label path expected : Text) : Except Failure Unit :=
  match files path with
  | none => .error ("open ".toList ++ path)
  | some data =>
    if eqIgnoreAsciiCase (ans.sha256 data) expected then .ok ()
    else .error ("re-read SHA mismatch on ".toList ++ label ++ ": expected ".toList ++ expected ++
      " got ".toList ++ ans.sha256 data)

def checkFiles (a : ResolvedArtifacts) (files : Files) : Except Failure Unit := do
  checkFile ans files "kernel".toList kernelFile a.kernelSha
  checkFile ans files "initramfs".toList initramfsFile a.initramfsSha
  checkFile ans files "bootloader".toList bootloaderFile a.bootloaderSha

/-- What is found on the device when it is mounted anew. -/
def reread : Step Unit := modify fun s => { s with esp := ans.medium s.esp }

/-- The mount is not read-only, and what its `umount` answers does not count. -/
def verifyPostWrite (a : ResolvedArtifacts) (espPart workdir : Text) : Step Unit := do
  mount ans .esp espPart (verifyDir workdir) "vfat".toList
  reread ans
  let s ← get
  tryCatch (umount ans (verifyDir workdir)) fun _ => pure ()
  orThrow (checkFiles ans a s.esp)

/-! ### The whole -/

/-- The steps behind the wipe; the command line is shown at the end. -/
def writeDisk (device : Text) (plan : InstallationPlan) (a : ResolvedArtifacts) : Step Text := do
  partitionDevice ans device plan.partition
  let parts := partitionPaths device
  formatEsp ans parts.1
  let rootUuid ← formatRoot ans parts.2
  let workdir ← orThrow ans.tempdir
  mount ans .root parts.2 (mountRoot workdir) "ext4".toList
  addGuard (mountRoot workdir)
  extractSysroot ans a.sysroot
  customize ans plan workdir
  editRoot (makeEspDir workdir)
  mount ans .esp parts.1 (espDir workdir) "vfat".toList
  addGuard (espDir workdir)
  let cmdline := formatCmdline a.cmdlineTemplate rootUuid
  populateEsp ans (espDir workdir) a cmdline
  runIgnored ["sync".toList]
  umount ans (espDir workdir)
  forgetGuard
  umount ans (mountRoot workdir)
  forgetGuard
  verifyPostWrite ans a parts.1 workdir
  pure cmdline

/-- The guards are dropped, the latest first. -/
def dropGuards : List Text → Disk → Disk
  | [], s => s
  | target :: guards, s => dropGuards guards (tryUmount ans false target s).2

/-- What is deleted through the mounts that are left. -/
def removeWorkdir (s : Disk) : Disk :=
  { s with
    esp := if Volume.esp ∈ s.mounts.map Prod.fst then ans.spared s.esp else s.esp
    root := if Volume.root ∈ s.mounts.map Prod.fst then ans.remains s.root else s.root }

/-- What is done at the end, however the steps have ended. -/
def finish (s : Disk) : Disk := removeWorkdir ans (dropGuards ans s.guards s)

def perform (device : Text) (plan : InstallationPlan) (a : ResolvedArtifacts) :
    Except Failure Text × Disk :=
  match writeDisk ans device plan a {} with
  | .ok cmdline s => (.ok cmdline, finish ans s)
  | .error e s => (.error e, finish ans s)

/-! ### What stays mounted -/

/-- One of the `umount` commands that were run has failed. -/
def Refused (s : Disk) : Prop := ∃ k < s.umounts, ans.umounts k ≠ .success

/-- What is mounted and guarded, unless an `umount` has failed. -/
def Holds (mounts : List (Volume × Text)) (guards : List Text) (s : Disk) : Prop :=
  Refused ans s ∨ (s.mounts = mounts ∧ s.guards = guards)

/-- What an `umount` of the mount point leaves. -/
def released (target : Text) (mounts : List (Volume × Text)) : List (Volume × Text) :=
  mounts.filter fun m => m.2 ≠ target ∧ ¬ below target m.2

variable {ans} {m : List (Volume × Text)} {g : List Text}

theorem runCommand_holds (command : Command) (e e' : Failure) :
    ⦃fun s => ⌜Holds ans m g s⌝⦄ runCommand ans command e e'
    ⦃post⟨fun _ s => ⌜Holds ans m g s⌝, fun _ s => ⌜Holds ans m g s⌝⟩⦄ := by
  mvcgen [runCommand]

theorem runIgnored_holds (command : Command) :
    ⦃fun s => ⌜Holds ans m g s⌝⦄ runIgnored command
    ⦃post⟨fun _ s => ⌜Holds ans m g s⌝, fun _ _ => ⌜False⌝⟩⦄ := by
  mvcgen [runIgnored]

theorem orThrow_holds {α : Type} (result : Except Failure α) :
    ⦃fun s => ⌜Holds ans m g s⌝⦄ orThrow result
    ⦃post⟨fun _ s => ⌜Holds ans m g s⌝, fun _ s => ⌜Holds ans m g s⌝⟩⦄ := by
  mvcgen [orThrow]

theorem partitionDevice_holds (device : Text) (plan : PartitionPlan) :
    ⦃fun s => ⌜Holds ans m g s⌝⦄ partitionDevice ans device plan
    ⦃post⟨fun _ s => ⌜Holds ans m g s⌝, fun _ s => ⌜Holds ans m g s⌝⟩⦄ := by
  mvcgen [partitionDevice, sgdisk, runCommand_holds, runIgnored_holds]

theorem emptyEsp_holds :
    ⦃fun s => ⌜Holds ans m g s⌝⦄ emptyEsp
    ⦃post⟨fun _ s => ⌜Holds ans m g s⌝, fun _ _ => ⌜False⌝⟩⦄ := by
  mvcgen [emptyEsp]

theorem setRoot_holds (tree : FileTree) :
    ⦃fun s => ⌜Holds ans m g s⌝⦄ setRoot tree
    ⦃post⟨fun _ s => ⌜Holds ans m g s⌝, fun _ _ => ⌜False⌝⟩⦄ := by
  mvcgen [setRoot]

theorem editRoot_holds (change : FileTree → Except Failure FileTree) :
    ⦃fun s => ⌜Holds ans m g s⌝⦄ editRoot change
    ⦃post⟨fun _ s => ⌜Holds ans m g s⌝, fun _ s => ⌜Holds ans m g s⌝⟩⦄ := by
  mvcgen [editRoot, orThrow_holds, setRoot_holds]

theorem reread_holds :
    ⦃fun s => ⌜Holds ans m g s⌝⦄ reread ans
    ⦃post⟨fun _ s => ⌜Holds ans m g s⌝, fun _ _ => ⌜False⌝⟩⦄ := by
  mvcgen [reread]

theorem createDirAll_holds (path : Text) (e : Failure) :
    ⦃fun s => ⌜Holds ans m g s⌝⦄ createDirAll ans path e
    ⦃post⟨fun _ s => ⌜Holds ans m g s⌝, fun _ s => ⌜Holds ans m g s⌝⟩⦄ := by
  mvcgen [createDirAll]

theorem writeFile_holds (path : Text) (e : Failure) (data : Option ByteArray) :
    ⦃fun s => ⌜Holds ans m g s⌝⦄ writeFile ans path e data
    ⦃post⟨fun _ s => ⌜Holds ans m g s⌝, fun _ s => ⌜Holds ans m g s⌝⟩⦄ := by
  mvcgen [writeFile]

theorem populateEsp_holds (espDir : Text) (a : ResolvedArtifacts) (cmdline : Text) :
    ⦃fun s => ⌜Holds ans m g s⌝⦄ populateEsp ans espDir a cmdline
    ⦃post⟨fun _ s => ⌜Holds ans m g s⌝, fun _ s => ⌜Holds ans m g s⌝⟩⦄ := by
  mvcgen [populateEsp, createDirAll_holds, writeFile_holds]

theorem mount_holds (volume : Volume) (source target fsType : Text) :
    ⦃fun s => ⌜Holds ans m g s⌝⦄ mount ans volume source target fsType
    ⦃post⟨fun _ s => ⌜Holds ans ((volume, target) :: m) g s⌝, fun _ s => ⌜Holds ans m g s⌝⟩⦄ := by
  mvcgen [mount, createDirAll_holds, runCommand_holds]
  case _ h _ =>
    exact h.imp_right fun h => ⟨congrArg _ h.1, h.2⟩

theorem addGuard_holds (target : Text) :
    ⦃fun s => ⌜Holds ans m g s⌝⦄ addGuard target
    ⦃post⟨fun _ s => ⌜Holds ans m (target :: g) s⌝, fun _ _ => ⌜False⌝⟩⦄ := by
  mvcgen [addGuard]
  case _ h _ =>
    exact h.imp_right fun h => ⟨h.1, congrArg _ h.2⟩

theorem forgetGuard_holds :
    ⦃fun s => ⌜Holds ans m g s⌝⦄ forgetGuard
    ⦃post⟨fun _ s => ⌜Holds ans m g.tail s⌝, fun _ _ => ⌜False⌝⟩⦄ := by
  mvcgen [forgetGuard]
  case _ h _ =>
    exact h.imp_right fun h => ⟨h.1, congrArg List.tail h.2⟩

/-- A refusal is not forgotten. -/
theorem Refused.tryUmount {s : Disk} (h : Refused ans s) (isLazy : Bool) (target : Text) :
    Refused ans (tryUmount ans isLazy target s).2 := by
  obtain ⟨k, hk, hne⟩ := h
  refine ⟨k, ?_, hne⟩
  have hcount : (WriteonceOs.Installer.tryUmount ans isLazy target s).2.umounts =
      s.umounts + 1 := by
    unfold WriteonceOs.Installer.tryUmount
    dsimp only
    split
    · split
      · rfl
      · split
        · rfl
        · rfl
    · rfl
  omega

theorem mounted_iff {mounts : List (Volume × Text)} {target : Text} :
    mounted mounts target = true ↔ target ∈ mounts.map Prod.snd := by
  simp [mounted]

/-- A mount that is not busy is gone when its `umount` does not fail. -/
theorem tryUmount_holds {target : Text} {s : Disk} (h : Holds ans m g s)
    (hmem : target ∈ m.map Prod.snd) (hfree : busy m target = false) :
    Holds ans (released target m) g (tryUmount ans false target s).2 ∧
      ((tryUmount ans false target s).1 ≠ .success →
        Refused ans (tryUmount ans false target s).2) := by
  rcases h with hrefused | ⟨rfl, rfl⟩
  · exact ⟨.inl (hrefused.tryUmount false target), fun _ => hrefused.tryUmount false target⟩
  · unfold tryUmount
    dsimp only
    split
    case h_1 hexit =>
      rw [if_neg (by simp [mounted_iff.mpr hmem]), if_neg (by simp [hfree])]
      exact ⟨.inr ⟨rfl, rfl⟩, fun hne => absurd rfl hne⟩
    case h_2 hexit =>
      have hrefused : Refused ans { s with
          umounts := s.umounts + 1
          commands := s.commands ++ [umountCommand false target] } :=
        ⟨s.umounts, Nat.lt_succ_self _, hexit⟩
      exact ⟨.inl hrefused, fun _ => hrefused⟩

theorem umount_holds {target : Text} (hmem : target ∈ m.map Prod.snd)
    (hfree : busy m target = false) :
    ⦃fun s => ⌜Holds ans m g s⌝⦄ umount ans target
    ⦃post⟨fun _ s => ⌜Holds ans (released target m) g s⌝, fun _ s => ⌜Refused ans s⌝⟩⦄ := by
  mvcgen [umount]
  case vc1 h r hexit => exact (tryUmount_holds h hmem hfree).1
  case vc2 h r e hexit =>
    exact (tryUmount_holds h hmem hfree).2 fun hs => nomatch hexit.symm.trans hs
  case vc3 h r status hexit r' hexit' =>
    have hrefused := (tryUmount_holds h hmem hfree).2 fun hs => nomatch hexit.symm.trans hs
    exact .inl (hrefused.tryUmount true target)
  case vc4 h r status hexit r' e hexit' =>
    have hrefused := (tryUmount_holds h hmem hfree).2 fun hs => nomatch hexit.symm.trans hs
    exact hrefused.tryUmount true target
  case vc5 h r status hexit r' status' hexit' =>
    have hrefused := (tryUmount_holds h hmem hfree).2 fun hs => nomatch hexit.symm.trans hs
    exact hrefused.tryUmount true target

theorem below_length {target path : Text} (h : below target path = true) :
    target.length < path.length := by
  have hprefix : target ++ ['/'] <+: path := List.isPrefixOf_iff_prefix.mp h
  have hlength := hprefix.length_le
  rw [List.length_append, List.length_singleton] at hlength
  omega

theorem not_below {target path : Text} (h : path.length ≤ target.length) :
    below target path = false := by
  by_contra hnot
  have := below_length (Bool.eq_true_of_not_eq_false hnot)
  omega

theorem join_length {dir path : Text} (hpath : path ≠ []) (h : Paths.isAbsolute path = false) :
    dir.length < (Paths.join dir path).length := by
  have hpos := List.length_pos_iff.mpr hpath
  rw [Paths.join, if_neg (by simp [h])]
  split
  · rw [List.length_append]
    omega
  · rw [List.length_append, List.length_cons]
    omega

theorem mountRoot_length (workdir : Text) : (mountRoot workdir).length < (espDir workdir).length :=
  join_length (by decide) (by decide)

/-- A single mount is not busy, and an `umount` leaves nothing. -/
@[simp] theorem busy_single (volume : Volume) (target : Text) :
    busy [(volume, target)] target = false := by
  rw [busy, List.any_cons, List.any_nil, not_below le_rfl]
  rfl

@[simp] theorem released_single (volume : Volume) (target : Text) :
    released target [(volume, target)] = [] := by
  rw [released, List.filter_cons_of_neg (by simp), List.filter_nil]

/-- The boot partition is unmounted before the root below which it is mounted. -/
@[simp] theorem busy_espDir (workdir : Text) :
    busy [(.esp, espDir workdir), (.root, mountRoot workdir)] (espDir workdir) = false := by
  rw [busy, List.any_cons, List.any_cons, List.any_nil, not_below le_rfl,
    not_below (mountRoot_length workdir).le]
  rfl

@[simp] theorem released_espDir (workdir : Text) :
    released (espDir workdir) [(.esp, espDir workdir), (.root, mountRoot workdir)] =
      [(.root, mountRoot workdir)] := by
  have hne : mountRoot workdir ≠ espDir workdir := fun h =>
    absurd (congrArg List.length h) (mountRoot_length workdir).ne
  rw [released, List.filter_cons_of_neg (by simp), List.filter_cons_of_pos (by
    simp [hne, not_below (mountRoot_length workdir).le]), List.filter_nil]

theorem verifyPostWrite_holds (a : ResolvedArtifacts) (espPart workdir : Text) :
    ⦃fun s => ⌜Holds ans [] [] s⌝⦄ verifyPostWrite ans a espPart workdir
    ⦃post⟨fun _ s => ⌜Holds ans [] [] s⌝, fun _ s => ⌜Holds ans [] [] s⌝⟩⦄ := by
  mvcgen [verifyPostWrite, mount_holds, reread_holds, umount_holds, orThrow_holds]
  case hmem => exact List.mem_singleton_self _
  case hfree => exact busy_single _ _
  case _ h => simpa only [released_single] using h
  -- what the `umount` answers is dropped
  case _ h => exact .inl h

/-- Every mount has its guard, and none lies below one that is dropped before. -/
def Covered (s : Disk) : Prop :=
  (∀ x ∈ s.mounts, x.2 ∈ s.guards) ∧
    s.guards.Pairwise fun inner outer => below inner outer = false

theorem Holds.covered {s : Disk} (h : Holds ans m g s) (hguard : ∀ x ∈ m, x.2 ∈ g)
    (horder : g.Pairwise fun inner outer => below inner outer = false) :
    Refused ans s ∨ Covered s := by
  rcases h with hrefused | ⟨rfl, rfl⟩
  · exact .inl hrefused
  · exact .inr ⟨hguard, horder⟩

theorem covered_nothing {s : Disk} (h : Holds ans [] [] s) : Refused ans s ∨ Covered s :=
  h.covered nofun .nil

theorem covered_root {workdir : Text} {s : Disk}
    (h : Holds ans [(.root, mountRoot workdir)] [mountRoot workdir] s) :
    Refused ans s ∨ Covered s :=
  h.covered (by simp) (List.pairwise_singleton _ _)

theorem covered_both {workdir : Text} {s : Disk}
    (h : Holds ans [(.esp, espDir workdir), (.root, mountRoot workdir)]
      [espDir workdir, mountRoot workdir] s) : Refused ans s ∨ Covered s := by
  refine h.covered (by simp) (List.pairwise_pair.mpr ?_)
  exact not_below (mountRoot_length workdir).le

theorem writeDisk_covered (device : Text) (plan : InstallationPlan) (a : ResolvedArtifacts) :
    ⦃fun s => ⌜Holds ans [] [] s⌝⦄ writeDisk ans device plan a
    ⦃post⟨fun _ s => ⌜Refused ans s ∨ Covered s⌝, fun _ s => ⌜Refused ans s ∨ Covered s⌝⟩⦄ := by
  mvcgen [writeDisk, customize, formatEsp, formatRoot, extractSysroot, runCommand_holds,
    runIgnored_holds, partitionDevice_holds, emptyEsp_holds, setRoot_holds, orThrow_holds,
    mount_holds, addGuard_holds, editRoot_holds, populateEsp_holds, umount_holds,
    forgetGuard_holds, verifyPostWrite_holds]
  case hmem => exact List.mem_cons_self
  case hfree => exact busy_espDir _
  case hmem => simp
  case hfree => simp
  case _ h => simpa using h
  -- a step that fails leaves the mounts as the step before it
  all_goals first
    | exact .inl
    | exact covered_nothing
    | exact covered_root
    | exact covered_both
    | exact covered_nothing ‹_›

/-! ### The guards dropped -/

theorem dropGuards_refused {s : Disk} (h : Refused ans s) (guards : List Text) :
    Refused ans (dropGuards ans guards s) := by
  induction guards generalizing s with
  | nil => exact h
  | cons target guards ih => exact ih (h.tryUmount false target)

/-- What an `umount` leaves mounted was mounted on another mount point, unless it has failed. -/
theorem tryUmount_plain {target : Text} {s : Disk} (hfree : busy s.mounts target = false) :
    Refused ans (tryUmount ans false target s).2 ∨
      ∀ x ∈ (tryUmount ans false target s).2.mounts, x ∈ s.mounts ∧ x.2 ≠ target := by
  by_cases hmem : target ∈ s.mounts.map Prod.snd
  · have hholds : Holds ans s.mounts s.guards s := .inr ⟨rfl, rfl⟩
    refine (tryUmount_holds hholds hmem hfree).1.imp_right fun h x hx => ?_
    rw [h.1, released, List.mem_filter] at hx
    exact ⟨hx.1, (of_decide_eq_true hx.2).1⟩
  · -- nothing is mounted there, and nothing changes
    refine .inr fun x hx => ?_
    have hx : x ∈ s.mounts := by
      unfold tryUmount at hx
      dsimp only at hx
      split at hx
      · rw [if_pos (Bool.eq_false_iff.mpr fun hm => hmem (mounted_iff.mp hm))] at hx
        exact hx
      · exact hx
    exact ⟨hx, fun heq => hmem (heq ▸ List.mem_map_of_mem hx)⟩

/-- **The guards take down what they cover.** -/
theorem dropGuards_covered {guards : List Text} {s : Disk} (hguard : ∀ x ∈ s.mounts, x.2 ∈ guards)
    (horder : guards.Pairwise fun inner outer => below inner outer = false) :
    Refused ans (dropGuards ans guards s) ∨ (dropGuards ans guards s).mounts = [] := by
  induction guards generalizing s with
  | nil =>
    refine .inr (List.eq_nil_iff_forall_not_mem.mpr fun x hx => ?_)
    exact absurd (hguard x hx) List.not_mem_nil
  | cons target guards ih =>
    obtain ⟨hinner, horder⟩ := List.pairwise_cons.mp horder
    have hfree : busy s.mounts target = false := by
      rw [busy, List.any_eq_false]
      intro x hx
      rw [Bool.not_eq_true]
      rcases List.mem_cons.mp (hguard x hx) with heq | hlater
      · exact not_below (congrArg List.length heq).le
      · exact hinner x.2 hlater
    rcases @tryUmount_plain ans target s hfree with hrefused | hleft
    · exact .inl (dropGuards_refused hrefused guards)
    · refine ih (fun x hx => ?_) horder
      obtain ⟨hmem, hne⟩ := hleft x hx
      exact (List.mem_cons.mp (hguard x hmem)).resolve_left hne

theorem Refused.finish {s : Disk} (h : Refused ans s) : Refused ans (finish ans s) :=
  dropGuards_refused h s.guards

theorem Covered.finish {s : Disk} (h : Covered s) :
    Refused ans (finish ans s) ∨ (finish ans s).mounts = [] :=
  dropGuards_covered h.1 h.2

/-- What a triple says of one run. -/
theorem outcome_of_triple {α : Type} {step : Step α} {P : Disk → Prop} {Q : α → Disk → Prop}
    {E : Failure → Disk → Prop}
    (h : ⦃fun s => ⌜P s⌝⦄ step ⦃post⟨fun r s => ⌜Q r s⌝, fun e s => ⌜E e s⌝⟩⦄) {s : Disk}
    (hs : P s) : match step s with
      | .ok r s' => Q r s'
      | .error e s' => E e s' := by
  have hwp := h s hs
  simp only [wp, PredTrans.apply, EStateM.run] at hwp
  cases hstep : step s with
  | ok r s' =>
    rw [hstep] at hwp
    exact hwp
  | error e s' =>
    rw [hstep] at hwp
    exact hwp

/-- **What stays mounted**: nothing, unless one of the `umount` commands that were run has failed,
however the installation ends. -/
theorem unmounted_perform {ans : WriteAnswers} {device : Text} {plan : InstallationPlan}
    {a : ResolvedArtifacts} {result : Except Failure Text} {s : Disk}
    (hrun : perform ans device plan a = (result, s))
    (hall : ∀ k < s.umounts, ans.umounts k = .success) : s.mounts = [] := by
  have houtcome := outcome_of_triple (@writeDisk_covered ans device plan a) (s := {})
    (.inr ⟨rfl, rfl⟩)
  have hfinish {s' : Disk} (h : Refused ans s' ∨ Covered s') (hs : finish ans s' = s) :
      s.mounts = [] := by
    subst hs
    have hnot : ¬ Refused ans (finish ans s') := fun ⟨k, hk, hne⟩ => hne (hall k hk)
    rcases h with hrefused | hcovered
    · exact absurd hrefused.finish hnot
    · exact hcovered.finish.resolve_left hnot
  unfold perform at hrun
  cases hdisk : writeDisk ans device plan a {} with
  | ok cmdline s' =>
    rw [hdisk] at hrun houtcome
    exact hfinish houtcome (congrArg Prod.snd hrun)
  | error e s' =>
    rw [hdisk] at hrun houtcome
    exact hfinish houtcome (congrArg Prod.snd hrun)

/-! ### What is written -/

/-- What the boot partition holds, and what has made the root file system what it is. -/
structure Contents (esp : Files) (root : Except Failure FileTree) (s : Disk) : Prop where
  esp : s.esp = esp
  root : root = .ok s.root

variable {esp : Files} {root : Except Failure FileTree}

theorem runCommand_contents (command : Command) (e e' : Failure) :
    ⦃fun s => ⌜Contents esp root s⌝⦄ runCommand ans command e e'
    ⦃post⟨fun _ s => ⌜Contents esp root s⌝, fun _ _ => ⌜True⌝⟩⦄ := by
  mvcgen [runCommand]
  case _ h _ _ => exact ⟨h.esp, h.root⟩

theorem runIgnored_contents (command : Command) :
    ⦃fun s => ⌜Contents esp root s⌝⦄ runIgnored command
    ⦃post⟨fun _ s => ⌜Contents esp root s⌝, fun _ _ => ⌜False⌝⟩⦄ := by
  mvcgen [runIgnored]
  case _ h _ => exact ⟨h.esp, h.root⟩

theorem partitionDevice_contents (device : Text) (plan : PartitionPlan) :
    ⦃fun s => ⌜Contents esp root s⌝⦄ partitionDevice ans device plan
    ⦃post⟨fun _ s => ⌜Contents esp root s⌝, fun _ _ => ⌜True⌝⟩⦄ := by
  mvcgen [partitionDevice, sgdisk, runCommand_contents, runIgnored_contents]
  exact id

theorem emptyEsp_contents :
    ⦃fun s => ⌜Contents esp root s⌝⦄ emptyEsp
    ⦃post⟨fun _ s => ⌜Contents (fun _ => none) root s⌝, fun _ _ => ⌜False⌝⟩⦄ := by
  mvcgen [emptyEsp]
  case _ h _ => exact ⟨rfl, h.root⟩

theorem setRoot_contents (tree : FileTree) :
    ⦃fun s => ⌜Contents esp root s⌝⦄ setRoot tree
    ⦃post⟨fun _ s => ⌜Contents esp (.ok tree) s⌝, fun _ _ => ⌜False⌝⟩⦄ := by
  mvcgen [setRoot]
  case _ h _ => exact ⟨h.esp, rfl⟩

theorem extractSysroot_contents (tarball : Text) :
    ⦃fun s => ⌜Contents esp root s⌝⦄ extractSysroot ans tarball
    ⦃post⟨fun _ s => ⌜Contents esp (ans.unpack tarball) s⌝, fun _ _ => ⌜True⌝⟩⦄ := by
  mvcgen [extractSysroot, orThrow, setRoot_contents]
  exact fun h => ‹ans.unpack _ = _› ▸ h

theorem editRoot_contents (change : FileTree → Except Failure FileTree) :
    ⦃fun s => ⌜Contents esp root s⌝⦄ editRoot change
    ⦃post⟨fun _ s => ⌜Contents esp (root >>= change) s⌝, fun _ _ => ⌜True⌝⟩⦄ := by
  mvcgen [editRoot, orThrow, setRoot_contents]
  case _ h _ hchange _ _ =>
    exact fun hset => ⟨hset.esp, bind_eq_ok.mpr ⟨_, h.root, hchange.trans hset.root⟩⟩

theorem writeFile_contents (path : Text) (e : Failure) (data : Option ByteArray) :
    ⦃fun s => ⌜Contents esp root s⌝⦄ writeFile ans path e data
    ⦃post⟨fun _ s => ⌜Contents (Function.update esp path data) root s⌝, fun _ _ => ⌜True⌝⟩⦄ := by
  mvcgen [writeFile]
  case _ h _ => exact ⟨congrArg (Function.update · path _) h.esp, h.root⟩

/-- The files that are put on the boot partition. -/
def espFiles (ans : WriteAnswers) (a : ResolvedArtifacts) (cmdline : Text) : Files :=
  Function.update (Function.update (Function.update (Function.update (fun _ => none)
    bootloaderFile (ans.artifact a.bootloader)) kernelFile (ans.artifact a.kernel))
    initramfsFile (ans.artifact a.initramfs)) cmdlineFile (some (fileBytes cmdline))

theorem createDirAll_contents (path : Text) (e : Failure) :
    ⦃fun s => ⌜Contents esp root s⌝⦄ createDirAll ans path e
    ⦃post⟨fun _ s => ⌜Contents esp root s⌝, fun _ _ => ⌜True⌝⟩⦄ := by
  mvcgen [createDirAll]

theorem populateEsp_contents (dir : Text) (a : ResolvedArtifacts) (cmdline : Text) :
    ⦃fun s => ⌜Contents (fun _ => none) root s⌝⦄ populateEsp ans dir a cmdline
    ⦃post⟨fun _ s => ⌜Contents (espFiles ans a cmdline) root s⌝, fun _ _ => ⌜True⌝⟩⦄ := by
  mvcgen [populateEsp, createDirAll_contents, writeFile_contents]

theorem mount_contents (volume : Volume) (source target fsType : Text) :
    ⦃fun s => ⌜Contents esp root s⌝⦄ mount ans volume source target fsType
    ⦃post⟨fun _ s => ⌜Contents esp root s⌝, fun _ _ => ⌜True⌝⟩⦄ := by
  mvcgen [mount, createDirAll_contents, runCommand_contents]
  case _ h _ => exact ⟨h.esp, h.root⟩

theorem addGuard_contents (target : Text) :
    ⦃fun s => ⌜Contents esp root s⌝⦄ addGuard target
    ⦃post⟨fun _ s => ⌜Contents esp root s⌝, fun _ _ => ⌜False⌝⟩⦄ := by
  mvcgen [addGuard]
  case _ h _ => exact ⟨h.esp, h.root⟩

theorem forgetGuard_contents :
    ⦃fun s => ⌜Contents esp root s⌝⦄ forgetGuard
    ⦃post⟨fun _ s => ⌜Contents esp root s⌝, fun _ _ => ⌜False⌝⟩⦄ := by
  mvcgen [forgetGuard]
  case _ h _ => exact ⟨h.esp, h.root⟩

theorem tryUmount_contents {s : Disk} (h : Contents esp root s) (isLazy : Bool) (target : Text) :
    Contents esp root (tryUmount ans isLazy target s).2 := by
  have hsame : (tryUmount ans isLazy target s).2.esp = s.esp ∧
      (tryUmount ans isLazy target s).2.root = s.root := by
    unfold tryUmount
    dsimp only
    split
    · split
      · exact ⟨rfl, rfl⟩
      · split
        · exact ⟨rfl, rfl⟩
        · exact ⟨rfl, rfl⟩
    · exact ⟨rfl, rfl⟩
  exact ⟨hsame.1.trans h.esp, h.root.trans (congrArg _ hsame.2.symm)⟩

theorem umount_contents (target : Text) :
    ⦃fun s => ⌜Contents esp root s⌝⦄ umount ans target
    ⦃post⟨fun _ s => ⌜Contents esp root s⌝, fun _ s => ⌜Contents esp root s⌝⟩⦄ := by
  mvcgen [umount]
  all_goals first
    | exact tryUmount_contents ‹_› false target
    | exact tryUmount_contents (tryUmount_contents ‹_› false target) true target

theorem dropGuards_contents {s : Disk} (h : Contents esp root s) (guards : List Text) :
    Contents esp root (dropGuards ans guards s) := by
  induction guards generalizing s with
  | nil => exact h
  | cons target guards ih => exact ih (tryUmount_contents h false target)

theorem reread_contents :
    ⦃fun s => ⌜Contents esp root s⌝⦄ reread ans
    ⦃post⟨fun _ s => ⌜Contents (ans.medium esp) root s⌝, fun _ _ => ⌜False⌝⟩⦄ := by
  mvcgen [reread]
  case _ h _ => exact ⟨congrArg ans.medium h.esp, h.root⟩

/-- What is verified is what the device has kept. -/
theorem verifyPostWrite_contents (a : ResolvedArtifacts) (espPart workdir : Text) :
    ⦃fun s => ⌜Contents esp root s⌝⦄ verifyPostWrite ans a espPart workdir
    ⦃post⟨fun _ s => ⌜Contents (ans.medium esp) root s ∧
        checkFiles ans a (ans.medium esp) = .ok ()⌝, fun _ _ => ⌜True⌝⟩⦄ := by
  have humount := @umount_contents ans (ans.medium esp) root
  mvcgen [verifyPostWrite, orThrow, mount_contents, reread_contents, humount]
  case _ hread _ _ hcheck _ h =>
    exact ⟨h, hread.esp ▸ hcheck⟩
  case _ hread _ _ h _ hcheck =>
    exact ⟨h, hread.esp ▸ hcheck⟩

/-- The root file system: the system unpacked, set up for the plan, with the mount point of the
boot partition. -/
def installedRoot (ans : WriteAnswers) (plan : InstallationPlan) (tarball workdir : Text) :
    Except Failure FileTree :=
  ans.unpack tarball >>= Customize.apply (mountRoot workdir) ans.day plan >>= makeEspDir workdir

/-- What a complete installation has put on the device. -/
structure Written (ans : WriteAnswers) (device : Text) (plan : InstallationPlan)
    (a : ResolvedArtifacts) (cmdline : Text) (s : Disk) : Prop where
  filled : ∃ rootUuid, readExt4Uuid ans (partitionPaths device).2 = .ok rootUuid ∧
    cmdline = formatCmdline a.cmdlineTemplate rootUuid
  root : ∃ workdir, ans.tempdir = .ok workdir ∧
    installedRoot ans plan a.sysroot workdir = .ok s.root
  esp : s.esp = ans.medium (espFiles ans a cmdline)
  checked : checkFiles ans a s.esp = .ok ()

theorem writeDisk_written (device : Text) (plan : InstallationPlan) (a : ResolvedArtifacts) :
    ⦃fun s => ⌜Contents (fun _ => none) (.ok .bare) s⌝⦄ writeDisk ans device plan a
    ⦃post⟨fun cmdline s => ⌜Written ans device plan a cmdline s⌝, fun _ _ => ⌜True⌝⟩⦄ := by
  mvcgen [writeDisk, customize, formatEsp, formatRoot, orThrow,
    runCommand_contents, runIgnored_contents, partitionDevice_contents, emptyEsp_contents,
    setRoot_contents, mount_contents, addGuard_contents, extractSysroot_contents,
    editRoot_contents, populateEsp_contents, umount_contents, forgetGuard_contents,
    verifyPostWrite_contents]
  case _ h =>
    exact ⟨⟨_, ‹_›, rfl⟩, ⟨_, ‹_›, h.1.root⟩, h.1.esp, h.1.esp ▸ h.2⟩

theorem perform_written {device : Text} {plan : InstallationPlan} {a : ResolvedArtifacts}
    {cmdline : Text} {s : Disk} (hrun : perform ans device plan a = (.ok cmdline, s))
    (hmounts : s.mounts = []) : Written ans device plan a cmdline s := by
  have houtcome := outcome_of_triple (@writeDisk_written ans device plan a) (s := {})
    ⟨rfl, rfl⟩
  unfold perform at hrun
  cases hdisk : writeDisk ans device plan a {} with
  | ok shown s' =>
    rw [hdisk] at hrun houtcome
    dsimp only at hrun houtcome
    obtain ⟨hshown, hs⟩ := Prod.mk.inj hrun
    obtain rfl := Except.ok.inj hshown
    subst hs
    have hsame : Contents s'.esp (.ok s'.root) s' := ⟨rfl, rfl⟩
    have hkept := @dropGuards_contents ans _ _ _ hsame s'.guards
    have hnone : (dropGuards ans s'.guards s').mounts = [] := hmounts
    have hesp : (finish ans s').esp = s'.esp := by
      rw [finish, removeWorkdir, hnone]
      exact hkept.esp
    have hroot : (finish ans s').root = s'.root := by
      rw [finish, removeWorkdir, hnone]
      exact (Except.ok.inj hkept.root).symm
    exact ⟨houtcome.filled, hroot ▸ houtcome.root, hesp ▸ houtcome.esp, hesp ▸ houtcome.checked⟩
  | error e s' =>
    rw [hdisk] at hrun
    cases hrun

end Steps

/-! ### What is booted from it -/

theorem checkFile_ok {ans : WriteAnswers} {files : Files} {label path expected : Text} {u : Unit}
    (h : checkFile ans files label path expected = .ok u) :
    ∃ data, files path = some data ∧ eqIgnoreAsciiCase (ans.sha256 data) expected = true := by
  unfold checkFile at h
  split at h
  case h_1 => cases h
  case h_2 data hdata =>
    split at h
    · exact ⟨data, hdata, ‹_›⟩
    · cases h

/-- The file on the boot partition with a digest. -/
def HasDigest (ans : WriteAnswers) (s : Disk) (path sha : Text) : Prop :=
  ∃ data, s.esp path = some data ∧ eqIgnoreAsciiCase (ans.sha256 data) sha = true

/-- The command line on the boot partition, read by the bootloader and the initramfs. -/
def bootedRoot (s : Disk) : Option Boot.RootSpec :=
  (s.esp cmdlineFile).bind fun data => (Boot.parse (fullCmdline data)).rootSpec

theorem espFiles_cmdline (ans : WriteAnswers) (a : ResolvedArtifacts) (cmdline : Text) :
    espFiles ans a cmdline cmdlineFile = some (fileBytes cmdline) := by
  rw [espFiles, Function.update_self]

/-- **What a complete installation boots.**  When nothing is left mounted, the kernel, the initramfs
and the bootloader on the device have the digests of the manifest, the system is the one unpacked
and set up for the plan, and, where the device has kept the command line, the initramfs searches the
root file system that was made. -/
theorem installed_boots {ans : WriteAnswers} {device : Text} {plan : InstallationPlan}
    {a : ResolvedArtifacts} {cmdline : Text} {s : Disk}
    (hrun : perform ans device plan a = (.ok cmdline, s)) (hmounts : s.mounts = []) :
    (HasDigest ans s kernelFile a.kernelSha ∧ HasDigest ans s initramfsFile a.initramfsSha ∧
      HasDigest ans s bootloaderFile a.bootloaderSha) ∧
    (∃ workdir, ans.tempdir = .ok workdir ∧
      installedRoot ans plan a.sysroot workdir = .ok s.root) ∧
    ∃ rootUuid, readExt4Uuid ans (partitionPaths device).2 = .ok rootUuid ∧
      ((∀ files, ans.medium files cmdlineFile = files cmdlineFile) → Boot.Fills rootUuid →
        '\x00' ∉ cmdline →
        ((words Svc.isWhitespace a.cmdlineTemplate).filter
          ("root=".toList.isPrefixOf ·)).getLast? = some "root=UUID=__ROOT_UUID__".toList →
        bootedRoot s = some (.uuid rootUuid)) := by
  have hwritten := perform_written hrun hmounts
  obtain ⟨u, hkernel, hrest⟩ := bind_eq_ok.mp hwritten.checked
  obtain ⟨u', hinitramfs, hbootloader⟩ := bind_eq_ok.mp hrest
  refine ⟨⟨checkFile_ok hkernel, checkFile_ok hinitramfs, checkFile_ok hbootloader⟩,
    hwritten.root, ?_⟩
  obtain ⟨rootUuid, huuid, hcmdline⟩ := hwritten.filled
  refine ⟨rootUuid, huuid, fun hkept hfills hnul hlast => ?_⟩
  have hfile : s.esp cmdlineFile = some (fileBytes cmdline) := by
    rw [hwritten.esp, hkept, espFiles_cmdline]
  rw [bootedRoot, hfile, Option.bind_some, Boot.parse_fullCmdline hnul, hcmdline]
  exact Boot.parse_formatCmdline_rootSpec hfills hlast

/-! ### A small system on a stick -/

def unpackedTree : Option FileTree := do
  let tree ← FileTree.bare.makeDirs [] "w/root/etc".toList
  let tree ← tree.makeDirs [] "w/root/home/writeonce".toList
  let tree ← tree.write ["w".toList, "root".toList, "etc".toList, "passwd".toList]
    Customize.stagedPasswd
  let tree ← tree.write ["w".toList, "root".toList, "etc".toList, "shadow".toList]
    Customize.stagedShadow
  let tree ← tree.write ["w".toList, "root".toList, "etc".toList, "group".toList]
    Customize.stagedGroup
  tree.write ["w".toList, "root".toList, "home".toList, "writeonce".toList, ".xinitrc".toList]
    Customize.stagedXinitrc

def stickAnswers : WriteAnswers where
  exit _ := .success
  umounts _ := .success
  blkid := (.success, "1c0e-7f\n".toList)
  tempdir := .ok "/w".toList
  createDirs _ := true
  unpack _ := Customize.orFail "tar::Archive::unpack".toList unpackedTree
  day := 19700
  artifact path := some (fileBytes path)
  writes _ := true
  sha256 data := if data.size = 0 then [] else digestOne
  medium files := files
  spared files := files
  remains tree := tree

def stickArtifacts : ResolvedArtifacts :=
  bundle.resolve "root=UUID=__ROOT_UUID__ rw quiet".toList "/out".toList

def stickPlan : InstallationPlan := planOf headlessSpec (acceptAll.values headlessSpec) hashOne true

def freshStick : Except Failure Text × Disk :=
  perform stickAnswers "/dev/sdb".toList stickPlan stickArtifacts

/-- The same, with an archive that cannot be unpacked. -/
def brokenStick : Except Failure Text × Disk :=
  perform { stickAnswers with unpack := fun _ => .error "tar::Archive::unpack".toList }
    "/dev/sdb".toList stickPlan stickArtifacts

theorem stick_complete : freshStick.1 = .ok "root=UUID=1c0e-7f rw quiet".toList := by
  decide +kernel

theorem stick_mounts : freshStick.2.mounts = [] := by
  decide +kernel

theorem unmounted_perform_broken :
    brokenStick.1 = .error "tar::Archive::unpack".toList ∧ brokenStick.2.mounts = [] :=
  ⟨by decide +kernel, unmounted_perform (Prod.mk.eta (p := brokenStick)).symm fun _ _ => rfl⟩

theorem installed_boots_stick : bootedRoot freshStick.2 = some (.uuid "1c0e-7f".toList) := by
  have hrun : freshStick = (.ok "root=UUID=1c0e-7f rw quiet".toList, freshStick.2) :=
    Prod.ext stick_complete rfl
  have huuid (device : Text) : readExt4Uuid stickAnswers device = .ok "1c0e-7f".toList := rfl
  obtain ⟨rootUuid, hread, hboots⟩ := (installed_boots hrun stick_mounts).2.2
  obtain rfl : "1c0e-7f".toList = rootUuid := Except.ok.inj ((huuid _).symm.trans hread)
  have hfills : Boot.Fills "1c0e-7f".toList :=
    ⟨free_of_all (by decide), '1', "c0e-7f".toList, rfl, by decide⟩
  have hkept : ∀ files, stickAnswers.medium files cmdlineFile = files cmdlineFile := fun _ => rfl
  have hnul : '\x00' ∉ "root=UUID=1c0e-7f rw quiet".toList := by decide
  have hlast : ((words Svc.isWhitespace stickArtifacts.cmdlineTemplate).filter
      ("root=".toList.isPrefixOf ·)).getLast? = some "root=UUID=__ROOT_UUID__".toList := by
    decide +kernel
  exact hboots hkept hfills hnul hlast

end WriteonceOs.Installer
