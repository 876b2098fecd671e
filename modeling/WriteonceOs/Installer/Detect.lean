import WriteonceOs.Installer.Spec
import WriteonceOs.Library.Decimal
import WriteonceOs.Library.Lines
import WriteonceOs.Library.Words
import WriteonceOs.Svc.Config

/-!
# Block devices

The devices under `/sys/block`, the names of their partitions, and the check that keeps the
installer from a device that is in use.

* `safetyCheck` — what is refused;
* `prefix_source` — a line begins with a name and a blank when that name is mounted;
* `safetyCheck_mounted` — the mounts that the check sees;
* `mounted_refused_iff` — when no mounted partition is missed.
-/

namespace WriteonceOs.Installer

open WriteonceOs.Library
open WriteonceOs.Svc (IoError isWhitespace trim parseU64)

structure UsbDevice where
  path : Text
  sizeBytes : UInt64
  vendor : Text
  model : Text
  removable : Bool
  deriving DecidableEq, Repr

/-- The files of a directory of `/sys/block`, those that can be read. -/
structure BlockDir where
  removable : Option Text
  size : Option Text
  vendor : Option Text
  model : Option Text
  deriving DecidableEq, Repr

/-- What the kernel says about the devices of the host. -/
structure Host where
  blockNames : Except IoError (List Text)
  blockDir : Text → Option BlockDir
  deviceExists : Text → Bool
  mounts : Except IoError Text

/-! ### Looking devices up -/

def readOne (dir : BlockDir) (name : Text) : Option UsbDevice := do
  let sectors ← parseU64 (trim (← dir.size))
  pure
    { path := "/dev/".toList ++ name
      -- the product wraps, as it does in a release build
      sizeBytes := UInt64.ofNat sectors * 512
      vendor := (dir.vendor.map trim).getD []
      model := (dir.model.map trim).getD []
      removable := dir.removable.map trim = some ['1'] }

/-- Devices that are no disks. -/
def isSkipped (name : Text) : Bool :=
  ["ram", "loop", "dm-", "sr", "zram"].any fun p => p.toList.isPrefixOf name

def Host.readDevice (host : Host) (name : Text) : Option UsbDevice :=
  (host.blockDir name).bind fun dir => readOne dir name

def listRemovable (host : Host) : Except Failure (List UsbDevice) :=
  match host.blockNames with
  | .error _ => .error "read /sys/block — is /sys mounted?".toList
  | .ok names =>
    let found := (names.filter fun name => !isSkipped name).filterMap host.readDevice
    .ok ((found.filter UsbDevice.removable).insertionSort
      fun a b => String.ofList a.path ≤ String.ofList b.path)

/-- `Path::file_name`: the last component, unless it leads upwards. -/
def fileName (path : Text) : Option Text :=
  match ((path.splitOnP (· = '/')).filter fun c => c ≠ [] ∧ c ≠ ['.']).getLast? with
  | none => none
  | some c => if c = ['.', '.'] then none else some c

example : fileName "/dev/sdb/".toList = some "sdb".toList := by decide

def lookup (host : Host) (path : Text) : Option UsbDevice :=
  (fileName path).bind host.readDevice

/-! ### The check -/

/-- What a line of `/proc/mounts` has to begin with. -/
def checkedNames (device : Text) : List Text := [device, device ++ ['1'], device ++ ['2']]

def isMounted (device line : Text) : Bool :=
  (checkedNames device).any fun name => (name ++ [' ']).isPrefixOf line

def safetyCheck (host : Host) (device : UsbDevice) : Except Failure Unit :=
  if host.deviceExists device.path = false then
    .error ("device ".toList ++ device.path ++ " does not exist".toList)
  else if device.removable = false then
    .error ("device ".toList ++ device.path ++
      " is NOT marked removable. Refusing to overwrite ".toList ++
      "— pass --force-non-removable if you really mean this".toList)
  else match host.mounts with
    | .error _ => .error "read /proc/mounts".toList
    | .ok mounts =>
      if (lines mounts).any (isMounted device.path) then
        .error ("device ".toList ++ device.path ++
          " or one of its partitions is currently mounted. ".toList ++
          "unmount before installing.".toList)
      else .ok ()

/-! ### Partitions -/

def endsInDigit (device : Text) : Bool := device.getLast?.any Char.isDigit

/-- The name of partition `n`: devices that end in a digit have a letter before the number. -/
def partitionName (device : Text) (n : ℕ) : Text :=
  if endsInDigit device then device ++ 'p' :: decimal n else device ++ decimal n

/-- The boot partition and the root partition. -/
def partitionPaths (device : Text) : Text × Text :=
  (partitionName device 1, partitionName device 2)

example : partitionPaths "/dev/nvme0n1".toList =
    ("/dev/nvme0n1p1".toList, "/dev/nvme0n1p2".toList) := by
  decide

/-! ### Mounts -/

/-- The first field of a line of `/proc/mounts`. -/
def mountSource (line : Text) : Option Text :=
  if ' ' ∈ line then some (line.takeWhile (· ≠ ' ')) else none

theorem blank_not_mem_mountSource {line name : Text} (h : mountSource line = some name) :
    ' ' ∉ name := by
  unfold mountSource at h
  split at h
  · obtain rfl := Option.some.inj h
    intro hmem
    simpa using List.mem_takeWhile_imp hmem
  · cases h

/-- A line begins with a name and a blank when that name is its source. -/
theorem prefix_source {name : Text} (h : ' ' ∉ name) (line : Text) :
    (name ++ [' ']).isPrefixOf line = true ↔ mountSource line = some name := by
  have hne : ∀ c ∈ name, decide (c ≠ ' ') = true := by
    intro c hc
    have hblank : c ≠ ' ' := fun heq => h (heq ▸ hc)
    simpa using hblank
  rw [List.isPrefixOf_iff_prefix]
  constructor
  · rintro ⟨rest, rfl⟩
    have htake : (name ++ [' '] ++ rest).takeWhile (· ≠ ' ') = name := by
      rw [List.append_assoc, List.takeWhile_append_of_pos hne]
      simp
    rw [mountSource, if_pos (by simp), htake]
  · intro hsource
    unfold mountSource at hsource
    split at hsource
    case isFalse => cases hsource
    case isTrue hmem =>
      have htake := Option.some.inj hsource
      cases hdrop : line.dropWhile (· ≠ ' ') with
      | nil =>
        have hall := List.dropWhile_eq_nil_iff.mp hdrop ' ' hmem
        simp at hall
      | cons c rest =>
        have hc : c = ' ' := by
          have hhead := List.head?_dropWhile_not (fun c => decide (c ≠ ' ')) line
          rw [hdrop] at hhead
          simpa using hhead
        subst hc
        refine ⟨rest, ?_⟩
        rw [← htake, List.append_assoc]
        exact (congrArg _ hdrop.symm).trans List.takeWhile_append_dropWhile

section Mounted

variable {host : Host} {device : UsbDevice} {mounts : Text}

/-- The sources that belong to a device: itself and its partitions. -/
def OfDevice (device source : Text) : Prop :=
  source = device ∨ ∃ n, 1 ≤ n ∧ source = partitionName device n

/-- The device or one of its partitions is mounted. -/
def InUse (device mounts : Text) : Prop :=
  ∃ line ∈ lines mounts, ∃ source, mountSource line = some source ∧ OfDevice device source

/-- A name that the check looks for is mounted. -/
def CheckedInUse (device mounts : Text) : Prop :=
  ∃ line ∈ lines mounts, ∃ name ∈ checkedNames device, mountSource line = some name

theorem safetyCheck_error_iff (hexists : host.deviceExists device.path = true)
    (hremovable : device.removable = true) (hmounts : host.mounts = .ok mounts) :
    (∃ e, safetyCheck host device = .error e) ↔
      ∃ line ∈ lines mounts, isMounted device.path line = true := by
  unfold safetyCheck
  rw [if_neg (by simp [hexists]), if_neg (by simp [hremovable]), hmounts]
  simp only [← List.any_eq_true]
  split
  case isTrue h => exact iff_of_true ⟨_, rfl⟩ h
  case isFalse h => exact iff_of_false (fun ⟨_, he⟩ => by cases he) h

theorem isMounted_of_source {line name : Text} (hname : name ∈ checkedNames device.path)
    (h : mountSource line = some name) : isMounted device.path line = true :=
  List.any_eq_true.mpr ⟨name, hname, (prefix_source (blank_not_mem_mountSource h) line).mpr h⟩

/-- **The mounts that the check sees**, for a path without blanks. -/
theorem safetyCheck_mounted (hexists : host.deviceExists device.path = true)
    (hremovable : device.removable = true) (hmounts : host.mounts = .ok mounts)
    (hblank : ' ' ∉ device.path) :
    (∃ e, safetyCheck host device = .error e) ↔ CheckedInUse device.path mounts := by
  rw [safetyCheck_error_iff hexists hremovable hmounts]
  refine exists_congr fun line => and_congr_right fun _ => ?_
  rw [isMounted, List.any_eq_true]
  refine exists_congr fun name => and_congr_right fun hname => prefix_source ?_ line
  simp only [checkedNames, List.mem_cons, List.not_mem_nil, or_false] at hname
  rcases hname with rfl | rfl | rfl
  · exact hblank
  · simpa using hblank
  · simpa using hblank

theorem blank_not_mem_of_partitionName {path : Text} {n : ℕ} (h : ' ' ∉ partitionName path n) :
    ' ' ∉ path := by
  unfold partitionName at h
  split at h
  · exact fun hmem => h (List.mem_append_left _ hmem)
  · exact fun hmem => h (List.mem_append_left _ hmem)

/-- The first two partitions of a device that does not end in a digit are looked for. -/
theorem partitionName_checked {path : Text} {n : ℕ} (hdigit : endsInDigit path = false)
    (h1 : 1 ≤ n) (h2 : n ≤ 2) : partitionName path n ∈ checkedNames path := by
  rw [partitionName, hdigit]
  obtain rfl | rfl : n = 1 ∨ n = 2 := by omega
  · exact List.mem_cons_of_mem _ List.mem_cons_self
  · exact List.mem_cons_of_mem _ (List.mem_cons_of_mem _ List.mem_cons_self)

/-- **A device in use is refused** exactly when a name is mounted that the check looks for, or no
partition is mounted but the first two of a device that does not end in a digit. -/
theorem mounted_refused_iff (hexists : host.deviceExists device.path = true)
    (hremovable : device.removable = true) (hmounts : host.mounts = .ok mounts) :
    (InUse device.path mounts → ∃ e, safetyCheck host device = .error e) ↔
      CheckedInUse device.path mounts ∨
        ∀ line ∈ lines mounts, ∀ n, 1 ≤ n → mountSource line = some (partitionName device.path n) →
          endsInDigit device.path = false ∧ n ≤ 2 := by
  have hrefused : CheckedInUse device.path mounts → ∃ e, safetyCheck host device = .error e := by
    rintro ⟨line, hline, name, hname, hsource⟩
    rw [safetyCheck_error_iff hexists hremovable hmounts]
    exact ⟨line, hline, isMounted_of_source hname hsource⟩
  constructor
  · intro h
    refine or_iff_not_imp_left.mpr fun hnone line hline n hn hsource => ?_
    have hblank := blank_not_mem_of_partitionName (blank_not_mem_mountSource hsource)
    have herror := h ⟨line, hline, _, hsource, .inr ⟨n, hn, rfl⟩⟩
    exact absurd ((safetyCheck_mounted hexists hremovable hmounts hblank).mp herror) hnone
  · rintro (hchecked | hfirst) ⟨line, hline, source, hsource, hof⟩
    · exact hrefused hchecked
    · refine hrefused ⟨line, hline, source, ?_, hsource⟩
      rcases hof with rfl | ⟨n, hn, rfl⟩
      · exact List.mem_cons_self
      · obtain ⟨hdigit, hn2⟩ := hfirst line hline n hn hsource
        exact partitionName_checked hdigit hn hn2

end Mounted

/-! ### A mounted third partition -/

/-- A host with one stick and the given mounts. -/
def stickHost (mounts : String) : Host where
  blockNames := .ok ["sdb".toList]
  blockDir := fun name =>
    if name = "sdb".toList then
      some ⟨some "1\n".toList, some "60000000\n".toList, some "Kingston\n".toList, none⟩
    else none
  deviceExists := fun path => path = "/dev/sdb".toList
  mounts := .ok mounts.toList

def stick : UsbDevice where
  path := "/dev/sdb".toList
  sizeBytes := 30720000000
  vendor := "Kingston".toList
  model := []
  removable := true

example : lookup (stickHost "") "/dev/sdb".toList = some stick := by decide

theorem third_partition_missed :
    InUse stick.path "/dev/sdb3 /mnt ext4 rw 0 0\n".toList ∧
      safetyCheck (stickHost "/dev/sdb3 /mnt ext4 rw 0 0\n") stick = .ok () := by
  refine ⟨⟨"/dev/sdb3 /mnt ext4 rw 0 0".toList, by decide, "/dev/sdb3".toList, by decide, .inr ?_⟩,
    by decide⟩
  exact ⟨3, by decide, by decide⟩

theorem mounted_refused_iff_stick :
    ∃ e, safetyCheck (stickHost "/dev/sdb2 /mnt ext4 rw 0 0\n") stick = .error e := by
  have hsource : mountSource "/dev/sdb2 /mnt ext4 rw 0 0".toList = some "/dev/sdb2".toList := by
    decide
  refine (mounted_refused_iff (by decide) (by decide) rfl).mpr
    (.inl ⟨_, by decide, _, by decide, hsource⟩) ?_
  exact ⟨_, by decide, _, hsource, .inr ⟨2, by decide, by decide⟩⟩

end WriteonceOs.Installer
