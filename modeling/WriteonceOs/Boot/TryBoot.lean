import WriteonceOs.Boot.CmdLine
import WriteonceOs.Library.Dialogue
import WriteonceOs.Library.Utf16
import Mathlib.Algebra.GroupWithZero.Nat

/-!
# The run of the bootloader

The bootloader opens the partition that it was loaded from, reads the command line, looks for the
kernel and the initramfs, has the firmware load the kernel from the same partition, and starts it
with the command line as UTF-16.  An error on the way halts it.  The answers of the firmware are
arguments; it may return a file in pieces of any size.  What is logged is left out.

* `readFull` — a file, piece by piece; `readFull_all` — that the pieces do not matter;
* `kernelPath_ok` — where the kernel is loaded from;
* `starts_iff` — when the kernel is started, and with what.
-/

namespace WriteonceOs.Boot

open WriteonceOs.Library
open WriteonceOs.Library.Utf16 (encode decode)

/-! ### The firmware -/

inductive Status where
  | unsupported
  | invalidParameter
  | outOfResources
  | aborted
  | other (code : ℕ)
  deriving DecidableEq, Repr

/-- A file of the partition, its size as the firmware tells it, and the sizes of the pieces that
the reads return. -/
structure EspFile where
  -- whether it is a file, and no directory
  regular : Bool := true
  info : Except Status ℕ
  data : List UInt8
  reads : List (Except Status ℕ) := []

/-- A node of a device path. -/
inductive PathNode where
  | file (path : Text)
  | other (bytes : List UInt8)
  deriving DecidableEq, Repr

structure Firmware where
  -- the device that the bootloader was loaded from
  openSelf : Except Status (Option ℕ)
  openFs : Option Status := none
  openVolume : Option Status := none
  openFile : Text → Except Status EspFile
  ownPath : Except Status (List PathNode)
  -- whether a device path of that length can be built
  fits : ℕ → Bool := fun _ => true
  loadImage : List PathNode → Option Status := fun _ => none
  openKernel : Option Status := none
  -- what `StartImage` returns, if it does: nothing, or an error
  startImage : Option (Option Status) := none

def kernelFile : Text := "EFI\\WriteOnce\\bzImage".toList

def cmdlineFile : Text := "EFI\\WriteOnce\\cmdline.txt".toList

/-! ### Reading -/

/-- `read_full`: the bytes that the reads put into a buffer with so much room left. -/
def readFull : List (Except Status ℕ) → List UInt8 → ℕ → Except Status (List UInt8)
  | [], _, _ => .ok []
  | answer :: reads, data, left =>
    if left = 0 then .ok []
    else
      match answer with
      | .error status => .error status
      | .ok n =>
        let piece := data.take (min n left)
        if piece = [] then .ok []
        else do
          let more ← readFull reads (data.drop piece.length) (left - piece.length)
          .ok (piece ++ more)

def openPath (fw : Firmware) (path : Text) : Except Status EspFile := do
  let file ← fw.openFile path
  if file.regular then .ok file else .error .invalidParameter

/-- The bytes of a file; where the reads end early the buffer stays zero. -/
def readFile (fw : Firmware) (path : Text) : Except Status (List UInt8) := do
  let file ← openPath fw path
  let size ← file.info
  let bytes ← readFull file.reads file.data size
  .ok (bytes ++ List.replicate (size - bytes.length) 0)

def readFileSize (fw : Firmware) (path : Text) : Except Status ℕ := do
  let file ← openPath fw path
  file.info

/-! ### The kernel -/

/-- The nodes before the first one of a file. -/
def devicePart : List PathNode → List PathNode
  | [] => []
  | .file _ :: _ => []
  | .other bytes :: nodes => .other bytes :: devicePart nodes

/-- `build_kernel_device_path`. -/
def kernelPath (fw : Firmware) : Except Status (List PathNode) := do
  let nodes ← fw.ownPath
  let path := devicePart nodes ++ [.file ('\\' :: kernelFile)]
  if fw.fits path.length then .ok path else .error .outOfResources

/-! ### The run -/

/-- A step that ended the run, and its status. -/
abbrev Failed := String × Status

def orStep {α : Type} (step : String) : Except Status α → Except Failed α
  | .ok a => .ok a
  | .error status => .error (step, status)

def check (step : String) : Option Status → Except Failed Unit
  | none => .ok ()
  | some status => .error (step, status)

/-- The device path of the kernel and its load options. -/
structure Start where
  path : List PathNode
  options : List UInt16
  deriving DecidableEq, Repr

/-- Steps 1 to 6; that the initramfs is missing is only a warning. -/
def prepare (fw : Firmware) : Except Failed Start := do
  let device ← orStep "open LoadedImage(self)" fw.openSelf
  check "loaded image has no device" (if device.isNone then some .unsupported else none)
  check "open SimpleFileSystem (boot device has no ESP?)" fw.openFs
  check "open ESP root volume" fw.openVolume
  let cmdline ← orStep "read \\EFI\\WriteOnce\\cmdline.txt" (readFile fw cmdlineFile)
  let line := fullCmdline ⟨cmdline.toArray⟩
  let _ ← orStep "verify \\EFI\\WriteOnce\\bzImage" (readFileSize fw kernelFile)
  let path ← orStep "build kernel DevicePath" (kernelPath fw)
  check "LoadImage(FromDevicePath) bzImage" (fw.loadImage path)
  check "open LoadedImage(kernel)" fw.openKernel
  .ok ⟨path, encode line ++ [0]⟩

/-- How the run ends: in the kernel, or halted. -/
inductive BootEnd where
  | running (start : Start)
  | halted (failed : Failed)
  deriving DecidableEq, Repr

def tryBoot (fw : Firmware) : Option Start × BootEnd :=
  match prepare fw with
  | .error failed => (none, .halted failed)
  | .ok start =>
    match fw.startImage with
    | none => (some start, .running start)
    | some status =>
      (some start,
        .halted ("start_image returned (kernel rejected image)", status.getD .aborted))

/-! ### Pieces of a file -/

/-- **The pieces do not matter**, as long as they come to the whole of it. -/
theorem readFull_all {pieces : List ℕ} {data : List UInt8} {left : ℕ}
    (hpieces : ∀ n ∈ pieces, 0 < n) (hsum : left ≤ pieces.sum) (hdata : left ≤ data.length) :
    readFull (pieces.map .ok) data left = .ok (data.take left) := by
  induction pieces generalizing data left with
  | nil =>
    obtain rfl : left = 0 := Nat.le_zero.mp hsum
    rfl
  | cons n pieces ih =>
    obtain ⟨hn, hpieces⟩ := List.forall_mem_cons.mp hpieces
    rw [List.map_cons, readFull]
    split
    case isTrue hleft => rw [hleft, List.take_zero]
    case isFalse hleft =>
      have hlength : (data.take (min n left)).length = min n left := by
        rw [List.length_take]
        omega
      have hpiece : data.take (min n left) ≠ [] := by
        intro hnil
        rw [hnil, List.length_nil] at hlength
        omega
      rw [List.sum_cons] at hsum
      dsimp only
      rw [if_neg hpiece, hlength, ih hpieces (by omega) (by rw [List.length_drop]; omega)]
      show Except.ok (data.take (min n left) ++ (data.drop (min n left)).take _) = _
      congr 1
      rw [← List.take_add]
      congr 1
      omega

/-- A file that the firmware delivers, in pieces of any size. -/
structure EspFile.Delivers (file : EspFile) (pieces : List ℕ) : Prop where
  regular : file.regular = true
  info : file.info = .ok file.data.length
  reads : file.reads = pieces.map .ok
  nonzero : ∀ n ∈ pieces, 0 < n
  whole : file.data.length ≤ pieces.sum

theorem readFile_of_delivers {fw : Firmware} {path : Text} {file : EspFile} {pieces : List ℕ}
    (hopen : fw.openFile path = .ok file) (h : file.Delivers pieces) :
    readFile fw path = .ok file.data := by
  have hpath : openPath fw path = .ok file :=
    bind_eq_ok.mpr ⟨file, hopen, if_pos h.regular⟩
  refine bind_eq_ok.mpr ⟨file, hpath, bind_eq_ok.mpr ⟨_, h.info, bind_eq_ok.mpr
    ⟨file.data, ?_, ?_⟩⟩⟩
  · rw [h.reads, readFull_all h.nonzero h.whole le_rfl, List.take_length]
  · rw [Nat.sub_self, List.replicate_zero, List.append_nil]

/-! ### The path of the kernel -/

/-- The device part is what comes before the first file. -/
theorem devicePart_spec (nodes : List PathNode) :
    ∃ rest, nodes = devicePart nodes ++ rest ∧
      (∀ node ∈ devicePart nodes, ∀ path, node ≠ .file path) ∧
      ∀ node ∈ rest.head?, ∃ path, node = .file path := by
  induction nodes with
  | nil => exact ⟨[], rfl, nofun, nofun⟩
  | cons node nodes ih =>
    cases node with
    | file path =>
      refine ⟨.file path :: nodes, rfl, nofun, fun node hnode => ⟨path, ?_⟩⟩
      exact (Option.some.inj hnode).symm
    | other bytes =>
      obtain ⟨rest, hnodes, hdevice, hrest⟩ := ih
      refine ⟨rest, congrArg _ hnodes, ?_, hrest⟩
      exact List.forall_mem_cons.mpr ⟨nofun, hdevice⟩

/-! ### The start -/

theorem orStep_ok {α : Type} {step : String} {x : Except Status α} {a : α} :
    orStep step x = .ok a ↔ x = .ok a := by
  cases x with
  | error status => exact iff_of_false nofun nofun
  | ok b => simp [orStep]

theorem check_ok {step : String} {error : Option Status} {u : Unit} :
    check step error = .ok u ↔ error = none := by
  cases error with
  | none => exact iff_of_true rfl rfl
  | some status => exact iff_of_false nofun nofun

theorem kernelPath_ok {fw : Firmware} {path : List PathNode} : kernelPath fw = .ok path ↔
    ∃ nodes, fw.ownPath = .ok nodes ∧ fw.fits path.length = true ∧
      path = devicePart nodes ++ [.file ('\\' :: kernelFile)] := by
  rw [kernelPath, bind_eq_ok]
  constructor
  · intro h
    obtain ⟨nodes, hnodes, h⟩ := h
    dsimp only at h
    split at h
    · cases h
      exact ⟨nodes, hnodes, ‹_›, rfl⟩
    · cases h
  · intro h
    obtain ⟨nodes, hnodes, hfits, rfl⟩ := h
    exact ⟨nodes, hnodes, if_pos hfits⟩

/-- What the firmware has to answer before the kernel is started. -/
structure Ready (fw : Firmware) (cmdline : List UInt8) (path : List PathNode) : Prop where
  device : ∃ device, fw.openSelf = .ok (some device)
  fs : fw.openFs = none
  volume : fw.openVolume = none
  read : readFile fw cmdlineFile = .ok cmdline
  kernel : ∃ size, readFileSize fw kernelFile = .ok size
  built : kernelPath fw = .ok path
  loaded : fw.loadImage path = none
  opened : fw.openKernel = none

theorem prepare_ok {fw : Firmware} {start : Start} : prepare fw = .ok start ↔
    ∃ cmdline path, Ready fw cmdline path ∧
      start = ⟨path, encode (fullCmdline ⟨cmdline.toArray⟩) ++ [0]⟩ := by
  constructor
  · intro h
    obtain ⟨device, hself, h⟩ := bind_eq_ok.mp h
    obtain ⟨_, hdevice, h⟩ := bind_eq_ok.mp h
    obtain ⟨_, hfs, h⟩ := bind_eq_ok.mp h
    obtain ⟨_, hvolume, h⟩ := bind_eq_ok.mp h
    obtain ⟨cmdline, hcmdline, h⟩ := bind_eq_ok.mp h
    obtain ⟨size, hkernel, h⟩ := bind_eq_ok.mp h
    obtain ⟨path, hpath, h⟩ := bind_eq_ok.mp h
    obtain ⟨_, hload, h⟩ := bind_eq_ok.mp h
    obtain ⟨_, hopened, h⟩ := bind_eq_ok.mp h
    cases h
    refine ⟨cmdline, path, ⟨?_, check_ok.mp hfs, check_ok.mp hvolume, orStep_ok.mp hcmdline,
      ⟨size, orStep_ok.mp hkernel⟩, orStep_ok.mp hpath, check_ok.mp hload, check_ok.mp hopened⟩,
      rfl⟩
    cases device with
    | none => cases hdevice
    | some device => exact ⟨device, orStep_ok.mp hself⟩
  · intro h
    obtain ⟨cmdline, path, hready, rfl⟩ := h
    obtain ⟨device, hself⟩ := hready.device
    obtain ⟨size, hkernel⟩ := hready.kernel
    exact bind_eq_ok.mpr ⟨some device, orStep_ok.mpr hself, bind_eq_ok.mpr ⟨(), rfl,
      bind_eq_ok.mpr ⟨(), check_ok.mpr hready.fs, bind_eq_ok.mpr ⟨(), check_ok.mpr hready.volume,
      bind_eq_ok.mpr ⟨cmdline, orStep_ok.mpr hready.read, bind_eq_ok.mpr ⟨size,
      orStep_ok.mpr hkernel, bind_eq_ok.mpr ⟨path, orStep_ok.mpr hready.built, bind_eq_ok.mpr ⟨(),
      check_ok.mpr hready.loaded, bind_eq_ok.mpr ⟨(), check_ok.mpr hready.opened, rfl⟩⟩⟩⟩⟩⟩⟩⟩⟩

theorem tryBoot_start {fw : Firmware} {start : Start} :
    (tryBoot fw).1 = some start ↔ prepare fw = .ok start := by
  unfold tryBoot
  split
  case h_1 failed hfailed => exact iff_of_false nofun (fun h => nomatch hfailed.symm.trans h)
  case h_2 start' hstart =>
    rw [hstart]
    split
    · simp
    · simp

/-- **What the kernel is started with.**  It is started exactly when the firmware has answered all
that is needed.  The path is that of the bootloader's own device, up to its first file, and then the
kernel; and the options decode to the line that is made of what was read as the command line, and a
NUL.  A file that the firmware delivers is read as it is, in whatever pieces. -/
theorem starts_iff (fw : Firmware) :
    ((∃ start, (tryBoot fw).1 = some start) ↔ ∃ cmdline path, Ready fw cmdline path) ∧
    ∀ start, (tryBoot fw).1 = some start →
      (∃ device rest, fw.ownPath = .ok (device ++ rest) ∧
        start.path = device ++ [.file ('\\' :: kernelFile)] ∧
        (∀ node ∈ device, ∀ path, node ≠ .file path) ∧
        ∀ node ∈ rest.head?, ∃ path, node = .file path) ∧
      ∃ cmdline, readFile fw cmdlineFile = .ok cmdline ∧
        decode start.options = some (fullCmdline ⟨cmdline.toArray⟩ ++ ['\x00']) ∧
        ∀ file pieces, fw.openFile cmdlineFile = .ok file → file.Delivers pieces →
          cmdline = file.data := by
  refine ⟨⟨fun h => ?_, fun h => ?_⟩, fun start hstart => ?_⟩
  · obtain ⟨start, hstart⟩ := h
    obtain ⟨cmdline, path, hready, -⟩ := prepare_ok.mp (tryBoot_start.mp hstart)
    exact ⟨cmdline, path, hready⟩
  · obtain ⟨cmdline, path, hready⟩ := h
    exact ⟨_, tryBoot_start.mpr (prepare_ok.mpr ⟨_, _, hready, rfl⟩)⟩
  · obtain ⟨cmdline, path, hready, rfl⟩ := prepare_ok.mp (tryBoot_start.mp hstart)
    refine ⟨?_, cmdline, hready.read, ?_, fun file pieces hopen hfile => ?_⟩
    · obtain ⟨nodes, hnodes, -, hpath⟩ := kernelPath_ok.mp hready.built
      obtain ⟨rest, hsplit, hdevice, hrest⟩ := devicePart_spec nodes
      exact ⟨devicePart nodes, rest, hsplit ▸ hnodes, hpath, hdevice, hrest⟩
    · rw [Utf16.decode_encode_append]
      rfl
    · exact Except.ok.inj (hready.read.symm.trans (readFile_of_delivers hopen hfile))

/-- The line `root=LÜ` in three pieces, the character that is not ASCII cut in two. -/
def cutFile : EspFile where
  info := .ok 8
  data := [0x72, 0x6f, 0x6f, 0x74, 0x3d, 0x4c, 0xc3, 0x9c]
  reads := [3, 4, 9].map .ok

def cutFirmware : Firmware where
  openSelf := .ok (some 1)
  openFile _ := .ok cutFile
  ownPath := .ok [.other [2, 1], .file "\\EFI\\BOOT\\BOOTX64.EFI".toList]

theorem starts_iff_cut : ∃ start, (tryBoot cutFirmware).1 = some start ∧
    decode start.options = some "root=LÜ initrd=\\EFI\\WriteOnce\\initramfs.img\x00".toList := by
  have hfile : cutFile.Delivers [3, 4, 9] := ⟨rfl, by decide, rfl, by decide, by decide⟩
  have hready : Ready cutFirmware cutFile.data
      [.other [2, 1], .file "\\EFI\\WriteOnce\\bzImage".toList] :=
    ⟨⟨1, rfl⟩, rfl, rfl, readFile_of_delivers rfl hfile, ⟨8, rfl⟩, rfl, rfl, rfl⟩
  obtain ⟨hiff, hall⟩ := starts_iff cutFirmware
  obtain ⟨start, hstart⟩ := hiff.mpr ⟨_, _, hready⟩
  obtain ⟨-, cmdline, -, hoptions, hread⟩ := hall start hstart
  obtain rfl := hread cutFile [3, 4, 9] rfl hfile
  refine ⟨start, hstart, hoptions.trans (congrArg some ?_)⟩
  decide +kernel

end WriteonceOs.Boot
