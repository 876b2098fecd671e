import Mathlib.Data.List.Perm.Basic
import Mathlib.Data.Prod.Lex
import WriteonceOs.Installer.TuiSession
import WriteonceOs.Library.Lines
import WriteonceOs.Library.Listings

/-!
# The hardware probe

The probe reads `/proc/cpuinfo`, where the kernel describes the processors one after another, and
lists the devices of five buses with what they call themselves.  Listings come in any order; a
device's name is taken as it is displayed.

* `readCpu_procCpuinfo` — what the kernel prints of its processors is read back from the first of
  them, and all of them are counted;
* `readDevices_canonical` — the devices of the probe, sorted, whatever the order of the listings.
-/

namespace WriteonceOs.Kerngen

open WriteonceOs.Library
open Installer (Text fileName trim_of_free trim_decimal parseU32_decimal)
open Svc (trim isWhitespace isWhitespace_digit parseU32)

/-! ### Processors -/

structure CpuInfo where
  vendorId : Text := []
  cpuFamily : UInt32 := 0
  model : UInt32 := 0
  modelName : Text := []
  stepping : UInt32 := 0
  flags : List Text := []
  cpuCount : UInt32 := 0
  deriving DecidableEq, Repr

/-- `str::split_once`. -/
def splitOnce (sep : Char) (line : Text) : Option (Text × Text) :=
  if sep ∈ line then some (line.takeWhile (· ≠ sep), (line.dropWhile (· ≠ sep)).drop 1) else none

def CpuInfo.setField (cpu : CpuInfo) (key val : Text) : CpuInfo :=
  if key = "vendor_id".toList then { cpu with vendorId := val }
  else if key = "cpu family".toList then { cpu with cpuFamily := (parseU32 val).getD 0 }
  else if key = "model".toList then { cpu with model := (parseU32 val).getD 0 }
  else if key = "model name".toList then { cpu with modelName := val }
  else if key = "stepping".toList then { cpu with stepping := (parseU32 val).getD 0 }
  else if key = "flags".toList then { cpu with flags := words isWhitespace val }
  else cpu

/-- The count wraps, as it does in a release build. -/
def CpuInfo.count (cpu : CpuInfo) (key : Text) : CpuInfo :=
  if key = "processor".toList then { cpu with cpuCount := cpu.cpuCount + 1 } else cpu

section

variable (cpu : CpuInfo) (val : Text)

@[simp] theorem CpuInfo.setField_vendorId :
    cpu.setField "vendor_id".toList val = { cpu with vendorId := val } := rfl

@[simp] theorem CpuInfo.setField_cpuFamily :
    cpu.setField "cpu family".toList val = { cpu with cpuFamily := (parseU32 val).getD 0 } := rfl

@[simp] theorem CpuInfo.setField_model :
    cpu.setField "model".toList val = { cpu with model := (parseU32 val).getD 0 } := rfl

@[simp] theorem CpuInfo.setField_modelName :
    cpu.setField "model name".toList val = { cpu with modelName := val } := rfl

@[simp] theorem CpuInfo.setField_stepping :
    cpu.setField "stepping".toList val = { cpu with stepping := (parseU32 val).getD 0 } := rfl

@[simp] theorem CpuInfo.setField_flags :
    cpu.setField "flags".toList val = { cpu with flags := words isWhitespace val } := rfl

@[simp] theorem CpuInfo.count_processor :
    cpu.count "processor".toList = { cpu with cpuCount := cpu.cpuCount + 1 } := rfl

end

/-- One line; the flag tells whether the first block goes on. -/
def readLine (st : CpuInfo × Bool) (line : Text) : CpuInfo × Bool :=
  if line = [] then (st.1, false)
  else
    match splitOnce ':' line with
    | none => st
    | some (key, val) =>
      let key := trim key
      let val := trim val
      let cpu := st.1.count key
      if st.2 then (cpu.setField key val, true) else (cpu, false)

/-- The argument is the text of `/proc/cpuinfo`, if it can be read. -/
def readCpu : Option Text → CpuInfo
  | none => {}
  | some body => ((lines body).foldl readLine ({}, true)).1

/-! ### What the kernel prints -/

/-- A processor as the kernel describes it, with the lines that the probe has no use for. -/
structure Processor where
  vendorId : Text
  cpuFamily : UInt32
  model : UInt32
  modelName : Text
  stepping : UInt32
  flags : List Text
  before : List Text := []
  after : List Text := []
  deriving DecidableEq, Repr

def Processor.info (p : Processor) (count : UInt32) : CpuInfo :=
  ⟨p.vendorId, p.cpuFamily, p.model, p.modelName, p.stepping, p.flags, count⟩

def Processor.lines (i : ℕ) (p : Processor) : List Text :=
  ["processor\t".toList ++ ':' :: ' ' :: decimal i,
    "vendor_id\t".toList ++ ':' :: ' ' :: p.vendorId,
    "cpu family\t".toList ++ ':' :: ' ' :: decimal p.cpuFamily.toNat,
    "model\t\t".toList ++ ':' :: ' ' :: decimal p.model.toNat,
    "model name\t".toList ++ ':' :: ' ' :: p.modelName,
    "stepping\t".toList ++ ':' :: ' ' :: decimal p.stepping.toNat] ++ p.before ++
    ["flags\t\t".toList ++ ':' :: p.flags.flatMap (' ' :: ·)] ++ p.after

/-- The processors from a number on, each followed by an empty line. -/
def blocks : ℕ → List Processor → List Text
  | _, [] => []
  | i, p :: ps => p.lines i ++ [] :: blocks (i + 1) ps

def procCpuinfo (ps : List Processor) : Text := unlines (blocks 0 ps)

def knownKeys : List Text :=
  ["processor", "vendor_id", "cpu family", "model", "model name", "stepping", "flags"].map
    String.toList

/-- A line of some other key. -/
structure OtherLine (l : Text) : Prop where
  ne_nil : l ≠ []
  key : ∀ kv, splitOnce ':' l = some kv → trim kv.1 ∉ knownKeys

theorem otherLine_iff {l : Text} :
    OtherLine l ↔ l ≠ [] ∧ ∀ kv ∈ splitOnce ':' l, knownKeys.contains (trim kv.1) = false := by
  simp only [← Bool.not_eq_true, List.contains_iff_mem]
  exact ⟨fun h => ⟨h.ne_nil, h.key⟩, fun h => ⟨h.1, h.2⟩⟩

instance (l : Text) : Decidable (OtherLine l) := decidable_of_iff _ otherLine_iff.symm

def NoBreak (t : Text) : Prop := ∀ c ∈ t, c ≠ '\n' ∧ c ≠ '\r'

instance (t : Text) : Decidable (NoBreak t) := List.decidableBAll _ t

/-- What is printed in one line and without blanks around it. -/
structure Printable (t : Text) : Prop where
  trimmed : trim t = t
  noBreak : NoBreak t

structure Processor.Printed (p : Processor) : Prop where
  vendorId : Printable p.vendorId
  modelName : Printable p.modelName
  flags : ∀ f ∈ p.flags, f ≠ [] ∧ ∀ c ∈ f, isWhitespace c = false
  others : ∀ l ∈ p.before ++ p.after, OtherLine l ∧ NoBreak l

/-! ### One line -/

theorem splitOnce_field {key : Text} {sep : Char} (h : sep ∉ key) (val : Text) :
    splitOnce sep (key ++ sep :: val) = some (key, val) := by
  have hall : ∀ c ∈ key, decide (c ≠ sep) = true := by
    intro c hc
    exact decide_eq_true fun e => h (e ▸ hc)
  rw [splitOnce, if_pos (by simp), List.takeWhile_append_of_pos hall,
    List.dropWhile_append_of_pos hall, List.takeWhile_cons_of_neg (by simp),
    List.dropWhile_cons_of_neg (by simp), List.append_nil]
  rfl

theorem readLine_field {key name : Text} (hkey : ':' ∉ key) (hname : trim key = name) (val : Text)
    (cpu : CpuInfo) :
    readLine (cpu, true) (key ++ ':' :: val) =
      ((cpu.count name).setField name (trim val), true) := by
  rw [readLine, if_neg (by simp), splitOnce_field hkey]
  simp only [hname, if_true]

theorem readLine_later {key name : Text} (hkey : ':' ∉ key) (hname : trim key = name) (val : Text)
    (cpu : CpuInfo) :
    readLine (cpu, false) (key ++ ':' :: val) = (cpu.count name, false) := by
  rw [readLine, if_neg (by simp), splitOnce_field hkey]
  simp only [hname, Bool.false_eq_true, if_false]

theorem setField_of_unknown {key : Text} (h : key ∉ knownKeys) (val : Text) (cpu : CpuInfo) :
    cpu.setField key val = cpu := by
  simp only [knownKeys, List.map_cons, List.map_nil, List.mem_cons, List.not_mem_nil, or_false,
    not_or] at h
  obtain ⟨-, hvendor, hfamily, hmodel, hname, hstepping, hflags⟩ := h
  rw [CpuInfo.setField, if_neg hvendor, if_neg hfamily, if_neg hmodel, if_neg hname,
    if_neg hstepping, if_neg hflags]

theorem readLine_other {l : Text} (h : OtherLine l) (st : CpuInfo × Bool) : readLine st l = st := by
  rw [readLine, if_neg h.ne_nil]
  cases hsplit : splitOnce ':' l with
  | none => rfl
  | some kv =>
    have hkey := h.key kv hsplit
    have hne : trim kv.1 ≠ "processor".toList := fun e => hkey (e ▸ List.mem_cons_self)
    have hcount : st.1.count (trim kv.1) = st.1 := if_neg hne
    simp only [hcount, setField_of_unknown hkey]
    cases hfirst : st.2 with
    | true => exact Prod.ext rfl hfirst.symm
    | false => exact Prod.ext rfl hfirst.symm

theorem foldl_others {ls : List Text} (h : ∀ l ∈ ls, OtherLine l) (st : CpuInfo × Bool) :
    ls.foldl readLine st = st := by
  induction ls with
  | nil => rfl
  | cons l ls ih =>
    obtain ⟨hl, hls⟩ := List.forall_mem_cons.mp h
    rw [List.foldl_cons, readLine_other hl, ih hls]

/-! ### One processor -/

theorem trim_cons_blank {c : Char} (h : isWhitespace c = true) (t : Text) :
    trim (c :: t) = trim t := by
  rw [trim, trim, List.dropWhile_cons_of_pos h]

theorem Printable.trim_value {t : Text} (h : Printable t) : trim (' ' :: t) = t := by
  rw [trim_cons_blank rfl, h.trimmed]

theorem parse_value (v : UInt32) : (parseU32 (trim (' ' :: decimal v.toNat))).getD 0 = v := by
  rw [trim_cons_blank rfl, trim_decimal, parseU32_decimal]
  rfl

theorem words_cons_blank {c : Char} (h : isWhitespace c = true) (t : Text) :
    words isWhitespace (c :: t) = words isWhitespace t := words_append_separator h [] t

theorem words_trim (t : Text) : words isWhitespace (trim t) = words isWhitespace t := by
  have hdrop : words isWhitespace (t.dropWhile isWhitespace) = words isWhitespace t := by
    induction t with
    | nil => rfl
    | cons c t ih =>
      cases hc : isWhitespace c with
      | true => rw [List.dropWhile_cons_of_pos hc, ih, words_cons_blank hc]
      | false => rw [List.dropWhile_cons_of_neg (by simp [hc])]
  rw [← hdrop]
  exact words_trimEnd fun _ _ h => h

/-- Words with a blank before each of them. -/
theorem words_flags {fs : List Text} (h : ∀ f ∈ fs, f ≠ [] ∧ ∀ c ∈ f, isWhitespace c = false) :
    words isWhitespace (fs.flatMap (' ' :: ·)) = fs := by
  induction fs with
  | nil => rfl
  | cons f fs ih =>
    obtain ⟨⟨hne, hfree⟩, hfs⟩ := List.forall_mem_cons.mp h
    rw [List.flatMap_cons, List.cons_append, words_cons_blank rfl]
    cases fs with
    | nil => rw [List.flatMap_nil, List.append_nil, words_of_free hfree hne]
    | cons g gs =>
      have hrest := ih hfs
      rw [List.flatMap_cons, List.cons_append, words_cons_blank rfl] at hrest
      rw [List.flatMap_cons, List.cons_append, words_append_separator rfl, hrest,
        words_of_free hfree hne]
      rfl

theorem Processor.Printed.foldl_before {p : Processor} (h : p.Printed) (st : CpuInfo × Bool) :
    p.before.foldl readLine st = st :=
  foldl_others (fun l hl => (h.others l (List.mem_append_left _ hl)).1) st

theorem Processor.Printed.foldl_after {p : Processor} (h : p.Printed) (st : CpuInfo × Bool) :
    p.after.foldl readLine st = st :=
  foldl_others (fun l hl => (h.others l (List.mem_append_right _ hl)).1) st

/-- **The lines of the first processor** set every field, whatever stood there. -/
theorem foldl_first {p : Processor} (h : p.Printed) (i : ℕ) (cpu : CpuInfo) :
    (p.lines i).foldl readLine (cpu, true) = (p.info (cpu.cpuCount + 1), true) := by
  have hflags : words isWhitespace (trim (p.flags.flatMap (' ' :: ·))) = p.flags := by
    rw [words_trim, words_flags h.flags]
  rw [Processor.lines, List.foldl_append, List.foldl_append, List.foldl_append,
    h.foldl_after]
  simp only [List.foldl_cons, List.foldl_nil]
  rw [readLine_field (by decide) (by decide : trim "processor\t".toList = "processor".toList),
    readLine_field (by decide) (by decide : trim "vendor_id\t".toList = "vendor_id".toList),
    readLine_field (by decide) (by decide : trim "cpu family\t".toList = "cpu family".toList),
    readLine_field (by decide) (by decide : trim "model\t\t".toList = "model".toList),
    readLine_field (by decide) (by decide : trim "model name\t".toList = "model name".toList),
    readLine_field (by decide) (by decide : trim "stepping\t".toList = "stepping".toList),
    h.foldl_before,
    readLine_field (by decide) (by decide : trim "flags\t\t".toList = "flags".toList),
    h.vendorId.trim_value, h.modelName.trim_value]
  rw [CpuInfo.setField_flags, hflags, CpuInfo.setField_stepping, CpuInfo.setField_modelName,
    CpuInfo.setField_model, CpuInfo.setField_cpuFamily, CpuInfo.setField_vendorId,
    CpuInfo.count_processor]
  simp only [parse_value]
  rfl

/-- **The lines of a later processor** count it, and nothing else. -/
theorem foldl_later {p : Processor} (h : p.Printed) (i : ℕ) (cpu : CpuInfo) :
    (p.lines i).foldl readLine (cpu, false) =
      ({ cpu with cpuCount := cpu.cpuCount + 1 }, false) := by
  rw [Processor.lines, List.foldl_append, List.foldl_append, List.foldl_append,
    h.foldl_after]
  simp only [List.foldl_cons, List.foldl_nil]
  rw [readLine_later (by decide) (by decide : trim "processor\t".toList = "processor".toList),
    readLine_later (by decide) (by decide : trim "vendor_id\t".toList = "vendor_id".toList),
    readLine_later (by decide) (by decide : trim "cpu family\t".toList = "cpu family".toList),
    readLine_later (by decide) (by decide : trim "model\t\t".toList = "model".toList),
    readLine_later (by decide) (by decide : trim "model name\t".toList = "model name".toList),
    readLine_later (by decide) (by decide : trim "stepping\t".toList = "stepping".toList),
    h.foldl_before,
    readLine_later (by decide) (by decide : trim "flags\t\t".toList = "flags".toList)]
  rfl

/-! ### All processors -/

theorem foldl_blocks {ps : List Processor} (h : ∀ p ∈ ps, p.Printed) (i : ℕ) (cpu : CpuInfo) :
    (blocks i ps).foldl readLine (cpu, false) =
      ({ cpu with cpuCount := cpu.cpuCount + UInt32.ofNat ps.length }, false) := by
  induction ps generalizing i cpu with
  | nil => exact Prod.ext (by simp [blocks]) rfl
  | cons p ps ih =>
    obtain ⟨hp, hps⟩ := List.forall_mem_cons.mp h
    have hempty (c : CpuInfo) : readLine (c, false) [] = (c, false) := rfl
    have hsum : cpu.cpuCount + 1 + UInt32.ofNat ps.length =
        cpu.cpuCount + UInt32.ofNat (ps.length + 1) := by
      rw [UInt32.ofNat_add, UInt32.add_assoc, UInt32.add_comm 1]
      rfl
    rw [blocks, List.foldl_append, foldl_later hp, List.foldl_cons, hempty, ih hps, hsum,
      List.length_cons]

theorem NoBreak.append {a b : Text} (ha : NoBreak a) (hb : NoBreak b) : NoBreak (a ++ b) := by
  intro c hc
  rcases List.mem_append.mp hc with hc | hc
  · exact ha c hc
  · exact hb c hc

theorem NoBreak.value {t : Text} (h : NoBreak t) : NoBreak (':' :: ' ' :: t) :=
  NoBreak.append (by decide : NoBreak [':', ' ']) h

theorem noBreak_decimal (n : ℕ) : NoBreak (decimal n) := by
  intro c hc
  have hdigit := decimal_digits hc
  exact ⟨fun e => by simp [e] at hdigit, fun e => by simp [e] at hdigit⟩

theorem noBreak_flags {fs : List Text} (h : ∀ f ∈ fs, f ≠ [] ∧ ∀ c ∈ f, isWhitespace c = false) :
    NoBreak (fs.flatMap (' ' :: ·)) := by
  intro c hc
  obtain ⟨f, hf, hc⟩ := List.mem_flatMap.mp hc
  rcases List.mem_cons.mp hc with rfl | hc
  · decide
  · have hfree := (h f hf).2 c hc
    exact ⟨fun e => absurd hfree (e ▸ by decide), fun e => absurd hfree (e ▸ by decide)⟩

/-- No line of a processor holds a line break. -/
theorem noBreak_lines {p : Processor} (h : p.Printed) (i : ℕ) {l : Text} (hl : l ∈ p.lines i) :
    NoBreak l := by
  simp only [Processor.lines, List.mem_append, List.mem_cons, List.not_mem_nil, or_false] at hl
  rcases hl with ((((rfl | rfl | rfl | rfl | rfl | rfl) | hl) | rfl) | hl)
  · exact NoBreak.append (by decide) (noBreak_decimal i).value
  · exact NoBreak.append (by decide) h.vendorId.noBreak.value
  · exact NoBreak.append (by decide) (noBreak_decimal _).value
  · exact NoBreak.append (by decide) (noBreak_decimal _).value
  · exact NoBreak.append (by decide) h.modelName.noBreak.value
  · exact NoBreak.append (by decide) (noBreak_decimal _).value
  · exact (h.others l (List.mem_append_left _ hl)).2
  · exact NoBreak.append (by decide)
      (NoBreak.append (by decide : NoBreak [':']) (noBreak_flags h.flags))
  · exact (h.others l (List.mem_append_right _ hl)).2

theorem noBreak_blocks {ps : List Processor} (h : ∀ p ∈ ps, p.Printed) {i : ℕ} {l : Text}
    (hl : l ∈ blocks i ps) : NoBreak l := by
  induction ps generalizing i with
  | nil => exact absurd hl List.not_mem_nil
  | cons p ps ih =>
    obtain ⟨hp, hps⟩ := List.forall_mem_cons.mp h
    rcases List.mem_append.mp hl with hl | hl
    · exact noBreak_lines hp i hl
    · rcases List.mem_cons.mp hl with rfl | hl
      · exact fun c hc => absurd hc List.not_mem_nil
      · exact ih hps hl

theorem lines_procCpuinfo {ps : List Processor} (h : ∀ p ∈ ps, p.Printed) :
    lines (procCpuinfo ps) = blocks 0 ps := by
  have hnewline : ∀ l ∈ blocks 0 ps, '\n' ∉ l := fun l hl hc => (noBreak_blocks h hl _ hc).1 rfl
  have hreturn : ∀ l ∈ blocks 0 ps, '\r' ∉ l := fun l hl hc => (noBreak_blocks h hl _ hc).2 rfl
  rw [procCpuinfo, lines_unlines hnewline, map_chopReturn hreturn]

/-- **What the kernel prints of its processors is read back**: the first of them describes the
machine, and all of them are counted. -/
theorem readCpu_procCpuinfo {p : Processor} {ps : List Processor} (h : ∀ q ∈ p :: ps, q.Printed) :
    readCpu (some (procCpuinfo (p :: ps))) = p.info (UInt32.ofNat (ps.length + 1)) := by
  obtain ⟨hp, hps⟩ := List.forall_mem_cons.mp h
  have hempty (c : CpuInfo) : readLine (c, true) [] = (c, false) := rfl
  show ((lines (procCpuinfo (p :: ps))).foldl readLine ({}, true)).1 = _
  rw [lines_procCpuinfo h, blocks, List.foldl_append, foldl_first hp, List.foldl_cons, hempty,
    foldl_blocks hps, UInt32.ofNat_add,
    UInt32.add_comm (UInt32.ofNat ps.length)]
  rfl

/-! ### Devices -/

/-- A directory of a bus: its name as it is displayed, what it calls itself, and where its link
`driver` leads. -/
structure DeviceDir where
  name : Text
  modalias : Option Text
  driver : Option Text
  deriving DecidableEq, Repr

structure Device where
  subsystem : Text
  modalias : Text
  syspath : Text
  driver : Option Text
  deriving DecidableEq, Repr

def buses : List Text := ["pci", "usb", "acpi", "virtio", "platform"].map String.toList

/-- The listings of the buses; a bus need not be there. -/
abbrev Sysfs := Text → Option (List DeviceDir)

def Sysfs.listing (sys : Sysfs) (bus : Text) : List DeviceDir := (sys bus).getD []

def syspath (bus name : Text) : Text := "/sys/bus/".toList ++ bus ++ "/devices/".toList ++ name

def readDevice (bus : Text) (e : DeviceDir) : Option Device :=
  match e.modalias with
  | none => none
  | some body =>
    let modalias := trim body
    if modalias = [] then none
    else some ⟨bus, modalias, syspath bus e.name, e.driver.bind fileName⟩

def readBus (sys : Sysfs) (bus : Text) : List Device :=
  match sys bus with
  | none => []
  | some entries => entries.filterMap (readDevice bus)

def Device.key (d : Device) : Lex (Text × Text) := toLex (d.subsystem, d.syspath)

def readDevices (sys : Sysfs) : List Device := sortOn Device.key (buses.flatMap (readBus sys))

/-- The same devices, listed in some other order. -/
def Sysfs.Alike (sys sys' : Sysfs) : Prop := ∀ bus, (sys.listing bus).Perm (sys'.listing bus)

/-- No two devices of a bus are displayed alike. -/
def Sysfs.Distinct (sys : Sysfs) : Prop :=
  ∀ bus ∈ buses, ((sys.listing bus).map DeviceDir.name).Nodup

/-- A device of some bus that calls itself something. -/
def Sysfs.Has (sys : Sysfs) (d : Device) : Prop :=
  ∃ bus ∈ buses, ∃ e ∈ sys.listing bus, ∃ body, e.modalias = some body ∧ trim body ≠ [] ∧
    d = ⟨bus, trim body, syspath bus e.name, e.driver.bind fileName⟩

theorem readBus_eq (sys : Sysfs) (bus : Text) :
    readBus sys bus = (sys.listing bus).filterMap (readDevice bus) := by
  rw [readBus, Sysfs.listing]
  cases sys bus with
  | none => rfl
  | some entries => rfl

theorem readDevice_eq_some {bus : Text} {e : DeviceDir} {d : Device} :
    readDevice bus e = some d ↔ ∃ body, e.modalias = some body ∧ trim body ≠ [] ∧
      d = ⟨bus, trim body, syspath bus e.name, e.driver.bind fileName⟩ := by
  rw [readDevice]
  cases e.modalias with
  | none => simp
  | some body =>
    simp only [Option.some.injEq, exists_eq_left']
    split
    · rename_i hempty
      constructor
      · intro h
        cases h
      · intro h
        exact absurd hempty h.1
    · rename_i hempty
      rw [Option.some.injEq, eq_comm]
      exact (and_iff_right hempty).symm

theorem mem_readDevices {sys : Sysfs} {d : Device} : d ∈ readDevices sys ↔ sys.Has d := by
  rw [readDevices, mem_sortOn, List.mem_flatMap]
  refine exists_congr fun bus => and_congr_right fun _ => ?_
  rw [readBus_eq, List.mem_filterMap]
  exact exists_congr fun e => and_congr_right fun _ => readDevice_eq_some

theorem key_of_readDevice {bus : Text} {e : DeviceDir} {d : Device}
    (h : readDevice bus e = some d) : d.key = toLex (bus, syspath bus e.name) := by
  obtain ⟨body, -, -, rfl⟩ := readDevice_eq_some.mp h
  rfl

/-- The keys of a bus are what its names make them. -/
theorem keys_sublist (bus : Text) (entries : List DeviceDir) :
    ((entries.filterMap (readDevice bus)).map Device.key).Sublist
      (entries.map fun e => toLex (bus, syspath bus e.name)) := by
  induction entries with
  | nil => exact List.Sublist.slnil
  | cons e entries ih =>
    cases hread : readDevice bus e with
    | none =>
      rw [List.filterMap_cons_none hread]
      exact ih.cons _
    | some d =>
      rw [List.filterMap_cons_some hread, List.map_cons, List.map_cons, key_of_readDevice hread]
      exact ih.cons_cons _

theorem nodup_keys_readBus {sys : Sysfs} (h : sys.Distinct) {bus : Text} (hbus : bus ∈ buses) :
    ((readBus sys bus).map Device.key).Nodup := by
  rw [readBus_eq]
  refine (keys_sublist bus (sys.listing bus)).nodup ?_
  have hinj : Function.Injective fun name : Text => toLex (bus, syspath bus name) := by
    intro a b hab
    have hpair := toLex.injective hab
    exact List.append_cancel_left (Prod.mk.inj hpair).2
  have hnames := (h bus hbus).map hinj
  rwa [List.map_map] at hnames

theorem nodup_keys {sys : Sysfs} (h : sys.Distinct) :
    ((buses.flatMap (readBus sys)).map Device.key).Nodup := by
  rw [List.map_flatMap, List.nodup_flatMap]
  refine ⟨fun bus hbus => nodup_keys_readBus h hbus, ?_⟩
  have hdistinct : buses.Nodup := by decide
  refine hdistinct.imp fun {bus bus'} hne => ?_
  intro k hk hk'
  obtain ⟨d, hd, rfl⟩ := List.mem_map.mp hk
  obtain ⟨d', hd', hkeys⟩ := List.mem_map.mp hk'
  rw [readBus_eq] at hd hd'
  obtain ⟨e, -, hread⟩ := List.mem_filterMap.mp hd
  obtain ⟨e', -, hread'⟩ := List.mem_filterMap.mp hd'
  rw [key_of_readDevice hread, key_of_readDevice hread'] at hkeys
  exact hne (Prod.mk.inj (toLex.injective hkeys)).1.symm

theorem flatMap_alike {sys sys' : Sysfs} (h : sys.Alike sys') (bs : List Text) :
    (bs.flatMap (readBus sys)).Perm (bs.flatMap (readBus sys')) := by
  refine List.Perm.flatMap_left bs fun bus _ => ?_
  rw [readBus_eq, readBus_eq]
  exact (h bus).filterMap _

/-- **The devices of the probe**: those that call themselves something, each once, sorted by bus
and path, whatever the order of the listings. -/
theorem readDevices_canonical {sys : Sysfs} (h : sys.Distinct) :
    (∀ d, d ∈ readDevices sys ↔ sys.Has d) ∧
    (readDevices sys).Pairwise (fun d d' => d.key < d'.key) ∧
    ∀ sys', sys.Alike sys' → readDevices sys' = readDevices sys := by
  refine ⟨fun d => mem_readDevices, sortOn_strict Device.key (nodup_keys h), fun sys' halike => ?_⟩
  exact (sortOn_congr Device.key (flatMap_alike halike buses)
    (List.inj_on_of_nodup_map (nodup_keys h))).symm

/-! ### A machine -/

def bigCore : Processor :=
  ⟨"GenuineIntel".toList, 6, 154, "12th Gen Core".toList, 3, ["fpu".toList, "vme".toList],
    ["microcode\t: 0x42c".toList], ["bugs\t\t:".toList, "power management:".toList]⟩

/-- A processor of another stepping beside it. -/
def littleCore : Processor := { bigCore with stepping := 4, flags := [] }

theorem bigCore_printed : bigCore.Printed where
  vendorId := ⟨by decide, by decide⟩
  modelName := ⟨by decide, by decide⟩
  flags := by
    intro f hf
    rcases List.mem_cons.mp hf with rfl | hf
    · exact ⟨by decide, free_of_all (by decide)⟩
    · exact (List.mem_singleton.mp hf) ▸ ⟨by decide, free_of_all (by decide)⟩
  others := by decide +kernel

theorem littleCore_printed : littleCore.Printed :=
  { bigCore_printed with flags := fun _ hf => absurd hf List.not_mem_nil }

theorem readCpu_procCpuinfo_hybrid :
    readCpu (some (procCpuinfo [bigCore, littleCore])) = bigCore.info 2 := by
  refine readCpu_procCpuinfo (fun q hq => ?_)
  rcases List.mem_cons.mp hq with rfl | hq
  · exact bigCore_printed
  · exact (List.mem_singleton.mp hq) ▸ littleCore_printed

/-- A disk controller before a graphics card with its driver, and a root port that does not say
what it is. -/
def twoPci (bus : Text) : Option (List DeviceDir) :=
  if bus = "pci".toList then
    some [⟨"0000:00:17.0".toList, some "pci:v0000A0D3\n".toList, none⟩,
      ⟨"0000:00:1c.0".toList, some "\n".toList, none⟩,
      ⟨"0000:00:02.0".toList, some "pci:v00008086\n".toList,
        some "../../../bus/pci/drivers/i915".toList⟩]
  else none

theorem twoPci_distinct : Sysfs.Distinct twoPci := by
  intro bus hbus
  simp only [buses, List.map_cons, List.map_nil, List.mem_cons, List.not_mem_nil, or_false] at hbus
  rcases hbus with rfl | rfl | rfl | rfl | rfl
  · decide
  · decide
  · decide
  · decide
  · decide

theorem readDevices_canonical_twoPci :
    (∀ d, d ∈ readDevices twoPci ↔ Sysfs.Has twoPci d) ∧
    (readDevices twoPci).Pairwise (fun d d' => d.key < d'.key) ∧
    ∀ sys', Sysfs.Alike twoPci sys' → readDevices sys' = readDevices twoPci :=
  readDevices_canonical twoPci_distinct

example : readDevices twoPci =
    [⟨"pci".toList, "pci:v00008086".toList, "/sys/bus/pci/devices/0000:00:02.0".toList,
      some "i915".toList⟩,
    ⟨"pci".toList, "pci:v0000A0D3".toList, "/sys/bus/pci/devices/0000:00:17.0".toList, none⟩] := by
  decide +kernel

end WriteonceOs.Kerngen
