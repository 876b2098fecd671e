import WriteonceOs.Boot.RootMount
import WriteonceOs.Boot.TryBoot
import WriteonceOs.Installer.Write

/-!
# The first boot

From a complete installation to PID 1: the bootloader finds the command line on the boot partition
and starts the kernel with it, the kernel shows it to the initramfs, and that mounts the root file
system that the installer has made and executes its init.  What lies between them, the firmware, the
kernel and the devices, does what it is documented to do.

* `started_of_shows` — the kernel is started with the line of the installation;
* `parse_handedOn` — the initramfs reads from it what the installer wrote;
* `first_boot` — the root file system of the installation is mounted, and its init executed.
-/

namespace WriteonceOs.Installer

open WriteonceOs.Library
open WriteonceOs.Library.Utf16 (encode)
open Boot (Uuid uuidText fullCmdline fileBytes formatCmdline)

/-! ### The firmware -/

/-- A path of the bootloader as the installer writes it. -/
def slashes (path : Text) : Text := path.map fun c => if c = '\\' then '/' else c

/-- The firmware gives out the files of the boot partition, in pieces of any size, and does what it
is asked for. -/
structure ShowsEsp (fw : Boot.Firmware) (esp : Files) : Prop where
  opens : ∀ path content, esp (slashes path) = some content →
    ∃ file pieces, fw.openFile path = .ok file ∧ file.Delivers pieces ∧
      file.data = content.data.toList
  device : ∃ device, fw.openSelf = .ok (some device)
  fs : fw.openFs = none
  volume : fw.openVolume = none
  path : ∃ nodes, fw.ownPath = .ok nodes
  fits : ∀ n, fw.fits n = true
  loadImage : ∀ path, fw.loadImage path = none
  openKernel : fw.openKernel = none

variable {fw : Boot.Firmware} {esp : Files}

theorem read_of_shows (h : ShowsEsp fw esp) {path : Text} {content : ByteArray}
    (hfile : esp (slashes path) = some content) :
    Boot.readFile fw path = .ok content.data.toList ∧
      ∃ size, Boot.readFileSize fw path = .ok size := by
  obtain ⟨file, pieces, hopen, hdelivers, hdata⟩ := h.opens path content hfile
  refine ⟨hdata ▸ Boot.readFile_of_delivers hopen hdelivers, file.data.length, ?_⟩
  exact bind_eq_ok.mpr ⟨file, bind_eq_ok.mpr ⟨file, hopen, if_pos hdelivers.regular⟩,
    hdelivers.info⟩

/-- **The kernel is started** with the line that is made of the command line file. -/
theorem started_of_shows (h : ShowsEsp fw esp) {cmdline kernel : ByteArray}
    (hcmdline : esp cmdlineFile = some cmdline) (hkernel : esp kernelFile = some kernel) :
    ∃ start, (Boot.tryBoot fw).1 = some start ∧
      start.options = encode (fullCmdline cmdline) ++ [0] := by
  obtain ⟨nodes, hnodes⟩ := h.path
  have hcmdlinePath : slashes Boot.cmdlineFile = cmdlineFile := by decide
  have hkernelPath : slashes Boot.kernelFile = kernelFile := by decide
  have hready : Boot.Ready fw cmdline.data.toList
      (Boot.devicePart nodes ++ [.file ('\\' :: Boot.kernelFile)]) :=
    ⟨h.device, h.fs, h.volume, (read_of_shows h (hcmdlinePath ▸ hcmdline)).1,
      (read_of_shows h (hkernelPath ▸ hkernel)).2, Boot.kernelPath_ok.mpr 
        ⟨nodes, hnodes, h.fits _, rfl⟩, h.loadImage _, h.openKernel⟩
  exact ⟨_, Boot.tryBoot_start.mpr (Boot.prepare_ok.mpr ⟨_, _, hready, rfl⟩), rfl⟩

/-! ### The kernel -/

/-- A line that the kernel takes as it is. -/
structure FitsKernel (line : Text) : Prop where
  noNul : '\x00' ∉ line
  noNewline : '\n' ∉ line
  size : (fileBytes line).size < 2048

/-- What `/proc/cmdline` shows of the load options. -/
def HandsOn (proc : List UInt16 → Text) : Prop :=
  ∀ line, FitsKernel line → proc (encode line ++ [0]) = line ++ ['\n']

/-- **The initramfs reads what the installer wrote.** -/
theorem parse_handedOn {proc : List UInt16 → Text} (hproc : HandsOn proc) {cmdline : Text}
    (hnul : '\x00' ∉ cmdline) (hline : FitsKernel (fullCmdline (fileBytes cmdline))) :
    Boot.parse (proc (encode (fullCmdline (fileBytes cmdline)) ++ [0])) = Boot.parse cmdline := by
  have hwords (line : Text) :
      words Svc.isWhitespace (line ++ ['\n']) = words Svc.isWhitespace line := by
    rw [words_append_separator rfl, words_nil, List.append_nil]
  rw [hproc _ hline, ← Boot.parse_fullCmdline hnul, Boot.parse, Boot.parse, hwords]

/-! ### The initramfs -/

/-- The kernel does what the initramfs asks of it, up to the execution of an init. -/
structure Accepts (kernel : Boot.Kernel) (init : Text) : Prop where
  pseudo : ∀ call ∈ Boot.pseudoMounts, kernel.Mounts call
  root : ∀ call, Boot.Syscall.onSysroot call = true → kernel.Mounts call
  handOver : ∀ call ∈ Boot.handOverCalls, kernel call = none
  exec : kernel (.execve init [init] Boot.environment) = none

theorem moveMounts_ending (dirExists : Text → Bool) (ds : List Text) (next : Boot.Ran) :
    (Boot.moveMounts dirExists ds next).ending = next.ending := by
  induction ds with
  | nil => rfl
  | cons d ds ih =>
    rw [Boot.moveMounts]
    split
    · exact ih
    · exact ih

/-- Where every call succeeds, the run ends in the init. -/
theorem switchAndExec_ending {kernel : Boot.Kernel} {dirExists : Text → Bool}
    {dev fstype init : Text} {flags : UInt64} (h : Accepts kernel init)
    (hmount : '\x00' ∉ dev ++ Boot.sysroot ++ fstype) (hinit : '\x00' ∉ init) :
    (Boot.switchAndExec kernel dirExists dev fstype flags init).ending = .execed := by
  have hmust : ∀ call ∈ Boot.handOverCalls, ∀ next,
      Boot.must kernel call next = next.after call :=
    fun call hcall => Boot.must_of_accepted (h.handOver call hcall)
  have hexec : (Boot.exec kernel init).ending = .execed := by
    rw [Boot.exec, if_neg hinit]
    simp only [h.exec]
    rfl
  have hnul : '\x00' ∉ dev ++ Boot.sysroot ++ fstype ++ (none : Option Text).getD [] := by
    rwa [Option.getD_none, List.append_nil]
  rw [Boot.switchAndExec, Boot.mount, if_neg hnul, Boot.require_of_mounts (h.root _ rfl),
    Boot.handOver, hmust _ (by simp [Boot.handOverCalls]), hmust _ (by simp [Boot.handOverCalls]),
    hmust _ (by simp [Boot.handOverCalls]), hmust _ (by simp [Boot.handOverCalls])]
  exact (moveMounts_ending _ _ _).trans hexec

/-- Where the mount succeeds, it is the only one on `/sysroot`, and the init comes last. -/
theorem switchAndExec_calls {kernel : Boot.Kernel} {dirExists : Text → Bool}
    {dev fstype init : Text} {flags : UInt64} (h : Accepts kernel init)
    (hmount : '\x00' ∉ dev ++ Boot.sysroot ++ fstype) (hinit : '\x00' ∉ init) :
    (Boot.switchAndExec kernel dirExists dev fstype flags init).calls.filter
        Boot.Syscall.onSysroot = [.mount dev Boot.sysroot (some fstype) flags none] ∧
      (Boot.switchAndExec kernel dirExists dev fstype flags init).calls.getLast? =
        some (.execve init [init] Boot.environment) := by
  have hnul : '\x00' ∉ dev ++ Boot.sysroot ++ fstype ++ (none : Option Text).getD [] := by
    rwa [Option.getD_none, List.append_nil]
  obtain ⟨rest, hcalls, -, hrest⟩ := Boot.mount_calls kernel flags
    (Boot.handOver kernel dirExists init) hnul
  obtain rfl := hrest (h.root _ rfl)
  have hlast := Boot.handOver_getLast dirExists init h.handOver
  rw [if_neg hinit] at hlast
  rw [Boot.switchAndExec, hcalls]
  constructor
  · have hempty : (Boot.handOver kernel dirExists init).calls.filter Boot.Syscall.onSysroot = [] :=
      List.filter_eq_nil_iff.mpr fun call hcall => by
        rw [Boot.handOver_not_onSysroot hcall]
        exact Bool.false_ne_true
    rw [List.filter_cons_of_pos rfl, hempty]
  · rw [List.getLast?_cons, hlast]
    rfl

/-- A run is decided by what is parsed. -/
theorem run_congr {m : Boot.Machine} {kernel : Boot.Kernel} {fuel : ℕ} {text text' : Text}
    (h : Boot.parse text = Boot.parse text') :
    Boot.run m kernel fuel text = Boot.run m kernel fuel text' := by
  rw [Boot.run, Boot.run, h]

/-- What comes of a parameter holds no NUL where the line holds none. -/
theorem noNul_lastValue {pre line v : Text} (hnul : '\x00' ∉ line)
    (h : Boot.lastValue pre line = some v) : '\x00' ∉ v := by
  intro hv
  have hmem := List.mem_of_getLast? h
  obtain ⟨word, hword, hstrip⟩ := List.mem_filterMap.mp hmem
  refine hnul (mem_of_mem_words hword ?_)
  rw [Boot.stripPrefix] at hstrip
  split at hstrip
  · cases hstrip
    exact List.mem_of_mem_drop hv
  · cases hstrip

theorem noNul_getD {pre line other : Text} (hnul : '\x00' ∉ line) (hother : '\x00' ∉ other) :
    '\x00' ∉ (Boot.lastValue pre line).getD other := by
  cases hlast : Boot.lastValue pre line with
  | none => exact hother
  | some v => exact noNul_lastValue hnul hlast

/-! ### The devices -/

/-- The root file system of a UUID is there at the `k`-th poll, and that is made. -/
structure Appears (attempts : Boot.Attempts) (b : Uuid) (timeoutSecs k : ℕ)
    (devs : List Boot.BlockEntry) : Prop where
  fits : attempts.Fits timeoutSecs
  made : attempts.Made (.uuid (uuidText b)) timeoutSecs k
  seen : Boot.candidateBlockDevices (attempts.devices k) = .ok devs
  carried : ∃ e ∈ devs, Boot.CarriesRoot b e ∧ Boot.WholeSuperblock e
  names : ∀ e ∈ devs, '\x00' ∉ e.name

/-- **The device that is found** carries the UUID. -/
theorem located_of_appears {attempts : Boot.Attempts} {b : Uuid} {timeoutSecs k : ℕ}
    {devs : List Boot.BlockEntry} (h : Appears attempts b timeoutSecs k devs) :
    ∃ e ∈ devs, Boot.CarriesRoot b e ∧ '\x00' ∉ e.dev ∧ ∀ fuel, k < fuel → ∃ said,
      attempts.locateRoot fuel (.uuid (uuidText b)) timeoutSecs = .returned (.ok e.dev) said := by
  obtain ⟨hsound, hcomplete⟩ := Boot.locate_uuid (attempts.devices k) b h.seen
  obtain ⟨dev, hdev⟩ := hcomplete h.carried
  obtain ⟨e, he, rfl, hcarries, -⟩ := hsound dev hdev
  refine ⟨e, he, hcarries, ?_, fun fuel hfuel => ?_⟩
  · intro hnul
    rcases List.mem_append.mp hnul with hnul | hnul
    · exact absurd hnul (by decide)
    · exact h.names e he hnul
  · refine (Boot.Attempts.returned_iff h.fits).mpr ⟨k, hfuel, h.made, hdev, fun hmiss => ?_⟩
    obtain ⟨⟨missing, hmissing⟩, -⟩ := hmiss
    rw [Boot.Attempts.once, hdev] at hmissing
    cases hmissing

/-! ### The whole way -/

/-- A template that names the root file system by its UUID, last. -/
structure NamesRoot (template : Text) : Prop where
  noNul : '\x00' ∉ template
  root : ((words Svc.isWhitespace template).filter ("root=".toList.isPrefixOf ·)).getLast? =
    some "root=UUID=__ROOT_UUID__".toList

/-- The flags of the root mount. -/
def rootFlags (line : Text) : UInt64 :=
  if Boot.lastAccess line = some "ro".toList then Boot.msNoatime ||| Boot.msRdonly
  else Boot.msNoatime

/-- **From the installation to PID 1.**  Where the firmware gives out the boot partition, the
kernel hands on its command line and does what it is asked for, and the root file system shows up
in time, the first boot of a complete installation mounts the device with the UUID that the
installer has made, and no other, as the line says, and ends in the init of that line. -/
theorem first_boot {ans : WriteAnswers} {device : Text} {plan : InstallationPlan}
    {a : ResolvedArtifacts} {cmdline : Text} {s : Disk}
    (hrun : perform ans device plan a = (.ok cmdline, s)) (hmounts : s.mounts = [])
    (hkept : ∀ files, ans.medium files cmdlineFile = files cmdlineFile) {b : Uuid}
    (huuid : readExt4Uuid ans (partitionPaths device).2 = .ok (uuidText b))
    (htemplate : NamesRoot a.cmdlineTemplate)
    (hnormal : (words Svc.isWhitespace cmdline).any Boot.isRecovery = false)
    (hline : FitsKernel (fullCmdline (fileBytes cmdline)))
    {fw : Boot.Firmware} (hfw : ShowsEsp fw s.esp)
    {proc : List UInt16 → Text} (hproc : HandsOn proc)
    {m : Boot.Machine} (hreal : m.fake = false) (hfirst : m.pid = 1) {k : ℕ}
    {devs : List Boot.BlockEntry} (happears : Appears m.attempts b (Boot.rootwait cmdline) k devs)
    {kernel : Boot.Kernel} (haccepts : Accepts kernel (Boot.documentedInit cmdline)) :
    ∃ start, (Boot.tryBoot fw).1 = some start ∧ ∃ e ∈ devs, Boot.CarriesRoot b e ∧
      ∀ fuel, k < fuel →
        (Boot.run m kernel fuel (proc start.options)).ending = .execed ∧
        (Boot.run m kernel fuel (proc start.options)).calls.filter Boot.Syscall.onSysroot =
          [.mount e.dev Boot.sysroot (some (Boot.documentedType cmdline)) (rootFlags cmdline)
            none] ∧
        (Boot.run m kernel fuel (proc start.options)).calls.getLast? =
          some (.execve (Boot.documentedInit cmdline) [Boot.documentedInit cmdline]
            Boot.environment) := by
  have hwritten := perform_written hrun hmounts
  obtain ⟨rootUuid, hread, hcmdline⟩ := hwritten.filled
  obtain rfl : uuidText b = rootUuid := Except.ok.inj (huuid.symm.trans hread)
  have hfile : s.esp cmdlineFile = some (fileBytes cmdline) := by
    rw [hwritten.esp, hkept, espFiles_cmdline]
  obtain ⟨_, hkernel, -⟩ := bind_eq_ok.mp hwritten.checked
  obtain ⟨bzImage, hbzImage, -⟩ := checkFile_ok hkernel
  have hnul : '\x00' ∉ cmdline := hcmdline ▸ Boot.installedCmdline_noNul htemplate.noNul b
  have hspec : (Boot.parse cmdline).rootSpec = some (.uuid (uuidText b)) :=
    hcmdline ▸ Boot.parse_formatCmdline_rootSpec (Boot.fills_uuidText b) htemplate.root
  -- the bootloader, and what the kernel hands on
  obtain ⟨start, hstart, hoptions⟩ := started_of_shows hfw hfile hbzImage
  have hparse : Boot.parse (proc start.options) = Boot.parse cmdline := by
    rw [hoptions, parse_handedOn hproc hnul hline]
  obtain ⟨e, he, hcarries, hdev, hlocated⟩ := located_of_appears happears
  refine ⟨start, hstart, e, he, hcarries, fun fuel hfuel => ?_⟩
  -- the initramfs
  obtain ⟨said, hlocated⟩ := hlocated fuel hfuel
  have hfind : Boot.findAndSwitch m kernel fuel (Boot.parse cmdline) =
      Boot.switchAndExec kernel m.dirExists e.dev (Boot.documentedType cmdline)
        (rootFlags cmdline) (Boot.documentedInit cmdline) := by
    rw [Boot.findAndSwitch_of_root hspec, Boot.rootwaitSecs_eq, hlocated, Boot.mountRoot, hreal,
      Boot.parse_rootfstype, Boot.parse_initPath, Boot.parse_mountFlags]
    rfl
  have hinit : '\x00' ∉ Boot.documentedInit cmdline := noNul_getD hnul (by decide)
  have hmount : '\x00' ∉ e.dev ++ Boot.sysroot ++ Boot.documentedType cmdline := by
    have htype : '\x00' ∉ Boot.documentedType cmdline := noNul_getD hnul (by decide)
    have hsysroot : '\x00' ∉ Boot.sysroot := by decide
    simp only [List.mem_append, not_or]
    exact ⟨⟨hdev, hsysroot⟩, htype⟩
  rw [run_congr hparse, Boot.run_of_boots ⟨hreal, hfirst, haccepts.pseudo⟩ hnormal, hfind]
  obtain ⟨hfilter, hlast⟩ := @switchAndExec_calls kernel m.dirExists e.dev _ _
    (rootFlags cmdline) haccepts hmount hinit
  refine ⟨switchAndExec_ending haccepts hmount hinit, ?_, ?_⟩
  · have hpseudo : Boot.pseudoMounts.filter Boot.Syscall.onSysroot = [] := by decide
    rw [List.filter_append, hpseudo, List.nil_append, hfilter]
  · rw [List.getLast?_append, hlast]
    rfl

/-! ### A stick and a machine -/

/-- The installation of `stickAnswers`, with a UUID of zeros. -/
def zeroStick : Except Failure Text × Disk :=
  perform { stickAnswers with blkid := (.success, uuidText Boot.zeroUuid ++ ['\n']) }
    "/dev/sdb".toList stickPlan stickArtifacts

def zeroLine : Text := "root=UUID=00000000-0000-0000-0000-000000000000 rw quiet".toList

/-- A file in one piece. -/
def wholeFile (content : ByteArray) : Boot.EspFile where
  info := .ok content.data.toList.length
  data := content.data.toList
  reads := [.ok (content.data.toList.length + 1)]

def plainFirmware (esp : Files) : Boot.Firmware where
  openSelf := .ok (some 1)
  openFile path :=
    match esp (slashes path) with
    | none => .error (.other 14)
    | some content => .ok (wholeFile content)
  ownPath := .ok [.other [2, 1], .file "\\EFI\\BOOT\\BOOTX64.EFI".toList]

theorem plainFirmware_shows (esp : Files) : ShowsEsp (plainFirmware esp) esp where
  opens path content h := by
    refine ⟨wholeFile content, [content.data.toList.length + 1], ?_, ⟨rfl, rfl, rfl, ?_, ?_⟩, rfl⟩
    · simp only [plainFirmware, h]
    · intro n hn
      rw [List.mem_singleton.mp hn]
      exact Nat.succ_pos _
    · rw [List.sum_singleton]
      exact Nat.le_succ _
  device := ⟨1, rfl⟩
  fs := rfl
  volume := rfl
  path := ⟨_, rfl⟩
  fits _ := rfl
  loadImage _ := rfl
  openKernel := rfl

/-- The load options up to the first NUL or newline. -/
def shownLine (options : List UInt16) : Text :=
  ((Utf16.decode (options.takeWhile fun u => u ≠ 0 ∧ u ≠ 10)).getD []) ++ ['\n']

theorem shownLine_handsOn : HandsOn shownLine := by
  intro line h
  have hkept : ∀ u ∈ encode line, decide (u ≠ 0 ∧ u ≠ 10) = true := by
    intro u hu
    refine decide_eq_true ⟨?_, ?_⟩
    · rintro rfl
      exact h.noNul (Utf16.mem_of_mem_encode (n := 0) (by decide) hu)
    · rintro rfl
      exact h.noNewline (Utf16.mem_of_mem_encode (n := 10) (by decide) hu)
  have hdecode := Utf16.decode_encode_append line []
  rw [List.append_nil] at hdecode
  rw [shownLine, List.takeWhile_append_of_pos hkept, List.takeWhile_cons_of_neg (by simp),
    List.append_nil, hdecode]
  simp [Utf16.decode]

def rootEntry : Boot.BlockEntry where
  name := "sda2".toList
  uuidFile := none
  devExists := true
  content := some (List.replicate 1080 0 ++ ([0x53, 0xEF] ++ List.replicate 966 0))

/-- The second poll sees the disk. -/
def lateDisk : Boot.Attempts :=
  { Boot.Attempts.slowDisk with
    devices := fun i => ⟨.ok (if i = 0 then [] else [.ok rootEntry]), fun _ => false⟩ }

theorem lateDisk_appears :
    Appears lateDisk Boot.zeroUuid (Boot.rootwait zeroLine) 1 [rootEntry] := by
  have hwait : Boot.rootwait zeroLine = 30 := by decide +kernel
  have hfits : lateDisk.Fits (Boot.rootwait zeroLine) := by
    rw [hwait]
    show Svc.fromSecs 1 + Svc.fromSecs 30 < Svc.fromSecs (2 ^ 63)
    decide
  have hread : Boot.readExt4Uuid rootEntry = some (uuidText Boot.zeroUuid) := by decide +kernel
  refine ⟨hfits, (Boot.Attempts.made_iff hfits).mpr fun j hj => ?_, rfl,
    ⟨rootEntry, List.mem_singleton_self _, Boot.readExt4Uuid_eq_some_iff.mp hread⟩, ?_⟩
  · obtain rfl : j = 0 := by omega
    refine ⟨⟨_, rfl⟩, ?_⟩
    rw [hwait]
    show Svc.fromSecs 1 + Svc.fromMillis (100 * 0) < Svc.fromSecs 1 + Svc.fromSecs 30
    decide
  · intro e he
    rw [List.mem_singleton.mp he]
    decide

theorem zeroStick_complete : zeroStick.1 = .ok zeroLine := by decide +kernel

theorem zeroStick_mounts : zeroStick.2.mounts = [] := by decide +kernel

theorem first_boot_zero :
    zeroStick.1 = .ok zeroLine ∧
    ∃ start, (Boot.tryBoot (plainFirmware zeroStick.2.esp)).1 = some start ∧
      (Boot.run ⟨false, 1, fun _ => true, lateDisk⟩ (fun _ => none) 2
        (shownLine start.options)).ending = .execed ∧
      (Boot.run ⟨false, 1, fun _ => true, lateDisk⟩ (fun _ => none) 2
        (shownLine start.options)).calls.getLast? =
          some (.execve "/sbin/writeonce-pid1".toList ["/sbin/writeonce-pid1".toList]
            Boot.environment) := by
  have hperform : perform
      { stickAnswers with blkid := (.success, uuidText Boot.zeroUuid ++ ['\n']) }
      "/dev/sdb".toList stickPlan stickArtifacts = (.ok zeroLine, zeroStick.2) :=
    Prod.ext zeroStick_complete rfl
  have huuid : readExt4Uuid
      { stickAnswers with blkid := (.success, uuidText Boot.zeroUuid ++ ['\n']) }
      (partitionPaths "/dev/sdb".toList).2 = .ok (uuidText Boot.zeroUuid) := by decide +kernel
  have hline : FitsKernel (fullCmdline (fileBytes zeroLine)) :=
    ⟨by decide +kernel, by decide +kernel, by decide +kernel⟩
  have haccepts : Accepts (fun _ => none) (Boot.documentedInit zeroLine) :=
    ⟨fun _ _ => Or.inl rfl, fun _ _ => Or.inl rfl, fun _ _ => rfl, rfl⟩
  have hinit : Boot.documentedInit zeroLine = "/sbin/writeonce-pid1".toList := by decide +kernel
  obtain ⟨start, hstart, e, he, hcarries, hrun⟩ := first_boot
    (m := ⟨false, 1, fun _ => true, lateDisk⟩) hperform zeroStick_mounts (fun _ => rfl) huuid
    ⟨by decide, by decide +kernel⟩ (by decide +kernel) hline (plainFirmware_shows _)
    shownLine_handsOn rfl rfl lateDisk_appears haccepts
  obtain ⟨hending, -, hlast⟩ := hrun 2 (by omega)
  rw [hinit] at hlast
  exact ⟨zeroStick_complete, start, hstart, hending, hlast⟩

end WriteonceOs.Installer
