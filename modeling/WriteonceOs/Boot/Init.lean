import WriteonceOs.Boot.LocateRoot

/-!
# The run of the initramfs

`/init` mounts the pseudo file systems, parses the command line, looks for the root device, mounts
it and hands over to the init of the real root.  An error on the way ends in the recovery shell; a
panic does not, and takes the kernel with it.

The kernel answers each call with an error or none.  What `create_dir_all` and the loading of
modules do is left out: neither stops the run, and what they change shows in the devices and in
the answers.

* `run_of_located` — the run up to the root device;
* `discovery_safe_iff` — when the search for it is safe.
-/

namespace WriteonceOs.Boot

open WriteonceOs.Library
open Svc (fromMillis fromSecs)

/-! ### Calls -/

inductive Syscall where
  | mount (source target : Text) (fstype : Option Text) (flags : UInt64) (data : Option Text)
  | chdir (path : Text)
  | chroot (path : Text)
  | execve (path : Text) (argv envp : List Text)
  deriving DecidableEq, Repr

abbrev Errno := ℕ

def ebusy : Errno := 16

def msMove : UInt64 := 8192

/-- The error of each call, if it fails. -/
abbrev Kernel := Syscall → Option Errno

inductive Fatal where
  | message (text : Text)
  | discover (e : DiscoverError)
  | os (errno : Errno)
  deriving DecidableEq, Repr

/-- How the run ends. -/
inductive Ending where
  | execed
  -- the error that led there; `wo.recovery` leads there without one
  | recoveryShell (e : Option Fatal)
  | exited
  | panicked
  -- still looking for the root device
  | polling
  deriving DecidableEq, Repr

structure Ran where
  calls : List Syscall
  ending : Ending
  deriving DecidableEq, Repr

namespace Ran

def fatal (e : Fatal) : Ran := ⟨[], .recoveryShell (some e)⟩

def after (call : Syscall) (next : Ran) : Ran := ⟨call :: next.calls, next.ending⟩

end Ran

/-- A call whose error ends the run, unless it is tolerated. -/
def require (kernel : Kernel) (call : Syscall) (tolerated : Errno → Bool) (next : Ran) : Ran :=
  match kernel call with
  | none => next.after call
  | some errno =>
    if tolerated errno then next.after call else (Ran.fatal (.os errno)).after call

/-! ### `mount.rs` -/

/-- A text with a NUL in it is no C string, and the conversion panics. -/
def mount (kernel : Kernel) (source target fstype : Text) (flags : UInt64) (data : Option Text)
    (next : Ran) : Ran :=
  if '\x00' ∈ source ++ target ++ fstype ++ data.getD [] then ⟨[], .panicked⟩
  else
    require kernel (.mount source target (some fstype) flags data) (fun errno => errno == ebusy)
      next

def essentials (kernel : Kernel) (next : Ran) : Ran :=
  mount kernel "proc".toList "/proc".toList "proc".toList 0 none <|
  mount kernel "sysfs".toList "/sys".toList "sysfs".toList 0 none <|
  mount kernel "devtmpfs".toList "/dev".toList "devtmpfs".toList 0 (some "mode=755".toList) next

def moveMount (source target : Text) : Syscall := .mount source target none msMove none

/-! ### `switch_root.rs` -/

def sysroot : Text := "/sysroot".toList

/-- The mounts that are there are moved; what the kernel says is only printed. -/
def moveMounts (dirExists : Text → Bool) : List Text → Ran → Ran
  | [], next => next
  | d :: ds, next =>
    if dirExists d then (moveMounts dirExists ds next).after (moveMount d (sysroot ++ d))
    else moveMounts dirExists ds next

def environment : List Text :=
  ["PATH=/usr/bin:/usr/sbin:/bin:/sbin".toList, "TERM=linux".toList]

def exec (kernel : Kernel) (initPath : Text) : Ran :=
  if '\x00' ∈ initPath then Ran.fatal (.message "init path has NUL".toList)
  else
    let call := Syscall.execve initPath [initPath] environment
    match kernel call with
    | none => (⟨[], .execed⟩ : Ran).after call
    | some errno => (Ran.fatal (.os errno)).after call

/-- A call that has to succeed. -/
def must (kernel : Kernel) (call : Syscall) (next : Ran) : Ran :=
  require kernel call (fun _ => false) next

/-- Steps 2 to 7, behind the mount of the real root. -/
def handOver (kernel : Kernel) (dirExists : Text → Bool) (initPath : Text) : Ran :=
  moveMounts dirExists ["/proc".toList, "/sys".toList, "/dev".toList] <|
  must kernel (.chdir sysroot) <|
  must kernel (moveMount ".".toList "/".toList) <|
  must kernel (.chroot ".".toList) <|
  must kernel (.chdir "/".toList) <|
  exec kernel initPath

def switchAndExec (kernel : Kernel) (dirExists : Text → Bool) (rootDev fstype : Text)
    (mountFlags : UInt64) (initPath : Text) : Ran :=
  mount kernel rootDev sysroot fstype mountFlags none <|
  handOver kernel dirExists initPath

/-! ### `main.rs` -/

/-- What the initramfs is started in. -/
structure Machine where
  -- `WO_INITRAMFS_FAKE` is set
  fake : Bool
  pid : ℕ
  dirExists : Text → Bool
  attempts : Attempts

/-- Mounting the root device, and an error of the search. -/
def mountRoot (m : Machine) (kernel : Kernel) (cmd : CmdLine) : Located → Ran
  | .polling => ⟨[], .polling⟩
  | .panicked => ⟨[], .panicked⟩
  | .returned (.error e) _ => Ran.fatal (.discover e)
  | .returned (.ok dev) _ =>
    if m.fake then ⟨[], .exited⟩
    else
      switchAndExec kernel m.dirExists dev (cmd.rootfstype.getD "ext4".toList) cmd.mountFlags
        cmd.initPath

def findAndSwitch (m : Machine) (kernel : Kernel) (fuel : ℕ) (cmd : CmdLine) : Ran :=
  match cmd.rootSpec with
  | none => Ran.fatal (.message "no root= on /proc/cmdline".toList)
  | some spec => mountRoot m kernel cmd (m.attempts.locateRoot fuel spec cmd.rootwaitSecs)

/-- The run on the text of `/proc/cmdline`, with at most `fuel` polls for the root device. -/
def run (m : Machine) (kernel : Kernel) (fuel : ℕ) (cmdline : Text) : Ran :=
  if !m.fake && m.pid != 1 then
    Ran.fatal (.message
      "not running as PID 1 (set WO_INITRAMFS_FAKE=1 to override)".toList)
  else
    let rest :=
      if (parse cmdline).recovery then ⟨[], .recoveryShell none⟩
      else findAndSwitch m kernel fuel (parse cmdline)
    if m.fake then rest else essentials kernel rest

/-! ### The run up to the root device -/

def pseudoMounts : List Syscall :=
  [.mount "proc".toList "/proc".toList (some "proc".toList) 0 none,
    .mount "sysfs".toList "/sys".toList (some "sysfs".toList) 0 none,
    .mount "devtmpfs".toList "/dev".toList (some "devtmpfs".toList) 0 (some "mode=755".toList)]

/-- A mount that succeeds, or was there already. -/
def Kernel.Mounts (kernel : Kernel) (call : Syscall) : Prop :=
  kernel call = none ∨ kernel call = some ebusy

/-- The initramfs runs as it does at a boot, and the kernel mounts the pseudo file systems. -/
structure Boots (m : Machine) (kernel : Kernel) : Prop where
  real : m.fake = false
  first : m.pid = 1
  pseudo : ∀ call ∈ pseudoMounts, kernel.Mounts call

variable {m : Machine} {kernel : Kernel} {text : Text} {fuel : ℕ}

theorem require_of_mounts {call : Syscall} (h : kernel.Mounts call) (next : Ran) :
    require kernel call (fun errno => errno == ebusy) next = next.after call := by
  rcases h with h | h
  · rw [require, h]
  · rw [require, h]
    rfl

theorem essentials_of_boots (h : ∀ call ∈ pseudoMounts, kernel.Mounts call) (next : Ran) :
    essentials kernel next = ⟨pseudoMounts ++ next.calls, next.ending⟩ := by
  have hmount : ∀ source target fstype : Text, ∀ data : Option Text, ∀ next,
      '\x00' ∉ source ++ target ++ fstype ++ data.getD [] →
      Syscall.mount source target (some fstype) 0 data ∈ pseudoMounts →
      mount kernel source target fstype 0 data next =
        next.after (.mount source target (some fstype) 0 data) := by
    intro source target fstype data next hnul hmem
    rw [mount, if_neg hnul, require_of_mounts (h _ hmem)]
  rw [essentials, hmount _ _ _ _ _ (by decide) (by decide), hmount _ _ _ _ _ (by decide)
    (by decide), hmount _ _ _ _ _ (by decide) (by decide)]
  rfl

/-- **The run up to the root device.** -/
theorem run_of_boots (hboots : Boots m kernel)
    (hrecovery : (words Svc.isWhitespace text).any isRecovery = false) :
    run m kernel fuel text =
      ⟨pseudoMounts ++ (findAndSwitch m kernel fuel (parse text)).calls,
        (findAndSwitch m kernel fuel (parse text)).ending⟩ := by
  rw [run, hboots.real, hboots.first, parse_recovery, hrecovery]
  exact essentials_of_boots hboots.pseudo _

theorem findAndSwitch_of_root {cmd : CmdLine} {spec : RootSpec} (h : cmd.rootSpec = some spec) :
    findAndSwitch m kernel fuel cmd =
      mountRoot m kernel cmd (m.attempts.locateRoot fuel spec cmd.rootwaitSecs) := by
  rw [findAndSwitch, h]

/-! ### The search for the root device -/

/-- The time to wait that the last `writeonce.rootwait=` word asks for. -/
def rootwait (text : Text) : ℕ :=
  match lastValue "writeonce.rootwait=".toList text with
  | none => 30
  | some v => (Svc.parseU64 v).getD 0

/-- The search ends without a panic, and in the recovery shell where it fails. -/
structure DiscoverySafe (a : Attempts) (text : Text) (spec : RootSpec) : Prop where
  noPanic : ∀ fuel, a.locateRoot fuel spec (parse text).rootwaitSecs ≠ .panicked
  ends : ∃ fuel result said,
    a.locateRoot fuel spec (parse text).rootwaitSecs = .returned result said
  recovers : ∀ m kernel fuel e said, m.attempts = a → Boots m kernel →
    (words Svc.isWhitespace text).any isRecovery = false → (parse text).rootSpec = some spec →
    a.locateRoot fuel spec (parse text).rootwaitSecs = .returned (.error e) said →
    (run m kernel fuel text).ending = .recoveryShell (some (.discover e))

theorem rootwaitSecs_eq (text : Text) : (parse text).rootwaitSecs = rootwait text := by
  rw [parse_rootwaitSecs, rootwait]
  cases lastValue "writeonce.rootwait=".toList text <;> rfl

/-- **The search for the root device is safe** exactly when the clock at its start and the time to
wait stay below the 2^63 seconds of an instant. -/
theorem discovery_safe_iff (a : Attempts) (hsleep : a.Sleeps) (text : Text) (spec : RootSpec) :
    DiscoverySafe a text spec ↔ a.Fits (rootwait text) := by
  rw [← rootwaitSecs_eq]
  constructor
  · intro h
    by_contra hfits
    exact h.noPanic 0 (Attempts.locateRoot_of_not_fits hfits 0)
  · intro hfits
    refine ⟨Attempts.locateRoot_ne_panicked hfits, ?_, ?_⟩
    · exact ⟨_, Attempts.returned_of_sleeps hsleep hfits⟩
    · intro m kernel fuel e said hm hboots hrecovery hspec hlocated
      rw [run_of_boots hboots hrecovery]
      show (findAndSwitch m kernel fuel (parse text)).ending = _
      rw [findAndSwitch_of_root hspec, hm, hlocated]
      rfl

theorem slowDisk_sleeps : Attempts.slowDisk.Sleeps := by
  intro i
  show fromSecs 1 + fromMillis (100 * i) + fromMillis 100 ≤ fromSecs 1 + fromMillis (100 * (i + 1))
  rw [Attempts.fromMillis_succ, Nat.add_assoc]

theorem discovery_safe_iff_slowDisk :
    DiscoverySafe Attempts.slowDisk "root=/dev/sda2 rw".toList (.device "/dev/sda2".toList) :=
  (discovery_safe_iff Attempts.slowDisk slowDisk_sleeps _ _).mpr
    (show fromSecs 1 + fromSecs (rootwait _) < fromSecs (2 ^ 63) by decide)

def bootMachine : Machine := ⟨false, 1, fun _ => true, Attempts.slowDisk⟩

/-- No time to wait is too long for the parser, but for the clock. -/
theorem huge_rootwait_panics :
    ¬ DiscoverySafe Attempts.slowDisk
      "root=/dev/sda2 writeonce.rootwait=18446744073709551615".toList
      (.device "/dev/sda2".toList) ∧
    (run bootMachine (fun _ => none) 1
      "root=/dev/sda2 writeonce.rootwait=18446744073709551615".toList).ending = .panicked := by
  refine ⟨fun h => h.noPanic 0 (Attempts.locateRoot_of_not_fits ?_ 0), by decide +kernel⟩
  rw [rootwaitSecs_eq]
  show ¬ Attempts.slowDisk.start + fromSecs (rootwait _) < fromSecs (2 ^ 63)
  decide

end WriteonceOs.Boot
