import WriteonceOs.Installer.FrontEnds
import WriteonceOs.Library.Paths

/-!
# The installation up to the wipe

The command `install` from its start to the first command that writes to a device.  The manifest,
the digests, the specification and the hash program are what the outside answers; the devices and
the mounts do not change while the operator decides.

* `verified` — root, the manifest, the four digests and the specification;
* `gather` — the device and the plan, from the prompts or from the form;
* `install`, `issued` — how it ends, and what is run;
* `install_wiped_iff` — what a wipe needs;
* `Gate`, `Gated` — what it has to need, and `gated_iff` — when that is the same.
-/

namespace WriteonceOs.Installer

open WriteonceOs.Library
open WriteonceOs.Svc (trim parseU64)

/-! ### The outside -/

/-- The command line. -/
structure Args where
  source : Text
  target : Option Text := none
  spec : Option Text := none
  yes : Bool := false
  dryRun : Bool := false
  forceNonRemovable : Bool := false
  noTui : Bool := false
  deriving DecidableEq, Repr

/-- The artifacts of a bundle, each with the digest that the manifest has for it. -/
structure Manifest where
  kernel : Text
  initramfs : Text
  bootloader : Text
  sysroot : Text
  kernelSha256 : Text
  initramfsSha256 : Text
  bootloaderSha256 : Text
  sysrootSha256 : Text
  deriving DecidableEq, Repr

/-- What the program finds, and what the operator answers. -/
structure World where
  isRoot : Bool
  loadManifest : Text → Except Failure Manifest
  sha256File : Text → Except Failure Text
  loadSpec : Text → Except Failure TargetOsSpec
  isTty : Bool
  host : Host
  openssl : Text → Except Failure Text
  replies : Replies
  keys : List KeyEvent

/-! ### Before the device is chosen -/

/-- The artifacts in the order of their verification: label, path and expected digest. -/
def artifacts (dir : Text) (m : Manifest) : List (Text × Text × Text) :=
  [("kernel".toList, Paths.join dir m.kernel, m.kernelSha256),
    ("initramfs".toList, Paths.join dir m.initramfs, m.initramfsSha256),
    ("bootloader".toList, Paths.join dir m.bootloader, m.bootloaderSha256),
    ("sysroot".toList, Paths.join dir m.sysroot, m.sysrootSha256)]

def eqIgnoreAsciiCase (a b : Text) : Bool := a.map Char.toLower = b.map Char.toLower

def verifyArtifacts (sha256File : Text → Except Failure Text) :
    List (Text × Text × Text) → Except Failure Unit
  | [] => .ok ()
  | (label, path, expected) :: rest =>
    match sha256File path with
    | .error e => .error e
    | .ok actual =>
      if eqIgnoreAsciiCase actual expected = false then
        .error ("SHA-256 mismatch on ".toList ++ label ++ ": manifest says ".toList ++ expected ++
          ", got ".toList ++ actual)
      else verifyArtifacts sha256File rest

def requireRoot (w : World) : Except Failure Unit :=
  if w.isRoot then .ok () else .error "writeonce-installer must run as root (try `sudo`).".toList

def readSpec (args : Args) (w : World) : Except Failure TargetOsSpec :=
  match args.spec with
  | some path => w.loadSpec path
  | none => .ok {}

/-- Steps 1 to 3, up to the specification. -/
def verified (args : Args) (w : World) : Except Failure TargetOsSpec := do
  requireRoot w
  let manifest ← w.loadManifest args.source
  verifyArtifacts w.sha256File (artifacts args.source manifest)
  readSpec args w

/-! ### The device and the plan -/

def cliPath (args : Args) (w : World) : Bool :=
  args.noTui || args.target.isSome || args.yes || !w.isTty

/-- One of several devices, by its number. -/
def chooseDevice (devices : List UsbDevice) : Prompt UsbDevice := do
  let line ← readLine
  match parseU64 (trim line) with
  | none => fail "expected a number".toList
  | some i =>
    match devices[i]? with
    | none => fail "index out of range".toList
    | some device => pure device

def selectTarget (host : Host) (target : Option Text) (forceNonRemovable : Bool) :
    Prompt UsbDevice :=
  match target with
  | some path =>
    match lookup host path with
    | none => fail ("device ".toList ++ path ++ " not found under /sys/block".toList)
    | some device =>
      if device.removable = false ∧ forceNonRemovable = false then
        fail (device.path ++ " is not removable. Pass --force-non-removable ".toList ++
          "if you really mean to install onto an internal disk.".toList)
      else pure device
  | none =>
    match listRemovable host with
    | .error e => fail e
    | .ok [] => fail "no removable devices found; specify --target /dev/sdX explicitly".toList
    | .ok [device] => pure device
    | .ok devices => chooseDevice devices

def safetyContext (host : Host) (device : UsbDevice) : Prompt Unit := fun replies =>
  match safetyCheck host device with
  | .error _ => .error "safety check on selected device".toList
  | .ok _ => .ok ((), replies)

/-- The way of the prompts. -/
def cliGather (args : Args) (w : World) (spec : TargetOsSpec) :
    Prompt (UsbDevice × InstallationPlan) := do
  let device ← selectTarget w.host args.target args.forceNonRemovable
  safetyContext w.host device
  let plan ← gatherPlan w.openssl spec device
  pure (device, plan)

/-- The devices that the form offers. -/
def eligible (host : Host) (devices : List UsbDevice) : List UsbDevice :=
  devices.filter fun device => (safetyCheck host device).isOk

/-- The way of the form. -/
def tuiGather (w : World) (spec : TargetOsSpec) :
    Option (Except Failure (UsbDevice × InstallationPlan)) :=
  match listRemovable w.host with
  | .error e => some (.error e)
  | .ok devices =>
    if devices = [] then
      some (.error "no removable devices found; insert a USB and re-run".toList)
    else if eligible w.host devices = [] then
      some (.error "no eligible removable devices (all currently mounted?)".toList)
    else
      match runTui w.openssl spec (eligible w.host devices) w.keys with
      | none => none
      | some (.error e) => some (.error e)
      | some (.ok none) => some (.error "user cancelled the TUI; nothing written".toList)
      | some (.ok (some pair)) => some (.ok pair)

/-- The device and the plan, with what is left of the replies; nothing while the form is open. -/
def gather (args : Args) (w : World) (spec : TargetOsSpec) :
    Option (Except Failure ((UsbDevice × InstallationPlan) × Replies)) :=
  if cliPath args w then some (cliGather args w spec w.replies)
  else (tuiGather w spec).map fun result => result.map fun pair => (pair, w.replies)

/-! ### The wipe -/

def confirmWipe : Prompt Bool := do
  let line ← readLine
  pure (trim line = "yes".toList)

inductive Ending where
  /-- The form is still open. -/
  | waiting
  | refused (e : Failure)
  /-- A dry run, stopped after the device was shown. -/
  | stopped (device : UsbDevice)
  /-- Step 5, and what comes after it. -/
  | wiped (device : UsbDevice) (plan : InstallationPlan)

/-- Step 4: the device is shown, and the wipe confirmed. -/
def confirmed (args : Args) (w : World) (device : UsbDevice) (plan : InstallationPlan)
    (replies : Replies) : Ending :=
  if args.dryRun then .stopped device
  else if args.yes = false ∧ cliPath args w = true then
    match confirmWipe replies with
    | .error e => .refused e
    | .ok (false, _) => .refused "user declined; nothing written".toList
    | .ok (true, _) => .wiped device plan
  else .wiped device plan

def install (args : Args) (w : World) : Ending :=
  match verified args w with
  | .error e => .refused e
  | .ok spec =>
    match gather args w spec with
    | none => .waiting
    | some (.error e) => .refused e
    | some (.ok ((device, plan), replies)) => confirmed args w device plan replies

/-- The device that step 4 shows. -/
def shown (args : Args) (w : World) : Option UsbDevice :=
  match verified args w with
  | .error _ => none
  | .ok spec =>
    match gather args w spec with
    | some (.ok ((device, _), _)) => some device
    | _ => none

/-- A command with its arguments. -/
abbrev Command := List Text

def zapAll (device : Text) : Command := ["sgdisk".toList, "--zap-all".toList, device]

def newPartitions (device : Text) (plan : PartitionPlan) : Command :=
  ["sgdisk".toList, "--new=1:0:+".toList ++ decimal plan.espMib.toNat ++ ['M'],
    "--typecode=1:EF00".toList, "--change-name=1:WRITEONCE-ESP".toList,
    match plan.rootGib with
    | none => "--new=2:0:0".toList
    | some gib => "--new=2:0:+".toList ++ decimal gib.toNat ++ ['G'],
    "--typecode=2:8300".toList, "--change-name=2:writeonce-root".toList, device]

/-- The commands of `create_gpt`, up to the first that fails. -/
def createGpt (succeeds : Command → Bool) (device : Text) (plan : PartitionPlan) : List Command :=
  if succeeds (zapAll device) = false then [zapAll device]
  else if succeeds (newPartitions device plan) = false then
    [zapAll device, newPartitions device plan]
  else [zapAll device, newPartitions device plan, ["partprobe".toList, device]]

/-- The commands that are run on a device, up to the end of step 5. -/
def issued (succeeds : Command → Bool) : Ending → List Command
  | .wiped device plan => createGpt succeeds device.path plan.partition
  | _ => []

/-! ### What is checked -/

section Checks

variable {args : Args} {w : World} {host : Host} {device : UsbDevice}

/-- The mounts can be read, and show nothing of the device. -/
def Unmounted (host : Host) (device : UsbDevice) : Prop :=
  ∃ mounts, host.mounts = .ok mounts ∧ ∀ line ∈ lines mounts, isMounted device.path line = false

theorem safetyCheck_ok_iff : safetyCheck host device = .ok () ↔
    host.deviceExists device.path = true ∧ device.removable = true ∧ Unmounted host device := by
  cases hexists : host.deviceExists device.path with
  | false => exact iff_of_false (fun h => by simp [safetyCheck, hexists] at h) nofun
  | true =>
    cases hremovable : device.removable with
    | false => exact iff_of_false (fun h => by simp [safetyCheck, hexists, hremovable] at h) nofun
    | true =>
      simp only [true_and]
      cases hmounts : host.mounts with
      | error e =>
        refine iff_of_false (fun h => ?_) (fun h => ?_)
        · simp [safetyCheck, hexists, hremovable, hmounts] at h
        · obtain ⟨mounts, hread, -⟩ := h
          rw [hmounts] at hread
          cases hread
      | ok mounts =>
        have herror := safetyCheck_error_iff hexists hremovable hmounts
        have hscan : Unmounted host device ↔
            ¬ ∃ line ∈ lines mounts, isMounted device.path line = true := by
          constructor
          · intro h hmounted
            obtain ⟨mounts', hread, hnone⟩ := h
            rw [hmounts] at hread
            cases hread
            obtain ⟨line, hline, hyes⟩ := hmounted
            rw [hnone line hline] at hyes
            cases hyes
          · intro h
            refine ⟨mounts, hmounts, fun line hline => ?_⟩
            by_contra hyes
            exact h ⟨line, hline, Bool.eq_true_of_not_eq_false hyes⟩
        rw [hscan, ← herror]
        cases safetyCheck host device with
        | error e => exact iff_of_false nofun (fun h => h ⟨e, rfl⟩)
        | ok u => exact iff_of_true rfl (fun ⟨e, he⟩ => nomatch he)

/-- Every artifact has the digest that the manifest has for it. -/
def DigestsMatch (args : Args) (w : World) : Prop :=
  ∃ manifest, w.loadManifest args.source = .ok manifest ∧
    ∀ a ∈ artifacts args.source manifest, ∃ actual,
      w.sha256File a.2.1 = .ok actual ∧ eqIgnoreAsciiCase actual a.2.2 = true

theorem verifyArtifacts_ok_iff {sha256File : Text → Except Failure Text}
    {as : List (Text × Text × Text)} {u : Unit} : verifyArtifacts sha256File as = .ok u ↔
      ∀ a ∈ as, ∃ actual, sha256File a.2.1 = .ok actual ∧
        eqIgnoreAsciiCase actual a.2.2 = true := by
  induction as with
  | nil => exact iff_of_true rfl nofun
  | cons a as ih =>
    obtain ⟨label, path, expected⟩ := a
    rw [List.forall_mem_cons, ← ih, verifyArtifacts]
    split
    case h_1 e hread =>
      refine iff_of_false nofun (fun h => ?_)
      obtain ⟨actual, hactual, -⟩ := h.1
      exact nomatch hread.symm.trans hactual
    case h_2 actual hread =>
      split
      case isTrue hdigest =>
        refine iff_of_false nofun (fun h => ?_)
        obtain ⟨actual', hactual, hyes⟩ := h.1
        cases hread.symm.trans hactual
        exact nomatch hdigest.symm.trans hyes
      case isFalse hdigest =>
        exact ⟨fun h => ⟨⟨actual, hread, Bool.eq_true_of_not_eq_false hdigest⟩, h⟩, fun h => h.2⟩

/-- **What the first steps verify.** -/
theorem verified_ok_iff {spec : TargetOsSpec} : verified args w = .ok spec ↔
    w.isRoot = true ∧ DigestsMatch args w ∧ readSpec args w = .ok spec := by
  rw [verified, bind_eq_ok]
  constructor
  · intro h
    obtain ⟨u, hroot, h⟩ := h
    obtain ⟨manifest, hmanifest, h⟩ := bind_eq_ok.mp h
    obtain ⟨u', hverify, hspec⟩ := bind_eq_ok.mp h
    refine ⟨?_, ⟨manifest, hmanifest, verifyArtifacts_ok_iff.mp hverify⟩, hspec⟩
    by_contra hnot
    rw [requireRoot, if_neg hnot] at hroot
    cases hroot
  · intro h
    obtain ⟨hroot, ⟨manifest, hmanifest, hdigests⟩, hspec⟩ := h
    exact ⟨(), if_pos hroot, bind_eq_ok.mpr ⟨manifest, hmanifest,
      bind_eq_ok.mpr ⟨(), verifyArtifacts_ok_iff.mpr hdigests, hspec⟩⟩⟩

/-- Whether the operator types it. -/
def TypedYes (replies : Replies) : Prop :=
  ∃ line rest, replies.lines = .ok line :: rest ∧ trim line = "yes".toList

theorem confirmWipe_true_iff {replies : Replies} :
    (∃ r, confirmWipe replies = .ok (true, r)) ↔ TypedYes replies := by
  obtain ⟨lines, passwords⟩ := replies
  cases lines with
  | nil =>
    refine iff_of_false (fun h => ?_) (fun h => ?_)
    · obtain ⟨r, h⟩ := h
      obtain ⟨line, r', hread, h⟩ := Dialogue.bind_ok_iff.mp h
      cases hread
      have hyes : decide (trim [] = "yes".toList) = true := congrArg (·.1) (Except.ok.inj h)
      exact absurd hyes (by decide)
    · obtain ⟨line, rest, h, -⟩ := h
      cases h
  | cons first rest =>
    cases first with
    | error e =>
      refine iff_of_false (fun h => ?_) (fun h => ?_)
      · obtain ⟨r, h⟩ := h
        obtain ⟨line, r', hread, h⟩ := Dialogue.bind_ok_iff.mp h
        cases hread
      · obtain ⟨line, rest, h, -⟩ := h
        cases h
    | ok line =>
      constructor
      · intro h
        obtain ⟨r, h⟩ := h
        obtain ⟨line', r', hread, h⟩ := Dialogue.bind_ok_iff.mp h
        cases hread
        have hyes : decide (trim line = "yes".toList) = true := congrArg (·.1) (Except.ok.inj h)
        exact ⟨line, rest, rfl, of_decide_eq_true hyes⟩
      · intro h
        obtain ⟨line', rest', hlines, hyes⟩ := h
        cases hlines
        refine ⟨⟨rest, passwords⟩, Dialogue.bind_ok_iff.mpr ⟨line, _, rfl, ?_⟩⟩
        rw [decide_eq_true hyes]
        rfl

end Checks

/-! ### What a wipe needs -/

section Wipe

variable {args : Args} {w : World} {device : UsbDevice} {plan : InstallationPlan}

/-- **A plan was accepted** for the device, and the wipe confirmed: the device is chosen with its
removability left aside. -/
inductive Accepted (args : Args) (w : World) (device : UsbDevice) (plan : InstallationPlan) : Prop
  | prompts (spec : TargetOsSpec) (r r' : Replies) (cli : cliPath args w = true)
      (read : readSpec args w = .ok spec)
      (chosen : selectTarget w.host args.target true w.replies = .ok (device, r))
      (gathered : gatherPlan w.openssl spec device r = .ok (plan, r'))
      (confirmed : args.yes = true ∨ TypedYes r')
  | form (spec : TargetOsSpec) (devices : List UsbDevice) (tui : cliPath args w = false)
      (read : readSpec args w = .ok spec) (listed : listRemovable w.host = .ok devices)
      (confirmed : runTui w.openssl spec (eligible w.host devices) w.keys =
        some (.ok (some (device, plan))))

/-- **What a wipe has to need.** -/
structure Gate (args : Args) (w : World) (device : UsbDevice) (plan : InstallationPlan) : Prop where
  root : w.isRoot = true
  digests : DigestsMatch args w
  exist : w.host.deviceExists device.path = true
  unmounted : Unmounted w.host device
  removable : device.removable = true ∨ (args.forceNonRemovable = true ∧
    ∃ path, args.target = some path ∧ lookup w.host path = some device)
  accepted : Accepted args w device plan
  wet : args.dryRun = false

/-- The removability of a target is only asked for without the flag. -/
theorem selectTarget_removable {host : Host} {target : Option Text} {force : Bool} {r r' : Replies}
    (h : device.removable = true) : selectTarget host target force r = .ok (device, r') ↔
      selectTarget host target true r = .ok (device, r') := by
  cases target with
  | none => rfl
  | some path =>
    unfold selectTarget
    simp only
    cases lookup host path with
    | none => rfl
    | some found =>
      simp only
      rw [if_neg (c := found.removable = false ∧ true = false) (by simp)]
      split
      case isFalse => rfl
      case isTrue hrefused =>
        refine iff_of_false nofun (fun heq => ?_)
        cases heq
        rw [h] at hrefused
        exact absurd hrefused.1 (by decide)

theorem safetyContext_ok_iff {host : Host} {r r' : Replies} {u : Unit} :
    safetyContext host device r = .ok (u, r') ↔ safetyCheck host device = .ok () ∧ r' = r := by
  unfold safetyContext
  cases safetyCheck host device with
  | error e => exact iff_of_false nofun (fun h => nomatch h.1)
  | ok u' =>
    constructor
    · intro h
      cases h
      exact ⟨rfl, rfl⟩
    · intro h
      rw [h.2]

/-- **The way of the prompts**: chosen, checked and planned for. -/
theorem cliGather_ok_iff {spec : TargetOsSpec} {r' : Replies} :
    cliGather args w spec w.replies = .ok ((device, plan), r') ↔
      safetyCheck w.host device = .ok () ∧ ∃ r,
        selectTarget w.host args.target true w.replies = .ok (device, r) ∧
          gatherPlan w.openssl spec device r = .ok (plan, r') := by
  rw [cliGather, Dialogue.bind_ok_iff]
  constructor
  · intro h
    obtain ⟨found, r, hselect, h⟩ := h
    obtain ⟨u, r₁, hcheck, h⟩ := Dialogue.bind_ok_iff.mp h
    obtain ⟨plan', r₂, hplan, h⟩ := Dialogue.bind_ok_iff.mp h
    cases h
    obtain ⟨hsafe, rfl⟩ := safetyContext_ok_iff.mp hcheck
    exact ⟨hsafe, r₁, (selectTarget_removable (safetyCheck_ok_iff.mp hsafe).2.1).mp hselect, hplan⟩
  · intro h
    obtain ⟨hsafe, r, hselect, hplan⟩ := h
    refine ⟨device, r, (selectTarget_removable (safetyCheck_ok_iff.mp hsafe).2.1).mpr hselect, ?_⟩
    exact Dialogue.bind_ok_iff.mpr ⟨(), r, safetyContext_ok_iff.mpr ⟨hsafe, rfl⟩,
      Dialogue.bind_ok_iff.mpr ⟨plan, r', hplan, rfl⟩⟩

/-- What the form was confirmed for is one of the devices that it was given. -/
theorem mem_of_runTui {openssl : Text → Except Failure Text} {spec : TargetOsSpec}
    {devices : List UsbDevice} {keys : List KeyEvent}
    (h : runTui openssl spec devices keys = some (.ok (some (device, plan)))) :
    device ∈ devices := by
  have hne : devices ≠ [] := by
    rintro rfl
    cases h
  obtain ⟨-, hdevice, -⟩ := (runTui_confirmed_iff hne).mp h
  have hset : (runKeys (App.new spec devices hne) keys).setting =
      (devices, spec.user.bind (·.shell), spec.user.bind (·.groups)) :=
    App.setting_runKeys keys
  have hmem : (runKeys (App.new spec devices hne) keys).currentDevice ∈
      (runKeys (App.new spec devices hne) keys).devices := List.get_mem _ _
  rwa [show (runKeys (App.new spec devices hne) keys).devices = devices from
    congrArg (·.1) hset, hdevice] at hmem

theorem mem_eligible {host : Host} {devices : List UsbDevice} :
    device ∈ eligible host devices ↔ device ∈ devices ∧ safetyCheck host device = .ok () := by
  rw [eligible, List.mem_filter]
  refine and_congr_right fun _ => ?_
  cases safetyCheck host device with
  | error e => exact iff_of_false nofun nofun
  | ok u => exact iff_of_true rfl rfl

/-- **The way of the form**: confirmed for one of the devices that are safe. -/
theorem tuiGather_ok_iff {spec : TargetOsSpec} :
    tuiGather w spec = some (.ok (device, plan)) ↔
      ∃ devices, listRemovable w.host = .ok devices ∧
        runTui w.openssl spec (eligible w.host devices) w.keys =
          some (.ok (some (device, plan))) := by
  unfold tuiGather
  cases listRemovable w.host with
  | error e => exact iff_of_false nofun (fun ⟨_, h, _⟩ => nomatch h)
  | ok devices =>
    have hgiven : (∃ devices', Except.ok (ε := Failure) devices = .ok devices' ∧
        runTui w.openssl spec (eligible w.host devices') w.keys =
          some (.ok (some (device, plan)))) ↔
        runTui w.openssl spec (eligible w.host devices) w.keys =
          some (.ok (some (device, plan))) := by
      constructor
      · intro h
        obtain ⟨devices', heq, h⟩ := h
        cases heq
        exact h
      · exact fun h => ⟨devices, rfl, h⟩
    rw [hgiven]
    simp only
    split
    case isTrue hnil =>
      refine iff_of_false nofun (fun h => ?_)
      have hmem := (mem_eligible.mp (mem_of_runTui h)).1
      rw [hnil] at hmem
      cases hmem
    case isFalse =>
      split
      case isTrue hnil =>
        refine iff_of_false nofun (fun h => ?_)
        have hmem := mem_of_runTui h
        rw [hnil] at hmem
        cases hmem
      case isFalse =>
        cases runTui w.openssl spec (eligible w.host devices) w.keys with
        | none => exact iff_of_false nofun nofun
        | some result =>
          cases result with
          | error e => exact iff_of_false nofun nofun
          | ok choice =>
            cases choice with
            | none => exact iff_of_false nofun nofun
            | some pair => simp

theorem gather_ok_iff {spec : TargetOsSpec} {r : Replies} :
    gather args w spec = some (.ok ((device, plan), r)) ↔
      (cliPath args w = true ∧ cliGather args w spec w.replies = .ok ((device, plan), r)) ∨
        (cliPath args w = false ∧ tuiGather w spec = some (.ok (device, plan)) ∧
          r = w.replies) := by
  unfold gather
  cases cliPath args w with
  | true => simp
  | false =>
    rw [if_neg (by simp)]
    simp only [Bool.false_eq_true, false_and, false_or, true_and]
    cases tuiGather w spec with
    | none => exact iff_of_false nofun (fun h => nomatch h.1)
    | some result =>
      cases result with
      | error e => exact iff_of_false nofun (fun h => nomatch h.1)
      | ok pair =>
        constructor
        · intro h
          cases h
          exact ⟨rfl, rfl⟩
        · intro h
          obtain ⟨hpair, rfl⟩ := h
          cases hpair
          rfl

theorem confirmed_wiped_iff {found : UsbDevice} {made : InstallationPlan} {r : Replies} :
    confirmed args w found made r = .wiped device plan ↔
      (found = device ∧ made = plan) ∧ args.dryRun = false ∧
        (cliPath args w = true → args.yes = true ∨ TypedYes r) := by
  unfold confirmed
  split
  case isTrue hdry =>
    refine iff_of_false nofun (fun h => ?_)
    rw [hdry] at h
    exact nomatch h.2.1
  case isFalse hwet =>
    have hwiped : Ending.wiped found made = .wiped device plan ↔ found = device ∧ made = plan := by
      simp
    have hdry : args.dryRun = false := Bool.eq_false_of_not_eq_true hwet
    split
    case isTrue hask =>
      rw [← confirmWipe_true_iff]
      split
      case h_1 e hread =>
        refine iff_of_false nofun (fun h => ?_)
        obtain hyes | ⟨r', hyes⟩ := h.2.2 hask.2
        · exact nomatch hask.1.symm.trans hyes
        · exact nomatch hread.symm.trans hyes
      case h_2 r' hread =>
        refine iff_of_false nofun (fun h => ?_)
        obtain hyes | ⟨r'', hyes⟩ := h.2.2 hask.2
        · exact nomatch hask.1.symm.trans hyes
        · exact nomatch hread.symm.trans hyes
      case h_3 r' hread =>
        rw [hwiped]
        exact (and_iff_left ⟨hdry, fun _ => .inr ⟨r', hread⟩⟩).symm
    case isFalse hask =>
      rw [hwiped]
      refine (and_iff_left ⟨hdry, fun hcli => .inl ?_⟩).symm
      by_contra hno
      exact hask ⟨Bool.eq_false_of_not_eq_true hno, hcli⟩

/-- A wipe is what comes of a plan that was gathered and confirmed. -/
theorem install_wiped_of_gather : install args w = .wiped device plan ↔
    ∃ spec r, verified args w = .ok spec ∧ gather args w spec = some (.ok ((device, plan), r)) ∧
      args.dryRun = false ∧ (cliPath args w = true → args.yes = true ∨ TypedYes r) := by
  unfold install
  split
  case h_1 e hverified =>
    refine iff_of_false nofun (fun h => ?_)
    obtain ⟨spec, r, hok, -⟩ := h
    exact nomatch hverified.symm.trans hok
  case h_2 spec hverified =>
    have hspec {spec' : TargetOsSpec} (h : verified args w = .ok spec') : spec = spec' :=
      Except.ok.inj (hverified.symm.trans h)
    split
    case h_1 hgather =>
      refine iff_of_false nofun (fun h => ?_)
      obtain ⟨spec', r, hok, hgathered, -⟩ := h
      obtain rfl := hspec hok
      exact nomatch hgather.symm.trans hgathered
    case h_2 e hgather =>
      refine iff_of_false nofun (fun h => ?_)
      obtain ⟨spec', r, hok, hgathered, -⟩ := h
      obtain rfl := hspec hok
      exact nomatch hgather.symm.trans hgathered
    case h_3 found made r hgather =>
      rw [confirmed_wiped_iff]
      constructor
      · intro h
        obtain ⟨⟨rfl, rfl⟩, hwet, hyes⟩ := h
        exact ⟨spec, r, hverified, hgather, hwet, hyes⟩
      · intro h
        obtain ⟨spec', r', hok, hgathered, hwet, hyes⟩ := h
        obtain rfl := hspec hok
        cases hgather.symm.trans hgathered
        exact ⟨⟨rfl, rfl⟩, hwet, hyes⟩

/-- **What a wipe needs**: the gate, and a removable device. -/
theorem install_wiped_iff :
    install args w = .wiped device plan ↔ Gate args w device plan ∧ device.removable = true := by
  rw [install_wiped_of_gather]
  constructor
  · intro h
    obtain ⟨spec, r, hverified, hgather, hwet, hyes⟩ := h
    obtain ⟨hroot, hdigests, hread⟩ := verified_ok_iff.mp hverified
    rcases gather_ok_iff.mp hgather with ⟨hcli, h⟩ | ⟨htui, h, rfl⟩
    · obtain ⟨hsafe, r₁, hselect, hplan⟩ := cliGather_ok_iff.mp h
      obtain ⟨hexists, hremovable, hmounts⟩ := safetyCheck_ok_iff.mp hsafe
      exact ⟨⟨hroot, hdigests, hexists, hmounts, .inl hremovable,
        .prompts spec r₁ r hcli hread hselect hplan (hyes hcli), hwet⟩, hremovable⟩
    · obtain ⟨devices, hlisted, hrun⟩ := tuiGather_ok_iff.mp h
      obtain ⟨-, hsafe⟩ := mem_eligible.mp (mem_of_runTui hrun)
      obtain ⟨hexists, hremovable, hmounts⟩ := safetyCheck_ok_iff.mp hsafe
      exact ⟨⟨hroot, hdigests, hexists, hmounts, .inl hremovable,
        .form spec devices htui hread hlisted hrun, hwet⟩, hremovable⟩
  · intro h
    obtain ⟨hgate, hremovable⟩ := h
    have hsafe : safetyCheck w.host device = .ok () :=
      safetyCheck_ok_iff.mpr ⟨hgate.exist, hremovable, hgate.unmounted⟩
    have hverified {spec : TargetOsSpec} (hread : readSpec args w = .ok spec) :
        verified args w = .ok spec :=
      verified_ok_iff.mpr ⟨hgate.root, hgate.digests, hread⟩
    cases hgate.accepted with
    | prompts spec r r' hcli hread hselect hplan hyes =>
      refine ⟨spec, r', hverified hread, ?_, hgate.wet, fun _ => hyes⟩
      exact gather_ok_iff.mpr (.inl ⟨hcli, cliGather_ok_iff.mpr ⟨hsafe, r, hselect, hplan⟩⟩)
    | form spec devices htui hread hlisted hrun =>
      refine ⟨spec, w.replies, hverified hread, ?_, hgate.wet, fun hcli => ?_⟩
      · exact gather_ok_iff.mpr (.inr ⟨htui, tuiGather_ok_iff.mpr ⟨devices, hlisted, hrun⟩, rfl⟩)
      · exact nomatch htui.symm.trans hcli

theorem shown_of_wiped (h : install args w = .wiped device plan) :
    shown args w = some device := by
  obtain ⟨spec, r, hverified, hgather, -⟩ := install_wiped_of_gather.mp h
  rw [shown, hverified]
  simp only [hgather]

/-- A gate that stands open stands open for one device. -/
theorem Gate.device_eq {device' : UsbDevice} {plan' : InstallationPlan}
    (h : Gate args w device plan) (h' : Gate args w device' plan') : device = device' := by
  cases h.accepted with
  | prompts spec r r₁ hcli hread hselect _ _ =>
    cases h'.accepted with
    | prompts spec' r' r₁' hcli' hread' hselect' _ _ =>
      cases hselect.symm.trans hselect'
      rfl
    | form spec' devices' htui _ _ _ => exact nomatch htui.symm.trans hcli
  | form spec devices htui hread hlisted hrun =>
    cases h'.accepted with
    | prompts spec' r' r₁' hcli _ _ _ _ => exact nomatch htui.symm.trans hcli
    | form spec' devices' _ hread' hlisted' hrun' =>
      cases hread.symm.trans hread'
      cases hlisted.symm.trans hlisted'
      cases hrun.symm.trans hrun'
      rfl

end Wipe

/-! ### The gate -/

section Gated

variable {succeeds : Command → Bool} {args : Args} {w : World}

/-- **The gate before the wipe.**  The first command wipes the device for which the gate stands
open; without one nothing is run on a device; and the device of every command is the one that was
checked, and that the steps before the wipe show. -/
structure Gated (succeeds : Command → Bool) (args : Args) (w : World) : Prop where
  first : ∀ path, (issued succeeds (install args w)).head? = some (zapAll path) ↔
    ∃ device plan, device.path = path ∧ Gate args w device plan
  untouched : (¬ ∃ device plan, Gate args w device plan) → issued succeeds (install args w) = []
  checked : ∀ command ∈ issued succeeds (install args w), ∃ device,
    command.getLast? = some device.path ∧ shown args w = some device ∧
      safetyCheck w.host device = .ok ()

theorem createGpt_head (device : Text) (plan : PartitionPlan) :
    (createGpt succeeds device plan).head? = some (zapAll device) := by
  unfold createGpt
  split
  · rfl
  · split
    · rfl
    · rfl

theorem createGpt_device {device : Text} {plan : PartitionPlan} {command : Command}
    (h : command ∈ createGpt succeeds device plan) : command.getLast? = some device := by
  have hall : command = zapAll device ∨ command = newPartitions device plan ∨
      command = ["partprobe".toList, device] := by
    unfold createGpt at h
    split at h
    · exact .inl (List.mem_singleton.mp h)
    · split at h
      · simp only [List.mem_cons, List.not_mem_nil, or_false] at h
        exact h.imp_right .inl
      · simpa using h
  rcases hall with rfl | rfl | rfl
  · rfl
  · rfl
  · rfl

/-- Commands are run on a device when it is wiped. -/
theorem issued_cases (succeeds : Command → Bool) (args : Args) (w : World) :
    issued succeeds (install args w) = [] ∨ ∃ device plan,
    install args w = .wiped device plan ∧
      issued succeeds (install args w) = createGpt succeeds device.path plan.partition := by
  cases install args w with
  | waiting => exact .inl rfl
  | refused e => exact .inl rfl
  | stopped device => exact .inl rfl
  | wiped device plan => exact .inr ⟨device, plan, rfl, rfl⟩

/-- **The gate holds** exactly where it does not stand open for a device that is not removable: the
flag for such devices is refused again by the check of the selected device. -/
theorem gated_iff : Gated succeeds args w ↔
    ¬ ∃ device plan, Gate args w device plan ∧ device.removable = false := by
  have hwiped {device : UsbDevice} {plan : InstallationPlan}
      (h : install args w = .wiped device plan) :
      Gate args w device plan ∧ device.removable = true := install_wiped_iff.mp h
  constructor
  · intro h hforced
    obtain ⟨device, plan, hgate, hfixed⟩ := hforced
    have hfirst := (h.first device.path).mpr ⟨device, plan, rfl, hgate⟩
    rcases issued_cases succeeds args w with
      hnone | ⟨device', plan', hinstall, -⟩
    · rw [hnone] at hfirst
      cases hfirst
    · obtain ⟨hgate', hremovable⟩ := hwiped hinstall
      rw [hgate.device_eq hgate', hremovable] at hfixed
      cases hfixed
  · intro h
    have hopen {device : UsbDevice} {plan : InstallationPlan} (hgate : Gate args w device plan) :
        install args w = .wiped device plan := by
      refine install_wiped_iff.mpr ⟨hgate, ?_⟩
      by_contra hfixed
      exact h ⟨device, plan, hgate, Bool.eq_false_of_not_eq_true hfixed⟩
    refine ⟨fun path => ⟨fun hfirst => ?_, fun hgate => ?_⟩, fun hclosed => ?_,
      fun command hcommand => ?_⟩
    · rcases issued_cases succeeds args w with
        hnone | ⟨device, plan, hinstall, hissued⟩
      · rw [hnone] at hfirst
        cases hfirst
      · rw [hissued, createGpt_head] at hfirst
        have hpath : device.path = path := by
          have hcommand := Option.some.inj hfirst
          simpa [zapAll] using hcommand
        exact ⟨device, plan, hpath, (hwiped hinstall).1⟩
    · obtain ⟨device, plan, rfl, hgate⟩ := hgate
      rw [hopen hgate]
      exact createGpt_head _ _
    · rcases issued_cases succeeds args w with
        hnone | ⟨device, plan, hinstall, -⟩
      · exact hnone
      · exact absurd ⟨device, plan, (hwiped hinstall).1⟩ hclosed
    · rcases issued_cases succeeds args w with
        hnone | ⟨device, plan, hinstall, hissued⟩
      · rw [hnone] at hcommand
        cases hcommand
      · rw [hissued] at hcommand
        obtain ⟨hgate, hremovable⟩ := hwiped hinstall
        exact ⟨device, createGpt_device hcommand, shown_of_wiped hinstall,
          safetyCheck_ok_iff.mpr ⟨hgate.exist, hremovable, hgate.unmounted⟩⟩

end Gated

/-! ### A disk that is not removable -/

def fixedHost : Host where
  blockNames := .ok ["sda".toList]
  blockDir := fun name =>
    if name = "sda".toList then
      some ⟨some "0\n".toList, some "60000000\n".toList, some "ATA\n".toList, none⟩
    else none
  deviceExists := fun path => path = "/dev/sda".toList
  mounts := .ok "/dev/sdb2 / ext4 rw 0 0\n".toList

def fixedDisk : UsbDevice where
  path := "/dev/sda".toList
  sizeBytes := 30720000000
  vendor := "ATA".toList
  model := []
  removable := false

def digestOne : Text := "9f86d081884c7d659a2feaa0c55ad015a3bf4f1b2b0b822cd15d6c15b0f00a08".toList

def bundle : Manifest :=
  ⟨"bzImage".toList, "initramfs.img".toList, "BOOTX64.EFI".toList, "sysroot.tar.zst".toList,
    digestOne, digestOne, digestOne, digestOne⟩

def fixedWorld : World where
  isRoot := true
  loadManifest := fun _ => .ok bundle
  sha256File := fun _ => .ok digestOne
  loadSpec := fun _ => .ok headlessSpec
  isTty := false
  host := fixedHost
  openssl := saltedOne
  replies := acceptReplies
  keys := []

def forcedArgs : Args where
  source := "artifacts".toList
  target := some "/dev/sda".toList
  spec := some "target-os.json".toList
  yes := true
  forceNonRemovable := true

/-- The flag is given, everything else is in order, and the disk is refused. -/
theorem force_refused : (∃ plan, Gate forcedArgs fixedWorld fixedDisk plan) ∧
    install forcedArgs fixedWorld = .refused "safety check on selected device".toList ∧
      ¬ Gated (fun _ => true) forcedArgs fixedWorld := by
  have hgate : Gate forcedArgs fixedWorld fixedDisk
      (planOf headlessSpec (acceptAll.values headlessSpec) hashOne true) := by
    refine ⟨rfl, ⟨bundle, rfl, verifyArtifacts_ok_iff (u := ()).mp rfl⟩, by decide,
      ⟨_, rfl, by decide⟩, .inr ⟨rfl, "/dev/sda".toList, rfl, by decide⟩, ?_, rfl⟩
    exact .prompts headlessSpec acceptReplies ⟨[], []⟩ rfl rfl rfl rfl (.inl rfl)
  have hrefused : install forcedArgs fixedWorld =
      .refused "safety check on selected device".toList := rfl
  refine ⟨⟨_, hgate⟩, hrefused, fun h => ?_⟩
  have hfirst := (h.first fixedDisk.path).mpr ⟨fixedDisk, _, rfl, hgate⟩
  rw [hrefused] at hfirst
  cases hfirst

end WriteonceOs.Installer
