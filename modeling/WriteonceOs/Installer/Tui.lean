import WriteonceOs.Installer.Prompt

/-!
# The plan from a form

The form of five screens that collects the same plan key by key.  What is drawn is left out; the
list of devices is never empty, and the selected one is always one of them.

* `handleKey` — one key on the screen that is shown;
* `runKeys` — the keys of a session, until it is confirmed or cancelled;
* `buildPlan` — the plan of a confirmed form.
-/

namespace WriteonceOs.Installer

open WriteonceOs.Library
open WriteonceOs.Svc (trim parseU32)

/-! ### Keys -/

inductive KeyCode where
  | esc
  | enter
  | tab
  | backTab
  | up
  | down
  | left
  | backspace
  | char (c : Char)
  | f (n : ℕ)
  | other
  deriving DecidableEq, Repr

/-- A key event: presses count, and of the modifiers only the control key does. -/
structure KeyEvent where
  code : KeyCode
  control : Bool := false
  press : Bool := true
  deriving DecidableEq, Repr

/-! ### State -/

inductive Screen where
  | deviceSelect
  | partition
  | user
  | keyboard
  | summary
  deriving DecidableEq, Repr

inductive Outcome where
  | confirmed
  | cancelled
  deriving DecidableEq, Repr

structure App where
  screen : Screen
  outcome : Option Outcome
  error : Option Text
  devices : List UsbDevice
  deviceIdx : ℕ
  deviceIdx_lt : deviceIdx < devices.length
  -- 0 is the boot partition, 1 the root
  partitionFocus : ℕ
  espMibInput : Text
  rootGibInput : Text
  userFocus : ℕ
  userName : Text
  userRealname : Text
  userPassword : Text
  userPasswordConfirm : Text
  showPasswords : Bool
  keyboardFocus : ℕ
  kbLayout : Text
  kbVariant : Text
  specUserShell : Option Text
  specUserGroups : Option (List Text)

/-- What the specification offers: the fields are filled with it. -/
def offeredEsp (spec : TargetOsSpec) : UInt32 :=
  (spec.partitions.bind (·.espMib)).getD defaultEspMib

def offeredRoot (spec : TargetOsSpec) : UInt32 := (spec.partitions.bind (·.rootGib)).getD 0

def offeredName (spec : TargetOsSpec) : Text := (spec.user.bind (·.name)).getD []

def offeredRealName (spec : TargetOsSpec) : Text := (spec.user.bind (·.realName)).getD []

def offeredLayout (spec : TargetOsSpec) : Text :=
  (spec.keyboard.bind (·.layout)).getD defaultKeyboardLayout

def offeredVariant (spec : TargetOsSpec) : Text := (spec.keyboard.bind (·.variant)).getD []

namespace App

def new (spec : TargetOsSpec) (devices : List UsbDevice) (h : devices ≠ []) : App where
  screen := .deviceSelect
  outcome := none
  error := none
  devices := devices
  deviceIdx := 0
  deviceIdx_lt := List.length_pos_iff.mpr h
  partitionFocus := 0
  espMibInput := decimal (offeredEsp spec).toNat
  rootGibInput := decimal (offeredRoot spec).toNat
  userFocus := 0
  userName := offeredName spec
  userRealname := offeredRealName spec
  userPassword := []
  userPasswordConfirm := []
  showPasswords := false
  keyboardFocus := 0
  kbLayout := offeredLayout spec
  kbVariant := offeredVariant spec
  specUserShell := spec.user.bind (·.shell)
  specUserGroups := spec.user.bind (·.groups)

variable (app : App)

def currentDevice : UsbDevice := app.devices.get ⟨app.deviceIdx, app.deviceIdx_lt⟩

def refuse (message : Text) : App := { app with error := some message }

/-! ### The screens -/

def selectUp : App :=
  { app with
    deviceIdx := app.deviceIdx - 1
    deviceIdx_lt := Nat.lt_of_le_of_lt (Nat.sub_le _ _) app.deviceIdx_lt }

def selectDown : App :=
  if h : app.deviceIdx + 1 < app.devices.length then
    { app with deviceIdx := app.deviceIdx + 1, deviceIdx_lt := h }
  else app

def submitDevice : App :=
  if app.currentDevice.removable = false then
    app.refuse (app.currentDevice.path ++ " is not removable; refusing.".toList)
  else { app with screen := .partition }

def handleDevices (key : KeyEvent) : App :=
  match key.code with
  | .up => app.selectUp
  | .down => app.selectDown
  | .char c => if c = 'k' then app.selectUp else if c = 'j' then app.selectDown else app
  | .enter => app.submitDevice
  | _ => app

/-- The field of the partition screen that has the focus. -/
def partitionBuf : Text := if app.partitionFocus = 0 then app.espMibInput else app.rootGibInput

def setPartitionBuf (buf : Text) : App :=
  if app.partitionFocus = 0 then { app with espMibInput := buf }
  else { app with rootGibInput := buf }

def submitPartition : App :=
  match parseU32 (trim app.espMibInput) with
  | none => app.refuse "ESP must be a number in 64–8192 MiB".toList
  | some esp =>
    if ¬ (64 ≤ esp ∧ esp ≤ 8192) then
      app.refuse "ESP must be a number in 64–8192 MiB".toList
    else match parseU32 (trim app.rootGibInput) with
      | none => app.refuse "root GiB must be a non-negative integer (0 = rest)".toList
      | some root =>
        if root ≠ 0 ∧ maxRootGib app.currentDevice esp < root then
          app.refuse ("root ".toList ++ decimal root.toNat ++ " GiB exceeds available ".toList ++
            decimal (maxRootGib app.currentDevice esp).toNat ++ " GiB after ESP".toList)
        else { app with screen := .user }

def handlePartition (key : KeyEvent) : App :=
  match key.code with
  | .tab | .down | .backTab | .up =>
    { app with partitionFocus := (app.partitionFocus + 1) % 2 }
  | .char c =>
    if c.isDigit ∧ byteLen app.partitionBuf < 10 then
      app.setPartitionBuf (app.partitionBuf ++ [c])
    else app
  | .backspace => app.setPartitionBuf app.partitionBuf.dropLast
  | .enter => app.submitPartition
  | .left => { app with screen := .deviceSelect }
  | _ => app

def userBuf : Text :=
  match app.userFocus with
  | 0 => app.userName
  | 1 => app.userRealname
  | 2 => app.userPassword
  | _ => app.userPasswordConfirm

def setUserBuf (buf : Text) : App :=
  match app.userFocus with
  | 0 => { app with userName := buf }
  | 1 => { app with userRealname := buf }
  | 2 => { app with userPassword := buf }
  | _ => { app with userPasswordConfirm := buf }

def submitUser : App :=
  if app.userName = [] ∨ app.userName = rootName then
    app.refuse "username must be set and must not be 'root'".toList
  else if app.userName.all isNameChar = false then
    app.refuse "username must be lowercase alphanumeric + underscore only".toList
  else if byteLen app.userPassword < 6 then
    app.refuse "password must be at least 6 characters".toList
  else if app.userPassword ≠ app.userPasswordConfirm then
    app.refuse "password and confirmation do not match".toList
  else { app with screen := .keyboard }

def handleUser (key : KeyEvent) : App :=
  match key.code with
  | .f n => if n = 2 then { app with showPasswords := !app.showPasswords } else app
  | .tab | .down => { app with userFocus := (app.userFocus + 1) % 4 }
  | .backTab | .up => { app with userFocus := (app.userFocus + 3) % 4 }
  | .left => { app with screen := .partition }
  | .enter => app.submitUser
  | .char c => app.setUserBuf (app.userBuf ++ [c])
  | .backspace => app.setUserBuf app.userBuf.dropLast
  | _ => app

def validKeymap (s : Text) : Bool := s ≠ [] ∧ s.all isNameChar

def keyboardBuf : Text := if app.keyboardFocus = 0 then app.kbLayout else app.kbVariant

def setKeyboardBuf (buf : Text) : App :=
  if app.keyboardFocus = 0 then { app with kbLayout := buf } else { app with kbVariant := buf }

def submitKeyboard : App :=
  if app.kbLayout = [] then app.refuse "layout cannot be empty".toList
  else if validKeymap app.kbLayout = false then
    app.refuse "layout must be lowercase alphanumeric + underscore".toList
  else if app.kbVariant ≠ [] ∧ validKeymap app.kbVariant = false then
    app.refuse "variant must be lowercase alphanumeric + underscore".toList
  else { app with screen := .summary }

def handleKeyboard (key : KeyEvent) : App :=
  match key.code with
  | .tab | .down | .backTab | .up => { app with keyboardFocus := (app.keyboardFocus + 1) % 2 }
  | .left => { app with screen := .user }
  | .enter => app.submitKeyboard
  | .char c => app.setKeyboardBuf (app.keyboardBuf ++ [c])
  | .backspace => app.setKeyboardBuf app.keyboardBuf.dropLast
  | _ => app

def handleSummary (key : KeyEvent) : App :=
  match key.code with
  | .enter => { app with outcome := some .confirmed }
  | .left | .backspace => { app with screen := .keyboard }
  | _ => app

/-! ### Sessions -/

/-- Escape and the interrupt key cancel on every screen. -/
def isCancel (key : KeyEvent) : Bool := key.code = .esc ∨ (key.code = .char 'c' ∧ key.control)

/-- The screen that is shown takes the key. -/
def handleScreen (key : KeyEvent) : App :=
  match app.screen with
  | .deviceSelect => app.handleDevices key
  | .partition => app.handlePartition key
  | .user => app.handleUser key
  | .keyboard => app.handleKeyboard key
  | .summary => app.handleSummary key

/-- **One key.**  A former refusal is forgotten on any key. -/
def handleKey (key : KeyEvent) : App :=
  if isCancel key then { app with outcome := some .cancelled }
  else handleScreen { app with error := none } key

end App

/-- The keys of a session, until it has an outcome. -/
def runKeys (app : App) : List KeyEvent → App
  | [] => app
  | key :: keys =>
    if key.press = false then runKeys app keys
    else if (app.handleKey key).outcome.isSome then app.handleKey key
    else runKeys (app.handleKey key) keys

/-! ### The plan -/

/-- What `str::parse` says about a text that is no number. -/
def parseIntError (t : Text) : Failure :=
  if t = [] then "cannot parse integer from empty string".toList
  else if t.all Char.isDigit then "number too large to fit in target type".toList
  else "invalid digit found in string".toList

def buildPlan (openssl : Text → Except Failure Text) (app : App) :
    Except Failure InstallationPlan := do
  let espMib ← match parseU32 (trim app.espMibInput) with
    | some v => .ok v
    | none => .error (parseIntError (trim app.espMibInput))
  let rootGib ← match parseU32 (trim app.rootGibInput) with
    | some v => .ok (if v = 0 then none else some v)
    | none => .error "invalid root GiB".toList
  let passwordHash ← (hashPasswordSha512 openssl app.userPassword).mapError
    fun _ => "hash password via openssl passwd -6".toList
  validateHash passwordHash
  .ok
    { partition := ⟨espMib, rootGib⟩
      user :=
        { name := app.userName
          realName := app.userRealname
          passwordHash
          shell := app.specUserShell.getD defaultShell
          groups := app.specUserGroups.getD defaultGroups
          uid := 1000
          gid := 1000 }
      keyboard := ⟨app.kbLayout, if app.kbVariant = [] then none else some app.kbVariant⟩
      -- the form has no field for the network
      network := {} }

/-- **A session**: nothing while it goes on, and no plan when it was cancelled. -/
def runTui (openssl : Text → Except Failure Text) (spec : TargetOsSpec) (devices : List UsbDevice)
    (keys : List KeyEvent) : Option (Except Failure (Option (UsbDevice × InstallationPlan))) :=
  if h : devices = [] then
    some (.error "no removable devices detected; insert a USB and re-run".toList)
  else
    let app := runKeys (App.new spec devices h) keys
    match app.outcome with
    | none => none
    | some .cancelled => some (.ok none)
    | some .confirmed =>
      some ((buildPlan openssl app).map fun plan => some (app.currentDevice, plan))

end WriteonceOs.Installer
