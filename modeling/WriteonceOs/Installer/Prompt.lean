import WriteonceOs.Installer.Detect
import WriteonceOs.Library.Dialogue

/-!
# The plan from prompts

The line by line collection of the plan: what the specification leaves open is asked for, one
prompt after the other.  Input lines and passwords are taken from what the operator answers; the
program that hashes the password is the parameter `openssl`, its output for a password.

* `gatherPartition`, `gatherUser`, `gatherKeyboard` — the three sections;
* `gatherPlan` — the whole plan.
-/

namespace WriteonceOs.Installer

open WriteonceOs.Library
open WriteonceOs.Svc (IoError trim parseU32)

/-- What the operator answers: the lines of the standard input, which end with its end, and the
passwords typed at the terminal. -/
structure Replies where
  lines : List (Except IoError Text)
  passwords : List (Except IoError Text)

abbrev Prompt (α : Type) := Dialogue Replies Failure α

def fail {α : Type} (e : Failure) : Prompt α := fun _ => .error e

/-! ### Small helpers -/

/-- `read_line`: at the end of the input the line is empty. -/
def readLine : Prompt Text := fun replies =>
  match replies.lines with
  | [] => .ok ([], replies)
  | .error e :: _ => .error e.toList
  | .ok line :: rest => .ok (line, { replies with lines := rest })

def promptU32 (default : UInt32) : Prompt UInt32 := do
  let t := trim (← readLine)
  if t = [] then pure default
  else match parseU32 t with
    | some v => pure v
    | none => fail ("expected a non-negative integer, got '".toList ++ t ++ ['\''])

def promptString (default : Option Text) : Prompt Text := do
  let t := trim (← readLine)
  if t = [] then
    match default with
    | some d => pure d
    | none => fail "input required".toList
  else pure t

/-! ### The partition section -/

/-- Subtraction of `u32` that stops at zero. -/
def saturatingSub (a b : UInt32) : UInt32 := if a ≤ b then 0 else a - b

/-- The size of the disk in MiB, cut to 32 bits. -/
def diskMib (device : UsbDevice) : UInt32 := (device.sizeBytes / 1048576).toUInt32

/-- 8 MiB are left for the partition table. -/
def maxRootGib (device : UsbDevice) (espMib : UInt32) : UInt32 :=
  saturatingSub (diskMib device) (espMib + 8) / 1024

section Partition

variable (spec : Option PartitionsSpec) (device : UsbDevice)

def chooseEsp : Prompt UInt32 :=
  match spec.bind (·.espMib) with
  | some v => pure v
  | none => promptU32 defaultEspMib

/-- Nothing, or zero, in the specification: the prompt, whose default stands for the rest. -/
def promptRoot (max : UInt32) : Prompt (Option UInt32) := do
  let chosen ← promptU32 max
  pure (if chosen = max ∨ chosen = 0 then none else some chosen)

def chooseRoot (max : UInt32) : Prompt (Option UInt32) :=
  match spec.bind (·.rootGib) with
  | none => promptRoot max
  | some v =>
    if v = 0 then promptRoot max
    else if max < v then
      fail ("Root size ".toList ++ decimal v.toNat ++ " GiB exceeds available ".toList ++
        decimal max.toNat ++ " GiB after ESP".toList)
    else pure (some v)

def gatherPartition : Prompt PartitionPlan := do
  let espMib ← chooseEsp spec
  if espMib < 100 ∨ 4096 < espMib then
    fail ("ESP size ".toList ++ decimal espMib.toNat ++
      " MiB out of sane range [100, 4096]".toList)
  else do
    let rootGib ← chooseRoot spec (maxRootGib device espMib)
    pure ⟨espMib, rootGib⟩

end Partition

/-! ### The user section -/

def isNameChar (c : Char) : Bool := c.isLower || c.isDigit || c = '_'

def byteLen : Text → ℕ
  | [] => 0
  | c :: t => c.utf8Size + byteLen t

/-- The password loop: an empty password, one of fewer than six bytes and two that differ are asked
for again. -/
def readPassword : List (Except IoError Text) →
    Except Failure (Text × List (Except IoError Text))
  | [] => .error "unexpected end of file".toList
  | .error e :: _ => .error e.toList
  | .ok first :: rest =>
    if first = [] then readPassword rest
    else if byteLen first < 6 then readPassword rest
    else match rest with
      | [] => .error "unexpected end of file".toList
      | .error e :: _ => .error e.toList
      | .ok second :: rest => if first ≠ second then readPassword rest else .ok (first, rest)

def validateHash (hash : Text) : Except Failure Unit :=
  if "$6$".toList.isPrefixOf hash = false then
    .error ("password hash doesn't look like SHA-512 crypt ($6$...): ".toList ++ hash)
  else if byteLen hash < 20 then .error "password hash unexpectedly short".toList
  else .ok ()

section User

variable (openssl : Text → Except Failure Text)

def hashPasswordSha512 (plaintext : Text) : Except Failure Text :=
  match openssl plaintext with
  | .error e => .error e
  | .ok out =>
    match validateHash (trim out) with
    | .error e => .error e
    | .ok _ => .ok (trim out)

def promptPasswordAndHash : Prompt Text := fun replies =>
  match readPassword replies.passwords with
  | .error e => .error e
  | .ok (password, rest) =>
    match hashPasswordSha512 openssl password with
    | .error e => .error e
    | .ok hash => .ok (hash, { replies with passwords := rest })

/-- A field of the specification, or a prompt for it. -/
def specOr (field : Option Text) (prompt : Prompt Text) : Prompt Text :=
  match field with
  | some value => pure value
  | none => prompt

def rootName : Text := "root".toList

def gatherUser (spec : Option UserSpec) : Prompt ResolvedUser := do
  let name ← specOr (spec.bind (·.name)) (promptString none)
  if name = rootName ∨ name = [] then
    fail "username must be set and must not be 'root'".toList
  else if name.all isNameChar = false then
    fail ("username '".toList ++ name ++
      "' must be lowercase alphanumeric + underscore only".toList)
  else do
    let realName ← specOr (spec.bind (·.realName)) (promptString (some []))
    let passwordHash ← promptPasswordAndHash openssl
    pure
      { name, realName, passwordHash
        shell := (spec.bind (·.shell)).getD defaultShell
        groups := (spec.bind (·.groups)).getD defaultGroups
        uid := 1000
        gid := 1000 }

end User

/-! ### The keyboard section -/

def validateKeymap (s : Text) : Except Failure Unit :=
  if s.all isNameChar = false then
    .error ("keymap '".toList ++ s ++ "' must be lowercase alphanumeric + underscore only".toList)
  else .ok ()

/-- A check between two prompts. -/
def check (result : Except Failure Unit) : Prompt Unit := fun replies =>
  match result with
  | .error e => .error e
  | .ok _ => .ok ((), replies)

def promptLayout : Prompt Text := do
  let layout ← promptString (some defaultKeyboardLayout)
  check (validateKeymap layout)
  pure layout

def promptVariant : Prompt (Option Text) := do
  let variant ← promptString (some [])
  if variant = [] then pure none
  else do
    check (validateKeymap variant)
    pure (some variant)

def chooseVariant : Option Text → Prompt (Option Text)
  | none => promptVariant
  | some variant => if variant = [] then promptVariant else pure (some variant)

def gatherKeyboard (spec : Option KeyboardSpec) : Prompt ResolvedKeyboard := do
  let layout ← specOr (spec.bind (·.layout)) promptLayout
  let variant ← chooseVariant (spec.bind (·.variant))
  pure ⟨layout, variant⟩

/-! ### The plan -/

def gatherPlan (openssl : Text → Except Failure Text) (spec : TargetOsSpec) (device : UsbDevice) :
    Prompt InstallationPlan := do
  let partition ← gatherPartition spec.partitions device
  let user ← gatherUser openssl spec.user
  let keyboard ← gatherKeyboard spec.keyboard
  let network := ⟨(spec.network.bind (·.enabledAtBoot)).getD false⟩
  pure ⟨partition, user, keyboard, network⟩

end WriteonceOs.Installer
