import Mathlib.Data.String.Basic

/-!
# The specification and the plan of an installation

`target-os.json`, where every field may be missing, and the resolved plan, where every value is
there.  The schema version and the password hash of the file are not read by anything.
-/

namespace WriteonceOs.Installer

abbrev Text := List Char

/-- What an error shows of itself: its outermost message. -/
abbrev Failure := Text

/-! ### The specification -/

structure NetworkSpec where
  enabledAtBoot : Option Bool := none
  deriving DecidableEq, Repr

structure PartitionsSpec where
  espMib : Option UInt32 := none
  rootGib : Option UInt32 := none
  deriving DecidableEq, Repr

structure UserSpec where
  name : Option Text := none
  realName : Option Text := none
  shell : Option Text := none
  groups : Option (List Text) := none
  deriving DecidableEq, Repr

structure KeyboardSpec where
  layout : Option Text := none
  variant : Option Text := none
  deriving DecidableEq, Repr

structure TargetOsSpec where
  partitions : Option PartitionsSpec := none
  user : Option UserSpec := none
  keyboard : Option KeyboardSpec := none
  network : Option NetworkSpec := none
  deriving DecidableEq, Repr

/-! ### The plan -/

structure PartitionPlan where
  espMib : UInt32
  -- `none` is the rest of the disk
  rootGib : Option UInt32
  deriving DecidableEq, Repr

structure ResolvedUser where
  name : Text
  realName : Text
  passwordHash : Text
  shell : Text
  groups : List Text
  uid : UInt32
  gid : UInt32
  deriving DecidableEq, Repr

structure ResolvedKeyboard where
  layout : Text
  variant : Option Text
  deriving DecidableEq, Repr

structure ResolvedNetwork where
  enabledAtBoot : Bool := false
  deriving DecidableEq, Repr

structure InstallationPlan where
  partition : PartitionPlan
  user : ResolvedUser
  keyboard : ResolvedKeyboard
  network : ResolvedNetwork
  deriving DecidableEq, Repr

/-! ### Defaults -/

def defaultEspMib : UInt32 := 512

def defaultShell : Text := "/bin/bash".toList

def defaultGroups : List Text :=
  ["wheel".toList, "video".toList, "audio".toList, "input".toList, "plugdev".toList]

def defaultKeyboardLayout : Text := "us".toList

end WriteonceOs.Installer
