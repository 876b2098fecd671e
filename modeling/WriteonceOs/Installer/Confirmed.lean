import WriteonceOs.Installer.FrontEnds

/-!
# A confirmed form

What is true of the form when a session has been confirmed, whatever the keys were: the checks of
every screen still hold, for the device that is selected, and only the hash program can keep the
plan from being made.

* `Validated` — the values of a plan pass the checks;
* `buildPlan_error_iff` — when the plan of checked values is refused;
* `confirmed_validated` — a confirmed form is validated.
-/

namespace WriteonceOs.Installer

open WriteonceOs.Library
open WriteonceOs.Svc (trim parseU32)

variable {openssl : Text → Except Failure Text} {app : App} {devices : List UsbDevice}

/-- The sizes are in range, and the root ends before the disk does or takes the rest of it. -/
def SizesOk (device : UsbDevice) (espText rootText : Text) : Prop :=
  ∃ esp root, parseU32 (trim espText) = some esp ∧ 64 ≤ esp ∧ esp ≤ 8192 ∧
    parseU32 (trim rootText) = some root ∧
    (root = 0 ∨ 1 ≤ root ∧ esp.toNat + 8 + 1024 * root.toNat ≤ sizeMib device)

/-- The selected device is one of the list, and what the plan reads passes the checks for it. -/
structure Validated (devices : List UsbDevice) (app : App) : Prop where
  device : devices[app.deviceIdx]? = some app.currentDevice
  sizes : SizesOk app.currentDevice app.espMibInput app.rootGibInput
  user : UserOk app.userName app.userPassword app.userPasswordConfirm
  keyboard : KeyboardOk app.kbLayout app.kbVariant

/-- The hash program fails, or what it prints is no hash of the kind that was asked for. -/
def HashCommandFails (openssl : Text → Except Failure Text) (password : Text) : Prop :=
  ∀ out, openssl password = .ok out → validateHash (trim out) ≠ .ok ()

/-! ### Sizes -/

/-- What the partition screen compares is the room on the disk. -/
theorem sizesOk_of_partitionOk {device : UsbDevice} {espText rootText : Text}
    (h : PartitionOk device espText rootText) : SizesOk device espText rootText := by
  obtain ⟨esp, root, hesp, hge, hle, hroot, hmax⟩ := h
  refine ⟨esp, root, hesp, hge, hle, hroot, ?_⟩
  by_cases hzero : root = 0
  · exact .inl hzero
  · have hfits := fits_of_le_max hle hzero (hmax.resolve_left hzero)
    exact .inr ⟨by grind, hfits⟩

/-! ### The plan -/

theorem hashPasswordSha512_error_iff (password : Text) :
    (∃ e, hashPasswordSha512 openssl password = .error e) ↔ HashCommandFails openssl password := by
  unfold hashPasswordSha512 HashCommandFails
  cases openssl password with
  | error e => exact iff_of_true ⟨e, rfl⟩ nofun
  | ok out =>
    simp only [Except.ok.injEq, forall_eq']
    cases validateHash (trim out) with
    | error e => exact iff_of_true ⟨e, rfl⟩ nofun
    | ok u => exact iff_of_false (by simp) (fun h => h rfl)

/-- **The plan of sizes that are numbers is refused only where the hash program fails.** -/
theorem buildPlan_error_iff {device : UsbDevice}
    (h : SizesOk device app.espMibInput app.rootGibInput) :
    (∃ e, buildPlan openssl app = .error e) ↔ HashCommandFails openssl app.userPassword := by
  obtain ⟨esp, root, hesp, -, -, hroot, -⟩ := h
  rw [← hashPasswordSha512_error_iff]
  simp only [buildPlan, hesp, hroot]
  cases hhash : hashPasswordSha512 openssl app.userPassword with
  | error e => exact iff_of_true ⟨_, rfl⟩ ⟨e, rfl⟩
  | ok hash =>
    simp only [Except.mapError, bind, Except.bind, validateHash_of_hash hhash]
    exact iff_of_false (by simp) (by simp)

/-! ### The session -/

theorem currentDevice_getElem? (hset : app.devices = devices) :
    devices[app.deviceIdx]? = some app.currentDevice := by
  subst hset
  exact List.getElem?_eq_getElem app.deviceIdx_lt

/-- What the screens have checked is all that the plan reads. -/
theorem validated_of_checked (h : app.Checked) (ho : app.outcome = some .confirmed)
    (hset : app.devices = devices) : Validated devices app := by
  have hrank : app.screen.rank = 4 := by rw [h.confirmed ho]; rfl
  exact
    { device := currentDevice_getElem? hset
      sizes := sizesOk_of_partitionOk (h.partition (by omega))
      user := h.user (by omega)
      keyboard := h.keyboard (by omega) }

/-- **A confirmed form is validated**: the values of the plan pass every check, for the device that
is selected, and the plan is refused only where the hash program fails. -/
theorem confirmed_validated (spec : TargetOsSpec) (hne : devices ≠ []) (keys : List KeyEvent)
    (ho : (runKeys (App.new spec devices hne) keys).outcome = some .confirmed) :
    Validated devices (runKeys (App.new spec devices hne) keys) ∧
      ∀ openssl, (∃ e, buildPlan openssl (runKeys (App.new spec devices hne) keys) = .error e) ↔
        HashCommandFails openssl (runKeys (App.new spec devices hne) keys).userPassword := by
  have hchecked := App.checked_runKeys rfl (App.checked_new spec devices hne) keys
  have hset : (runKeys (App.new spec devices hne) keys).setting =
      (App.new spec devices hne).setting := App.setting_runKeys keys
  have hvalid := validated_of_checked hchecked ho (congrArg (·.1) hset)
  exact ⟨hvalid, fun openssl => buildPlan_error_iff hvalid.sizes⟩

/-- The values of a specification are accepted, and a plan is made with a hash of the program. -/
theorem confirmed_validated_headless :
    Validated [stick] (runKeys (App.new headlessSpec [stick] nofun) acceptKeys) ∧
      ¬ ∃ e, buildPlan saltedOne (runKeys (App.new headlessSpec [stick] nofun) acceptKeys) =
        .error e := by
  obtain ⟨hvalid, hplan⟩ :=
    confirmed_validated headlessSpec (nofun : [stick] ≠ []) acceptKeys rfl
  refine ⟨hvalid, fun herror => ?_⟩
  exact (hplan saltedOne).mp herror _ rfl rfl

end WriteonceOs.Installer
