import WriteonceOs.Installer.Tui
import Mathlib.Logic.Relation

/-!
# Sessions of the form

What the screens have checked by the time a session is confirmed, and that every form that passes
the checks can be typed and confirmed.

* `checked_handleKey`, `checked_runKeys` — the checks of the screens left behind stay true;
* `steps_edit` — a field is cleared and typed anew;
* `confirm_steps` — the keys that fill the form and confirm it.
-/

namespace WriteonceOs.Installer

open WriteonceOs.Library
open WriteonceOs.Svc (trim isWhitespace isWhitespace_digit parseU32 parseU64)

/-! ### Numbers as texts -/

theorem trim_of_free {t : Text} (h : ∀ c ∈ t, isWhitespace c = false) : trim t = t := by
  unfold trim
  have hdrop (l : Text) (hl : ∀ c ∈ l, isWhitespace c = false) : l.dropWhile isWhitespace = l := by
    cases l with
    | nil => rfl
    | cons c l => rw [List.dropWhile_cons_of_neg (by simp [hl c List.mem_cons_self])]
  rw [hdrop t h, hdrop t.reverse (fun c hc => h c (List.mem_reverse.mp hc)), List.reverse_reverse]

theorem trim_decimal (n : ℕ) : trim (decimal n) = decimal n :=
  trim_of_free fun _ hc => isWhitespace_digit (decimal_digits hc)

theorem parseU64_decimal {n : ℕ} (h : n < 2 ^ 64) : parseU64 (decimal n) = some n := by
  have hplus : ∀ rest, decimal n ≠ '+' :: rest := by
    intro rest heq
    have hdigit := decimal_digits (n := n) (c := '+') (by rw [heq]; exact List.mem_cons_self)
    exact absurd hdigit (by decide)
  have hall : (decimal n).all Char.isDigit = true :=
    List.all_eq_true.mpr fun c hc => decimal_digits hc
  have hempty : (decimal n).isEmpty = false := List.isEmpty_eq_false_iff.mpr (decimal_ne_nil n)
  unfold parseU64
  simp only [hall, hempty, foldl_decimal]
  exact if_pos h

theorem parseU32_decimal (v : UInt32) : parseU32 (decimal v.toNat) = some v := by
  have hlt := v.toNat_lt
  rw [parseU32, parseU64_decimal (by omega)]
  simp only
  rw [if_pos hlt, UInt32.ofNat_toNat]

theorem byteLen_digits {t : Text} (h : ∀ c ∈ t, c.isDigit = true) : byteLen t = t.length := by
  induction t with
  | nil => rfl
  | cons c t ih =>
    obtain ⟨hc, ht⟩ := List.forall_mem_cons.mp h
    have hsize : c.utf8Size = 1 := by
      rw [Char.utf8Size_eq_one_iff]
      have hle : c.toNat ≤ 57 := by
        simp only [Char.isDigit, Bool.and_eq_true, decide_eq_true_eq] at hc
        exact UInt32.le_iff_toNat_le.mp hc.2
      exact UInt32.le_iff_toNat_le.mpr (Nat.le_trans hle (by decide))
    rw [byteLen, hsize, ih ht, List.length_cons, Nat.add_comm]

theorem length_decimal (v : UInt32) : (decimal v.toNat).length ≤ 10 := by
  have hlt := v.toNat_lt
  exact (Nat.length_toDigits_le_iff (by decide) (by decide)).mpr (by omega)

/-! ### What a screen checks -/

/-- The partition screen lets these texts pass. -/
def PartitionOk (device : UsbDevice) (espText rootText : Text) : Prop :=
  ∃ esp root, parseU32 (trim espText) = some esp ∧ 64 ≤ esp ∧ esp ≤ 8192 ∧
    parseU32 (trim rootText) = some root ∧ (root = 0 ∨ root ≤ maxRootGib device esp)

/-- The user screen lets these texts pass. -/
structure UserOk (name password confirm : Text) : Prop where
  set : name ≠ []
  not_root : name ≠ rootName
  chars : name.all isNameChar = true
  length : 6 ≤ byteLen password
  confirmed : password = confirm

/-- The keyboard screen lets these texts pass. -/
structure KeyboardOk (layout variant : Text) : Prop where
  layout : App.validKeymap layout = true
  variant : variant = [] ∨ App.validKeymap variant = true

/-- The place of a screen in the sequence. -/
def Screen.rank : Screen → ℕ
  | .deviceSelect => 0
  | .partition => 1
  | .user => 2
  | .keyboard => 3
  | .summary => 4

namespace App

/-- What the screens left behind have checked is still so. -/
structure Checked (app : App) : Prop where
  device : 1 ≤ app.screen.rank → app.currentDevice.removable = true
  partition : 2 ≤ app.screen.rank → PartitionOk app.currentDevice app.espMibInput app.rootGibInput
  user : 3 ≤ app.screen.rank → UserOk app.userName app.userPassword app.userPasswordConfirm
  keyboard : 4 ≤ app.screen.rank → KeyboardOk app.kbLayout app.kbVariant
  confirmed : app.outcome = some .confirmed → app.screen = .summary

variable {app : App}

/-- Nothing is left behind on the first screen. -/
theorem checked_deviceSelect (hs : app.screen = .deviceSelect)
    (ho : app.outcome ≠ some .confirmed) : app.Checked := by
  have hrank : app.screen.rank = 0 := by rw [hs]; rfl
  exact ⟨by omega, by omega, by omega, by omega, fun h => absurd h ho⟩

theorem checked_partition (hs : app.screen = .partition) (ho : app.outcome ≠ some .confirmed)
    (hdevice : app.currentDevice.removable = true) : app.Checked := by
  have hrank : app.screen.rank = 1 := by rw [hs]; rfl
  exact ⟨fun _ => hdevice, by omega, by omega, by omega, fun h => absurd h ho⟩

theorem checked_user (hs : app.screen = .user) (ho : app.outcome ≠ some .confirmed)
    (hdevice : app.currentDevice.removable = true)
    (hpartition : PartitionOk app.currentDevice app.espMibInput app.rootGibInput) :
    app.Checked := by
  have hrank : app.screen.rank = 2 := by rw [hs]; rfl
  exact ⟨fun _ => hdevice, fun _ => hpartition, by omega, by omega, fun h => absurd h ho⟩

theorem checked_keyboard (hs : app.screen = .keyboard) (ho : app.outcome ≠ some .confirmed)
    (hdevice : app.currentDevice.removable = true)
    (hpartition : PartitionOk app.currentDevice app.espMibInput app.rootGibInput)
    (huser : UserOk app.userName app.userPassword app.userPasswordConfirm) : app.Checked := by
  have hrank : app.screen.rank = 3 := by rw [hs]; rfl
  exact ⟨fun _ => hdevice, fun _ => hpartition, fun _ => huser, by omega, fun h => absurd h ho⟩

theorem checked_new (spec : TargetOsSpec) (devices : List UsbDevice) (h : devices ≠ []) :
    (App.new spec devices h).Checked :=
  checked_deviceSelect rfl nofun

/-! ### One key -/

theorem checked_handleDevices (hs : app.screen = .deviceSelect) (ho : app.outcome = none)
    (key : KeyEvent) : (app.handleDevices key).Checked := by
  have hstay : app.Checked := checked_deviceSelect hs (by simp [ho])
  have hup : app.selectUp.Checked := checked_deviceSelect hs (by simp [selectUp, ho])
  have hdown : app.selectDown.Checked := by
    unfold selectDown
    split
    · exact checked_deviceSelect hs (by simp [ho])
    · exact hstay
  have henter : app.submitDevice.Checked := by
    unfold submitDevice
    split
    case isTrue => exact checked_deviceSelect hs (by simp [refuse, ho])
    case isFalse hremovable =>
      exact checked_partition rfl (by simp [ho]) (Bool.eq_true_of_not_eq_false hremovable)
  unfold handleDevices
  cases key.code with
  | up => exact hup
  | down => exact hdown
  | enter => exact henter
  | char c =>
    show Checked (if c = 'k' then app.selectUp else if c = 'j' then app.selectDown else app)
    split
    · exact hup
    · split
      · exact hdown
      · exact hstay
  | _ => exact hstay

theorem checked_submitPartition (hs : app.screen = .partition) (ho : app.outcome = none)
    (h : app.Checked) : app.submitPartition.Checked := by
  have hdevice := h.device (by rw [hs]; decide)
  have hrefuse (message : Text) : (app.refuse message).Checked :=
    checked_partition hs (by simp [refuse, ho]) hdevice
  unfold submitPartition
  split
  case h_1 => exact hrefuse _
  case h_2 esp hesp =>
    split
    case isTrue => exact hrefuse _
    case isFalse hrange =>
      split
      case h_1 => exact hrefuse _
      case h_2 root hroot =>
        split
        case isTrue => exact hrefuse _
        case isFalse hmax =>
          obtain ⟨hge, hle⟩ := not_not.mp hrange
          refine checked_user rfl (by simp [ho]) hdevice ⟨esp, root, hesp, hge, hle, hroot, ?_⟩
          show root = 0 ∨ root ≤ maxRootGib app.currentDevice esp
          grind

theorem checked_handlePartition (hs : app.screen = .partition) (ho : app.outcome = none)
    (h : app.Checked) (key : KeyEvent) : (app.handlePartition key).Checked := by
  have hdevice := h.device (by rw [hs]; decide)
  have hbuf (buf : Text) : (app.setPartitionBuf buf).Checked := by
    unfold setPartitionBuf
    split
    · exact checked_partition hs (by simp [ho]) hdevice
    · exact checked_partition hs (by simp [ho]) hdevice
  have hfocus : Checked { app with partitionFocus := (app.partitionFocus + 1) % 2 } :=
    checked_partition hs (by simp [ho]) hdevice
  unfold handlePartition
  cases key.code with
  | tab | backTab | up | down => exact hfocus
  | backspace => exact hbuf _
  | enter => exact checked_submitPartition hs ho h
  | left => exact checked_deviceSelect rfl (by simp [ho])
  | char c =>
    show Checked (if _ then _ else app)
    split
    · exact hbuf _
    · exact h
  | _ => exact h

theorem checked_submitUser (hs : app.screen = .user) (ho : app.outcome = none)
    (h : app.Checked) : app.submitUser.Checked := by
  have hdevice := h.device (by rw [hs]; decide)
  have hpartition := h.partition (by rw [hs]; decide)
  have hrefuse (message : Text) : (app.refuse message).Checked :=
    checked_user hs (by simp [refuse, ho]) hdevice hpartition
  unfold submitUser
  split
  case isTrue => exact hrefuse _
  case isFalse hname =>
    split
    case isTrue => exact hrefuse _
    case isFalse hchars =>
      split
      case isTrue => exact hrefuse _
      case isFalse hlength =>
        split
        case isTrue => exact hrefuse _
        case isFalse hconfirm =>
          obtain ⟨hset, hroot⟩ := not_or.mp hname
          refine checked_keyboard rfl (by simp [ho]) hdevice hpartition ?_
          exact ⟨hset, hroot, Bool.eq_true_of_not_eq_false hchars, Nat.not_lt.mp hlength,
            not_not.mp hconfirm⟩

theorem checked_handleUser (hs : app.screen = .user) (ho : app.outcome = none)
    (h : app.Checked) (key : KeyEvent) : (app.handleUser key).Checked := by
  have hdevice := h.device (by rw [hs]; decide)
  have hpartition := h.partition (by rw [hs]; decide)
  have hbuf (buf : Text) : (app.setUserBuf buf).Checked := by
    unfold setUserBuf
    split
    all_goals exact checked_user hs (by simp [ho]) hdevice hpartition
  have hfocus (k : ℕ) : Checked { app with userFocus := k } :=
    checked_user hs (by simp [ho]) hdevice hpartition
  unfold handleUser
  cases key.code with
  | tab | backTab | up | down => exact hfocus _
  | backspace => exact hbuf _
  | char c => exact hbuf _
  | enter => exact checked_submitUser hs ho h
  | left => exact checked_partition rfl (by simp [ho]) hdevice
  | f n =>
    show Checked (if n = 2 then _ else app)
    split
    · exact checked_user hs (by simp [ho]) hdevice hpartition
    · exact h
  | _ => exact h

theorem checked_submitKeyboard (hs : app.screen = .keyboard) (ho : app.outcome = none)
    (h : app.Checked) : app.submitKeyboard.Checked := by
  have hdevice := h.device (by rw [hs]; decide)
  have hpartition := h.partition (by rw [hs]; decide)
  have huser := h.user (by rw [hs]; decide)
  have hrefuse (message : Text) : (app.refuse message).Checked :=
    checked_keyboard hs (by simp [refuse, ho]) hdevice hpartition huser
  unfold submitKeyboard
  split
  case isTrue => exact hrefuse _
  case isFalse =>
    split
    case isTrue => exact hrefuse _
    case isFalse hlayout =>
      split
      case isTrue => exact hrefuse _
      case isFalse hvariant =>
        refine ⟨fun _ => hdevice, fun _ => hpartition, fun _ => huser, fun _ => ⟨?_, ?_⟩,
          fun _ => rfl⟩
        · exact Bool.eq_true_of_not_eq_false hlayout
        · show app.kbVariant = [] ∨ validKeymap app.kbVariant = true
          grind

theorem checked_handleKeyboard (hs : app.screen = .keyboard) (ho : app.outcome = none)
    (h : app.Checked) (key : KeyEvent) : (app.handleKeyboard key).Checked := by
  have hdevice := h.device (by rw [hs]; decide)
  have hpartition := h.partition (by rw [hs]; decide)
  have huser := h.user (by rw [hs]; decide)
  have hbuf (buf : Text) : (app.setKeyboardBuf buf).Checked := by
    unfold setKeyboardBuf
    split
    all_goals exact checked_keyboard hs (by simp [ho]) hdevice hpartition huser
  have hfocus : Checked { app with keyboardFocus := (app.keyboardFocus + 1) % 2 } :=
    checked_keyboard hs (by simp [ho]) hdevice hpartition huser
  unfold handleKeyboard
  cases key.code with
  | tab | backTab | up | down => exact hfocus
  | backspace => exact hbuf _
  | char c => exact hbuf _
  | enter => exact checked_submitKeyboard hs ho h
  | left => exact checked_user rfl (by simp [ho]) hdevice hpartition
  | _ => exact h

theorem checked_handleSummary (hs : app.screen = .summary) (ho : app.outcome = none)
    (h : app.Checked) (key : KeyEvent) : (app.handleSummary key).Checked := by
  have hdevice := h.device (by rw [hs]; decide)
  have hpartition := h.partition (by rw [hs]; decide)
  have huser := h.user (by rw [hs]; decide)
  have hback : Checked { app with screen := .keyboard } :=
    checked_keyboard rfl (by simp [ho]) hdevice hpartition huser
  unfold handleSummary
  cases key.code with
  | enter => exact ⟨h.device, h.partition, h.user, h.keyboard, fun _ => hs⟩
  | left | backspace => exact hback
  | _ => exact h

/-- **One key keeps what the screens have checked.** -/
theorem checked_handleKey (ho : app.outcome = none) (h : app.Checked) (key : KeyEvent) :
    (app.handleKey key).Checked := by
  unfold handleKey
  split
  case isTrue => exact ⟨h.device, h.partition, h.user, h.keyboard, nofun⟩
  case isFalse =>
    have hforget : Checked { app with error := none } :=
      ⟨h.device, h.partition, h.user, h.keyboard, h.confirmed⟩
    unfold handleScreen
    split
    case h_1 hs => exact checked_handleDevices hs ho key
    case h_2 hs => exact checked_handlePartition hs ho hforget key
    case h_3 hs => exact checked_handleUser hs ho hforget key
    case h_4 hs => exact checked_handleKeyboard hs ho hforget key
    case h_5 hs => exact checked_handleSummary hs ho hforget key

/-- **A session keeps what the screens have checked.** -/
theorem checked_runKeys (ho : app.outcome = none) (h : app.Checked) (keys : List KeyEvent) :
    (runKeys app keys).Checked := by
  induction keys generalizing app with
  | nil => exact h
  | cons key keys ih =>
    have hstep := checked_handleKey ho h key
    unfold runKeys
    split
    case isTrue => exact ih ho h
    case isFalse =>
      split
      case isTrue => exact hstep
      case isFalse hsome => exact ih (by simpa using hsome) hstep

/-! ### What no key changes -/

/-- What the form was started with. -/
def setting (app : App) : List UsbDevice × Option Text × Option (List Text) :=
  (app.devices, app.specUserShell, app.specUserGroups)

theorem setting_handleDevices (key : KeyEvent) :
    (app.handleDevices key).setting = app.setting := by
  have hdown : app.selectDown.setting = app.setting := by
    unfold selectDown
    split
    · rfl
    · rfl
  have henter : app.submitDevice.setting = app.setting := by
    unfold submitDevice
    split
    · rfl
    · rfl
  unfold handleDevices
  cases key.code with
  | up => rfl
  | down => exact hdown
  | enter => exact henter
  | char c =>
    show setting (if c = 'k' then app.selectUp else if c = 'j' then app.selectDown else app) = _
    split
    · rfl
    · split
      · exact hdown
      · rfl
  | _ => rfl

theorem setting_setPartitionBuf (buf : Text) : (app.setPartitionBuf buf).setting = app.setting := by
  unfold setPartitionBuf
  split
  · rfl
  · rfl

theorem setting_submitPartition : app.submitPartition.setting = app.setting := by
  unfold submitPartition
  repeat' split
  all_goals rfl

theorem setting_handlePartition (key : KeyEvent) :
    (app.handlePartition key).setting = app.setting := by
  unfold handlePartition
  cases key.code with
  | backspace => exact setting_setPartitionBuf _
  | enter => exact setting_submitPartition
  | char c =>
    show setting (if _ then _ else app) = _
    split
    · exact setting_setPartitionBuf _
    · rfl
  | _ => rfl

theorem setting_setUserBuf (buf : Text) : (app.setUserBuf buf).setting = app.setting := by
  unfold setUserBuf
  split
  all_goals rfl

theorem setting_submitUser : app.submitUser.setting = app.setting := by
  unfold submitUser
  repeat' split
  all_goals rfl

theorem setting_handleUser (key : KeyEvent) : (app.handleUser key).setting = app.setting := by
  unfold handleUser
  cases key.code with
  | backspace => exact setting_setUserBuf _
  | char c => exact setting_setUserBuf _
  | enter => exact setting_submitUser
  | f n =>
    show setting (if n = 2 then _ else app) = _
    split
    · rfl
    · rfl
  | _ => rfl

theorem setting_setKeyboardBuf (buf : Text) : (app.setKeyboardBuf buf).setting = app.setting := by
  unfold setKeyboardBuf
  split
  · rfl
  · rfl

theorem setting_submitKeyboard : app.submitKeyboard.setting = app.setting := by
  unfold submitKeyboard
  repeat' split
  all_goals rfl

theorem setting_handleKeyboard (key : KeyEvent) :
    (app.handleKeyboard key).setting = app.setting := by
  unfold handleKeyboard
  cases key.code with
  | backspace => exact setting_setKeyboardBuf _
  | char c => exact setting_setKeyboardBuf _
  | enter => exact setting_submitKeyboard
  | _ => rfl

theorem setting_handleSummary (key : KeyEvent) :
    (app.handleSummary key).setting = app.setting := by
  unfold handleSummary
  cases key.code
  all_goals rfl

theorem setting_handleKey (key : KeyEvent) : (app.handleKey key).setting = app.setting := by
  unfold handleKey handleScreen
  split
  case isTrue => rfl
  case isFalse =>
    split
    case h_1 => exact setting_handleDevices key
    case h_2 => exact setting_handlePartition key
    case h_3 => exact setting_handleUser key
    case h_4 => exact setting_handleKeyboard key
    case h_5 => exact setting_handleSummary key

theorem setting_runKeys (keys : List KeyEvent) : (runKeys app keys).setting = app.setting := by
  induction keys generalizing app with
  | nil => rfl
  | cons key keys ih =>
    unfold runKeys
    split
    case isTrue => exact ih
    case isFalse =>
      split
      case isTrue => exact setting_handleKey key
      case isFalse => exact ih.trans (setting_handleKey key)

/-! ### Typing -/

/-- A key that the form takes. -/
def Steps : App → App → Prop :=
  Relation.ReflTransGen fun a b => a.outcome = none ∧ ∃ code, b = a.handleKey ⟨code, false, true⟩

theorem Steps.key (code : KeyCode) (ho : app.outcome = none) :
    Steps app (app.handleKey ⟨code, false, true⟩) :=
  .single ⟨ho, code, rfl⟩

/-- Keys that are taken one after the other are the keys of a session. -/
theorem Steps.exists_keys {app' : App} (h : Steps app app') : ∃ keys, runKeys app keys = app' := by
  induction h using Relation.ReflTransGen.head_induction_on with
  | refl => exact ⟨[], rfl⟩
  | @head a b hab hbc ih =>
    obtain ⟨keys, hkeys⟩ := ih
    obtain ⟨ho, code, rfl⟩ := hab
    by_cases hsome : (a.handleKey ⟨code, false, true⟩).outcome.isSome
    · refine ⟨[⟨code, false, true⟩], ?_⟩
      rw [runKeys, if_neg (by simp), if_pos hsome]
      -- nothing is taken after the outcome
      rcases hbc.cases_head with rfl | ⟨c, ⟨hnone, -⟩, -⟩
      · rfl
      · rw [hnone] at hsome
        cases hsome
    · refine ⟨⟨code, false, true⟩ :: keys, ?_⟩
      rw [runKeys, if_neg (by simp), if_neg hsome, hkeys]

/-- **A field is cleared and typed anew**: `form` is the form with a text in the field. -/
theorem steps_edit (form : Text → App) {text : Text} (ho : ∀ buf, (form buf).outcome = none)
    (hback : ∀ buf, (form buf).handleKey ⟨.backspace, false, true⟩ = form buf.dropLast)
    (hchar : ∀ buf c, (buf ++ [c]) <+: text →
      (form buf).handleKey ⟨.char c, false, true⟩ = form (buf ++ [c])) (old : Text) :
    Steps (form old) (form text) := by
  have hclear : Steps (form old) (form []) := by
    induction old using List.reverseRecOn with
    | nil => exact .refl
    | append_singleton buf c ih =>
      have hkey := Steps.key .backspace (ho (buf ++ [c]))
      rw [hback, List.dropLast_concat] at hkey
      exact hkey.trans ih
  have htype : ∀ buf, buf <+: text → Steps (form []) (form buf) := by
    intro buf
    induction buf using List.reverseRecOn with
    | nil => exact fun _ => .refl
    | append_singleton buf c ih =>
      intro hprefix
      have hkey := Steps.key (.char c) (ho buf)
      rw [hchar buf c hprefix] at hkey
      exact (ih ((List.prefix_append buf [c]).trans hprefix)).trans hkey
  exact hclear.trans (htype text (List.prefix_refl text))

end App

/-! ### Filling the form -/

/-- The texts of the form. -/
structure Fields where
  esp : Text
  root : Text
  name : Text
  realName : Text
  password : Text
  confirm : Text
  layout : Text
  variant : Text

/-- What an operator decides. -/
structure Values where
  esp : UInt32
  root : UInt32
  name : Text
  realName : Text
  password : Text
  layout : Text
  variant : Text

/-- The form with the values typed into it. -/
def Values.fields (v : Values) : Fields where
  esp := decimal v.esp.toNat
  root := decimal v.root.toNat
  name := v.name
  realName := v.realName
  password := v.password
  confirm := v.password
  layout := v.layout
  variant := v.variant

namespace App

/-- The texts in the fields. -/
def fields (app : App) : Fields where
  esp := app.espMibInput
  root := app.rootGibInput
  name := app.userName
  realName := app.userRealname
  password := app.userPassword
  confirm := app.userPasswordConfirm
  layout := app.kbLayout
  variant := app.kbVariant

variable {app : App}

theorem submitPartition_of_ok
    (h : PartitionOk app.currentDevice app.espMibInput app.rootGibInput) :
    app.submitPartition = { app with screen := .user } := by
  obtain ⟨esp, root, hesp, hge, hle, hroot, hmax⟩ := h
  simp only [submitPartition, hesp, hroot]
  rw [if_neg (not_not.mpr ⟨hge, hle⟩), if_neg]
  rintro ⟨hne, hlt⟩
  rcases hmax with h0 | hroom
  · exact hne h0
  · exact absurd (UInt32.lt_of_lt_of_le hlt hroom) (UInt32.lt_irrefl _)

theorem submitUser_of_ok (h : UserOk app.userName app.userPassword app.userPasswordConfirm) :
    app.submitUser = { app with screen := .keyboard } := by
  rw [submitUser, if_neg (not_or.mpr ⟨h.set, h.not_root⟩), if_neg (by simp [h.chars]),
    if_neg (Nat.not_lt.mpr h.length), if_neg (not_not.mpr h.confirmed)]

theorem submitKeyboard_of_ok (h : KeyboardOk app.kbLayout app.kbVariant) :
    app.submitKeyboard = { app with screen := .summary } := by
  have hlayout := h.layout
  have hset : app.kbLayout ≠ [] := by
    intro hnil
    rw [hnil] at hlayout
    cases hlayout
  rw [submitKeyboard, if_neg hset, if_neg (by simp [hlayout]), if_neg]
  rintro ⟨hne, hbad⟩
  rcases h.variant with hnil | hok
  · exact hne hnil
  · rw [hok] at hbad
    cases hbad

/-- The form after Enter on the last screen. -/
def confirm (app : App) : App := { app with outcome := some .confirmed }

section Page

variable (spec : TargetOsSpec) (devices : List UsbDevice)

/-- The form with some texts in its fields, a screen and the focus on it. -/
def page (i : Fin devices.length) (screen : Screen) (focus : ℕ × ℕ × ℕ) (f : Fields) : App where
  screen := screen
  outcome := none
  error := none
  devices := devices
  deviceIdx := i
  deviceIdx_lt := i.isLt
  partitionFocus := focus.1
  espMibInput := f.esp
  rootGibInput := f.root
  userFocus := focus.2.1
  userName := f.name
  userRealname := f.realName
  userPassword := f.password
  userPasswordConfirm := f.confirm
  showPasswords := false
  keyboardFocus := focus.2.2
  kbLayout := f.layout
  kbVariant := f.variant
  specUserShell := spec.user.bind (·.shell)
  specUserGroups := spec.user.bind (·.groups)

/-- The list is walked down to any device. -/
theorem steps_select (f : Fields) (i : Fin devices.length) :
    Steps (page spec devices ⟨0, i.pos⟩ .deviceSelect (0, 0, 0) f)
      (page spec devices i .deviceSelect (0, 0, 0) f) := by
  obtain ⟨i, hi⟩ := i
  induction i with
  | zero => exact .refl
  | succ i ih =>
    have hstep : (page spec devices ⟨i, by omega⟩ .deviceSelect (0, 0, 0) f).handleKey
        ⟨.down, false, true⟩ = page spec devices ⟨i + 1, hi⟩ .deviceSelect (0, 0, 0) f := by
      show selectDown (page spec devices ⟨i, by omega⟩ .deviceSelect (0, 0, 0) f) = _
      exact dif_pos hi
    exact (ih (by omega)).trans (hstep ▸ Steps.key .down rfl)

variable {spec devices} {i : Fin devices.length} {f : Fields}

theorem steps_submitDevice (h : (devices.get i).removable = true) :
    Steps (page spec devices i .deviceSelect (0, 0, 0) f)
      (page spec devices i .partition (0, 0, 0) f) := by
  have hstep : (page spec devices i .deviceSelect (0, 0, 0) f).handleKey ⟨.enter, false, true⟩ =
      page spec devices i .partition (0, 0, 0) f := by
    show submitDevice (page spec devices i .deviceSelect (0, 0, 0) f) = _
    have hcurrent : (page spec devices i .deviceSelect (0, 0, 0) f).currentDevice.removable =
        true := h
    rw [submitDevice, if_neg (by simp [hcurrent])]
    rfl
  exact hstep ▸ Steps.key .enter rfl

theorem handleKey_char (app : App) (c : Char) :
    app.handleKey ⟨.char c, false, true⟩ =
      handleScreen { app with error := none } ⟨.char c, false, true⟩ := by
  unfold handleKey
  rw [if_neg (by simp [isCancel])]

/-- There is room for the next digit of a number. -/
theorem digit_fits {v : UInt32} {buf : Text} {c : Char} (h : buf ++ [c] <+: decimal v.toNat) :
    c.isDigit = true ∧ byteLen buf < 10 := by
  have hdigits : ∀ d ∈ buf ++ [c], d.isDigit = true := fun d hd => decimal_digits (h.subset hd)
  have hlen := h.length_le
  rw [List.length_append, List.length_singleton] at hlen
  have h10 := length_decimal v
  refine ⟨hdigits c (by simp), ?_⟩
  rw [byteLen_digits fun d hd => hdigits d (List.mem_append_left _ hd)]
  omega

theorem steps_editEsp (v : UInt32) :
    Steps (page spec devices i .partition (0, 0, 0) f)
      (page spec devices i .partition (0, 0, 0) { f with esp := decimal v.toNat }) := by
  refine steps_edit
    (fun buf => page spec devices i .partition (0, 0, 0) { f with esp := buf })
    (fun _ => rfl) (fun _ => rfl) (fun buf c hprefix => ?_) f.esp
  rw [handleKey_char]
  exact if_pos (digit_fits hprefix)

theorem steps_editRoot (v : UInt32) :
    Steps (page spec devices i .partition (1, 0, 0) f)
      (page spec devices i .partition (1, 0, 0) { f with root := decimal v.toNat }) := by
  refine steps_edit
    (fun buf => page spec devices i .partition (1, 0, 0) { f with root := buf })
    (fun _ => rfl) (fun _ => rfl) (fun buf c hprefix => ?_) f.root
  rw [handleKey_char]
  exact if_pos (digit_fits hprefix)

theorem steps_submitPartition (h : PartitionOk (devices.get i) f.esp f.root) :
    Steps (page spec devices i .partition (1, 0, 0) f) (page spec devices i .user (1, 0, 0) f) := by
  have hstep : (page spec devices i .partition (1, 0, 0) f).handleKey ⟨.enter, false, true⟩ =
      page spec devices i .user (1, 0, 0) f := submitPartition_of_ok h
  exact hstep ▸ Steps.key .enter rfl

theorem steps_editName (t : Text) :
    Steps (page spec devices i .user (1, 0, 0) f)
      (page spec devices i .user (1, 0, 0) { f with name := t }) :=
  steps_edit (fun buf => page spec devices i .user (1, 0, 0) { f with name := buf })
    (fun _ => rfl) (fun _ => rfl) (fun _ c _ => handleKey_char _ c) f.name

theorem steps_editRealName (t : Text) :
    Steps (page spec devices i .user (1, 1, 0) f)
      (page spec devices i .user (1, 1, 0) { f with realName := t }) :=
  steps_edit (fun buf => page spec devices i .user (1, 1, 0) { f with realName := buf })
    (fun _ => rfl) (fun _ => rfl) (fun _ c _ => handleKey_char _ c) f.realName

theorem steps_editPassword (t : Text) :
    Steps (page spec devices i .user (1, 2, 0) f)
      (page spec devices i .user (1, 2, 0) { f with password := t }) :=
  steps_edit (fun buf => page spec devices i .user (1, 2, 0) { f with password := buf })
    (fun _ => rfl) (fun _ => rfl) (fun _ c _ => handleKey_char _ c) f.password

theorem steps_editConfirm (t : Text) :
    Steps (page spec devices i .user (1, 3, 0) f)
      (page spec devices i .user (1, 3, 0) { f with confirm := t }) :=
  steps_edit (fun buf => page spec devices i .user (1, 3, 0) { f with confirm := buf })
    (fun _ => rfl) (fun _ => rfl) (fun _ c _ => handleKey_char _ c) f.confirm

theorem steps_submitUser (h : UserOk f.name f.password f.confirm) :
    Steps (page spec devices i .user (1, 3, 0) f) (page spec devices i .keyboard (1, 3, 0) f) := by
  have hstep : (page spec devices i .user (1, 3, 0) f).handleKey ⟨.enter, false, true⟩ =
      page spec devices i .keyboard (1, 3, 0) f := submitUser_of_ok h
  exact hstep ▸ Steps.key .enter rfl

theorem steps_editLayout (t : Text) :
    Steps (page spec devices i .keyboard (1, 3, 0) f)
      (page spec devices i .keyboard (1, 3, 0) { f with layout := t }) :=
  steps_edit (fun buf => page spec devices i .keyboard (1, 3, 0) { f with layout := buf })
    (fun _ => rfl) (fun _ => rfl) (fun _ c _ => handleKey_char _ c) f.layout

theorem steps_editVariant (t : Text) :
    Steps (page spec devices i .keyboard (1, 3, 1) f)
      (page spec devices i .keyboard (1, 3, 1) { f with variant := t }) :=
  steps_edit (fun buf => page spec devices i .keyboard (1, 3, 1) { f with variant := buf })
    (fun _ => rfl) (fun _ => rfl) (fun _ c _ => handleKey_char _ c) f.variant

theorem steps_submitKeyboard (h : KeyboardOk f.layout f.variant) :
    Steps (page spec devices i .keyboard (1, 3, 1) f)
      (page spec devices i .summary (1, 3, 1) f) := by
  have hstep : (page spec devices i .keyboard (1, 3, 1) f).handleKey ⟨.enter, false, true⟩ =
      page spec devices i .summary (1, 3, 1) f := submitKeyboard_of_ok h
  exact hstep ▸ Steps.key .enter rfl

/-- The focus moves on without a change to the texts. -/
theorem steps_tab {screen : Screen} {k l : ℕ × ℕ × ℕ}
    (h : (page spec devices i screen k f).handleKey ⟨.tab, false, true⟩ =
      page spec devices i screen l f) :
    Steps (page spec devices i screen k f) (page spec devices i screen l f) :=
  h ▸ Steps.key .tab rfl

theorem steps_partitionPage (esp root : UInt32)
    (h : PartitionOk (devices.get i) (decimal esp.toNat) (decimal root.toNat)) :
    Steps (page spec devices i .partition (0, 0, 0) f)
      (page spec devices i .user (1, 0, 0)
        { f with esp := decimal esp.toNat, root := decimal root.toNat }) :=
  (steps_editEsp esp).trans ((steps_tab rfl).trans
    ((steps_editRoot root).trans (steps_submitPartition h)))

theorem steps_userPage (name realName password : Text) (h : UserOk name password password) :
    Steps (page spec devices i .user (1, 0, 0) f)
      (page spec devices i .keyboard (1, 3, 0)
        { f with name := name, realName := realName, password := password, confirm := password }) :=
  (steps_editName name).trans ((steps_tab rfl).trans ((steps_editRealName realName).trans
    ((steps_tab rfl).trans ((steps_editPassword password).trans ((steps_tab rfl).trans
      ((steps_editConfirm password).trans (steps_submitUser h)))))))

theorem steps_keyboardPage (layout variant : Text) (h : KeyboardOk layout variant) :
    Steps (page spec devices i .keyboard (1, 3, 0) f)
      (page spec devices i .summary (1, 3, 1) { f with layout := layout, variant := variant }) :=
  (steps_editLayout layout).trans ((steps_tab rfl).trans
    ((steps_editVariant variant).trans (steps_submitKeyboard h)))

/-- **Values that pass the checks can be typed and confirmed**, for any removable device. -/
theorem confirm_steps (spec : TargetOsSpec) (hne : devices ≠ []) (v : Values)
    (hdevice : (devices.get i).removable = true)
    (hpartition : PartitionOk (devices.get i) (decimal v.esp.toNat) (decimal v.root.toNat))
    (huser : UserOk v.name v.password v.password) (hkeyboard : KeyboardOk v.layout v.variant) :
    Steps (App.new spec devices hne) (page spec devices i .summary (1, 3, 1) v.fields).confirm := by
  have hselect := (steps_select spec devices (App.new spec devices hne).fields i).trans
    (steps_submitDevice hdevice)
  have hfill := (hselect.trans (steps_partitionPage v.esp v.root hpartition)).trans
    ((steps_userPage v.name v.realName v.password huser).trans
      (steps_keyboardPage v.layout v.variant hkeyboard))
  exact hfill.trans (Steps.key .enter rfl)

end Page
end App
end WriteonceOs.Installer
