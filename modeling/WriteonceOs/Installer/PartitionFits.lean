import WriteonceOs.Installer.Prompt
import Mathlib.Algebra.Order.Ring.Nat

/-!
# The layout fits the disk

The partition section compares a root size from the specification with the space that is left, but
takes a number typed at the prompt as it is.

* `maxRootGib_fits` — the largest root that is offered leaves room for the rest;
* `partition_fits_iff` — when the accepted layout fits.
-/

namespace WriteonceOs.Installer

open WriteonceOs.Library

variable {spec : Option PartitionsSpec} {device : UsbDevice} {replies : Replies}

/-- The size of the disk in MiB. -/
def sizeMib (device : UsbDevice) : ℕ := device.sizeBytes.toNat / 1048576

/-- The sizes of the plan are in range, and the layout ends before the disk does. -/
structure Fits (device : UsbDevice) (plan : PartitionPlan) : Prop where
  esp_ge : 100 ≤ plan.espMib
  esp_le : plan.espMib ≤ 4096
  esp_fits : plan.espMib.toNat + 8 ≤ sizeMib device
  root_pos : ∀ g, plan.rootGib = some g → 1 ≤ g
  root_fits : ∀ g, plan.rootGib = some g →
    plan.espMib.toNat + 8 + 1024 * g.toNat ≤ sizeMib device

/-! ### Sizes -/

theorem diskMib_le (device : UsbDevice) : (diskMib device).toNat ≤ sizeMib device := by
  rw [diskMib, UInt64.toNat_toUInt32, UInt64.toNat_div, sizeMib]
  exact Nat.mod_le _ _

theorem toNat_saturatingSub (a b : UInt32) : (saturatingSub a b).toNat = a.toNat - b.toNat := by
  unfold saturatingSub
  split
  case isTrue h =>
    have hle := UInt32.le_iff_toNat_le.mp h
    rw [Nat.sub_eq_zero_of_le hle]
    rfl
  case isFalse h =>
    rw [UInt32.toNat_sub_of_le _ _ (by grind)]

theorem toNat_esp_add {esp : UInt32} (h : esp ≤ 8192) : (esp + 8).toNat = esp.toNat + 8 := by
  have hle := UInt32.le_iff_toNat_le.mp h
  have h8192 : (8192 : UInt32).toNat = 8192 := rfl
  have h8 : (8 : UInt32).toNat = 8 := rfl
  rw [UInt32.toNat_add, h8, Nat.mod_eq_of_lt (by omega)]

theorem toNat_maxRootGib (device : UsbDevice) {esp : UInt32} (h : esp ≤ 8192) :
    (maxRootGib device esp).toNat = ((diskMib device).toNat - (esp.toNat + 8)) / 1024 := by
  rw [maxRootGib, UInt32.toNat_div, toNat_saturatingSub, toNat_esp_add h]
  rfl

/-- **The largest root that is offered leaves room for the rest.** -/
theorem maxRootGib_fits {esp : UInt32} (h : esp ≤ 8192) (hesp : esp.toNat + 8 ≤ sizeMib device) :
    esp.toNat + 8 + 1024 * (maxRootGib device esp).toNat ≤ sizeMib device := by
  have hmax := toNat_maxRootGib device h
  have hdisk := diskMib_le device
  omega

/-- A root that is not larger than the largest, but is there, shows that the rest fits. -/
theorem fits_of_le_max {esp v : UInt32} (h : esp ≤ 8192) (hv : v ≠ 0)
    (hle : v ≤ maxRootGib device esp) : esp.toNat + 8 + 1024 * v.toNat ≤ sizeMib device := by
  have hmax := toNat_maxRootGib device h
  have hle := UInt32.le_iff_toNat_le.mp hle
  have hdisk := diskMib_le device
  have hpos : v.toNat ≠ 0 := fun h0 => hv (UInt32.toNat_inj.mp h0)
  omega

/-! ### The section -/

/-- The specification fixes the size of the root. -/
def RootFixed (spec : Option PartitionsSpec) : Prop :=
  ∃ v, spec.bind (·.rootGib) = some v ∧ v ≠ 0

theorem chooseRoot_asked (h : ¬ RootFixed spec) (max : UInt32) :
    chooseRoot spec max = promptRoot max := by
  unfold chooseRoot
  split
  case h_1 => rfl
  case h_2 v hv =>
    rw [if_pos]
    by_contra hne
    exact h ⟨v, hv, hne⟩

/-- A root of the specification is taken when it is not larger than the largest. -/
theorem chooseRoot_fixed {v max : UInt32} {root : Option UInt32} {rest : Replies}
    (hv : spec.bind (·.rootGib) = some v) (hne : v ≠ 0)
    (h : chooseRoot spec max replies = .ok (root, rest)) : root = some v ∧ v ≤ max := by
  unfold chooseRoot at h
  simp only [hv, if_neg hne] at h
  split at h
  case isTrue => cases h
  case isFalse hle =>
    cases h
    exact ⟨rfl, by grind⟩

theorem promptRoot_ok_iff {max : UInt32} {root : Option UInt32} {rest : Replies} :
    promptRoot max replies = .ok (root, rest) ↔ ∃ chosen,
      promptU32 max replies = .ok (chosen, rest) ∧
        root = if chosen = max ∨ chosen = 0 then none else some chosen := by
  rw [promptRoot, Dialogue.bind_ok_iff]
  constructor
  · rintro ⟨chosen, r, hprompt, hpure⟩
    cases hpure
    exact ⟨chosen, hprompt, rfl⟩
  · rintro ⟨chosen, hprompt, rfl⟩
    exact ⟨chosen, rest, hprompt, rfl⟩

theorem gatherPartition_ok_iff {plan : PartitionPlan} {rest : Replies} :
    gatherPartition spec device replies = .ok (plan, rest) ↔
      100 ≤ plan.espMib ∧ plan.espMib ≤ 4096 ∧
        ∃ r, chooseEsp spec replies = .ok (plan.espMib, r) ∧
          chooseRoot spec (maxRootGib device plan.espMib) r = .ok (plan.rootGib, rest) := by
  rw [gatherPartition, Dialogue.bind_ok_iff]
  constructor
  · rintro ⟨esp, r, hesp, h⟩
    split at h
    case isTrue => cases h
    case isFalse hrange =>
      obtain ⟨root, r', hroot, hpure⟩ := Dialogue.bind_ok_iff.mp h
      cases hpure
      exact ⟨by grind, by grind, r, hesp, hroot⟩
  · rintro ⟨hge, hle, r, hesp, hroot⟩
    refine ⟨plan.espMib, r, hesp, ?_⟩
    rw [if_neg (by grind)]
    exact Dialogue.bind_ok_iff.mpr ⟨_, _, hroot, rfl⟩

/-- What is typed at the root prompt, or its default, leaves room for the rest. -/
def RootReplyFits (spec : Option PartitionsSpec) (device : UsbDevice) (replies : Replies) : Prop :=
  ∀ esp r chosen r', chooseEsp spec replies = .ok (esp, r) → 100 ≤ esp → esp ≤ 4096 →
    promptU32 (maxRootGib device esp) r = .ok (chosen, r') →
      esp.toNat + 8 + 1024 * chosen.toNat ≤ sizeMib device

/-- A root that was asked for fits when the typed number does. -/
theorem promptRoot_fits_iff {esp chosen : UInt32} (hge : 100 ≤ esp) (hle : esp ≤ 4096) :
    Fits device ⟨esp, if chosen = maxRootGib device esp ∨ chosen = 0 then none else some chosen⟩ ↔
      esp.toNat + 8 + 1024 * chosen.toNat ≤ sizeMib device := by
  split
  case isTrue h =>
    constructor
    · intro hfits
      rcases h with rfl | rfl
      · exact maxRootGib_fits (by grind) hfits.esp_fits
      · exact hfits.esp_fits
    · intro hroom
      exact ⟨hge, hle, Nat.le_of_add_right_le hroom, nofun, nofun⟩
  case isFalse h =>
    constructor
    · exact fun hfits => hfits.root_fits chosen rfl
    · intro hroom
      refine ⟨hge, hle, Nat.le_of_add_right_le hroom, ?_, ?_⟩
      · rintro g ⟨⟩
        have hpos : chosen ≠ 0 := fun h0 => h (.inr h0)
        grind
      · rintro g ⟨⟩
        exact hroom

/-- A root that the specification fixes fits. -/
theorem fixed_fits {plan : PartitionPlan} {rest : Replies} (hfixed : RootFixed spec)
    (h : gatherPartition spec device replies = .ok (plan, rest)) : Fits device plan := by
  obtain ⟨v, hv, hne⟩ := hfixed
  obtain ⟨hge, hle, r, -, hroot⟩ := gatherPartition_ok_iff.mp h
  obtain ⟨hsome, hmax⟩ := chooseRoot_fixed hv hne hroot
  have hroom := fits_of_le_max (by grind) hne hmax
  refine ⟨hge, hle, by omega, fun g hg => ?_, fun g hg => ?_⟩
  · obtain rfl := Option.some.inj (hsome.symm.trans hg)
    grind
  · obtain rfl := Option.some.inj (hsome.symm.trans hg)
    exact hroom

/-- **An accepted layout fits the disk**, with its sizes in range, exactly when the specification
fixes the root or the size typed at the root prompt fits. -/
theorem partition_fits_iff (spec : Option PartitionsSpec) (device : UsbDevice)
    (replies : Replies) :
    (∀ plan rest, gatherPartition spec device replies = .ok (plan, rest) → Fits device plan) ↔
      RootFixed spec ∨ RootReplyFits spec device replies := by
  by_cases hfixed : RootFixed spec
  · exact iff_of_true (fun _ _ => fixed_fits hfixed) (.inl hfixed)
  · simp only [hfixed, false_or]
    constructor
    · intro hall esp r chosen r' hesp hge hle hprompt
      refine (promptRoot_fits_iff hge hle).mp (hall _ r' (gatherPartition_ok_iff.mpr ?_))
      refine ⟨hge, hle, r, hesp, ?_⟩
      rw [chooseRoot_asked hfixed]
      exact promptRoot_ok_iff.mpr ⟨chosen, hprompt, rfl⟩
    · intro hreply plan rest h
      obtain ⟨esp, root⟩ := plan
      obtain ⟨hge, hle, r, hesp, hroot⟩ := gatherPartition_ok_iff.mp h
      rw [chooseRoot_asked hfixed] at hroot
      obtain ⟨chosen, hprompt, hplan⟩ := promptRoot_ok_iff.mp hroot
      simp only at hplan
      rw [hplan]
      exact (promptRoot_fits_iff hge hle).mpr (hreply esp r chosen rest hesp hge hle hprompt)

/-! ### A root larger than the disk -/

/-- The default boot partition, and 9000 GiB for the root of a stick of 30 GB. -/
theorem large_root_accepted :
    gatherPartition none stick ⟨[.ok "\n".toList, .ok "9000\n".toList], []⟩ =
        .ok (⟨512, some 9000⟩, ⟨[], []⟩) ∧
      ¬ Fits stick ⟨512, some 9000⟩ := by
  refine ⟨rfl, fun h => ?_⟩
  exact absurd (h.root_fits 9000 rfl) (by decide)

end WriteonceOs.Installer
