import Mathlib.Logic.Relation

/-!
# Carrying closures along a relabelling

Two relations that correspond under a relabelling of their nodes have corresponding transitive
closures.  The relabelling is only required to be faithful on a domain that carries both relations.
-/

namespace WriteonceOs.Library

open Relation

variable {α β : Type*}

/-- `f` carries `r` to `s`: on the domain it is injective and matches the relations, and neither
relation has an edge that leaves the domain. -/
structure Relabelling (D : α → Prop) (f : α → β) (r : α → α → Prop) (s : β → β → Prop) : Prop where
  inj : ∀ {u v}, D u → D v → f u = f v → u = v
  dom : ∀ {u v}, r u v → D u ∧ D v
  cod : ∀ {a b}, s a b → ∃ u v, D u ∧ D v ∧ f u = a ∧ f v = b
  iff : ∀ {u v}, D u → D v → (r u v ↔ s (f u) (f v))

namespace Relabelling

variable {D : α → Prop} {f : α → β} {r : α → α → Prop} {s : β → β → Prop}

theorem swap (h : Relabelling D f r s) : Relabelling D f (Function.swap r) (Function.swap s) where
  inj := h.inj
  dom := fun huv => (h.dom huv).symm
  cod := fun hab => by
    obtain ⟨u, v, hu, hv, rfl, rfl⟩ := h.cod hab
    exact ⟨v, u, hv, hu, rfl, rfl⟩
  iff := fun hu hv => h.iff hv hu

/-- An edge out of a labelled node is the image of an edge. -/
theorem step (h : Relabelling D f r s) {u : α} (hu : D u) {b : β} (hs : s (f u) b) :
    ∃ v, D v ∧ f v = b ∧ r u v := by
  obtain ⟨u', v, hu', hv, huu, rfl⟩ := h.cod hs
  exact ⟨v, hv, rfl, (h.iff hu hv).mpr hs⟩

/-- What a labelled node reaches is labelled. -/
theorem reachable_dom (h : Relabelling D f r s) {u v : α} (hu : D u) (huv : ReflTransGen r u v) :
    D v := by
  cases huv with
  | refl => exact hu
  | tail _ hlast => exact (h.dom hlast).2

theorem reflTransGen_iff (h : Relabelling D f r s) {u : α} (hu : D u) {b : β} :
    ReflTransGen s (f u) b ↔ ∃ v, D v ∧ f v = b ∧ ReflTransGen r u v := by
  constructor
  · intro hs
    induction hs with
    | refl => exact ⟨u, hu, rfl, ReflTransGen.refl⟩
    | tail _ hlast ih =>
      obtain ⟨v, hv, rfl, hr⟩ := ih
      obtain ⟨w, hw, rfl, hvw⟩ := h.step hv hlast
      exact ⟨w, hw, rfl, hr.tail hvw⟩
  · intro h'
    obtain ⟨v, -, rfl, hr⟩ := h'
    induction hr with
    | refl => exact ReflTransGen.refl
    | tail _ hlast ih =>
      obtain ⟨hv, hw⟩ := h.dom hlast
      exact ih.tail ((h.iff hv hw).mp hlast)

theorem transGen_iff (h : Relabelling D f r s) {u v : α} (hu : D u) (hv : D v) :
    TransGen s (f u) (f v) ↔ TransGen r u v := by
  rw [TransGen.tail'_iff, TransGen.tail'_iff]
  constructor
  · intro h'
    obtain ⟨b, hub, hbv⟩ := h'
    obtain ⟨w, hw, rfl, huw⟩ := (h.reflTransGen_iff hu).mp hub
    exact ⟨w, huw, (h.iff hw hv).mpr hbv⟩
  · intro h'
    obtain ⟨w, huw, hwv⟩ := h'
    have hw := (h.dom hwv).1
    exact ⟨f w, (h.reflTransGen_iff hu).mpr ⟨w, hw, rfl, huw⟩, (h.iff hw hv).mp hwv⟩

/-- The relabelling carries cycles both ways. -/
theorem cycle_iff (h : Relabelling D f r s) :
    (∃ a, TransGen s a a) ↔ ∃ v, TransGen r v v := by
  constructor
  · intro h'
    obtain ⟨a, ha⟩ := h'
    obtain ⟨b, hab, -⟩ := TransGen.head'_iff.mp ha
    obtain ⟨u, -, hu, -, rfl, -⟩ := h.cod hab
    exact ⟨u, (h.transGen_iff hu hu).mp ha⟩
  · intro h'
    obtain ⟨v, hv⟩ := h'
    obtain ⟨w, hvw, -⟩ := TransGen.head'_iff.mp hv
    have hD := (h.dom hvw).1
    exact ⟨f v, (h.transGen_iff hD hD).mpr hv⟩

end Relabelling

end WriteonceOs.Library
