import WriteonceOs.Library.Run

/-!
# Noninterference by purging

Some steps of a system are visible to an observer and some are not.  A relation between states that
no hidden step leaves, and that visible steps carry along, relates what a run reaches to what its
visible steps alone reach.

* `Unwinding` — what a hidden and a visible step have to do;
* `Unwinding.purge` — a run and its visible part;
* `Unwinding.noninterference` — two runs with the same visible part.
-/

namespace WriteonceOs.Library

variable {σ ω : Type*}

/-- What two states look like to the observer is unchanged by hidden steps and carried along by
visible ones; `I` holds of the states that the guarded runs come through. -/
structure Unwinding (next : σ → ω → Option σ) (I : σ → Prop) (G : σ → ω → Prop) (visible : ω → Bool)
    (R : σ → σ → Prop) : Prop where
  symm : ∀ s t, R s t → R t s
  trans : ∀ s t u, R s t → R t u → R s u
  inv : ∀ s a s', I s → G s a → next s a = some s' → I s'
  hidden : ∀ s a s', I s → G s a → visible a = false → next s a = some s' → R s s'
  visible : ∀ s a s' t, R s t → visible a = true → next s a = some s' →
    ∃ t', next t a = some t' ∧ R s' t'

namespace Unwinding

variable {next : σ → ω → Option σ} {I : σ → Prop} {G : σ → ω → Prop} {visible : ω → Bool}
  {R : σ → σ → Prop}

/-- **The visible part of a run leads to a state that looks the same.** -/
theorem purge (hU : Unwinding next I G visible R) {s s' t : σ} {acts : List ω} (hI : I s)
    (hG : EachStep next G s acts) (hR : R s t) (hrun : acts.foldlM next s = some s') :
    ∃ t', (acts.filter visible).foldlM next t = some t' ∧ R s' t' := by
  induction acts generalizing s t with
  | nil =>
    cases hrun
    exact ⟨t, rfl, hR⟩
  | cons a acts ih =>
    obtain ⟨u, hu, hrest⟩ := foldlM_cons_some.mp hrun
    have hIu : I u := hU.inv s a u hI hG.head hu
    cases ha : visible a with
    | false =>
      -- a hidden step: the other side stays where it is
      have hut : R u t := hU.trans u s t (hU.symm s u (hU.hidden s a u hI hG.head ha hu)) hR
      rw [List.filter_cons_of_neg (by simp [ha])]
      exact ih hIu (hG.tail hu) hut hrest
    | true =>
      obtain ⟨v, hv, huv⟩ := hU.visible s a u t hR ha hu
      obtain ⟨t', ht', hst⟩ := ih hIu (hG.tail hu) huv hrest
      rw [List.filter_cons_of_pos ha]
      exact ⟨t', foldlM_cons_some.mpr ⟨v, hv, ht'⟩, hst⟩

/-- **Two runs with the same visible part lead to states that look the same.** -/
theorem noninterference (hU : Unwinding next I G visible R) {s s₁ s₂ : σ} {acts₁ acts₂ : List ω}
    (hR : R s s) (hI : I s) (hG₁ : EachStep next G s acts₁) (hG₂ : EachStep next G s acts₂)
    (hsame : acts₁.filter visible = acts₂.filter visible)
    (hrun₁ : acts₁.foldlM next s = some s₁) (hrun₂ : acts₂.foldlM next s = some s₂) : R s₁ s₂ := by
  obtain ⟨t, ht, hst⟩ := hU.purge hI hG₁ hR hrun₁
  obtain ⟨t', ht', hst'⟩ := hU.purge hI hG₂ hR hrun₂
  rw [hsame, ht'] at ht
  have htt : t' = t := Option.some.inj ht
  rw [htt] at hst'
  exact hU.trans s₁ t s₂ hst (hU.symm s₂ t hst')

end Unwinding

end WriteonceOs.Library
