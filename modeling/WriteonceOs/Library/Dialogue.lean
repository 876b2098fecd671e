import Mathlib.Logic.Basic

/-!
# Dialogues

A program that takes its answers from a state, one after the other, and may fail.

* `exists_ok` — a step that succeeds has a result;
* `bind_eq_ok` — two steps that may fail, one after the other;
* `Dialogue.bind_ok` — what the first part answers goes to the second;
* `Dialogue.ok_pair_iff` — a result that is given, and what is left behind it;
* `Dialogue.bind_ok_iff` — a dialogue that succeeds, cut in two.
-/

namespace WriteonceOs.Library

theorem exists_ok {ε α : Type} {x : Except ε α} (h : x.isOk = true) : ∃ a, x = .ok a := by
  cases x with
  | error e => cases h
  | ok a => exact ⟨a, rfl⟩

/-- **Two steps succeed** when the first does and the second does on its result. -/
theorem bind_eq_ok {ε α β : Type} {x : Except ε α} {f : α → Except ε β} {b : β} :
    (x >>= f) = .ok b ↔ ∃ a, x = .ok a ∧ f a = .ok b := by
  cases x with
  | error e => exact iff_of_false nofun nofun
  | ok a =>
    constructor
    · intro h
      exact ⟨a, rfl, h⟩
    · intro h
      obtain ⟨a', ha, h⟩ := h
      cases ha
      exact h

/-- A program that takes answers from `σ` and fails with `ε`. -/
abbrev Dialogue (σ ε α : Type) := StateT σ (Except ε) α

namespace Dialogue

variable {σ ε α β : Type} {x : Dialogue σ ε α} {f : α → Dialogue σ ε β} {s s' : σ}

theorem bind_ok {a : α} (h : x s = .ok (a, s')) : (x >>= f) s = f a s' := by
  have hbind : (x >>= f) s = (x s >>= fun p => f p.1 p.2) := rfl
  rw [hbind, h]
  rfl

theorem bind_error {e : ε} (h : x s = .error e) : (x >>= f) s = .error e := by
  have hbind : (x >>= f) s = (x s >>= fun p => f p.1 p.2) := rfl
  rw [hbind, h]
  rfl

/-- What is returned, and what is left. -/
theorem ok_pair_iff {ε α σ : Type} {a b : α} {s t : σ} :
    (.ok (a, s) : Except ε (α × σ)) = .ok (b, t) ↔ b = a ∧ t = s := by
  rw [Except.ok.injEq, Prod.mk.injEq, eq_comm, @eq_comm _ s]

/-- **A dialogue that succeeds, cut in two.** -/
theorem bind_ok_iff {b : β} {t : σ} :
    (x >>= f) s = .ok (b, t) ↔ ∃ a s', x s = .ok (a, s') ∧ f a s' = .ok (b, t) := by
  cases hx : x s with
  | error e =>
    rw [bind_error hx]
    exact iff_of_false nofun (fun ⟨_, _, h, _⟩ => nomatch h)
  | ok p =>
    rw [bind_ok hx]
    constructor
    · exact fun h => ⟨p.1, p.2, rfl, h⟩
    · rintro ⟨a, s', hp, h⟩
      cases hp
      exact h

end Dialogue

end WriteonceOs.Library
