import Mathlib.Data.List.Basic

/-!
# Laws of a history

A history is the list of what has happened, oldest first.  A law says which events the past allows;
a history is lawful when each of its events was allowed by the events before it.

* `lawful_concat` — one more event;
* `Lawful.imp_of_mem` — an event of a lawful history and the past that allowed it;
* `Lawful.forall_rest` — what the law says about everything behind an event.
-/

namespace WriteonceOs.Library

variable {ε : Type*} {allowed : List ε → ε → Prop}

/-- Each event is allowed by those before it. -/
def Lawful (allowed : List ε → ε → Prop) (log : List ε) : Prop :=
  ∀ past e rest, log = past ++ e :: rest → allowed past e

theorem lawful_nil : Lawful allowed [] := by
  intro past e rest h
  exact absurd h (by simp)

/-- **One more event.** -/
theorem lawful_concat {log : List ε} {e : ε} :
    Lawful allowed (log ++ [e]) ↔ Lawful allowed log ∧ allowed log e := by
  refine ⟨fun h => ⟨?_, h log e [] rfl⟩, fun ⟨hlog, he⟩ => ?_⟩
  · rintro past e' rest rfl
    exact h past e' (rest ++ [e]) (by simp)
  · intro past e' rest hsplit
    rcases List.eq_nil_or_concat rest with rfl | ⟨rest, e'', rfl⟩
    · obtain ⟨rfl, rfl⟩ := List.append_singleton_inj.mp hsplit
      exact he
    · rw [List.concat_eq_append, ← List.cons_append, ← List.append_assoc] at hsplit
      exact hlog past e' rest (List.append_singleton_inj.mp hsplit).1

theorem Lawful.of_append {log log' : List ε} (h : Lawful allowed (log ++ log')) :
    Lawful allowed log := by
  rintro past e rest rfl
  exact h past e (rest ++ log') (by simp)

/-- An event of a lawful history and the past that allowed it. -/
theorem Lawful.imp_of_mem {log : List ε} (h : Lawful allowed log) {e : ε} (he : e ∈ log) :
    ∃ past rest, log = past ++ e :: rest ∧ allowed past e := by
  obtain ⟨past, rest, hsplit⟩ := List.append_of_mem he
  exact ⟨past, rest, hsplit, h past e rest hsplit⟩

/-- **Everything behind an event** is allowed by a past that has the event. -/
theorem Lawful.forall_rest {log past rest : List ε} {e : ε} (h : Lawful allowed log)
    (hsplit : log = past ++ e :: rest) {P : ε → Prop}
    (hP : ∀ past' e', e ∈ past' → allowed past' e' → P e') : ∀ e' ∈ rest, P e' := by
  intro e' he'
  obtain ⟨before, after, rfl⟩ := List.append_of_mem he'
  have hallowed := h (past ++ e :: before) e' after (by rw [hsplit]; simp)
  exact hP _ e' (by simp) hallowed

end WriteonceOs.Library
