import Mathlib.Data.List.Basic
import Mathlib.Algebra.Order.Group.Nat

/-!
# A sliding-window limiter

A limiter lets an event happen at most `b` times in every closed window of length `d`.  It keeps a
history of the event's times, forgets those that fell out of the window at each decision, and lets
the event happen when fewer than `b` are left.

* `WindowInv` — the history holds every event of the last window, and no window holds more than `b`;
* `WindowInv.later`, `WindowInv.prune`, `WindowInv.push` — time passing, a decision, an event;
* `WindowInv.full` — a refusal is a window with exactly `b` events.
-/

namespace WriteonceOs.Library

/-- The times that a decision at `now` still counts. -/
def recent (d now : ℕ) (ts : List ℕ) : List ℕ := ts.filter (fun t => now - t ≤ d)

/-- The number of events in the window of length `d` that starts at `x`. -/
def inWindow (d x : ℕ) (ts : List ℕ) : ℕ := ts.countP (fun t => x ≤ t ∧ t ≤ x + d)

/-- The number of events within the last `d` before `now`. -/
def inLast (d now : ℕ) (ts : List ℕ) : ℕ := ts.countP (fun t => now ≤ t + d ∧ t ≤ now)

/-- All events, and the part of them the limiter remembers. -/
structure WindowInv (d b now : ℕ) (events history : List ℕ) : Prop where
  past : ∀ t ∈ events, t ≤ now
  remembered : recent d now events = recent d now history
  bounded : 0 < b → ∀ x, inWindow d x events ≤ b

variable {d b now : ℕ} {events history : List ℕ}

theorem WindowInv.init (d b now : ℕ) : WindowInv d b now [] [] where
  past := by simp
  remembered := rfl
  bounded := by simp [inWindow]

/-- What a later decision counts, an earlier one counted. -/
theorem recent_recent {later : ℕ} (h : now ≤ later) (ts : List ℕ) :
    recent d later (recent d now ts) = recent d later ts := by
  unfold recent
  rw [List.filter_filter]
  refine List.filter_congr fun t _ => ?_
  rw [← Bool.decide_and, decide_eq_decide]
  omega

theorem WindowInv.later (h : WindowInv d b now events history) {later : ℕ} (hle : now ≤ later) :
    WindowInv d b later events history where
  past := fun t ht => (h.past t ht).trans hle
  remembered := by
    rw [← recent_recent hle events, h.remembered, recent_recent hle]
  bounded := h.bounded

/-- Forgetting what fell out of the window loses nothing. -/
theorem WindowInv.prune (h : WindowInv d b now events history) :
    WindowInv d b now events (recent d now history) where
  past := h.past
  remembered := by rw [recent_recent (le_refl now), h.remembered]
  bounded := h.bounded

/-- The remembered events are those within the last `d`. -/
theorem WindowInv.length_recent (h : WindowInv d b now events history) :
    (recent d now history).length = inLast d now events := by
  rw [← h.remembered, recent, inLast, ← List.countP_eq_length_filter]
  refine List.countP_congr fun t ht => ?_
  have := h.past t ht
  simp only [decide_eq_true_eq]
  omega

/-- The events within the last `d` all lie in the window that starts at the first of them. -/
theorem inLast_le_inWindow {x : ℕ} (hx : now ≤ x + d) (hpast : ∀ t ∈ events, t ≤ now) :
    inWindow d x events ≤ inLast d now events := by
  refine List.countP_mono_left fun t ht hwindow => ?_
  have := hpast t ht
  simp only [decide_eq_true_eq] at hwindow ⊢
  omega

/-- **An event that finds room** keeps every window bounded. -/
theorem WindowInv.push (h : WindowInv d b now events history)
    (hroom : 0 < b → (recent d now history).length < b) :
    WindowInv d b now (events ++ [now]) (recent d now history ++ [now]) where
  past := by
    intro t ht
    rcases List.mem_append.mp ht with ht | ht
    · exact h.past t ht
    · exact le_of_eq (List.mem_singleton.mp ht)
  remembered := by
    have hpruned := h.prune.remembered
    simp only [recent, List.filter_append] at hpruned ⊢
    rw [hpruned]
  bounded := by
    intro hb x
    rw [inWindow, List.countP_append, ← inWindow]
    by_cases hx : x ≤ now ∧ now ≤ x + d
    · have hle := inLast_le_inWindow hx.2 h.past
      have hlt := hroom hb
      rw [h.length_recent] at hlt
      rw [List.countP_singleton, if_pos (decide_eq_true hx)]
      omega
    · have hle := h.bounded hb x
      rw [List.countP_singleton, if_neg (by simpa using hx)]
      omega

/-- **A refusal**: the last window holds exactly `b` events. -/
theorem WindowInv.full (h : WindowInv d b now events history) (hb : 0 < b)
    (hfull : b ≤ (recent d now history).length) : inLast d now events = b := by
  rw [h.length_recent] at hfull
  have hle : inLast d now events ≤ inWindow d (now - d) events := by
    refine List.countP_mono_left fun t _ hlast => ?_
    simp only [decide_eq_true_eq] at hlast ⊢
    omega
  have := h.bounded hb (now - d)
  omega

end WriteonceOs.Library
