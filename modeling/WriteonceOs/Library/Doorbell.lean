import Mathlib.Data.Set.Insert
import Mathlib.Logic.Relation

/-!
# Handing items over with a bell

Many producers hand items to one consumer that sleeps between them.  A producer puts its item in a
shared queue and rings the bell afterwards, in two steps; the consumer empties the queue, and only
then sleeps until the bell rings.  Rings are not tied to items: the consumer may use up any number
of them at once, also of items it has not taken yet.

* `Doorbell.Step` — the steps of both sides;
* `Doorbell.Step.heard` — the invariant of a step;
* `Doorbell.Heard.of_steps` — no item is left behind by a consumer that sleeps with no ring left.
-/

namespace WriteonceOs.Library

variable {α : Type*}

/-- The state of the queue and of the bell. -/
structure Doorbell (α : Type*) where
  queue : List α
  -- the items whose producer has not rung yet
  owed : Set α
  rings : ℕ
  -- the consumer has emptied the queue and answered no ring since
  asleep : Prop

namespace Doorbell

/-- One step of a producer or of the consumer. -/
inductive Step : Doorbell α → Doorbell α → Prop
  | push (b : Doorbell α) (x : α) :
      Step b { b with queue := b.queue ++ [x], owed := insert x b.owed }
  | ring (b : Doorbell α) (x : α) :
      Step b { b with owed := b.owed \ {x}, rings := b.rings + 1 }
  | take (b : Doorbell α) : Step b { b with queue := [], asleep := True }
  | answer (b : Doorbell α) (n : ℕ) : Step b { b with rings := b.rings - n, asleep := False }

/-- While the consumer sleeps, a queued item has its ring still to come, or a ring is left. -/
def Heard (b : Doorbell α) : Prop := b.asleep → ∀ x ∈ b.queue, x ∈ b.owed ∨ 0 < b.rings

theorem heard_of_queue_nil {b : Doorbell α} (h : b.queue = []) : b.Heard := by
  intro _ x hx
  rw [h] at hx
  cases hx

/-- Every step keeps the items within earshot. -/
theorem Step.heard {b b' : Doorbell α} (h : Step b b') (hb : b.Heard) : b'.Heard := by
  cases h with
  | push x =>
    intro hasleep y hy
    rcases List.mem_append.mp hy with hy | hy
    · exact (hb hasleep y hy).imp_left (Set.mem_insert_of_mem x)
    · rw [List.mem_singleton.mp hy]
      exact .inl (Set.mem_insert x b.owed)
  | ring x => exact fun _ _ _ => .inr (Nat.succ_pos b.rings)
  | take => exact heard_of_queue_nil rfl
  | answer n => exact fun h => h.elim

/-- **No wakeup is lost**: what holds of the empty queue holds after any steps. -/
theorem Heard.of_steps {b b' : Doorbell α} (hb : b.Heard)
    (h : Relation.ReflTransGen Step b b') : b'.Heard := by
  induction h with
  | refl => exact hb
  | tail _ hstep ih => exact hstep.heard ih

end Doorbell

end WriteonceOs.Library
