import Mathlib.Data.List.Basic

/-!
# Runs of a system whose operations may not return

An operation either returns, or is still waiting in some state; a run stops at the first operation
that does not return.

* `run_ok_inv` — an invariant of the operations that satisfy a guard holds after every run of such
  operations that returns;
* `run_within` — what follows from it also in the middle of an operation that does not return;
* `run_append` — a run of two parts;
* `foldlM_inv` — the invariant rule for atomic steps that may be disabled;
* `EachStep.inv` — the same for steps that satisfy a guard where they are taken;
* `foldl_frame` — what a fold leaves alone.
-/

namespace WriteonceOs.Library

variable {σ ω : Type*}

/-- The state reached, whether the operation returned or not. -/
def reached : Except σ σ → σ
  | .ok s => s
  | .error s => s

@[simp] theorem reached_ok (s : σ) : reached (.ok s) = s := rfl

@[simp] theorem reached_error (s : σ) : reached (.error s) = s := rfl

/-- Operations one after the other. -/
def run (step : σ → ω → Except σ σ) : σ → List ω → Except σ σ
  | s, [] => .ok s
  | s, op :: ops =>
    match step s op with
    | .error s' => .error s'
    | .ok s' => run step s' ops

/-- Every operation of a run satisfies a guard in the state it starts from. -/
def Guarded (step : σ → ω → Except σ σ) (G : σ → ω → Prop) : σ → List ω → Prop
  | _, [] => True
  | s, op :: ops => G s op ∧ ∀ s', step s op = .ok s' → Guarded step G s' ops

/-- A condition on the result of what may fail can be checked. -/
instance decidableForallOk {ε α : Type*} (x : Except ε α) (P : α → Prop) [DecidablePred P] :
    Decidable (∀ a, x = .ok a → P a) :=
  match x with
  | .ok a => decidable_of_iff (P a) (by simp)
  | .error _ => isTrue (fun _ h => nomatch h)

instance decidableGuarded (step : σ → ω → Except σ σ) (G : σ → ω → Prop)
    [∀ s op, Decidable (G s op)] : ∀ (s : σ) (ops : List ω), Decidable (Guarded step G s ops)
  | _, [] => inferInstanceAs (Decidable True)
  | s, op :: ops =>
    have : ∀ s', Decidable (Guarded step G s' ops) := fun s' => decidableGuarded step G s' ops
    inferInstanceAs (Decidable (G s op ∧ ∀ s', step s op = .ok s' → Guarded step G s' ops))

variable {step : σ → ω → Except σ σ} {G : σ → ω → Prop}

theorem run_append (s : σ) (ops ops' : List ω) :
    run step s (ops ++ ops') =
      match run step s ops with
      | .error s' => .error s'
      | .ok s' => run step s' ops' := by
  induction ops generalizing s with
  | nil => rfl
  | cons op ops ih =>
    simp only [List.cons_append, run]
    cases step s op with
    | error s' => rfl
    | ok s' => exact ih s'

/-- A first part that is known to compute `x`, then the rest. -/
theorem run_append_of {τ : Type*} {s : σ} {ops ops' : List ω} {x : Except σ (σ × τ)} :
    run step s ops = x.map Prod.fst →
    run step s (ops ++ ops') =
      match x with
      | .error s' => .error s'
      | .ok (s', _) => run step s' ops' := by
  intro h
  rw [run_append, h]
  cases x with
  | error s' => rfl
  | ok res => rfl

theorem guarded_append {s : σ} {ops ops' : List ω} :
    Guarded step G s (ops ++ ops') ↔
      Guarded step G s ops ∧ ∀ s', run step s ops = .ok s' → Guarded step G s' ops' := by
  induction ops generalizing s with
  | nil => simp [Guarded, run]
  | cons op ops ih =>
    simp only [List.cons_append, Guarded, run, ih]
    cases step s op with
    | error s' => simp
    | ok s' => simp [and_assoc]

theorem Guarded.imp {G' : σ → ω → Prop} (h : ∀ s op, G s op → G' s op) {s : σ} {ops : List ω}
    (hg : Guarded step G s ops) : Guarded step G' s ops := by
  induction ops generalizing s with
  | nil => trivial
  | cons op ops ih => exact ⟨h s op hg.1, fun s' hs' => ih (hg.2 s' hs')⟩

/-- **The invariant rule for states between operations.** -/
theorem run_ok_inv (step : σ → ω → Except σ σ) {I : σ → Prop}
    (hstep : ∀ s op s', I s → G s op → step s op = .ok s' → I s')
    {s s' : σ} {ops : List ω} (hI : I s) (hG : Guarded step G s ops)
    (hrun : run step s ops = .ok s') : I s' := by
  induction ops generalizing s with
  | nil =>
    cases hrun
    exact hI
  | cons op ops ih =>
    rw [run] at hrun
    cases hop : step s op with
    | error t =>
      rw [hop] at hrun
      cases hrun
    | ok t =>
      rw [hop] at hrun
      exact ih (hstep s op t hI hG.1 hop) (hG.2 t hop) hrun

/-- **The invariant rule for every state reached**: `I` holds between operations, `J` also in the
middle of one that does not return. -/
theorem run_within (step : σ → ω → Except σ σ) {I J : σ → Prop} (hIJ : ∀ s, I s → J s)
    (hstep : ∀ s op, I s → G s op → J (reached (step s op)))
    (hok : ∀ s op s', I s → G s op → step s op = .ok s' → I s') {s : σ} {ops : List ω} (hI : I s)
    (hG : Guarded step G s ops) : J (reached (run step s ops)) := by
  induction ops generalizing s with
  | nil => exact hIJ s hI
  | cons op ops ih =>
    have h := hstep s op hI hG.1
    rw [run]
    cases hop : step s op with
    | error t =>
      rw [hop] at h
      exact h
    | ok t => exact ih (hok s op t hI hG.1 hop) (hG.2 t hop)

/-- The same for an invariant that holds throughout. -/
theorem run_inv (step : σ → ω → Except σ σ) {I : σ → Prop}
    (hstep : ∀ s op, I s → G s op → I (reached (step s op))) {s : σ} {ops : List ω} (hI : I s)
    (hG : Guarded step G s ops) : I (reached (run step s ops)) := by
  refine run_within step (fun _ h => h) hstep (fun s op s' hs hop heq => ?_) hI hG
  have h := hstep s op hs hop
  rw [heq] at h
  exact h

/-- Without a guard every run is guarded. -/
theorem guarded_true (s : σ) (ops : List ω) : Guarded step (fun _ _ => True) s ops := by
  induction ops generalizing s with
  | nil => trivial
  | cons op ops ih => exact ⟨trivial, fun s' _ => ih s'⟩

theorem guarded_of_forall {ops : List ω} (h : ∀ op ∈ ops, ∀ s, G s op) (s : σ) :
    Guarded step G s ops := by
  induction ops generalizing s with
  | nil => trivial
  | cons op ops ih =>
    obtain ⟨hop, hops⟩ := List.forall_mem_cons.mp h
    exact ⟨hop s, fun s' _ => ih hops s'⟩

/-! ### Folds -/

/-- What every step leaves alone, the fold leaves alone. -/
theorem foldl_frame {τ : Type*} (view : σ → τ) {f : σ → ω → σ}
    (h : ∀ s a, view (f s a) = view s) (s : σ) (l : List ω) : view (l.foldl f s) = view s := by
  induction l generalizing s with
  | nil => rfl
  | cons a l ih => rw [List.foldl_cons, ih, h]

/-! ### Steps that may be disabled -/

/-- **The invariant rule for atomic steps**: what every enabled step of a kind preserves holds
wherever a sequence of such steps leads. -/
theorem foldlM_inv_of {next : σ → ω → Option σ} {I : σ → Prop} {K : ω → Prop}
    (hnext : ∀ s a s', I s → K a → next s a = some s' → I s') {s s' : σ} {acts : List ω}
    (hI : I s) (hK : ∀ a ∈ acts, K a) (h : acts.foldlM next s = some s') : I s' := by
  induction acts generalizing s with
  | nil =>
    rw [List.foldlM_nil] at h
    cases h
    exact hI
  | cons a acts ih =>
    rw [List.foldlM_cons] at h
    obtain ⟨ha, hacts⟩ := List.forall_mem_cons.mp hK
    cases hs : next s a with
    | none =>
      rw [hs] at h
      cases h
    | some t =>
      rw [hs] at h
      exact ih (hnext s a t hI ha hs) hacts h

/-- The same for steps of every kind. -/
theorem foldlM_inv {next : σ → ω → Option σ} {I : σ → Prop}
    (hnext : ∀ s a s', I s → next s a = some s' → I s') {s s' : σ} {acts : List ω} (hI : I s)
    (h : acts.foldlM next s = some s') : I s' :=
  foldlM_inv_of (fun s a s' hI _ => hnext s a s' hI) hI (fun _ _ => trivial) h

theorem foldlM_cons_some {next : σ → ω → Option σ} {s s' : σ} {a : ω} {acts : List ω} :
    (a :: acts).foldlM next s = some s' ↔ ∃ t, next s a = some t ∧ acts.foldlM next t = some s' :=
  Option.bind_eq_some_iff

theorem foldlM_append_some {next : σ → ω → Option σ} {s s' : σ} {acts acts' : List ω} :
    (acts ++ acts').foldlM next s = some s' ↔
      ∃ t, acts.foldlM next s = some t ∧ acts'.foldlM next t = some s' := by
  rw [List.foldlM_append]
  exact Option.bind_eq_some_iff

/-- Every state that a sequence of steps comes through. -/
def Throughout (next : σ → ω → Option σ) (P : σ → Prop) (s : σ) (acts : List ω) : Prop :=
  ∀ pre post t, acts = pre ++ post → pre.foldlM next s = some t → P t

/-- Every step of a sequence, with the state that it is taken in. -/
def EachStep (next : σ → ω → Option σ) (G : σ → ω → Prop) (s : σ) (acts : List ω) : Prop :=
  ∀ pre a post t, acts = pre ++ a :: post → pre.foldlM next s = some t → G t a

namespace EachStep

variable {next : σ → ω → Option σ} {G : σ → ω → Prop} {s : σ}

theorem head {a : ω} {acts : List ω} (h : EachStep next G s (a :: acts)) : G s a :=
  h [] a acts s rfl rfl

theorem tail {a : ω} {acts : List ω} {t : σ} (h : EachStep next G s (a :: acts))
    (ht : next s a = some t) : EachStep next G t acts := by
  intro pre b post u hacts hu
  refine h (a :: pre) b post u (by rw [hacts, List.cons_append]) ?_
  exact foldlM_cons_some.mpr ⟨t, ht, hu⟩

theorem nil : EachStep next G s [] := fun _ _ _ _ h => absurd h (by simp)

theorem cons {a : ω} {acts : List ω} (ha : G s a)
    (h : ∀ t, next s a = some t → EachStep next G t acts) : EachStep next G s (a :: acts) := by
  intro pre b post u hacts hu
  cases pre with
  | nil =>
    cases hacts
    cases hu
    exact ha
  | cons c pre =>
    cases hacts
    obtain ⟨t, ht, hrest⟩ := foldlM_cons_some.mp hu
    exact h t ht pre b post u rfl hrest

theorem left {acts acts' : List ω} (h : EachStep next G s (acts ++ acts')) :
    EachStep next G s acts := by
  intro pre b post u hacts hu
  refine h pre b (post ++ acts') u ?_ hu
  rw [hacts, List.append_assoc, List.cons_append]

theorem imp {G' : σ → ω → Prop} (hG : ∀ s a, G s a → G' s a) {acts : List ω}
    (h : EachStep next G s acts) : EachStep next G' s acts :=
  fun pre a post t hacts ht => hG t a (h pre a post t hacts ht)

theorem append {acts acts' : List ω} (h : EachStep next G s acts)
    (h' : ∀ t, acts.foldlM next s = some t → EachStep next G t acts') :
    EachStep next G s (acts ++ acts') := by
  induction acts generalizing s with
  | nil => exact h' s rfl
  | cons a acts ih =>
    refine .cons h.head fun t ht => ih (h.tail ht) fun u hu => h' u ?_
    exact foldlM_cons_some.mpr ⟨t, ht, hu⟩

/-- **The invariant rule for guarded steps.** -/
theorem inv {I : σ → Prop} (hnext : ∀ s a s', I s → G s a → next s a = some s' → I s') {s' : σ}
    {acts : List ω} (hI : I s) (hG : EachStep next G s acts) (h : acts.foldlM next s = some s') :
    I s' := by
  induction acts generalizing s with
  | nil =>
    cases h
    exact hI
  | cons a acts ih =>
    obtain ⟨t, ht, hrest⟩ := foldlM_cons_some.mp h
    exact ih (hnext s a t hI hG.head ht) (hG.tail ht) hrest

/-- What holds between guarded steps holds throughout. -/
theorem throughout {I : σ → Prop} (hnext : ∀ s a s', I s → G s a → next s a = some s' → I s')
    {acts : List ω} (hI : I s) (hG : EachStep next G s acts) : Throughout next I s acts := by
  intro pre post t hacts ht
  rw [hacts] at hG
  exact hG.left.inv hnext hI ht

end EachStep

/-- What holds throughout holds before and after each step. -/
theorem Throughout.eachStep {next : σ → ω → Option σ} {P : σ → Prop} {G : σ → ω → Prop}
    (h : ∀ s a, P s → (∀ s', next s a = some s' → P s') → G s a) {s : σ} {acts : List ω}
    (hP : Throughout next P s acts) : EachStep next G s acts := by
  intro pre a post t hacts ht
  refine h t a (hP pre (a :: post) t hacts ht) (fun s' hs' => ?_)
  refine hP (pre ++ [a]) post s' (by rw [hacts, List.append_assoc, List.singleton_append]) ?_
  exact foldlM_append_some.mpr ⟨t, ht, foldlM_cons_some.mpr ⟨s', hs', rfl⟩⟩

end WriteonceOs.Library
