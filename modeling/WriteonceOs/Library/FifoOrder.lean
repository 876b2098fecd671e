import Mathlib.Data.List.Shortlex
import WriteonceOs.Library.FifoTopo

/-!
# The order of a first-in first-out topological sort

Which of two nodes does Kahn's sort emit first when no chain of edges joins them?  The one whose
chains of edges are smaller: compare, for each node, the greatest chain of edges that ends there,
shorter chains first and equally long ones lexicographically.

* `FifoInv.pop` — emitted and queued nodes always stand in that order;
* `kahn_fifo` — so does the output;
* `FifoInv.before_iff` — one node is emitted before another exactly when its chains are smaller.
-/

namespace WriteonceOs.Library

variable {α : Type*}

/-- A chain of edges that ends at a node. -/
inductive ChainTo (r : α → α → Prop) : α → List α → Prop where
  | single (v : α) : ChainTo r v [v]
  | snoc {u v : α} {c : List α} : ChainTo r u c → r u v → ChainTo r v (c ++ [v])

theorem ChainTo.length_pos {r : α → α → Prop} {v : α} {c : List α} (h : ChainTo r v c) :
    0 < c.length := by
  cases h with
  | single => simp
  | snoc _ _ => simp

variable [LinearOrder α]

/-- Shorter lists first, equally long ones lexicographically. -/
abbrev ShortlexLt (c d : List α) : Prop := List.Shortlex (· < ·) c d

theorem ShortlexLt.trans {c d e : List α} (hcd : ShortlexLt c d) (hde : ShortlexLt d e) :
    ShortlexLt c e := by
  rw [ShortlexLt, List.shortlex_def] at hcd hde ⊢
  rcases hcd with hcd | ⟨hlcd, hcd⟩
  · rcases hde with hde | ⟨hlde, -⟩
    · exact Or.inl (hcd.trans hde)
    · exact Or.inl (hlde ▸ hcd)
  · rcases hde with hde | ⟨hlde, hde⟩
    · exact Or.inl (hlcd ▸ hde)
    · rw [← List.lt_iff_lex_lt] at hcd hde ⊢
      exact Or.inr ⟨hlcd.trans hlde, List.lt_trans hcd hde⟩

theorem ShortlexLt.irrefl (c : List α) : ¬ ShortlexLt c c :=
  fun h => Std.Asymm.asymm (r := List.Shortlex (α := α) (· < ·)) c c h h

/-- Equally long lists compare before their last elements do. -/
theorem lex_snoc {c d : List α} (hlen : c.length = d.length) (h : List.Lex (· < ·) c d) (x y : α) :
    List.Lex (· < ·) (c ++ [x]) (d ++ [y]) := by
  induction h with
  | nil => simp at hlen
  | cons _ ih => exact List.Lex.cons (ih (by simpa using hlen))
  | rel hlt => exact List.Lex.rel hlt

theorem ShortlexLt.snoc {c d : List α} (h : ShortlexLt c d) (x y : α) :
    ShortlexLt (c ++ [x]) (d ++ [y]) := by
  rw [ShortlexLt, List.shortlex_def] at h ⊢
  simp only [List.length_append, List.length_singleton, Nat.add_lt_add_iff_right,
    Nat.add_right_cancel_iff]
  rcases h with h | ⟨hlen, hlex⟩
  · exact Or.inl h
  · exact Or.inr ⟨hlen, lex_snoc hlen hlex x y⟩

theorem ShortlexLt.snoc_last (c : List α) {x y : α} (h : x < y) :
    ShortlexLt (c ++ [x]) (c ++ [y]) :=
  ((List.shortlex_singleton_iff x y).mpr h).append_left c

/-- The greatest chain that ends at a node. -/
def GreatestChain (r : α → α → Prop) (v : α) (c : List α) : Prop :=
  ChainTo r v c ∧ ∀ d, ChainTo r v d → d = c ∨ ShortlexLt d c

/-- Some chain that ends at `y` exceeds every chain that ends at `x`. -/
def ChainsBelow (r : α → α → Prop) (x y : α) : Prop :=
  ∃ c, ChainTo r y c ∧ ∀ d, ChainTo r x d → ShortlexLt d c

section Chains

variable {r : α → α → Prop} {x y u : α}

theorem ChainsBelow.asymm (h : ChainsBelow r x y) : ¬ ChainsBelow r y x := by
  intro h'
  obtain ⟨d, hd, hd'⟩ := h'
  obtain ⟨c, hc, hc'⟩ := h
  exact ShortlexLt.irrefl c ((hd' c hc).trans (hc' d hd))

/-- Below every chain of `y` means below its greatest. -/
theorem ChainsBelow.lt_greatest (h : ChainsBelow r x y) {c : List α} (hc : GreatestChain r y c)
    {d : List α} (hd : ChainTo r x d) : ShortlexLt d c := by
  obtain ⟨e, he, hlt⟩ := h
  rcases hc.2 e he with rfl | hec
  · exact hlt d hd
  · exact (hlt d hd).trans hec

omit [LinearOrder α] in
/-- Without an edge into it, a node has one chain. -/
theorem chainTo_source (hsrc : ∀ u, ¬ r u x) {c : List α} (h : ChainTo r x c) : c = [x] := by
  cases h with
  | single => rfl
  | snoc _ hr => exact absurd hr (hsrc _)

theorem GreatestChain.source (hsrc : ∀ u, ¬ r u x) : GreatestChain r x [x] :=
  ⟨ChainTo.single x, fun _ hd => Or.inl (chainTo_source hsrc hd)⟩

/-- The greatest chain of a node extends that of the predecessor whose chains are greatest. -/
theorem GreatestChain.extend {c : List α} (hc : GreatestChain r u c) (hux : r u x)
    (hpred : ∀ p, r p x → p = u ∨ ChainsBelow r p u) : GreatestChain r x (c ++ [x]) := by
  refine ⟨hc.1.snoc hux, fun d hd => ?_⟩
  cases hd with
  | single =>
    refine Or.inr (List.Shortlex.of_length_lt ?_)
    have := hc.1.length_pos
    rw [List.length_append, List.length_singleton]
    omega
  | @snoc p _ e he hpx =>
    rcases hpred p hpx with rfl | hbelow
    · rcases hc.2 e he with rfl | hlt
      · exact Or.inl rfl
      · exact Or.inr (hlt.snoc x x)
    · exact Or.inr ((hbelow.lt_greatest hc he).snoc x x)

/-- A node whose predecessors lie below `u` lies below the successors of `u`. -/
theorem GreatestChain.below_succ {c : List α} (hc : GreatestChain r u c) (hux : r u x)
    (hpred : ∀ p, r p y → ChainsBelow r p u) : ChainsBelow r y x := by
  refine ⟨c ++ [x], hc.1.snoc hux, fun d hd => ?_⟩
  cases hd with
  | single =>
    refine List.Shortlex.of_length_lt ?_
    have := hc.1.length_pos
    rw [List.length_append, List.length_singleton, List.length_singleton]
    omega
  | @snoc p _ e he hpy => exact ((hpred p hpy).lt_greatest hc he).snoc y x

end Chains

/-! ### The order of the queue -/

/-- Every listed node has a greatest chain, and the list is ordered by them. -/
structure FifoInv (r : α → α → Prop) (l : List α) : Prop where
  greatest : ∀ v ∈ l, ∃ c, GreatestChain r v c
  ordered : l.Pairwise (ChainsBelow r)

section Invariant

variable {nodes : List α} {es : List (α × α)} {deg : α → ℕ} {queue sorted : List α} {u : α}

/-- Sources in increasing order are ordered by their chains. -/
theorem FifoInv.sources {r : α → α → Prop} {l : List α} (hl : l.Nodup) (hsort : l.Pairwise (· ≤ ·))
    (hsrc : ∀ v ∈ l, ∀ u, ¬ r u v) : FifoInv r l where
  greatest := fun v hv => ⟨[v], GreatestChain.source (hsrc v hv)⟩
  ordered := by
    refine (hl.and hsort).imp_of_mem ?_
    intro x y hx _ hxy
    refine ⟨[y], ChainTo.single y, fun d hd => ?_⟩
    rw [chainTo_source (hsrc x hx) hd]
    exact (List.shortlex_singleton_iff x y).mpr (lt_of_le_of_ne hxy.2 hxy.1)

/-- **One pop keeps the order**: a node that becomes ready joins behind everything queued. -/
theorem FifoInv.pop (hin : ∀ e ∈ es, e.1 ∈ nodes ∧ e.2 ∈ nodes) {out : List α}
    (hout : out.Perm ((es.filter (fun e => e.1 = u)).map Prod.snd))
    (h : KahnInv nodes es deg (u :: queue) sorted)
    (hf : FifoInv (EdgeRel es) (sorted ++ u :: queue)) :
    FifoInv (EdgeRel es) (sorted ++ [u] ++ (queue ++ batch (relax deg out).2)) := by
  have hpop := h.pop hin hout
  obtain ⟨hnd, hready⟩ := relax_ready deg out
    (fun v => by rw [hout.count_eq v]; exact h.count_le v)
  have hlist : sorted ++ [u] ++ (queue ++ batch (relax deg out).2)
      = sorted ++ u :: queue ++ batch (relax deg out).2 := by simp
  obtain ⟨c, hc⟩ := hf.greatest u (by simp)
  -- what stands before the popped node lies below it
  have hsorted : ∀ p ∈ sorted, ChainsBelow (EdgeRel es) p u := by
    intro p hp
    exact (List.pairwise_append.mp hf.ordered).2.2 p hp u List.mem_cons_self
  have hedge : ∀ x ∈ batch (relax deg out).2, EdgeRel es u x := by
    intro x hx
    obtain ⟨e, he, rfl⟩ := List.mem_map.mp (hout.subset ((hready x).mp (mem_batch.mp hx)).1)
    obtain ⟨hmem, hsrc⟩ := List.mem_filter.mp he
    rw [decide_eq_true_eq] at hsrc
    rw [EdgeRel, ← hsrc]
    exact hmem
  have hpred : ∀ x ∈ batch (relax deg out).2, ∀ p, EdgeRel es p x →
      p = u ∨ ChainsBelow (EdgeRel es) p u := by
    intro x hx p hpx
    have hp := hpop.sources (List.mem_append_right _ hx) _ hpx rfl
    rcases List.mem_append.mp hp with hp | hp
    · exact Or.inr (hsorted p hp)
    · exact Or.inl (List.mem_singleton.mp hp)
  have hextend : ∀ x ∈ batch (relax deg out).2, GreatestChain (EdgeRel es) x (c ++ [x]) :=
    fun x hx => hc.extend (hedge x hx) (hpred x hx)
  -- the predecessors of an emitted or queued node are emitted
  have hold : ∀ y ∈ sorted ++ u :: queue, ∀ p, EdgeRel es p y → p ∈ sorted := by
    intro y hy p hpy
    rcases List.mem_append.mp hy with hy | hy
    · exact (h.before _ hpy hy).left_mem
    · exact h.sources hy _ hpy rfl
  rw [hlist]
  refine ⟨?_, List.pairwise_append.mpr ⟨hf.ordered, ?_, ?_⟩⟩
  · intro v hv
    rcases List.mem_append.mp hv with hv | hv
    · exact hf.greatest v hv
    · exact ⟨_, hextend v hv⟩
  · refine ((batch_nodup hnd).and (batch_sorted _)).imp_of_mem ?_
    intro x y hx hy hxy
    refine ⟨c ++ [y], (hextend y hy).1, fun d hd => ?_⟩
    have hlt := ShortlexLt.snoc_last c (lt_of_le_of_ne hxy.2 hxy.1)
    rcases (hextend x hx).2 d hd with rfl | hd
    · exact hlt
    · exact hd.trans hlt
  · intro y hy x hx
    exact hc.below_succ (hedge x hx) (fun p hp => hsorted p (hold y hy p hp))

/-- **The output is ordered by the greatest chains.** -/
theorem kahn_fifo {out : α → List α} (hin : ∀ e ∈ es, e.1 ∈ nodes ∧ e.2 ∈ nodes)
    (hout : ∀ u, (out u).Perm ((es.filter (fun e => e.1 = u)).map Prod.snd)) :
    ∀ (n : ℕ) (deg : α → ℕ) (queue sorted : List α), KahnInv nodes es deg queue sorted →
      FifoInv (EdgeRel es) (sorted ++ queue) →
      FifoInv (EdgeRel es) (kahn out n deg queue sorted).2 := by
  intro n
  induction n with
  | zero =>
    intro deg queue sorted _ hf
    exact ⟨fun v hv => hf.greatest v (List.mem_append_left _ hv),
      (List.pairwise_append.mp hf.ordered).1⟩
  | succ n ih =>
    intro deg queue sorted h hf
    cases queue with
    | nil => simpa [kahn] using hf
    | cons u queue =>
      exact ih _ _ _ (h.pop hin (hout u)) (hf.pop hin (hout u) h)

/-- One listed node stands before another exactly when its chains are smaller. -/
theorem FifoInv.before_iff {r : α → α → Prop} {l : List α} (hf : FifoInv r l) {x y : α}
    (hx : x ∈ l) (hy : y ∈ l) : Before l x y ↔ ChainsBelow r x y := by
  constructor
  · exact fun h => h.rel hf.ordered
  · intro h
    have hne : x ≠ y := by
      intro heq
      subst heq
      exact h.asymm h
    rcases before_or_before hx hy hne with hxy | hyx
    · exact hxy
    · exact absurd (hyx.rel hf.ordered) h.asymm

end Invariant

end WriteonceOs.Library
