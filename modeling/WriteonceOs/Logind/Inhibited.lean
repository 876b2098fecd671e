import Mathlib.Data.String.Basic
import WriteonceOs.Library.Listings
import WriteonceOs.Library.Records
import WriteonceOs.Logind.InhibitorLife

/-!
# What is inhibited

`BlockInhibited` and `DelayInhibited` show what the inhibitors of a mode hold: the locks that their
`what` texts name between colons, each once and in order.  A lock is held from the call of `Inhibit`
that records it until its caller closes the handle; what the daemon shows lags behind only as long
as the watcher thread still has something to do.

* `joinMode` — the text of a mode; `mem_fields_joinMode` — the locks are read back from it;
* `Lifetime.mem_iff` — whose records there are;
* `inhibited_exact` — what is shown in every run.
-/

namespace WriteonceOs.Logind

open WriteonceOs.Library WriteonceOs.Library.Records

abbrev Text := List Char

/-- The locks that a text names. -/
def locksOf (what : String) : List Text := fields ':' what.toList

def joinMode (inhibitors : List Inhibitor) (mode : String) : Text :=
  record ':' (sortDedup ((inhibitors.filter (·.mode = mode)).flatMap fun i => locksOf i.what))

def AppState.blockInhibited (st : AppState) : Text := joinMode st.inhibitors "block"

def AppState.delayInhibited (st : AppState) : Text := joinMode st.inhibitors "delay"

/-- One row of the reply of `ListInhibitors`. -/
abbrev InhibitorRow := String × String × String × String × UInt32 × UInt32

def Inhibitor.row (i : Inhibitor) : InhibitorRow := (i.what, i.who, i.why, i.mode, i.uid, i.pid)

def AppState.listInhibitors (st : AppState) : List InhibitorRow := st.inhibitors.map Inhibitor.row

variable {inhibitors inhibitors' : List Inhibitor} {mode : String} {lock : Text}

/-! ### The text of a mode -/

/-- An inhibitor of the mode holds the lock. -/
def Listed (inhibitors : List Inhibitor) (mode : String) (lock : Text) : Prop :=
  ∃ i ∈ inhibitors, i.mode = mode ∧ lock ∈ locksOf i.what

theorem mem_locks :
    lock ∈ (inhibitors.filter (·.mode = mode)).flatMap (fun i => locksOf i.what) ↔
      Listed inhibitors mode lock := by
  simp only [List.mem_flatMap, List.mem_filter, decide_eq_true_eq, and_assoc]
  rfl

theorem mem_sortDedup_locks :
    lock ∈ sortDedup ((inhibitors.filter (·.mode = mode)).flatMap fun i => locksOf i.what) ↔
      Listed inhibitors mode lock := mem_sortDedup.trans mem_locks

/-- **The text is read back**, into the locks in order, if there is anything to show. -/
theorem fields_joinMode (h : ∃ lock, Listed inhibitors mode lock) :
    fields ':' (joinMode inhibitors mode) =
      sortDedup ((inhibitors.filter (·.mode = mode)).flatMap fun i => locksOf i.what) := by
  obtain ⟨lock, hlock⟩ := h
  refine fields_record (List.ne_nil_of_mem (mem_sortDedup_locks.mpr hlock)) fun part hpart => ?_
  obtain ⟨i, -, -, hmem⟩ := mem_sortDedup_locks.mp hpart
  exact free_of_mem_fields hmem

theorem joinMode_of_none (h : ¬ ∃ lock, Listed inhibitors mode lock) :
    joinMode inhibitors mode = [] := by
  have hnil : sortDedup ((inhibitors.filter (·.mode = mode)).flatMap fun i => locksOf i.what) =
      [] := List.eq_nil_iff_forall_not_mem.mpr fun lock hlock =>
    h ⟨lock, mem_sortDedup_locks.mp hlock⟩
  rw [joinMode, hnil]
  rfl

/-- A lock without a name cannot be told from none. -/
theorem mem_fields_joinMode (hne : lock ≠ []) :
    lock ∈ fields ':' (joinMode inhibitors mode) ↔ Listed inhibitors mode lock := by
  by_cases h : ∃ lock, Listed inhibitors mode lock
  · rw [fields_joinMode h]
    exact mem_sortDedup_locks
  · rw [joinMode_of_none h]
    exact iff_of_false (fun hmem => hne (List.mem_singleton.mp hmem)) fun hlock => h ⟨lock, hlock⟩

theorem joinMode_strict : (fields ':' (joinMode inhibitors mode)).Pairwise (· < ·) := by
  by_cases h : ∃ lock, Listed inhibitors mode lock
  · rw [fields_joinMode h]
    exact sortDedup_strict _
  · rw [joinMode_of_none h]
    exact List.pairwise_singleton _ _

/-! ### What is held -/

namespace Daemon

variable {s s' : Daemon} {r : Inhibitor}

/-- A record whose caller has not closed its handle. -/
def Open (s : Daemon) (r : Inhibitor) : Prop :=
  ∃ call ∈ s.calls, call.handle.record = some r ∧ call.handle.closed = false

/-- A record that is still there, though its caller has closed its handle. -/
def Lingers (s : Daemon) (r : Inhibitor) : Prop :=
  r ∈ s.app.inhibitors ∧ ∃ call ∈ s.calls, call.handle.record = some r ∧ call.handle.closed = true

/-- The watcher thread has nothing more to do. -/
def Settled (s : Daemon) : Prop := s.thread = .waiting ∧ s.Blocked

/-- **Whose records there are**, at every moment. -/
theorem Lifetime.mem_iff (h : s.Lifetime) : r ∈ s.app.inhibitors ↔ s.Open r ∨ s.Lingers r := by
  constructor
  · intro hr
    obtain ⟨call, hcall, hrecord⟩ := h.owned r hr
    cases hclosed : call.handle.closed with
    | false => exact .inl ⟨call, hcall, hrecord, hclosed⟩
    | true => exact .inr ⟨hr, call, hcall, hrecord, hclosed⟩
  · rintro (⟨call, hcall, hrecord, hopen⟩ | ⟨hr, -⟩)
    · exact h.kept call hcall r hrecord hopen
    · exact hr

/-- The watcher thread does not rest while a record lingers. -/
theorem Lifetime.not_lingers (h : s.Lifetime) (hsettled : s.Settled) : ¬ s.Lingers r := by
  rintro ⟨hr, call, hcall, hrecord, hclosed⟩
  cases hphase : call.phase with
  | closed id fd =>
    have hthis : call.inhibitor id = r := by simpa [Call.handle, hphase] using hrecord
    exact h.unblocked hsettled.1 call hcall id fd hphase (hthis ▸ hr) hsettled.2
  | _ => simp [Call.handle, hphase] at hclosed

theorem Lifetime.mem_iff_of_settled (h : s.Lifetime) (hsettled : s.Settled) :
    r ∈ s.app.inhibitors ↔ s.Open r := by
  rw [h.mem_iff]
  exact or_iff_left (h.not_lingers hsettled)

/-- A handle that its caller has not closed holds the lock. -/
def Holds (s : Daemon) (mode : String) (lock : Text) : Prop :=
  ∃ r, s.Open r ∧ r.mode = mode ∧ lock ∈ locksOf r.what

theorem Lifetime.listed_iff_of_settled (h : s.Lifetime) (hsettled : s.Settled) :
    Listed s.app.inhibitors mode lock ↔ s.Holds mode lock :=
  exists_congr fun _ => and_congr_left' (h.mem_iff_of_settled hsettled)

/-- What the text of a mode says about the locks that have a name. -/
structure Shows (s : Daemon) (mode : String) (text : Text) : Prop where
  once : (fields ':' text).Pairwise (· < ·)
  held : ∀ lock ≠ [], s.Holds mode lock → lock ∈ fields ':' text
  -- what is shown and not held is about to go
  lingering : ∀ lock ≠ [], lock ∈ fields ':' text → s.Holds mode lock ∨
    ∃ r, s.Lingers r ∧ r.mode = mode ∧ lock ∈ locksOf r.what
  settled : s.Settled → ∀ lock ≠ [], lock ∈ fields ':' text ↔ s.Holds mode lock

theorem Lifetime.shows (h : s.Lifetime) (mode : String) :
    s.Shows mode (joinMode s.app.inhibitors mode) where
  once := joinMode_strict
  held := by
    rintro lock hne ⟨r, hopen, hmode, hlock⟩
    exact (mem_fields_joinMode hne).mpr ⟨r, h.mem_iff.mpr (.inl hopen), hmode, hlock⟩
  lingering := by
    intro lock hne hmem
    obtain ⟨r, hr, hmode, hlock⟩ := (mem_fields_joinMode hne).mp hmem
    exact (h.mem_iff.mp hr).imp (fun hopen => ⟨r, hopen, hmode, hlock⟩)
      fun hlingers => ⟨r, hlingers, hmode, hlock⟩
  settled := by
    intro hsettled lock hne
    rw [mem_fields_joinMode hne, h.listed_iff_of_settled hsettled]

/-- **What is shown as inhibited**, in every run without a failed system call: what is held is
shown, each lock once and in order, and what is shown and not held is about to be released.  When
the watcher thread has nothing more to do, exactly what is held is shown, and the inhibitors listed
are those of the open handles. -/
theorem inhibited_exact {sched : List Event} (hsched : ∀ e ∈ sched, e.Succeeds)
    (hrun : sched.foldlM next new = some s) (hcalls : s.calls.length < 2 ^ 32) :
    s.Shows "block" s.app.blockInhibited ∧ s.Shows "delay" s.app.delayInhibited ∧
      (s.Settled → ∀ row, row ∈ s.app.listInhibitors ↔ ∃ r, s.Open r ∧ r.row = row) := by
  obtain ⟨hinv, hheard⟩ := run_inv hsched hrun hcalls
  have hlife := hinv.lifetime hheard
  refine ⟨hlife.shows "block", hlife.shows "delay", fun hsettled row => ?_⟩
  rw [AppState.listInhibitors, List.mem_map]
  exact exists_congr fun _ => and_congr_left' (hlife.mem_iff_of_settled hsettled)

/-- The first handle is released, and the watcher thread rests again. -/
def releasedFirst : List Event := releaseFirst ++ List.replicate 4 (.watch (.ok ()))

theorem inhibited_exact_releasedFirst : ∃ s,
    releasedFirst.foldlM next new = some s ∧ s.Settled ∧
      s.app.blockInhibited = "shutdown".toList ∧ s.app.delayInhibited = [] ∧
      s.Shows "block" s.app.blockInhibited := by
  have hsched : ∀ e ∈ releasedFirst, e.Succeeds := by
    simp [releasedFirst, releaseFirst, Event.Succeeds]
  refine ⟨_, rfl, ⟨rfl, ?_⟩, by decide, by decide, (inhibited_exact hsched rfl (by decide)).1⟩
  show ∀ i ∈ [wakeInterest, AddRequest.interest ⟨2, 1⟩], _ = (0 : UInt32)
  decide

end Daemon

end WriteonceOs.Logind
