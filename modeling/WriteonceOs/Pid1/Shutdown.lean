import WriteonceOs.Library.History
import WriteonceOs.Pid1.EventLoop

/-!
# The shutdown protocol of PID 1

* `Allowed` — which events the log so far allows;
* `Waiting` — the loop as long as it has not finished;
* `turns_cases` — a run is such a loop, or the end of one whose grace period is over;
* `shutdown_orderly` — the protocol.
-/

namespace WriteonceOs.Pid1

open WriteonceOs.Library
open WriteonceOs.Svc (Duration Instant)
open LoopState

/-! ### What the log allows -/

def Signal.isRequest : Signal → Bool
  | .term | .int => true
  | .hup | .kill | .chld | .other _ => false

def Event.requestTime : Event → Option Instant
  | .signal sig now => if sig.isRequest then some now else none
  | _ => none

def Event.graceTime : Event → Option Instant
  | .began now => some now
  | _ => none

/-- The time at which the first request was received. -/
def firstRequest (log : List Event) : Option Instant := log.findSome? Event.requestTime

/-- The time from which the grace period is counted. -/
def graceStart (log : List Event) : Option Instant := log.findSome? Event.graceTime

/-- The steps of the end: SIGKILL, sync and reboot. -/
def Event.isFinal : Event → Bool
  | .kill _ sig => sig == .kill
  | .sync | .reboot _ => true
  | _ => false

def Unfinished (log : List Event) : Prop := ∀ e ∈ log, e.isFinal = false

/-- The log ends with the first request. -/
def AtFirstRequest (log : List Event) : Prop :=
  ∃ before sig now, log = before ++ [.signal sig now] ∧ sig.isRequest = true ∧
    firstRequest before = none

/-- A kill goes to the child, which has not been reaped. -/
def ToChild (child : ℤ) (log : List Event) (pid : ℤ) : Prop :=
  pid = child ∧ 0 < pid ∧ .reaped pid ∉ log

/-- **Which events the log so far allows.** -/
def Allowed (grace : Duration) (child : ℤ) (past : List Event) : Event → Prop
  | .signal _ _ | .reaped _ => Unfinished past
  | .began now => Unfinished past ∧ ∃ t, firstRequest past = some t ∧ t ≤ now
  | .kill pid sig =>
    Unfinished past ∧ ToChild child past pid ∧ (sig = .term ∧ AtFirstRequest past ∨ sig = .kill)
  | .wait now timeout =>
    Unfinished past ∧ ∀ t, firstRequest past = some t → ∃ start, graceStart past = some start ∧
      t ≤ start ∧ 1 ≤ timeout ∧ timeout ≤ max 1 (((start + grace - now) / 1000000 : ℕ) : ℤ)
  | .sync => ∀ e ∈ past, e ≠ .sync ∧ ∀ now, e ≠ .reboot now
  | .reboot now =>
    (∀ e ∈ past, ∀ now', e ≠ .reboot now') ∧ ∃ t, firstRequest past = some t ∧ t + grace ≤ now

theorem firstRequest_concat (log : List Event) (e : Event) :
    firstRequest (log ++ [e]) = (firstRequest log).or e.requestTime := by
  rw [firstRequest, List.findSome?_append, List.findSome?_singleton]
  rfl

theorem graceStart_concat (log : List Event) (e : Event) :
    graceStart (log ++ [e]) = (graceStart log).or e.graceTime := by
  rw [graceStart, List.findSome?_append, List.findSome?_singleton]
  rfl

theorem unfinished_concat {log : List Event} {e : Event} :
    Unfinished (log ++ [e]) ↔ Unfinished log ∧ e.isFinal = false := by
  simp only [Unfinished, List.forall_mem_append, List.forall_mem_singleton]

/-! ### The state between two events -/

/-- The child is known until it is reaped. -/
def Known (child : ℤ) (s : LoopState) : Prop :=
  s.childPid = 0 ∨ s.childPid = child ∧ .reaped child ∉ s.log

/-- **The loop as long as it has not finished.** -/
structure Waiting (grace : Duration) (child : ℤ) (s : LoopState) : Prop where
  lawful : Lawful (Allowed grace child) s.log
  unfinished : Unfinished s.log
  known : Known child s
  idle : s.shuttingDown = none → firstRequest s.log = none ∧ graceStart s.log = none
  begun : ∀ start, s.shuttingDown = some start → graceStart s.log = some start ∧
    start ≤ s.clock ∧ ∃ t, firstRequest s.log = some t ∧ t ≤ start

section Steps

variable {grace : Duration} {child : ℤ} {s : LoopState}

theorem waiting_start (grace : Duration) (child : ℤ) (clock : Instant) :
    Waiting grace child { childPid := child, clock := clock } where
  lawful := lawful_nil
  unfinished := by simp [Unfinished]
  known := Or.inr ⟨rfl, by simp⟩
  idle := fun _ => ⟨rfl, rfl⟩
  begun := fun start h => by cases h

theorem Waiting.advance (h : Waiting grace child s) (dt : Duration) :
    Waiting grace child (s.advance dt) where
  lawful := h.lawful
  unfinished := h.unfinished
  known := h.known
  idle := h.idle
  begun := fun start hstart => by
    obtain ⟨hgrace, hclock, ht⟩ := h.begun start hstart
    exact ⟨hgrace, Nat.le_add_right_of_le hclock, ht⟩

/-- An event that is neither a first request nor a step of the shutdown. -/
theorem Waiting.extend (h : Waiting grace child s) {e : Event} {pid : ℤ}
    (hknown : Known child (record { s with childPid := pid } e))
    (hallowed : Allowed grace child s.log e) (hfinal : e.isFinal = false)
    (hrequest : firstRequest s.log = none → e.requestTime = none) (hgrace : e.graceTime = none) :
    Waiting grace child (record { s with childPid := pid } e) where
  lawful := lawful_concat.mpr ⟨h.lawful, hallowed⟩
  unfinished := unfinished_concat.mpr ⟨h.unfinished, hfinal⟩
  known := hknown
  idle := fun hnone => by
    obtain ⟨hfirst, hstart⟩ := h.idle hnone
    refine ⟨?_, ?_⟩
    · rw [LoopState.record, firstRequest_concat, hfirst, hrequest hfirst]
      rfl
    · rw [LoopState.record, graceStart_concat, hstart, hgrace]
      rfl
  begun := fun start hstart => by
    obtain ⟨hg, hclock, t, ht, hle⟩ := h.begun start hstart
    refine ⟨?_, hclock, t, ?_, hle⟩
    · rw [LoopState.record, graceStart_concat, hg]
      rfl
    · rw [LoopState.record, firstRequest_concat, ht]
      rfl

theorem Known.record (h : Known child s) {e : Event} (hreaped : ∀ pid, e ≠ .reaped pid) :
    Known child (s.record e) := by
  refine h.imp_right fun ⟨hpid, hlog⟩ => ⟨hpid, ?_⟩
  rw [LoopState.record, List.mem_append, List.mem_singleton, not_or]
  exact ⟨hlog, fun heq => hreaped child heq.symm⟩

/-- A child that is reaped is known no longer. -/
theorem Known.reap (h : Known child s) (pid : ℤ) :
    Known child (LoopState.record
      { s with childPid := if pid = s.childPid then 0 else s.childPid } (.reaped pid)) := by
  rcases h with hzero | ⟨hchild, hlog⟩
  · refine Or.inl ?_
    show (if pid = s.childPid then 0 else s.childPid) = 0
    rw [hzero]
    split <;> rfl
  · by_cases hpid : pid = s.childPid
    · exact Or.inl (if_pos hpid)
    · refine Or.inr ⟨(if_neg hpid).trans hchild, ?_⟩
      rw [LoopState.record, List.mem_append, List.mem_singleton, not_or]
      refine ⟨hlog, fun heq => hpid ?_⟩
      rw [hchild]
      exact (Event.reaped.inj heq).symm

theorem Waiting.reapChildren (h : Waiting grace child s) (waits : List ℤ) :
    Waiting grace child (s.reapChildren waits) := by
  induction waits generalizing s with
  | nil => exact h
  | cons pid waits ih =>
    rw [LoopState.reapChildren]
    split
    · exact h
    · exact ih (h.extend (h.known.reap pid) h.unfinished rfl (fun _ => rfl) rfl)

theorem killChild_log (s : LoopState) (sig : Signal) :
    (s.killChild sig).log = s.log ++ if 0 < s.childPid then [.kill s.childPid sig] else [] := by
  rw [LoopState.killChild]
  split
  · rfl
  · exact (List.append_nil _).symm

/-- A kill does not count for what the log is searched for. -/
theorem findSome?_killChild {f : Event → Option Instant}
    (hf : ∀ pid sig, f (.kill pid sig) = none) (s : LoopState) (sig : Signal) :
    (s.killChild sig).log.findSome? f = s.log.findSome? f := by
  rw [killChild_log]
  split
  · rw [List.findSome?_append, List.findSome?_singleton, hf]
    exact Option.or_none
  · rw [List.append_nil]

theorem firstRequest_killChild (s : LoopState) (sig : Signal) :
    firstRequest (s.killChild sig).log = firstRequest s.log :=
  findSome?_killChild (fun _ _ => rfl) s sig

theorem graceStart_killChild (s : LoopState) (sig : Signal) :
    graceStart (s.killChild sig).log = graceStart s.log :=
  findSome?_killChild (fun _ _ => rfl) s sig

/-- A signal other than SIGKILL finishes nothing. -/
theorem unfinished_killChild (h : Unfinished s.log) {sig : Signal} (hsig : (sig == .kill) = false) :
    Unfinished (s.killChild sig).log := by
  rw [killChild_log]
  split
  · exact unfinished_concat.mpr ⟨h, hsig⟩
  · rw [List.append_nil]
    exact h

@[simp] theorem killChild_clock (s : LoopState) (sig : Signal) :
    (s.killChild sig).clock = s.clock := by
  rw [LoopState.killChild]
  split <;> rfl

theorem known_killChild (h : Known child s) (sig : Signal) : Known child (s.killChild sig) := by
  rw [LoopState.killChild]
  split
  · exact h.record fun pid heq => by cases heq
  · exact h

/-- A kill of the child is allowed at the first request and at the end. -/
theorem lawful_killChild (hlawful : Lawful (Allowed grace child) s.log)
    (hunfinished : Unfinished s.log) (hknown : Known child s) {sig : Signal}
    (hsig : sig = .term ∧ AtFirstRequest s.log ∨ sig = .kill) :
    Lawful (Allowed grace child) (s.killChild sig).log := by
  rw [killChild_log]
  split
  · rename_i hpos
    obtain ⟨hpid, hlog⟩ := hknown.resolve_left (by omega)
    refine lawful_concat.mpr ⟨hlawful, hunfinished, ⟨hpid, hpos, ?_⟩, hsig⟩
    rw [hpid]
    exact hlog
  · rw [List.append_nil]
    exact hlawful

/-- **The first request** begins the shutdown. -/
theorem Waiting.beginShutdown (h : Waiting grace child s) (hnone : s.shuttingDown = none)
    {sig : Signal} (hsig : sig.isRequest = true) (dtNow : Duration) :
    Waiting grace child ((s.record (.signal sig s.clock)).beginShutdown dtNow) := by
  obtain ⟨hfirst, hstart⟩ := h.idle hnone
  have hlawful : Lawful (Allowed grace child) (s.record (.signal sig s.clock)).log :=
    lawful_concat.mpr ⟨h.lawful, h.unfinished⟩
  have hunfinished : Unfinished (s.record (.signal sig s.clock)).log :=
    unfinished_concat.mpr ⟨h.unfinished, rfl⟩
  have hknown : Known child (s.record (.signal sig s.clock)) :=
    h.known.record fun pid heq => by cases heq
  have hrequest : firstRequest (s.record (.signal sig s.clock)).log = some s.clock := by
    rw [LoopState.record, firstRequest_concat, hfirst, Option.none_or]
    exact if_pos hsig
  have hgrace : graceStart (s.record (.signal sig s.clock)).log = none := by
    rw [LoopState.record, graceStart_concat, hstart]
    rfl
  -- SIGTERM to the child
  generalize hs₁ : s.record (.signal sig s.clock) = s₁ at *
  have hclock : s₁.clock = s.clock := by
    rw [← hs₁]
    rfl
  have hat : AtFirstRequest s₁.log := by
    rw [← hs₁]
    exact ⟨s.log, sig, s.clock, rfl, hsig, hfirst⟩
  have hunfinished' := unfinished_killChild hunfinished (rfl : (Signal.term == .kill) = false)
  have hgrace' : graceStart (s₁.killChild .term).log = none :=
    (graceStart_killChild s₁ .term).trans hgrace
  have hterm := lawful_killChild hlawful hunfinished hknown (Or.inl ⟨rfl, hat⟩)
  have hfirst' : firstRequest (s₁.killChild .term).log = some s.clock :=
    (firstRequest_killChild s₁ .term).trans hrequest
  have hle : s.clock ≤ (s₁.killChild .term).clock + dtNow := by
    rw [killChild_clock, hclock]
    exact Nat.le_add_right _ _
  exact
    { lawful := lawful_concat.mpr ⟨hterm, hunfinished', s.clock, hfirst', hle⟩
      unfinished := unfinished_concat.mpr ⟨hunfinished', rfl⟩
      known := (known_killChild hknown .term).record fun pid heq => by cases heq
      idle := fun hnone => by cases hnone
      begun := fun start hstart => by
        obtain rfl := Option.some.inj hstart
        refine ⟨?_, Nat.le_refl _, s.clock, ?_, hle⟩
        · show graceStart (_ ++ [_]) = _
          rw [graceStart_concat, LoopState.advance, hgrace']
          rfl
        · show firstRequest (_ ++ [_]) = _
          rw [firstRequest_concat, LoopState.advance, hfirst']
          rfl }

theorem Waiting.handleSignal (h : Waiting grace child s) (r : SignalRead) :
    Waiting grace child (s.handleSignal r) := by
  obtain ⟨dt, sig, waits, dtNow⟩ := r
  have hs := h.advance dt
  generalize hs₁ : s.advance dt = s₁ at hs
  have hquiet : (firstRequest s₁.log = none → sig.isRequest = false) →
      Waiting grace child (s₁.record (.signal sig s₁.clock)) := by
    intro hrequest
    refine hs.extend (hs.known.record fun pid heq => by cases heq) hs.unfinished rfl
      (fun hnone => ?_) rfl
    show (if sig.isRequest then some s₁.clock else none) = none
    rw [hrequest hnone]
    rfl
  have hrequest : sig.isRequest = true → Waiting grace child
      (if s₁.shuttingDown.isNone then (s₁.record (.signal sig s₁.clock)).beginShutdown dtNow
      else s₁.record (.signal sig s₁.clock)) := by
    intro hsig
    cases hstart : s₁.shuttingDown with
    | none => exact hs.beginShutdown hstart hsig dtNow
    | some start =>
      refine hquiet fun hnone => ?_
      obtain ⟨-, -, t, ht, -⟩ := hs.begun start hstart
      rw [hnone] at ht
      cases ht
  rw [LoopState.handleSignal, hs₁]
  cases sig with
  | chld => exact (hquiet fun _ => rfl).reapChildren waits
  | hup => exact hquiet fun _ => rfl
  | kill => exact hquiet fun _ => rfl
  | other signo => exact hquiet fun _ => rfl
  | term => exact hrequest rfl
  | int => exact hrequest rfl

theorem Waiting.drainEach (h : Waiting grace child s) (ds : List Drain) :
    Waiting grace child (s.drainEach ds).1 := by
  induction ds generalizing s with
  | nil => exact h
  | cons d ds ih =>
    have hd : Waiting grace child (s.drainSignalfd d).1 := by
      show Waiting grace child (d.reads.foldl LoopState.handleSignal s)
      induction d.reads generalizing s with
      | nil => exact h
      | cons r reads ihr => exact ihr (h.handleSignal r)
    rw [LoopState.drainEach]
    generalize s.drainSignalfd d = res at hd
    obtain ⟨s', stop⟩ := res
    cases stop with
    | none => exact ih hd
    | some errno => exact hd

/-! ### The timeout and the end -/

theorem asCInt_le (ms : ℕ) : asCInt ms ≤ ms := by
  have hmod : ((BitVec.ofNat 32 ms).toNat : ℤ) ≤ ms := by
    rw [BitVec.toNat_ofNat]
    exact_mod_cast Nat.mod_le _ _
  have hcond := BitVec.toInt_eq_toNat_cond (BitVec.ofNat 32 ms)
  rw [asCInt, hcond]
  split
  · exact hmod
  · omega

theorem rest_of_grace {start now grace : ℕ} (h : start ≤ now) :
    start + grace - now = grace - (now - start) := by omega

theorem grace_over {start now grace : ℕ} (h : start ≤ now) (hgrace : grace ≤ now - start) :
    start + grace ≤ now := by omega

/-- **The timeout** of a wait is positive and no longer than the rest of the grace period. -/
theorem Waiting.allowed_wait (h : Waiting grace child s) {timeout : ℤ}
    (ht : s.timeoutMs grace = some timeout) :
    Allowed grace child s.log (.wait s.clock timeout) := by
  refine ⟨h.unfinished, fun t hfirst => ?_⟩
  cases hstart : s.shuttingDown with
  | none =>
    rw [(h.idle hstart).1] at hfirst
    cases hfirst
  | some start =>
    obtain ⟨hgrace, hclock, t', ht', hle⟩ := h.begun start hstart
    obtain rfl : t' = t := by
      rw [hfirst] at ht'
      exact (Option.some.inj ht').symm
    simp only [LoopState.timeoutMs, hstart] at ht
    split at ht
    · cases ht
    rename_i hover
    obtain rfl := Option.some.inj ht
    refine ⟨start, hgrace, hle, le_max_right _ _, ?_⟩
    rw [rest_of_grace hclock, max_comm 1]
    exact max_le_max_right 1 (asCInt_le _)

/-- A loop that waits no longer has waited for the grace period. -/
theorem Waiting.over (h : Waiting grace child s) (ht : s.timeoutMs grace = none) :
    ∃ t, firstRequest s.log = some t ∧ t + grace ≤ s.clock := by
  cases hstart : s.shuttingDown with
  | none =>
    simp only [LoopState.timeoutMs, hstart] at ht
    cases ht
  | some start =>
    obtain ⟨-, hclock, t, hfirst, hle⟩ := h.begun start hstart
    simp only [LoopState.timeoutMs, hstart] at ht
    split at ht
    · rename_i hgrace
      exact ⟨t, hfirst, (Nat.add_le_add_right hle grace).trans (grace_over hclock hgrace)⟩
    · cases ht

/-- Before the sync there was neither a sync nor a reboot. -/
theorem not_rebooted_killChild (h : Unfinished s.log) (sig : Signal) :
    ∀ e ∈ (s.killChild sig).log, e ≠ .sync ∧ ∀ now, e ≠ .reboot now := by
  intro e he
  rw [killChild_log] at he
  have hcases : e ∈ s.log ∨ e = .kill s.childPid sig := by
    rcases List.mem_append.mp he with he | he
    · exact Or.inl he
    · split at he
      · exact Or.inr (List.mem_singleton.mp he)
      · cases he
  refine ⟨fun heq => ?_, fun now heq => ?_⟩
  · subst heq
    rcases hcases with hold | hkill
    · cases h _ hold
    · cases hkill
  · subst heq
    rcases hcases with hold | hkill
    · cases h _ hold
    · cases hkill

/-- **The end** is allowed when the grace period is over. -/
theorem Waiting.lawful_finishShutdown (h : Waiting grace child s)
    (ht : s.timeoutMs grace = none) :
    Lawful (Allowed grace child) s.finishShutdown.log := by
  have hkill : Lawful (Allowed grace child) (s.killChild .kill).log :=
    lawful_killChild h.lawful h.unfinished h.known (Or.inr rfl)
  have hopen := not_rebooted_killChild h.unfinished .kill
  refine lawful_concat.mpr ⟨lawful_concat.mpr ⟨hkill, hopen⟩, ?_, ?_⟩
  · intro e he now
    rcases List.mem_append.mp he with he | he
    · exact (hopen e he).2 now
    · rw [List.mem_singleton.mp he]
      exact fun heq => by cases heq
  · obtain ⟨t, hfirst, hle⟩ := h.over ht
    refine ⟨t, ?_, hle⟩
    show firstRequest (_ ++ [_]) = _
    rw [firstRequest_concat, firstRequest_killChild, hfirst]
    rfl

end Steps

/-! ### Runs -/

section Runs

variable {grace : Duration} {child : ℤ}

/-- The end of a loop whose grace period is over. -/
def Finished (grace : Duration) (child : ℤ) (s : LoopState) : Prop :=
  ∃ s', Waiting grace child s' ∧ s'.timeoutMs grace = none ∧ s = s'.finishShutdown

theorem turn_cases {s : LoopState} (h : Waiting grace child s) (t : Turn) :
    Waiting grace child (turn grace s t).1 ∨
      (turn grace s t).2 = .returned ∧ Finished grace child (turn grace s t).1 := by
  have hs := h.advance t.dt
  rw [turn]
  cases htimeout : (s.advance t.dt).timeoutMs grace with
  | none => exact Or.inr ⟨rfl, _, hs, htimeout, rfl⟩
  | some timeout =>
    have hwait : Waiting grace child
        ((s.advance t.dt).record (.wait (s.advance t.dt).clock timeout)) :=
      hs.extend (hs.known.record fun pid heq => by cases heq) (hs.allowed_wait htimeout) rfl
        (fun _ => rfl) rfl
    cases hready : t.ready with
    | error errno => exact Or.inl hwait
    | ok drains => exact Or.inl (hwait.drainEach drains)

/-- **Every run** has not finished, or ended after the grace period. -/
theorem turns_cases {s : LoopState} (h : Waiting grace child s) (ts : List Turn) :
    Waiting grace child (turns grace s ts).1 ∨ Finished grace child (turns grace s ts).1 := by
  induction ts generalizing s with
  | nil => exact Or.inl h
  | cons t ts ih =>
    have ht := turn_cases h t
    rw [turns]
    generalize turn grace s t = res at ht
    obtain ⟨s', outcome⟩ := res
    cases outcome with
    | running =>
      rcases ht with hwait | ⟨hout, -⟩
      · exact ih hwait
      · cases hout
    | returned => exact ht.imp_right And.right
    | failed errno => exact ht.imp_right And.right

theorem eventLoop_cases (cfg : Config) (child : ℤ) (clock : Instant) (setup : Option Errno)
    (ts : List Turn) :
    Waiting cfg.shutdownGrace child (eventLoop cfg child clock setup ts).1 ∨
      Finished cfg.shutdownGrace child (eventLoop cfg child clock setup ts).1 := by
  have hstart := waiting_start cfg.shutdownGrace child clock
  cases setup with
  | none => exact turns_cases hstart ts
  | some errno => exact Or.inl hstart

theorem Finished.lawful {s : LoopState} (h : Finished grace child s) :
    Lawful (Allowed grace child) s.log := by
  obtain ⟨s', hwait, htimeout, rfl⟩ := h
  exact hwait.lawful_finishShutdown htimeout

/-! ### The protocol -/

/-- **The shutdown protocol**, read off the log of a run. -/
structure Orderly (grace : Duration) (child : ℤ) (log : List Event) : Prop where
  /-- The loop reboots after a request and the grace period. -/
  reboot : ∀ past now rest, log = past ++ .reboot now :: rest →
    rest = [] ∧ ∃ t, firstRequest past = some t ∧ t + grace ≤ now
  /-- Only the child is killed, and only before it is reaped. -/
  kills : ∀ past pid sig rest, log = past ++ .kill pid sig :: rest →
    ToChild child past pid ∧ (sig = .term ∨ sig = .kill)
  /-- SIGTERM is sent at the first request, and once. -/
  term : ∀ past pid rest, log = past ++ .kill pid .term :: rest →
    AtFirstRequest past ∧ ∀ pid', .kill pid' .term ∉ past
  /-- SIGKILL is sent at the end. -/
  kill : ∀ past pid rest, log = past ++ .kill pid .kill :: rest →
    ∃ now t, rest = [.sync, .reboot now] ∧ firstRequest past = some t ∧ t + grace ≤ now
  /-- A wait during the shutdown has an end, and ends with the grace period. -/
  wait : ∀ past now timeout rest, log = past ++ .wait now timeout :: rest →
    ∀ t, firstRequest past = some t → ∃ start, graceStart past = some start ∧ t ≤ start ∧
      1 ≤ timeout ∧ timeout ≤ max 1 (((start + grace - now) / 1000000 : ℕ) : ℤ)

theorem firstRequest_of_atFirstRequest {log : List Event} (h : AtFirstRequest log) :
    firstRequest log ≠ none := by
  obtain ⟨before, sig, now, rfl, hsig, hnone⟩ := h
  rw [firstRequest_concat, hnone, Option.none_or, Event.requestTime, if_pos hsig]
  exact Option.some_ne_none now

/-- Before the first request there is no SIGTERM. -/
theorem term_not_mem {log : List Event} (h : Lawful (Allowed grace child) log)
    (hnone : firstRequest log = none) (pid : ℤ) : .kill pid .term ∉ log := by
  intro hmem
  obtain ⟨past, rest, rfl, -, -, hsig⟩ := h.imp_of_mem hmem
  rcases hsig with ⟨-, hat⟩ | hkill
  · rw [firstRequest, List.findSome?_append, Option.or_eq_none_iff] at hnone
    exact firstRequest_of_atFirstRequest hat hnone.1
  · cases hkill

/-- Nothing happens after the reboot. -/
theorem not_allowed_after_reboot {past : List Event} {now : Instant} (hmem : .reboot now ∈ past)
    (e : Event) : ¬ Allowed grace child past e := by
  have hfinal : ¬ Unfinished past := by
    intro h
    cases h _ hmem
  intro h
  cases e with
  | signal sig now' => exact hfinal h
  | reaped pid => exact hfinal h
  | kill pid sig => exact hfinal h.1
  | began now' => exact hfinal h.1
  | wait now' timeout => exact hfinal h.1
  | sync => exact (h _ hmem).2 now rfl
  | reboot now' => exact h.1 _ hmem now rfl

/-- Where a step of the end stands in a log that is longer than an unfinished one. -/
theorem split_of_unfinished {log tail past rest : List Event} {e : Event} (hlog : Unfinished log)
    (he : e.isFinal = true) (h : log ++ tail = past ++ e :: rest) :
    ∃ mid, past = log ++ mid ∧ tail = mid ++ e :: rest := by
  rcases List.append_eq_append_iff.mp h with hmid | ⟨cs, hpast, hrest⟩
  · exact hmid
  · cases cs with
    | nil => exact ⟨[], by rw [hpast, List.append_nil, List.append_nil], hrest.symm⟩
    | cons c cs =>
      obtain ⟨rfl, -⟩ := List.cons.inj hrest
      rw [hlog e (hpast ▸ by simp)] at he
      cases he

theorem finishShutdown_log (s : LoopState) :
    s.finishShutdown.log =
      s.log ++ ((if 0 < s.childPid then [.kill s.childPid .kill] else []) ++
        [.sync, .reboot s.clock]) := by
  show (s.killChild .kill).log ++ [.sync] ++ [.reboot s.clock] = _
  rw [killChild_log]
  simp only [List.append_assoc, List.cons_append, List.nil_append]

/-- SIGKILL is sent when the grace period is over, and then the system is rebooted. -/
theorem Finished.kill {s : LoopState} (h : Finished grace child s) {past rest : List Event}
    {pid : ℤ} (hsplit : s.log = past ++ .kill pid .kill :: rest) :
    ∃ now t, rest = [.sync, .reboot now] ∧ firstRequest past = some t ∧ t + grace ≤ now := by
  obtain ⟨s, hwait, htimeout, rfl⟩ := h
  rw [finishShutdown_log] at hsplit
  obtain ⟨mid, hpast, htail⟩ := split_of_unfinished hwait.unfinished rfl hsplit
  -- SIGKILL is the first of the last steps
  have hmid : mid = [] ∧ rest = [.sync, .reboot s.clock] := by
    split at htail
    · rcases mid with _ | ⟨a, _ | ⟨b, _ | ⟨c, mid⟩⟩⟩
      · exact ⟨rfl, (List.cons.inj htail).2.symm⟩
      all_goals simp at htail
    · rcases mid with _ | ⟨a, _ | ⟨b, mid⟩⟩ <;> simp at htail
  obtain ⟨-, t, hfirst, hle⟩ := (lawful_concat.mp (hwait.lawful_finishShutdown htimeout)).2
  refine ⟨s.clock, t, hmid.2, ?_, hle⟩
  rw [hpast, hmid.1, List.append_nil, ← hfirst, LoopState.record, firstRequest_concat,
    firstRequest_killChild]
  exact Option.or_none.symm

/-- **PID 1 shuts down in order**: for every child, clock, grace period and sequence of signals,
exits and wake-ups. -/
theorem shutdown_orderly (cfg : Config) (child : ℤ) (clock : Instant) (setup : Option Errno)
    (ts : List Turn) :
    Orderly cfg.shutdownGrace child (eventLoop cfg child clock setup ts).1.log := by
  have hcases := eventLoop_cases cfg child clock setup ts
  generalize (eventLoop cfg child clock setup ts).1 = s at hcases
  have hlawful : Lawful (Allowed cfg.shutdownGrace child) s.log :=
    hcases.elim Waiting.lawful Finished.lawful
  refine ⟨?_, ?_, ?_, ?_, ?_⟩
  · intro past now rest hsplit
    have hrest := hlawful.forall_rest hsplit (P := fun _ => False)
      fun past' e hmem hallowed => not_allowed_after_reboot hmem e hallowed
    exact ⟨List.eq_nil_iff_forall_not_mem.mpr hrest, (hlawful past _ rest hsplit).2⟩
  · intro past pid sig rest hsplit
    obtain ⟨-, hchild, hsig⟩ := hlawful past _ rest hsplit
    exact ⟨hchild, hsig.imp_left And.left⟩
  · intro past pid rest hsplit
    obtain ⟨-, -, hsig⟩ := hlawful past _ rest hsplit
    obtain ⟨-, hat⟩ := hsig.resolve_right (by intro h; cases h)
    refine ⟨hat, fun pid' hmem => ?_⟩
    obtain ⟨before, sig, now, rfl, -, hnone⟩ := hat
    rw [hsplit] at hlawful
    have hbefore := hlawful.of_append.of_append
    rcases List.mem_append.mp hmem with hold | hlast
    · exact term_not_mem hbefore hnone pid' hold
    · cases List.mem_singleton.mp hlast
  · intro past pid rest hsplit
    rcases hcases with hwait | hfinished
    · have hfinal := hwait.unfinished (.kill pid .kill) (by rw [hsplit]; simp)
      cases hfinal
    · exact hfinished.kill hsplit
  · intro past now timeout rest hsplit
    exact (hlawful past _ rest hsplit).2

end Runs

end WriteonceOs.Pid1
