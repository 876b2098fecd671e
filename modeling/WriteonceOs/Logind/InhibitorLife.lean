import WriteonceOs.Library.Doorbell
import WriteonceOs.Library.Run
import WriteonceOs.Logind.InhibitorInv

/-!
# The lifetime of inhibitor handles

In every run in which no system call fails, a record lives from the call that makes it until the
watcher thread has seen its own caller close its end, however the threads interleave.

* `Step.doorbell` — the queue and the wake pipe hand over read ends as a queue with a bell does;
* `Watches` — what the watcher thread can do on its own;
* `inhibitor_lifetime` — what holds in every state of every run;
* `push_before_wake` — between the two halves of `register`, the watcher may be about to block with
  a request in the queue and no byte in the wake pipe.
-/

namespace WriteonceOs.Logind

open WriteonceOs.Library

namespace Daemon

variable {s s' : Daemon}

/-! ### The queue and the wake pipe -/

/-- The requests whose wake byte is still to be written. -/
def owed (s : Daemon) : Set AddRequest :=
  {req | ∃ c, (s.handle c).request = some req ∧ (s.handle c).owed = true}

/-- The hand-over of read ends, seen from its queue. -/
def doorbell (s : Daemon) : Doorbell AddRequest where
  queue := s.pending
  owed := s.owed
  rings := s.wake
  asleep := s.thread.asleep

theorem owed_of_calls (h : s'.calls = s.calls) : s'.owed = s.owed := by
  simp only [owed, handle, h]

theorem owed_congr (hrequest : ∀ c, (s'.handle c).request = (s.handle c).request)
    (howed : ∀ c, (s'.handle c).owed = (s.handle c).owed) : s'.owed = s.owed := by
  simp only [owed, hrequest, howed]

/-- A call that comes to another point owes what it owed. -/
theorem owed_move {c : ℕ} {call : Call} (hc : s.calls[c]? = some call) {phase : Phase}
    (hphase : call.phase = phase) (phase' : Phase)
    (hrequest : (Call.handle ⟨call.args, phase'⟩).request =
      (Call.handle ⟨call.args, phase⟩).request)
    (howed : (Call.handle ⟨call.args, phase'⟩).owed = (Call.handle ⟨call.args, phase⟩).owed) :
    (s.move c phase').owed = s.owed :=
  owed_congr (field_move Handle.request hc hphase phase' hrequest)
    (field_move Handle.owed hc hphase phase' howed)

/-- A request enters the queue with its wake byte owed. -/
theorem owed_push {c : ℕ} {call : Call} {id : UInt32} {fd : ℕ} (hc : s.calls[c]? = some call)
    (hphase : call.phase = .piped id fd) :
    (s.registerPush c ⟨id, fd⟩).owed = insert ⟨id, fd⟩ s.owed := by
  have hat := handle_at hc hphase
  have hupd : (s.registerPush c ⟨id, fd⟩).handle =
      Function.update s.handle c (Call.handle ⟨call.args, .queued id fd⟩) := handle_move hc _
  ext req
  simp only [owed, hupd, Set.mem_insert_iff, Set.mem_ofPred_eq]
  constructor
  · rintro ⟨c', hrequest, howed⟩
    by_cases hcc : c' = c
    · rw [hcc, Function.update_self] at hrequest
      exact .inl (Option.some.inj hrequest).symm
    · rw [Function.update_of_ne hcc] at hrequest howed
      exact .inr ⟨c', hrequest, howed⟩
  · rintro (rfl | ⟨c', hrequest, howed⟩)
    · exact ⟨c, by rw [Function.update_self]; rfl, by rw [Function.update_self]; rfl⟩
    · have hcc : c' ≠ c := by
        rintro rfl
        rw [hat] at hrequest
        cases hrequest
      exact ⟨c', by rwa [Function.update_of_ne hcc], by rwa [Function.update_of_ne hcc]⟩

/-- The wake byte of a request is written. -/
theorem owed_wake (h : s.Inv) {c : ℕ} {call : Call} {id : UInt32} {fd : ℕ}
    (hc : s.calls[c]? = some call) (hphase : call.phase = .queued id fd) :
    (s.move c (.woken id fd)).owed = s.owed \ {⟨id, fd⟩} := by
  have hat : (s.handle c).request = some ⟨id, fd⟩ := congrArg Handle.request (handle_at hc hphase)
  ext req
  simp only [owed, handle_move hc, Set.mem_sdiff, Set.mem_ofPred_eq, Set.mem_singleton_iff]
  constructor
  · rintro ⟨c', hrequest, howed⟩
    have hcc : c' ≠ c := by
      rintro rfl
      rw [Function.update_self] at howed
      cases howed
    rw [Function.update_of_ne hcc] at hrequest howed
    refine ⟨⟨c', hrequest, howed⟩, ?_⟩
    rintro rfl
    exact hcc (h.registered.request_inj hrequest hat rfl)
  · rintro ⟨⟨c', hrequest, howed⟩, hne⟩
    have hcc : c' ≠ c := by
      rintro rfl
      rw [hat] at hrequest
      exact hne (Option.some.inj hrequest).symm
    exact ⟨c', by rwa [Function.update_of_ne hcc], by rwa [Function.update_of_ne hcc]⟩

/-- **The queue and the wake pipe are a queue with a bell**: every step of the daemon is a step of
the bell or leaves it alone. -/
theorem Step.doorbell (hstep : s.Step s') (h : s.Inv) :
    Relation.ReflGen Doorbell.Step s.doorbell s'.doorbell := by
  have hsame : ∀ {t : Daemon}, t.pending = s.pending → t.owed = s.owed → t.wake = s.wake →
      t.thread.asleep = s.thread.asleep →
      Relation.ReflGen Doorbell.Step s.doorbell t.doorbell := by
    intro t hpending howed hwake hthread
    rw [Daemon.doorbell, Daemon.doorbell, hpending, howed, hwake, hthread]
  rcases hstep with hstep | hstep
  · cases hstep with
    | ask args =>
      have hask := handle_ask (s := s) args
      exact hsame rfl (owed_congr (fun c => hask ▸ rfl) fun c => hask ▸ rfl) rfl rfl
    | refuse e hc hphase => exact hsame rfl (owed_move hc hphase _ rfl rfl) rfl rfl
    | record hc hphase => exact hsame rfl (owed_move hc hphase _ rfl rfl) rfl rfl
    | pipe hc hphase => exact hsame rfl (owed_move hc hphase _ rfl rfl) rfl rfl
    | reply hc hphase => exact hsame rfl (owed_move hc hphase _ rfl rfl) rfl rfl
    | close hc hphase => exact hsame rfl (owed_move hc hphase _ rfl rfl) rfl rfl
    | @push c call id fd hc hphase =>
      have hpush := Doorbell.Step.push s.doorbell ⟨id, fd⟩
      rw [Daemon.doorbell, Daemon.doorbell, owed_push hc hphase]
      exact .single hpush
    | @wake c call id fd hc hphase =>
      have hring := Doorbell.Step.ring s.doorbell ⟨id, fd⟩
      have howed : Daemon.owed { s.move c (.woken id fd) with wake := s.wake + 1 } =
        s.owed \ {⟨id, fd⟩} := owed_wake h hc hphase
      rw [Daemon.doorbell, Daemon.doorbell, howed]
      exact .single hring
  · cases hstep with
    | take hthread => exact .single (.take s.doorbell)
    | drained hthread | add hthread | stop hthread | ignore hthread hev | release hthread
    | again hthread => exact hsame rfl rfl rfl (by rw [hthread]; rfl)
    | insert hthread =>
      obtain ⟨hcalls, -, hpending, hwake⟩ := s.insertFd_frame _
      exact hsame hpending (owed_of_calls hcalls) hwake (by rw [hthread]; rfl)
    | hangup hthread hev =>
      obtain ⟨hcalls, -, hpending, hwake⟩ := s.releaseFd_frame _
      exact hsame hpending (owed_of_calls hcalls) hwake (by rw [hthread]; rfl)
    | report hthread hready | retry hthread => exact .single (.answer s.doorbell 0)
    | answer hthread hev hwake => exact .single (.answer s.doorbell 64)

/-! ### Runs -/

theorem Step.length_le (hstep : s.Step s') : s.calls.length ≤ s'.calls.length := by
  rcases hstep with hstep | hstep
  · cases hstep with
    | ask args => simp
    | refuse | record | pipe | push | wake | reply | close => simp [move, registerPush]
  · cases hstep with
    | insert hthread => exact (congrArg List.length (s.insertFd_frame _).1).ge
    | hangup hthread hev => exact (congrArg List.length (s.releaseFd_frame _).1).ge
    | _ => exact le_rfl

theorem inv_new : new.Inv where
  registered :=
    { counter := rfl
      bound := nofun
      ids := nofun
      owned := nofun
      kept := nofun
      nodup := List.nodup_nil }
  piped :=
    { bound := nofun
      fds := nofun
      open_iff := nofun }
  placed :=
    { sent := by
        rintro req (hmem | hlookup)
        · cases hmem
        · cases hlookup
      once := List.nodup_nil
      place := nofun }
  listening :=
    { wake := List.mem_singleton_self wakeInterest
      sent := fun i hi => .inl (List.mem_singleton.mp hi)
      watched := by
        rintro req (hlookup | hadding)
        · cases hlookup
        · cases hadding }
  served := .nil _ _

/-- **The invariant of runs**: while ids do not wrap around, the daemon is as `Inv` says and no
queued read end is out of earshot. -/
theorem run_inv {sched : List Event} (hsched : ∀ e ∈ sched, e.Succeeds)
    (hrun : sched.foldlM next new = some s) (hcalls : s.calls.length < 2 ^ 32) :
    s.Inv ∧ s.doorbell.Heard := by
  have hI : s.calls.length < 2 ^ 32 → s.Inv ∧ s.doorbell.Heard := by
    refine foldlM_inv_of (I := fun s : Daemon => s.calls.length < 2 ^ 32 → s.Inv ∧ s.doorbell.Heard)
      (fun s e s' hI he hnext hlt => ?_) ?_ hsched hrun
    · have hstep := next_step he hnext
      have hlt' := hstep.length_le.trans_lt hlt
      obtain ⟨hinv, hheard⟩ := hI hlt'
      exact ⟨hstep.inv hlt' hinv, hheard.of_steps (hstep.doorbell hinv).to_reflTransGen⟩
    · exact fun _ => ⟨inv_new, Doorbell.heard_of_queue_nil rfl⟩
  exact hI hcalls

/-! ### The watcher thread on its own -/

/-- The watcher thread gets from one state to the other while no call and no caller moves. -/
def Watches : Daemon → Daemon → Prop :=
  Relation.ReflTransGen fun s s' => ∃ e : Event, e.OfWatcher ∧ s.next e = some s'

theorem watcher_step {e : Event} (he : e.OfWatcher) (h : s.next e = some s') : s.WatchStep s' := by
  cases e with
  | watch ans =>
    cases he
    exact watch_step h
  | epollWait ready =>
    simp only [next] at h
    split at h
    case isTrue hready =>
      cases h
      exact .report hready.1 hready.2
    case isFalse => cases h
  | ask | inhibit | close | epollFail => cases he

theorem WatchStep.calls (hstep : s.WatchStep s') : s'.calls = s.calls := by
  cases hstep with
  | insert hthread => exact (s.insertFd_frame _).1
  | hangup hthread hev => exact (s.releaseFd_frame _).1
  | _ => rfl

namespace Watches

theorem calls (h : s.Watches s') : s'.calls = s.calls := by
  induction h with
  | refl => rfl
  | tail _ hstep ih =>
    obtain ⟨e, he, hnext⟩ := hstep
    exact (watcher_step he hnext).calls.trans ih

theorem inv (h : s.Watches s') (hinv : s.Inv) : s'.Inv := by
  induction h with
  | refl => exact hinv
  | tail _ hstep ih =>
    obtain ⟨e, he, hnext⟩ := hstep
    exact (watcher_step he hnext).inv ih

theorem heard (h : s.Watches s') (hinv : s.Inv) (hheard : s.doorbell.Heard) :
    s'.doorbell.Heard := by
  induction h with
  | refl => exact hheard
  | tail hwatches hstep ih =>
    obtain ⟨e, he, hnext⟩ := hstep
    have hbell := Step.doorbell (.inr (watcher_step he hnext)) (inv hwatches hinv)
    exact ih.of_steps hbell.to_reflTransGen

/-- The next step of the thread, then more. -/
theorem watch {t : Daemon} (hnext : s.watch (.ok ()) = some t) (h : t.Watches s') : s.Watches s' :=
  .head ⟨.watch (.ok ()), rfl, hnext⟩ h

/-- `epoll_wait` returns one interest that is ready. -/
theorem report {i : Interest} (hthread : s.thread = .waiting) (hi : i ∈ s.interest)
    (hready : s.revents i ≠ 0)
    (h : Watches { s with thread := .serving [⟨s.revents i, i.event.u64⟩] } s') :
    s.Watches s' := by
  have hreportable : s.Reportable [i] :=
    ⟨List.cons_ne_nil i [], by simp, List.nodup_singleton i, by simp [hi, hready]⟩
  exact .head ⟨.epollWait [i], trivial, if_pos ⟨hthread, hreportable⟩⟩ h

end Watches

/-- A batch is added in full. -/
theorem drain_waits (batch : List AddRequest) (hthread : s.thread = .draining batch) :
    ∃ s', s.Watches s' ∧ s'.thread = .waiting ∧ s'.pending = s.pending := by
  induction batch generalizing s with
  | nil =>
    have hnext : s.watch (.ok ()) = some { s with thread := .waiting } := by
      rw [watch, hthread]
    exact ⟨_, .watch hnext .refl, rfl, rfl⟩
  | cons req batch ih =>
    let t : Daemon := { s with
      interest := s.interest ++ [req.interest]
      thread := .inserting req batch }
    have hadd : s.watch (.ok ()) = some t := by rw [watch, hthread]
    have hinsert : t.watch (.ok ()) = some { t.insertFd req with thread := .draining batch } := rfl
    obtain ⟨s', hwatches, hwaiting, hpending⟩ :=
      ih (s := { t.insertFd req with thread := .draining batch }) rfl
    exact ⟨s', .watch hadd (.watch hinsert hwatches), hwaiting,
      hpending.trans (t.insertFd_frame req).2.2.1⟩

/-- From the head of the loop the thread takes the whole queue before it waits. -/
theorem top_waits (hthread : s.thread = .top) :
    ∃ s', s.Watches s' ∧ s'.thread = .waiting ∧ s'.pending = [] := by
  have htake : s.watch (.ok ()) =
      some { s with pending := [], thread := .draining s.pending } := by rw [watch, hthread]
  obtain ⟨s', hwatches, hwaiting, hpending⟩ :=
    drain_waits (s := { s with pending := [], thread := .draining s.pending }) s.pending rfl
  exact ⟨s', .watch htake hwatches, hwaiting, hpending⟩

/-- All events are served; the read of the wake pipe never blocks. -/
theorem serve_top (events : List EpollEvent) (hinv : s.Inv) (hthread : s.thread = .serving events) :
    ∃ s', s.Watches s' ∧ s'.thread = .top := by
  induction events generalizing s with
  | nil =>
    have hnext : s.watch (.ok ()) = some { s with thread := .top } := by rw [watch, hthread]
    exact ⟨_, .watch hnext .refl, rfl⟩
  | cons ev events ih =>
    have hserve : s.watch (.ok ()) = s.serve ev events := by rw [watch, hthread]
    unfold serve at hserve
    by_cases hev : ev.u64 = wakeToken
    · have hwake : s.wake ≠ 0 := by
        have hserved := (hinv.at_thread hthread).2.2.2.2
        exact Nat.ne_of_gt (hserved.readable ⟨ev, List.mem_cons_self, hev⟩)
      rw [if_pos hev, if_neg hwake] at hserve
      obtain ⟨s', hwatches, htop⟩ := ih ((watch_step hserve).inv hinv) rfl
      exact ⟨s', .watch hserve hwatches, htop⟩
    · rw [if_neg hev] at hserve
      split at hserve
      · have hinv' := (watch_step hserve).inv hinv
        have hrelease := (watch_step (s := { s.releaseFd ev.u64.toUInt32 with
          thread := .releasing ev.u64.toUInt32 events }) rfl).inv hinv'
        obtain ⟨s', hwatches, htop⟩ := ih hrelease rfl
        exact ⟨s', .watch hserve (.watch rfl hwatches), htop⟩
      · obtain ⟨s', hwatches, htop⟩ := ih ((watch_step hserve).inv hinv) rfl
        exact ⟨s', .watch hserve hwatches, htop⟩

/-- A thread that waits with a byte in the wake pipe comes to wait with an empty queue. -/
theorem wake_waits (hinv : s.Inv) (hthread : s.thread = .waiting) (hwake : 0 < s.wake) :
    ∃ s', s.Watches s' ∧ s'.thread = .waiting ∧ s'.pending = [] := by
  have hready : s.revents wakeInterest ≠ 0 := by
    rw [revents_wakeInterest, if_pos hwake]
    decide
  have hserving := (Watches.report hthread hinv.listening.wake hready .refl).inv hinv
  obtain ⟨t, hserve, htop⟩ := serve_top _ hserving rfl
  obtain ⟨s', hwatches, hwaiting, hpending⟩ := top_waits htop
  exact ⟨s', .report hthread hinv.listening.wake hready (hserve.trans hwatches), hwaiting, hpending⟩

/-- A thread that waits has taken a request that is not owed, or is about to take it. -/
theorem waiting_settles (hinv : s.Inv) (hheard : s.doorbell.Heard) (hthread : s.thread = .waiting)
    {req : AddRequest} (hreq : req ∉ s.owed) :
    ∃ s', s.Watches s' ∧ s'.thread = .waiting ∧ req ∉ s'.pending := by
  by_cases hmem : req ∈ s.pending
  · have hasleep : s.thread.asleep := by
      rw [hthread]
      trivial
    have hwake := (hheard hasleep req hmem).resolve_left hreq
    obtain ⟨s', hwatches, hwaiting, hpending⟩ := wake_waits hinv hthread hwake
    exact ⟨s', hwatches, hwaiting, by simp [hpending]⟩
  · exact ⟨s, .refl, hthread, hmem⟩

/-- **No request is stranded**: unless `epoll_wait` has failed, the thread on its own comes to wait
with a request out of the queue that is not owed. -/
theorem settles (hinv : s.Inv) (hheard : s.doorbell.Heard) (hthread : s.thread ≠ .stopped)
    {req : AddRequest} (hreq : req ∉ s.owed) :
    ∃ s', s.Watches s' ∧ s'.thread = .waiting ∧ req ∉ s'.pending := by
  -- the thread comes to wait, and then empties the queue if it has to
  have hwaits : ∀ {t}, s.Watches t → t.thread = .waiting →
      ∃ s', s.Watches s' ∧ s'.thread = .waiting ∧ req ∉ s'.pending := by
    intro t ht hwaiting
    have hreq' : req ∉ t.owed := by rwa [owed_of_calls ht.calls]
    obtain ⟨s', hwatches, hsettled⟩ :=
      waiting_settles (ht.inv hinv) (ht.heard hinv hheard) hwaiting hreq'
    exact ⟨s', ht.trans hwatches, hsettled⟩
  have hserves : ∀ {t} (events : List EpollEvent), s.Watches t → t.thread = .serving events →
      ∃ s', s.Watches s' ∧ s'.thread = .waiting ∧ req ∉ s'.pending := by
    intro t events ht hserving
    obtain ⟨u, hu, htop⟩ := serve_top events (ht.inv hinv) hserving
    obtain ⟨s', hwatches, hwaiting, -⟩ := top_waits htop
    exact hwaits (ht.trans (hu.trans hwatches)) hwaiting
  cases hcase : s.thread with
  | top =>
    obtain ⟨s', hwatches, hwaiting, -⟩ := top_waits hcase
    exact hwaits hwatches hwaiting
  | draining batch =>
    obtain ⟨s', hwatches, hwaiting, -⟩ := drain_waits batch hcase
    exact hwaits hwatches hwaiting
  | inserting req' batch =>
    have hinsert : s.watch (.ok ()) = some { s.insertFd req' with thread := .draining batch } := by
      rw [Daemon.watch, hcase]
    obtain ⟨s', hwatches, hwaiting, -⟩ :=
      drain_waits (s := { s.insertFd req' with thread := .draining batch }) batch rfl
    exact hwaits (.watch hinsert hwatches) hwaiting
  | waiting => exact hwaits .refl hcase
  | serving events => exact hserves events .refl hcase
  | releasing id events =>
    have hrelease : s.watch (.ok ()) =
        some { s.releaseRecord id with thread := .serving events } := by rw [Daemon.watch, hcase]
    exact hserves events (.watch hrelease .refl) rfl
  | stopped => exact (hthread hcase).elim

/-- A waiting thread whose queue does not hold a request watches its read end, as long as the
record is there. -/
theorem Inv.watched (hinv : s.Inv) (hthread : s.thread = .waiting) {c : ℕ} {req : AddRequest}
    {r : Inhibitor} (hc : (s.handle c).request = some req) (hr : (s.handle c).record = some r)
    (hmem : r ∈ s.app.inhibitors) (hpending : req ∉ s.pending) :
    s.fds.lookup req.id = some req.fd ∧ req.interest ∈ s.interest := by
  obtain ⟨-, -, hplaced, hlistening, -⟩ := hinv.at_thread hthread
  have hlookup := (hplaced.place c req r hc hr hmem nofun).resolve_left hpending
  exact ⟨hlookup, hlistening.watched req (.inl hlookup)⟩

/-- **No closed handle is stranded**: unless `epoll_wait` has failed, the thread on its own drops
the record. -/
theorem releases (hinv : s.Inv) (hheard : s.doorbell.Heard) (hthread : s.thread ≠ .stopped) {c : ℕ}
    {req : AddRequest} {r : Inhibitor} (hc : (s.handle c).request = some req)
    (hr : (s.handle c).record = some r) (hclosed : (s.handle c).closed = true)
    (hreq : req ∉ s.owed) : ∃ s', s.Watches s' ∧ r ∉ s'.app.inhibitors := by
  obtain ⟨t, ht, hwaiting, hpending⟩ := settles hinv hheard hthread hreq
  have hinv' := ht.inv hinv
  have hhandle : t.handle c = s.handle c := by simp only [handle, ht.calls]
  rw [← hhandle] at hc hr hclosed
  by_cases hmem : r ∈ t.app.inhibitors
  · have hin := (hinv'.watched hwaiting hc hr hmem hpending).2
    have hready := (hinv'.closed_of_revents hc).mpr hclosed
    obtain ⟨⟨r', hr', hid⟩, -⟩ := (t.handle c).request_made req hc
    rw [hr] at hr'
    cases hr'
    let ev : EpollEvent := ⟨EPOLLHUP, req.id.toUInt64⟩
    let u : Daemon := { t with thread := .serving [ev] }
    let v : Daemon := { u.releaseFd req.id with thread := .releasing req.id [] }
    have hserve : u.watch (.ok ()) = some v := by
      have hserving : u.watch (.ok ()) = u.serve ev [] := rfl
      have hid' : ev.u64.toUInt32 = req.id := UInt32.toUInt32_toUInt64 req.id
      have hhup : ev.events &&& (EPOLLHUP ||| EPOLLERR) ≠ 0 := by
        show EPOLLHUP &&& (EPOLLHUP ||| EPOLLERR) ≠ 0
        decide
      rw [hserving, serve, if_neg (toUInt64_ne_wakeToken req.id), if_pos hhup, hid']
    have hreport : t.Watches u := by
      have h := Watches.report hwaiting hin hready .refl
      rw [revents_eq_hangup hready] at h
      exact h
    have hrelease : u.Watches { v.releaseRecord req.id with thread := .serving [] } :=
      .watch hserve (.watch rfl .refl)
    refine ⟨_, ht.trans (hreport.trans hrelease), fun hmem' => ?_⟩
    have hne := (List.mem_filter.mp hmem').2
    simp [hid] at hne
  · exact ⟨t, ht, hmem⟩

/-! ### The protocol -/

/-- What holds at every moment. -/
structure Lifetime (s : Daemon) : Prop where
  ids : (s.app.inhibitors.map Inhibitor.id).Nodup
  owned : ∀ r ∈ s.app.inhibitors, ∃ call ∈ s.calls, call.handle.record = some r
  -- a record stays until its own caller closes its end
  kept : ∀ call ∈ s.calls, ∀ r, call.handle.record = some r → call.handle.closed = false →
    r ∈ s.app.inhibitors
  -- the read end of a call that has returned has a place
  held : ∀ call ∈ s.calls, ∀ id fd, call.phase = .returned id fd ∨ call.phase = .closed id fd →
    call.inhibitor id ∈ s.app.inhibitors → s.thread.leaving ≠ some id →
    ⟨id, fd⟩ ∈ s.pending ∨ ⟨id, fd⟩ ∈ s.thread.batch ∨ s.fds.lookup id = some fd
  watched : ∀ id fd, s.fds.lookup id = some fd → AddRequest.interest ⟨id, fd⟩ ∈ s.interest
  -- a thread about to block has its wakeup there or on its way
  woken : s.thread = .waiting → ∀ req ∈ s.pending,
    0 < s.wake ∨ ∃ call ∈ s.calls, call.phase = .queued req.id req.fd
  unblocked : s.thread = .waiting → ∀ call ∈ s.calls, ∀ id fd, call.phase = .closed id fd →
    call.inhibitor id ∈ s.app.inhibitors → ¬ s.Blocked
  -- what the thread does in the end, without any help
  registers : s.thread ≠ .stopped → ∀ call ∈ s.calls, ∀ id fd, call.phase = .returned id fd →
    ∃ s', s.Watches s' ∧ s'.fds.lookup id = some fd
  releases : s.thread ≠ .stopped → ∀ call ∈ s.calls, ∀ id fd, call.phase = .closed id fd →
    ∃ s', s.Watches s' ∧ call.inhibitor id ∉ s'.app.inhibitors

/-- A request whose call has written its wake byte is not owed. -/
theorem Inv.not_owed (hinv : s.Inv) {c : ℕ} {req : AddRequest}
    (hc : (s.handle c).request = some req) (howed : (s.handle c).owed = false) : req ∉ s.owed := by
  rintro ⟨c', hc', howed'⟩
  rw [hinv.registered.request_inj hc' hc rfl, howed] at howed'
  cases howed'

/-- A request that is owed is that of a call between the two halves of `register`. -/
theorem exists_queued {req : AddRequest} (h : req ∈ s.owed) :
    ∃ call ∈ s.calls, call.phase = .queued req.id req.fd := by
  obtain ⟨c, hc, howed⟩ := h
  rcases s.handle_cases c with hnone | ⟨call, hmem, hcall⟩
  · rw [hnone] at hc
    cases hc
  · rw [hcall] at hc howed
    refine ⟨call, hmem, ?_⟩
    cases hphase : call.phase with
    | queued id fd =>
      simp only [Call.handle, hphase] at hc
      cases hc
      rfl
    | _ => simp [Call.handle, hphase] at howed

/-- A closed handle is that of a call whose caller has closed its end. -/
theorem exists_closed {c : ℕ} {r : Inhibitor} (hr : (s.handle c).record = some r)
    (hclosed : (s.handle c).closed = true) :
    ∃ call ∈ s.calls, ∃ fd, call.phase = .closed r.id fd ∧ call.inhibitor r.id = r := by
  rcases s.handle_cases c with hnone | ⟨call, hmem, hcall⟩
  · rw [hnone] at hr
    cases hr
  · rw [hcall] at hr hclosed
    cases hphase : call.phase with
    | closed id fd =>
      simp only [Call.handle, hphase] at hr
      cases hr
      exact ⟨call, hmem, fd, hphase, rfl⟩
    | _ => simp [Call.handle, hphase] at hclosed

/-- What a call has made when it has returned. -/
theorem handle_returned {call : Call} {id : UInt32} {fd : ℕ}
    (hphase : call.phase = .returned id fd ∨ call.phase = .closed id fd) :
    call.handle.request = some ⟨id, fd⟩ ∧ call.handle.record = some (call.inhibitor id) ∧
      call.handle.owed = false := by
  rcases hphase with hphase | hphase <;> simp [Call.handle, hphase]

/-- The invariant and the bell say what there is to say about the lifetime of handles. -/
theorem Inv.lifetime (hinv : s.Inv) (hheard : s.doorbell.Heard) : s.Lifetime := by
  have hat : ∀ call ∈ s.calls, ∃ c, s.handle c = call.handle := by
    intro call hmem
    obtain ⟨c, hc⟩ := List.mem_iff_getElem?.mp hmem
    exact ⟨c, handle_at hc rfl⟩
  have hawake : s.thread = .waiting → ∀ req ∈ s.pending, req ∈ s.owed ∨ 0 < s.wake := by
    intro hthread
    refine hheard (?_ : s.thread.asleep)
    rw [hthread]
    trivial
  have hheld : ∀ call ∈ s.calls, ∀ id fd,
      call.phase = .returned id fd ∨ call.phase = .closed id fd →
      call.inhibitor id ∈ s.app.inhibitors → s.thread.leaving ≠ some id →
      ⟨id, fd⟩ ∈ s.pending ∨ ⟨id, fd⟩ ∈ s.thread.batch ∨ s.fds.lookup id = some fd := by
    intro call hmem id fd hphase hr hleaving
    obtain ⟨c, hc⟩ := hat call hmem
    obtain ⟨hrequest, hrecord, -⟩ := handle_returned hphase
    rw [← hc] at hrequest hrecord
    rcases hinv.placed.place c _ _ hrequest hrecord hr hleaving with hqueue | hlookup
    · exact (List.mem_append.mp hqueue).symm.imp_right .inl
    · exact .inr (.inr hlookup)
  constructor
  case ids => exact hinv.registered.nodup
  case owned =>
    intro r hr
    obtain ⟨c, hc⟩ := hinv.registered.owned r hr
    rcases s.handle_cases c with hnone | ⟨call, hmem, hcall⟩
    · rw [hnone] at hc
      cases hc
    · exact ⟨call, hmem, hcall ▸ hc⟩
  case kept =>
    intro call hmem r hr hclosed
    obtain ⟨c, hc⟩ := hat call hmem
    exact hinv.registered.kept c r (hc ▸ hr) (hc ▸ hclosed)
  case held => exact hheld
  case watched => exact fun id fd hlookup => hinv.listening.watched ⟨id, fd⟩ (.inl hlookup)
  case woken =>
    exact fun hthread req hmem => (hawake hthread req hmem).symm.imp_right exists_queued
  case unblocked =>
    intro hthread call hmem id fd hphase hr hblocked
    obtain ⟨c, hc⟩ := hat call hmem
    obtain ⟨hrequest, -, howed⟩ := handle_returned (.inr hphase)
    have hclosed : call.handle.closed = true := by simp [Call.handle, hphase]
    rw [← hc] at hrequest howed hclosed
    have hleaving : s.thread.leaving ≠ some id := by simp [hthread, Thread.leaving]
    rcases hheld call hmem id fd (.inr hphase) hr hleaving with hpending | hbatch | hlookup
    · have hwake := (hawake hthread _ hpending).resolve_left (hinv.not_owed hrequest howed)
      have hzero := hblocked _ hinv.listening.wake
      rw [revents_wakeInterest, if_pos hwake] at hzero
      cases hzero
    · rw [hthread] at hbatch
      cases hbatch
    · exact (hinv.closed_of_revents hrequest).mpr hclosed
        (hblocked _ (hinv.listening.watched ⟨id, fd⟩ (.inl hlookup)))
  case registers =>
    intro hthread call hmem id fd hphase
    obtain ⟨c, hc⟩ := hat call hmem
    obtain ⟨hrequest, hrecord, howed⟩ := handle_returned (.inl hphase)
    have hopen : call.handle.closed = false := by simp [Call.handle, hphase]
    rw [← hc] at hrequest hrecord howed hopen
    obtain ⟨t, ht, hwaiting, hpending⟩ :=
      settles hinv hheard hthread (hinv.not_owed hrequest howed)
    have hinv' := ht.inv hinv
    have hhandle : t.handle c = s.handle c := by simp only [handle, ht.calls]
    rw [← hhandle] at hrequest hrecord hopen
    have hr := hinv'.registered.kept c _ hrecord hopen
    exact ⟨t, ht, (hinv'.watched hwaiting hrequest hrecord hr hpending).1⟩
  case releases =>
    intro hthread call hmem id fd hphase
    obtain ⟨c, hc⟩ := hat call hmem
    obtain ⟨hrequest, hrecord, howed⟩ := handle_returned (.inr hphase)
    have hclosed : call.handle.closed = true := by simp [Call.handle, hphase]
    rw [← hc] at hrequest hrecord howed hclosed
    exact releases hinv hheard hthread hrequest hrecord hclosed (hinv.not_owed hrequest howed)

/-- A step that drops a record drops that of the handle being released, whose caller has closed its
end, and no other. -/
theorem Step.drops (hstep : s.Step s') (hinv : s.Inv) {r : Inhibitor} (hr : r ∈ s.app.inhibitors)
    (hdropped : r ∉ s'.app.inhibitors) :
    s.thread.leaving = some r.id ∧
      (∃ call ∈ s.calls, ∃ fd, call.phase = .closed r.id fd ∧ call.inhibitor r.id = r) ∧
      ∀ r' ∈ s.app.inhibitors, r'.id ≠ r.id → r' ∈ s'.app.inhibitors := by
  rcases hstep with hstep | hstep
  · cases hstep with
    | record hc hphase => exact (hdropped (List.mem_append_left _ hr)).elim
    | _ => exact (hdropped hr).elim
  · cases hstep with
    | @release id events hthread =>
      have hid : r.id = id := by
        by_contra hne
        exact hdropped (List.mem_filter.mpr ⟨hr, by simpa using hne⟩)
      subst hid
      obtain ⟨c, req, hc, hreq, hclosed⟩ := (hinv.at_thread hthread).2.2.2.2.closed r.id rfl
      obtain ⟨⟨r₀, hr₀, hid₀⟩, -⟩ := (s.handle c).request_made req hc
      obtain ⟨c', hc'⟩ := hinv.registered.owned r hr
      have hcc := hinv.registered.ids c' c r r₀ hc' hr₀ (hreq.symm.trans hid₀.symm)
      rw [← hcc] at hclosed
      exact ⟨by rw [hthread]; rfl, exists_closed hc' hclosed, fun r' hr' hne =>
        List.mem_filter.mpr ⟨hr', by simpa using hne⟩⟩
    | insert hthread => exact (hdropped ((s.insertFd_frame _).2.1 ▸ hr)).elim
    | hangup hthread hev => exact (hdropped ((s.releaseFd_frame _).2.1 ▸ hr)).elim
    | _ => exact (hdropped hr).elim

/-- **The lifetime of inhibitor handles**: in every run without a failed system call, and for every
step that may follow. -/
theorem inhibitor_lifetime {sched : List Event} (hsched : ∀ e ∈ sched, e.Succeeds)
    (hrun : sched.foldlM next new = some s) (hcalls : s.calls.length < 2 ^ 32) :
    s.Lifetime ∧ ∀ e s', e.Succeeds → s.next e = some s' →
      ∀ r ∈ s.app.inhibitors, r ∉ s'.app.inhibitors →
        s.thread.leaving = some r.id ∧
          (∃ call ∈ s.calls, ∃ fd, call.phase = .closed r.id fd ∧ call.inhibitor r.id = r) ∧
          ∀ r' ∈ s.app.inhibitors, r'.id ≠ r.id → r' ∈ s'.app.inhibitors := by
  obtain ⟨hinv, hheard⟩ := run_inv hsched hrun hcalls
  exact ⟨hinv.lifetime hheard, fun e s' he hnext r hr hdropped =>
    (next_step he hnext).drops hinv hr hdropped⟩

def delaySleep : InhibitArgs := ⟨"sleep", "player", "playback", "delay", .ok (1000, 42)⟩

def blockShutdown : InhibitArgs := ⟨"shutdown", "updater", "upgrade", "block", .error "timeout"⟩

/-- The events up to the release of the first of two handles. -/
def releaseFirst : List Event :=
  [.ask delaySleep, .ask blockShutdown]
    ++ List.replicate 5 (.inhibit 0 (.ok ())) ++ List.replicate 5 (.inhibit 1 (.ok ()))
    ++ List.replicate 6 (.watch (.ok ()))
    ++ [.close 0, .epollWait [wakeInterest, AddRequest.interest ⟨1, 0⟩]]
    ++ List.replicate 2 (.watch (.ok ()))

theorem inhibitor_lifetime_releaseFirst : ∃ s s',
    releaseFirst.foldlM next new = some s ∧ s.Lifetime ∧ s.next (.watch (.ok ())) = some s' ∧
      s.app.inhibitors.map Inhibitor.id = [1, 2] ∧ s'.app.inhibitors.map Inhibitor.id = [2] ∧
      ∃ call ∈ s.calls, ∃ fd, call.phase = .closed 1 fd := by
  have hsched : ∀ e ∈ releaseFirst, e.Succeeds := by
    simp [releaseFirst, Event.Succeeds]
  have hlife := inhibitor_lifetime hsched rfl (by decide)
  obtain ⟨-, hclosed, -⟩ := hlife.2 (.watch (.ok ())) _ rfl rfl
    ⟨1, "sleep", "player", "playback", "delay", 1000, 42⟩ (by decide) (by decide)
  obtain ⟨call, hmem, fd, hphase, -⟩ := hclosed
  exact ⟨_, _, rfl, hlife.1, rfl, rfl, rfl, call, hmem, fd, hphase⟩

/-- **The window of `register`**: the watcher thread may be about to block with a request in the
queue while the wake pipe is empty. -/
theorem push_before_wake : ¬ ∀ (sched : List Event) (s : Daemon), (∀ e ∈ sched, e.Succeeds) →
    sched.foldlM next new = some s → s.calls.length < 2 ^ 32 → s.thread = .waiting →
    s.pending ≠ [] → 0 < s.wake := by
  intro h
  have hlt := h ([.ask delaySleep] ++ List.replicate 2 (.watch (.ok ()))
    ++ List.replicate 3 (.inhibit 0 (.ok ()))) _ (by simp [Event.Succeeds]) rfl (by decide) rfl
    (by decide)
  exact absurd hlt (by decide)

end Daemon

end WriteonceOs.Logind
