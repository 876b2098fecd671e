import Mathlib.Algebra.Group.Nat.Defs
import Mathlib.Order.Basic
import WriteonceOs.Logind.InhibitorSteps

/-!
# What the steps of the daemon keep

The parts of the state each agree with the handles of the calls, and every step keeps them so.

* `Registered` — the registry holds every record until its handle is closed, under ids that are
  never shared;
* `Piped` — a pipe has a writer until its handle is closed;
* `Placed` — every read end is in the queue, in the batch or in the map;
* `Listening` — what is in the map is watched, and nothing else but the wake pipe;
* `Served` — the events still to be served are hang-ups of closed handles;
* `Step.inv` — all of these together.
-/

namespace WriteonceOs.Logind

/-! ### The registry -/

/-- The registry is that of the handles: ids are never shared, and a record stays until its handle
is closed. -/
structure Registered (hs : ℕ → Handle) (made : ℕ) (app : AppState) : Prop where
  counter : app.nextInhibitorId.toNat = (1 + made) % 2 ^ 32
  bound : ∀ c r, (hs c).record = some r → r.id.toNat ≤ made
  ids : ∀ c c' r r', (hs c).record = some r → (hs c').record = some r' → r.id = r'.id → c = c'
  owned : ∀ r ∈ app.inhibitors, ∃ c, (hs c).record = some r
  kept : ∀ c r, (hs c).record = some r → (hs c).closed = false → r ∈ app.inhibitors
  nodup : (app.inhibitors.map Inhibitor.id).Nodup

namespace Registered

variable {hs hs' : ℕ → Handle} {made : ℕ} {app : AppState} {c : ℕ} {hd : Handle}

/-- What neither makes records nor opens handles. -/
theorem congr (h : Registered hs made app) (hrecord : ∀ c, (hs' c).record = (hs c).record)
    (hclosed : ∀ c, (hs c).closed = true → (hs' c).closed = true) : Registered hs' made app where
  counter := h.counter
  bound := fun c r hr => h.bound c r (hrecord c ▸ hr)
  ids := fun c c' r r' hr hr' => h.ids c c' r r' (hrecord c ▸ hr) (hrecord c' ▸ hr')
  owned := by
    intro r hr
    obtain ⟨c, hc⟩ := h.owned r hr
    exact ⟨c, (hrecord c).trans hc⟩
  kept := by
    intro c r hr hopen
    have hopen' : (hs c).closed = false := by
      refine Bool.eq_false_iff.mpr fun hcl => ?_
      rw [hclosed c hcl] at hopen
      cases hopen
    exact h.kept c r (hrecord c ▸ hr) hopen'
  nodup := h.nodup

/-- The next id is larger than those in use. -/
theorem fresh (h : Registered hs made app) (hmade : made + 1 < 2 ^ 32) {c : ℕ} {r : Inhibitor}
    (hr : (hs c).record = some r) : r.id ≠ app.nextInhibitorId := by
  intro heq
  have hle := h.bound c r hr
  rw [heq, h.counter, Nat.mod_eq_of_lt (by omega)] at hle
  omega

/-- A record is made under the next id. -/
theorem record (h : Registered hs made app) (hmade : made + 1 < 2 ^ 32)
    (hnone : (hs c).record = none) {r : Inhibitor} (hid : r.id = app.nextInhibitorId)
    (hrecord : hd.record = some r) (hclosed : hd.closed = (hs c).closed) :
    Registered (Function.update hs c hd) (made + 1)
      ⟨app.nextInhibitorId + 1, app.inhibitors ++ [r]⟩ := by
  have hnext : app.nextInhibitorId.toNat = 1 + made := by
    rw [h.counter, Nat.mod_eq_of_lt (by omega)]
  have hcases : ∀ c' r', (Function.update hs c hd c').record = some r' →
      (c' = c ∧ r' = r) ∨ (hs c').record = some r' := by
    intro c' r' hr'
    by_cases hcc : c' = c
    · rw [hcc, Function.update_self, hrecord] at hr'
      cases hr'
      exact .inl ⟨hcc, rfl⟩
    · rw [Function.update_of_ne hcc] at hr'
      exact .inr hr'
  constructor
  case counter =>
    rw [UInt32.toNat_add, hnext]
    show (1 + made + 1) % 2 ^ 32 = _
    omega
  case bound =>
    intro c' r' hr'
    rcases hcases c' r' hr' with ⟨-, rfl⟩ | hr'
    · rw [hid, hnext]
      omega
    · exact (h.bound c' r' hr').trans (Nat.le_succ made)
  case ids =>
    intro c₁ c₂ r₁ r₂ h₁ h₂ heq
    rcases hcases c₁ r₁ h₁ with ⟨rfl, rfl⟩ | hr₁
    · rcases hcases c₂ r₂ h₂ with ⟨rfl, -⟩ | hr₂
      · rfl
      · exact (h.fresh hmade hr₂ (heq.symm.trans hid)).elim
    · rcases hcases c₂ r₂ h₂ with ⟨-, rfl⟩ | hr₂
      · exact (h.fresh hmade hr₁ (heq.trans hid)).elim
      · exact h.ids c₁ c₂ r₁ r₂ hr₁ hr₂ heq
  case owned =>
    intro r' hr'
    rcases List.mem_append.mp hr' with hr' | hr'
    · obtain ⟨c', hc'⟩ := h.owned r' hr'
      have hcc : c' ≠ c := by
        rintro rfl
        rw [hnone] at hc'
        cases hc'
      exact ⟨c', by rwa [Function.update_of_ne hcc]⟩
    · rw [List.mem_singleton.mp hr']
      exact ⟨c, by rwa [Function.update_self]⟩
  case kept =>
    intro c' r' hr' hopen
    rw [update_field Handle.closed hs hclosed] at hopen
    rcases hcases c' r' hr' with ⟨-, rfl⟩ | hr'
    · exact List.mem_append_right _ (List.mem_singleton_self r')
    · exact List.mem_append_left _ (h.kept c' r' hr' hopen)
  case nodup =>
    rw [List.map_append]
    refine List.Nodup.append h.nodup (List.nodup_singleton _) ?_
    intro id hmem hid'
    obtain ⟨r', hr', rfl⟩ := List.mem_map.mp hmem
    obtain ⟨c', hc'⟩ := h.owned r' hr'
    have hrid : r'.id = r.id := by simpa using hid'
    exact h.fresh hmade hc' (hrid.trans hid)

/-- A request belongs to one call. -/
theorem request_inj (h : Registered hs made app) {c c' : ℕ} {req req' : AddRequest}
    (hc : (hs c).request = some req) (hc' : (hs c').request = some req')
    (hid : req.id = req'.id) : c = c' := by
  obtain ⟨⟨r, hr, hrid⟩, -⟩ := (hs c).request_made req hc
  obtain ⟨⟨r', hr', hrid'⟩, -⟩ := (hs c').request_made req' hc'
  exact h.ids c c' r r' hr hr' (hrid.trans (hid.trans hrid'.symm))

/-- The record of a closed handle is dropped, and no other. -/
theorem release (h : Registered hs made app) {r : Inhibitor} (hr : (hs c).record = some r)
    (hclosed : (hs c).closed = true) :
    Registered hs made { app with inhibitors := app.inhibitors.filter (·.id ≠ r.id) } where
  counter := h.counter
  bound := h.bound
  ids := h.ids
  owned := fun r' hr' => h.owned r' (List.mem_filter.mp hr').1
  kept := by
    intro c' r' hr' hopen
    have hne : r'.id ≠ r.id := by
      intro heq
      rw [h.ids c' c r' r hr' hr heq, hclosed] at hopen
      cases hopen
    exact List.mem_filter.mpr ⟨h.kept c' r' hr' hopen, by simpa using hne⟩
  nodup := h.nodup.sublist (List.filter_sublist.map Inhibitor.id)

end Registered

/-! ### The pipes -/

/-- The pipes are those of the handles: they are never shared, and one has a writer until its handle
is closed. -/
structure Piped (hs : ℕ → Handle) (pipes : ℕ) (writers : List ℕ) : Prop where
  bound : ∀ c fd, (hs c).pipe = some fd → fd < pipes
  fds : ∀ c c' fd, (hs c).pipe = some fd → (hs c').pipe = some fd → c = c'
  open_iff : ∀ c fd, (hs c).pipe = some fd → (fd ∈ writers ↔ (hs c).closed = false)

namespace Piped

variable {hs hs' : ℕ → Handle} {pipes : ℕ} {writers : List ℕ} {c : ℕ} {hd : Handle}

/-- What does not touch pipes. -/
theorem congr (h : Piped hs pipes writers) (hpipe : ∀ c, (hs' c).pipe = (hs c).pipe)
    (hclosed : ∀ c, (hs' c).closed = (hs c).closed) : Piped hs' pipes writers where
  bound := fun c fd hp => h.bound c fd (hpipe c ▸ hp)
  fds := fun c c' fd hp hp' => h.fds c c' fd (hpipe c ▸ hp) (hpipe c' ▸ hp')
  open_iff := by
    intro c fd hp
    rw [hclosed]
    exact h.open_iff c fd (hpipe c ▸ hp)

/-- A pipe is made, with a writer. -/
theorem make (h : Piped hs pipes writers) (hpipe : hd.pipe = some pipes)
    (hopen : hd.closed = false) :
    Piped (Function.update hs c hd) (pipes + 1) (pipes :: writers) := by
  have hcases : ∀ c' fd, (Function.update hs c hd c').pipe = some fd →
      (c' = c ∧ fd = pipes) ∨ (c' ≠ c ∧ (hs c').pipe = some fd ∧ fd < pipes) := by
    intro c' fd hp
    by_cases hcc : c' = c
    · rw [hcc, Function.update_self, hpipe] at hp
      cases hp
      exact .inl ⟨hcc, rfl⟩
    · rw [Function.update_of_ne hcc] at hp
      exact .inr ⟨hcc, hp, h.bound c' fd hp⟩
  constructor
  case bound =>
    intro c' fd hp
    rcases hcases c' fd hp with ⟨-, rfl⟩ | ⟨-, -, hlt⟩ <;> omega
  case fds =>
    intro c₁ c₂ fd h₁ h₂
    rcases hcases c₁ fd h₁ with ⟨rfl, rfl⟩ | ⟨-, hp₁, hlt₁⟩
    · rcases hcases c₂ fd h₂ with ⟨rfl, -⟩ | ⟨-, -, hlt₂⟩
      · rfl
      · exact (lt_irrefl fd hlt₂).elim
    · rcases hcases c₂ fd h₂ with ⟨-, rfl⟩ | ⟨-, hp₂, -⟩
      · exact (lt_irrefl fd hlt₁).elim
      · exact h.fds c₁ c₂ fd hp₁ hp₂
  case open_iff =>
    intro c' fd hp
    rcases hcases c' fd hp with ⟨rfl, rfl⟩ | ⟨hcc, hp, hlt⟩
    · simp [hopen]
    · rw [List.mem_cons, or_iff_right (Nat.ne_of_lt hlt), Function.update_of_ne hcc]
      exact h.open_iff c' fd hp

/-- The writer of a pipe closes it. -/
theorem close (h : Piped hs pipes writers) {fd : ℕ} (hfd : (hs c).pipe = some fd)
    (hpipe : hd.pipe = (hs c).pipe) (hclosed : hd.closed = true) :
    Piped (Function.update hs c hd) pipes (writers.filter (· ≠ fd)) := by
  have hpipe' := update_field Handle.pipe hs hpipe
  constructor
  case bound => exact fun c' fd' hp => h.bound c' fd' (hpipe' c' ▸ hp)
  case fds => exact fun c₁ c₂ fd' h₁ h₂ => h.fds c₁ c₂ fd' (hpipe' c₁ ▸ h₁) (hpipe' c₂ ▸ h₂)
  case open_iff =>
    intro c' fd' hp
    rw [hpipe'] at hp
    by_cases hcc : c' = c
    · rw [hcc, hfd] at hp
      cases hp
      rw [hcc, Function.update_self, hclosed]
      simp
    · rw [Function.update_of_ne hcc, ← h.open_iff c' fd' hp]
      have hne : fd' ≠ fd := by
        rintro rfl
        exact hcc (h.fds c' c fd' hp hfd)
      simp [hne]

end Piped

/-! ### Where a read end is -/

namespace Thread

/-- The requests taken from the queue that are not yet in the map. -/
def batch : Thread → List AddRequest
  | .draining batch => batch
  | .inserting req batch => req :: batch
  | _ => []

/-- The request that is added to epoll and not yet in the map. -/
def adding : Thread → Option AddRequest
  | .inserting req _ => some req
  | _ => none

/-- The events still to be served. -/
def events : Thread → List EpollEvent
  | .serving events | .releasing _ events => events
  | _ => []

/-- The handle that is being released. -/
def leaving : Thread → Option UInt32
  | .releasing id _ => some id
  | _ => none

/-- The thread has emptied the queue and read no wake byte since. -/
def asleep : Thread → Prop
  | .draining _ | .inserting .. | .waiting | .stopped => True
  | .top | .serving _ | .releasing .. => False

end Thread

/-- The map of the watcher. -/
abbrev FdMap := AList fun _ : UInt32 => ℕ

/-- A request is on its way, or its read end is in the map. -/
def Held (queue : List AddRequest) (fds : FdMap) (req : AddRequest) : Prop :=
  req ∈ queue ∨ fds.lookup req.id = some req.fd

/-- Every read end is in one place, and that of a record that stays has a place. -/
structure Placed (hs : ℕ → Handle) (inhibitors : List Inhibitor) (releasing : Option UInt32)
    (queue : List AddRequest) (fds : FdMap) : Prop where
  sent : ∀ req, Held queue fds req → ∃ c, (hs c).request = some req
  once : (queue.map AddRequest.id ++ fds.keys).Nodup
  place : ∀ c req r, (hs c).request = some req → (hs c).record = some r → r ∈ inhibitors →
    releasing ≠ some req.id → Held queue fds req

namespace Placed

variable {hs hs' : ℕ → Handle} {inhibitors inhibitors' : List Inhibitor}
  {releasing : Option UInt32} {queue : List AddRequest} {fds : FdMap} {c : ℕ} {hd : Handle}
  {req : AddRequest}

/-- What neither makes a request nor adds to what is recorded of one. -/
theorem congr (h : Placed hs inhibitors releasing queue fds)
    (hrequest : ∀ c, (hs' c).request = (hs c).request)
    (hrecord : ∀ c req r, (hs c).request = some req → (hs' c).record = some r →
      r ∈ inhibitors' → (hs c).record = some r ∧ r ∈ inhibitors) :
    Placed hs' inhibitors' releasing queue fds where
  sent := by
    intro req hreq
    obtain ⟨c, hc⟩ := h.sent req hreq
    exact ⟨c, (hrequest c).trans hc⟩
  once := h.once
  place := by
    intro c req r hc hr hmem hne
    rw [hrequest] at hc
    obtain ⟨hr, hmem⟩ := hrecord c req r hc hr hmem
    exact h.place c req r hc hr hmem hne

/-- A request enters the queue. -/
theorem push {made : ℕ} {app : AppState} (h : Placed hs inhibitors releasing queue fds)
    (hreg : Registered (Function.update hs c hd) made app)
    (hnone : (hs c).request = none) (hreq : hd.request = some req)
    (hrecord : hd.record = (hs c).record) :
    Placed (Function.update hs c hd) inhibitors releasing (queue ++ [req]) fds := by
  have hnew : (Function.update hs c hd c).request = some req := by
    rw [Function.update_self, hreq]
  have hold : ∀ c' req', (hs c').request = some req' →
      (Function.update hs c hd c').request = some req' := by
    intro c' req' hc'
    have hcc : c' ≠ c := by
      rintro rfl
      rw [hnone] at hc'
      cases hc'
    rw [Function.update_of_ne hcc]
    exact hc'
  -- a request with the same id would belong to the same call
  have hfresh : ∀ req', Held queue fds req' → req'.id ≠ req.id := by
    intro req' hheld heq
    obtain ⟨c', hc'⟩ := h.sent req' hheld
    have hcc := hreg.request_inj (hold c' req' hc') hnew heq
    rw [hcc, hnone] at hc'
    cases hc'
  constructor
  case sent =>
    rintro req' (hmem | hlookup)
    · rcases List.mem_append.mp hmem with hmem | hmem
      · obtain ⟨c', hc'⟩ := h.sent req' (.inl hmem)
        exact ⟨c', hold c' req' hc'⟩
      · exact ⟨c, List.mem_singleton.mp hmem ▸ hnew⟩
    · obtain ⟨c', hc'⟩ := h.sent req' (.inr hlookup)
      exact ⟨c', hold c' req' hc'⟩
  case once =>
    have hperm : ((queue ++ [req]).map AddRequest.id ++ fds.keys).Perm
        (req.id :: (queue.map AddRequest.id ++ fds.keys)) := by
      simp only [List.map_append, List.map_cons, List.map_nil, List.append_assoc,
        List.singleton_append]
      exact List.perm_middle
    refine hperm.nodup_iff.mpr (List.nodup_cons.mpr ⟨fun hmem => ?_, h.once⟩)
    rcases List.mem_append.mp hmem with hmem | hmem
    · obtain ⟨req', hreq', hid⟩ := List.mem_map.mp hmem
      exact hfresh req' (.inl hreq') hid
    · obtain ⟨fd, hfd⟩ := Option.isSome_iff_exists.mp (AList.lookup_isSome.mpr hmem)
      exact hfresh ⟨req.id, fd⟩ (.inr hfd) rfl
  case place =>
    intro c' req' r hc' hr hmem hne
    by_cases hcc : c' = c
    · rw [hcc, hnew] at hc'
      cases hc'
      exact .inl (List.mem_append_right _ (List.mem_singleton_self req))
    · rw [Function.update_of_ne hcc] at hc' hr
      exact (h.place c' req' r hc' hr hmem hne).imp_left (List.mem_append_left _)

/-- The id of the next request is not in the map. -/
theorem lookup_eq_none (h : Placed hs inhibitors releasing (req :: queue) fds) :
    fds.lookup req.id = none := by
  refine AList.lookup_eq_none.mpr fun hmem => ?_
  exact (List.nodup_cons.mp h.once).1 (List.mem_append_right _ hmem)

/-- The next request enters the map. -/
theorem insert (h : Placed hs inhibitors releasing (req :: queue) fds) :
    Placed hs inhibitors releasing queue (fds.insert req.id req.fd) := by
  have hnone := h.lookup_eq_none
  have hids := (List.nodup_cons.mp h.once).1
  have hheld : ∀ req', Held queue (fds.insert req.id req.fd) req' ↔
      Held (req :: queue) fds req' := by
    rintro ⟨id, fd⟩
    by_cases heq : id = req.id
    · subst heq
      have hqueue : ⟨req.id, fd⟩ ∉ queue := fun hmem =>
        hids (List.mem_append_left _ (List.mem_map.mpr ⟨_, hmem, rfl⟩))
      have hreq : (⟨req.id, fd⟩ : AddRequest) = req ↔ req.fd = fd := by
        cases req
        simp [eq_comm]
      simp [Held, hnone, hqueue, hreq]
    · have hne : (⟨id, fd⟩ : AddRequest) ≠ req := fun h => heq (h ▸ rfl)
      simp [Held, AList.lookup_insert_ne heq, hne]
  constructor
  case sent => exact fun req' hreq' => h.sent req' ((hheld req').mp hreq')
  case once =>
    have hnot : req.id ∉ fds.keys := fun hmem => hids (List.mem_append_right _ hmem)
    rw [AList.keys_insert, List.erase_of_not_mem hnot]
    exact (List.perm_middle).nodup_iff.mpr h.once
  case place =>
    exact fun c' req' r hc' hr hmem hne => (hheld req').mpr (h.place c' req' r hc' hr hmem hne)

/-- A handle is on its way out. -/
theorem leave (h : Placed hs inhibitors none queue fds) (id : UInt32) :
    Placed hs inhibitors (some id) queue fds where
  sent := h.sent
  once := h.once
  place := fun c req r hc hr hmem _ => h.place c req r hc hr hmem (by simp)

/-- A read end leaves the map. -/
theorem erase (h : Placed hs inhibitors none queue fds) (id : UInt32) :
    Placed hs inhibitors (some id) queue (fds.erase id) where
  sent := by
    rintro req' (hmem | hlookup)
    · exact h.sent req' (.inl hmem)
    · have hne : req'.id ≠ id := by
        rintro rfl
        rw [AList.lookup_erase] at hlookup
        cases hlookup
      rw [AList.lookup_erase_ne hne] at hlookup
      exact h.sent req' (.inr hlookup)
  once := by
    rw [AList.keys_erase]
    exact h.once.sublist (List.Sublist.append_left List.erase_sublist _)
  place := by
    intro c' req' r hc' hr hmem hne
    have hid : req'.id ≠ id := fun heq => hne (heq ▸ rfl)
    exact (h.place c' req' r hc' hr hmem (by simp)).imp_right fun hlookup => by
      rwa [AList.lookup_erase_ne hid]

/-- The record of the handle being released leaves the registry. -/
theorem release {id : UInt32} (h : Placed hs inhibitors (some id) queue fds) :
    Placed hs (inhibitors.filter (·.id ≠ id)) none queue fds where
  sent := h.sent
  once := h.once
  place := by
    intro c' req' r hc' hr hmem _
    obtain ⟨hmem, hne⟩ := List.mem_filter.mp hmem
    obtain ⟨⟨r', hr', hid⟩, -⟩ := Handle.request_made _ req' hc'
    rw [hr] at hr'
    cases hr'
    refine h.place c' req' r hc' hr hmem fun heq => ?_
    have hne' : r.id ≠ id := by simpa using hne
    exact hne' (hid.trans (Option.some.inj heq).symm)

/-- No two ids of the map share a read end. -/
theorem fd_inj {pipes : ℕ} {writers : List ℕ} (h : Placed hs inhibitors releasing queue fds)
    (hpiped : Piped hs pipes writers) {id id' : UInt32} {fd : ℕ} (hid : fds.lookup id = some fd)
    (hid' : fds.lookup id' = some fd) : id = id' := by
  obtain ⟨c, hc⟩ := h.sent ⟨id, fd⟩ (.inr hid)
  obtain ⟨c', hc'⟩ := h.sent ⟨id', fd⟩ (.inr hid')
  have hcc := hpiped.fds c c' fd ((hs c).request_made _ hc).2 ((hs c').request_made _ hc').2
  rw [hcc, hc'] at hc
  cases hc
  rfl

end Placed

/-! ### What epoll watches -/

/-- The wake pipe and every read end in the map are watched, and nothing that is no handle's. -/
structure Listening (hs : ℕ → Handle) (adding : Option AddRequest) (fds : FdMap)
    (interest : List Interest) : Prop where
  wake : wakeInterest ∈ interest
  sent : ∀ i ∈ interest, i = wakeInterest ∨ ∃ c req, (hs c).request = some req ∧ i = req.interest
  watched : ∀ req, fds.lookup req.id = some req.fd ∨ adding = some req → req.interest ∈ interest

namespace Listening

variable {hs hs' : ℕ → Handle} {adding : Option AddRequest} {fds : FdMap}
  {interest : List Interest} {req : AddRequest}

/-- Requests that were made stay made. -/
theorem mono (h : Listening hs adding fds interest)
    (hrequest : ∀ c req, (hs c).request = some req → (hs' c).request = some req) :
    Listening hs' adding fds interest where
  wake := h.wake
  sent := by
    intro i hi
    refine (h.sent i hi).imp_right fun hsent => ?_
    obtain ⟨c, req, hc, rfl⟩ := hsent
    exact ⟨c, req, hrequest c req hc, rfl⟩
  watched := h.watched

/-- `EPOLL_CTL_ADD` of the read end of a request. -/
theorem add (h : Listening hs none fds interest) {c : ℕ} (hc : (hs c).request = some req) :
    Listening hs (some req) fds (interest ++ [req.interest]) where
  wake := List.mem_append_left _ h.wake
  sent := by
    intro i hi
    rcases List.mem_append.mp hi with hi | hi
    · exact h.sent i hi
    · exact .inr ⟨c, req, hc, List.mem_singleton.mp hi⟩
  watched := by
    rintro req' (hlookup | heq)
    · exact List.mem_append_left _ (h.watched req' (.inl hlookup))
    · cases heq
      exact List.mem_append_right _ (List.mem_singleton_self _)

/-- The read end that was added enters the map. -/
theorem insert (h : Listening hs (some req) fds interest) :
    Listening hs none (fds.insert req.id req.fd) interest where
  wake := h.wake
  sent := h.sent
  watched := by
    rintro ⟨id, fd⟩ (hlookup | heq)
    · by_cases heq : id = req.id
      · subst heq
        simp only [AList.lookup_insert, Option.some.injEq] at hlookup
        exact h.watched ⟨req.id, fd⟩ (.inr (hlookup ▸ rfl))
      · simp only [AList.lookup_insert_ne heq] at hlookup
        exact h.watched ⟨id, fd⟩ (.inl hlookup)
    · cases heq

/-- A read end that no other id has leaves the map and is closed. -/
theorem erase (h : Listening hs none fds interest) {id : UInt32} {fd : ℕ}
    (hinj : ∀ id', fds.lookup id' = some fd → id' = id) :
    Listening hs none (fds.erase id) (interest.filter (·.fd ≠ .handle fd)) where
  wake := List.mem_filter.mpr ⟨h.wake, by simp [wakeInterest]⟩
  sent := fun i hi => h.sent i (List.mem_filter.mp hi).1
  watched := by
    rintro req (hlookup | heq)
    · have hne : req.id ≠ id := by
        rintro rfl
        rw [AList.lookup_erase] at hlookup
        cases hlookup
      rw [AList.lookup_erase_ne hne] at hlookup
      have hfd : req.fd ≠ fd := fun heq => hne (hinj req.id (heq ▸ hlookup))
      exact List.mem_filter.mpr ⟨h.watched req (.inl hlookup), by simp [AddRequest.interest, hfd]⟩
    · cases heq

end Listening

/-! ### What the watcher serves -/

theorem toUInt64_ne_wakeToken (id : UInt32) : id.toUInt64 ≠ wakeToken := by
  intro h
  have hnat := congrArg UInt64.toNat h
  rw [UInt32.toNat_toUInt64] at hnat
  have hlt := id.toNat_lt
  have htoken : wakeToken.toNat = 2 ^ 64 - 1 := rfl
  omega

/-- The events still to be served are one of the wake pipe at most, which has bytes, and hang-ups of
closed handles; the handle being released is closed. -/
structure Served (hs : ℕ → Handle) (releasing : Option UInt32) (events : List EpollEvent)
    (wake : ℕ) : Prop where
  hangups : ∀ ev ∈ events, ev.u64 = wakeToken ∨
    ∃ c req, (hs c).request = some req ∧ (hs c).closed = true ∧ ev = ⟨EPOLLHUP, req.id.toUInt64⟩
  wakes : (events.filter (·.u64 = wakeToken)).length ≤ 1
  readable : (∃ ev ∈ events, ev.u64 = wakeToken) → 0 < wake
  closed : ∀ id, releasing = some id →
    ∃ c req, (hs c).request = some req ∧ req.id = id ∧ (hs c).closed = true

namespace Served

variable {hs hs' : ℕ → Handle} {releasing : Option UInt32} {ev : EpollEvent}
  {events : List EpollEvent} {wake wake' : ℕ}

/-- Handles that were closed stay closed, and bytes that were written stay. -/
theorem mono (h : Served hs releasing events wake)
    (hrequest : ∀ c req, (hs c).request = some req → (hs' c).request = some req)
    (hclosed : ∀ c, (hs c).closed = true → (hs' c).closed = true) (hwake : wake ≤ wake') :
    Served hs' releasing events wake' where
  hangups := by
    intro ev hev
    refine (h.hangups ev hev).imp_right fun hhangup => ?_
    obtain ⟨c, req, hc, hcl, rfl⟩ := hhangup
    exact ⟨c, req, hrequest c req hc, hclosed c hcl, rfl⟩
  wakes := h.wakes
  readable := fun hev => (h.readable hev).trans_le hwake
  closed := by
    intro id hid
    obtain ⟨c, req, hc, hreq, hcl⟩ := h.closed id hid
    exact ⟨c, req, hrequest c req hc, hreq, hclosed c hcl⟩

theorem nil (hs : ℕ → Handle) (wake : ℕ) : Served hs none [] wake where
  hangups := by simp
  wakes := by simp
  readable := by simp
  closed := by simp

/-- The rest of the events, while no wake byte is read. -/
theorem tail (h : Served hs releasing (ev :: events) wake) : Served hs none events wake where
  hangups := fun ev' hev' => h.hangups ev' (List.mem_cons_of_mem _ hev')
  wakes := ((List.sublist_cons_self ev events).filter _).length_le.trans h.wakes
  readable := fun ⟨ev', hev', htoken⟩ => h.readable ⟨ev', List.mem_cons_of_mem _ hev', htoken⟩
  closed := by simp

/-- The event of the wake pipe was the only one. -/
theorem answer (h : Served hs releasing (ev :: events) wake) (hev : ev.u64 = wakeToken) :
    Served hs none events wake' where
  hangups := h.tail.hangups
  wakes := h.tail.wakes
  readable := by
    rintro ⟨ev', hev', htoken⟩
    have hwakes := h.wakes
    rw [List.filter_cons_of_pos (by simpa using hev), List.length_cons] at hwakes
    have hpos : 0 < (events.filter (·.u64 = wakeToken)).length :=
      List.length_pos_of_mem (List.mem_filter.mpr ⟨hev', by simpa using htoken⟩)
    omega
  closed := by simp

/-- An event that is not of the wake pipe is the hang-up of a closed handle. -/
theorem hangup (h : Served hs releasing (ev :: events) wake) (hev : ev.u64 ≠ wakeToken) :
    Served hs (some ev.u64.toUInt32) events wake where
  hangups := h.tail.hangups
  wakes := h.tail.wakes
  readable := h.tail.readable
  closed := by
    rintro id ⟨⟩
    obtain ⟨c, req, hc, hcl, rfl⟩ :=
      (h.hangups ev List.mem_cons_self).resolve_left hev
    exact ⟨c, req, hc, (UInt32.toUInt32_toUInt64 req.id).symm, hcl⟩

/-- The handle being released is done with. -/
theorem release (h : Served hs releasing events wake) : Served hs none events wake where
  hangups := h.hangups
  wakes := h.wakes
  readable := h.readable
  closed := by simp

end Served

/-! ### The invariant of the daemon -/

namespace Daemon

/-- The requests that are not yet in the map, in the order in which they were made. -/
def queue (s : Daemon) : List AddRequest := s.thread.batch ++ s.pending

structure Inv (s : Daemon) : Prop where
  registered : Registered s.handle s.recorded s.app
  piped : Piped s.handle s.pipes s.writers
  placed : Placed s.handle s.app.inhibitors s.thread.leaving s.queue s.fds
  listening : Listening s.handle s.thread.adding s.fds s.interest
  served : Served s.handle s.thread.leaving s.thread.events s.wake

variable {s s' : Daemon}

/-- The invariant at a known point of the watcher thread. -/
theorem Inv.at_thread (h : s.Inv) {thread : Thread} (hthread : s.thread = thread) :
    Registered s.handle s.recorded s.app ∧ Piped s.handle s.pipes s.writers ∧
      Placed s.handle s.app.inhibitors thread.leaving (thread.batch ++ s.pending) s.fds ∧
      Listening s.handle thread.adding s.fds s.interest ∧
      Served s.handle thread.leaving thread.events s.wake := by
  subst hthread
  exact ⟨h.registered, h.piped, h.placed, h.listening, h.served⟩

theorem revents_wakeInterest : s.revents wakeInterest = if 0 < s.wake then EPOLLIN else 0 := by
  simp only [revents, poll, wakeInterest]
  split <;> rfl

theorem revents_interest (req : AddRequest) :
    s.revents req.interest = if req.fd ∈ s.writers then 0 else EPOLLHUP := by
  simp only [revents, poll, AddRequest.interest]
  split <;> rfl

/-- The only event of a read end is the hang-up. -/
theorem revents_eq_hangup {req : AddRequest} (h : s.revents req.interest ≠ 0) :
    s.revents req.interest = EPOLLHUP := by
  rw [revents_interest] at h ⊢
  by_cases hopen : req.fd ∈ s.writers
  · rw [if_pos hopen] at h
    exact (h rfl).elim
  · rw [if_neg hopen]

/-- A read end that hangs up belongs to a closed handle. -/
theorem Inv.closed_of_revents (h : s.Inv) {c : ℕ} {req : AddRequest}
    (hc : (s.handle c).request = some req) :
    s.revents req.interest ≠ 0 ↔ (s.handle c).closed = true := by
  have hpipe := ((s.handle c).request_made req hc).2
  have hiff := h.piped.open_iff c req.fd hpipe
  rw [revents_interest]
  cases hcl : (s.handle c).closed with
  | false =>
    rw [hcl] at hiff
    simp [hiff]
  | true =>
    rw [hcl] at hiff
    have hne : EPOLLHUP ≠ 0 := by decide
    simp [hiff, hne]

/-- Only the wake pipe is registered under the sentinel. -/
theorem Inv.eq_wakeInterest (h : s.Inv) {i : Interest} (hi : i ∈ s.interest)
    (htoken : i.event.u64 = wakeToken) : i = wakeInterest := by
  refine (h.listening.sent i hi).resolve_right ?_
  rintro ⟨c, req, -, rfl⟩
  exact toUInt64_ne_wakeToken req.id htoken

/-- What `epoll_wait` returns. -/
theorem Inv.report (h : s.Inv) {ready : List Interest} (hready : s.Reportable ready) :
    Served s.handle none (ready.map fun i => ⟨s.revents i, i.event.u64⟩) s.wake := by
  obtain ⟨-, -, hnodup, hmem⟩ := hready
  constructor
  case hangups =>
    intro ev hev
    obtain ⟨i, hi, rfl⟩ := List.mem_map.mp hev
    obtain ⟨hin, hne⟩ := hmem i hi
    rcases h.listening.sent i hin with rfl | ⟨c, req, hc, rfl⟩
    · exact .inl rfl
    · have hcl := (h.closed_of_revents hc).mp hne
      exact .inr ⟨c, req, hc, hcl, by rw [revents_eq_hangup hne]; rfl⟩
  case wakes =>
    have hrep : ready.filter (·.event.u64 = wakeToken) =
        List.replicate (ready.filter (·.event.u64 = wakeToken)).length wakeInterest := by
      refine List.eq_replicate_of_mem fun i hi => ?_
      obtain ⟨hi, htoken⟩ := List.mem_filter.mp hi
      exact h.eq_wakeInterest (hmem i hi).1 (by simpa using htoken)
    have hone := hnodup.filter (fun i => i.event.u64 = wakeToken)
    rw [hrep, List.nodup_replicate] at hone
    rw [List.filter_map, List.length_map]
    exact hone
  case readable =>
    rintro ⟨ev, hev, htoken⟩
    obtain ⟨i, hi, rfl⟩ := List.mem_map.mp hev
    obtain ⟨hin, hne⟩ := hmem i hi
    rw [h.eq_wakeInterest hin htoken, revents_wakeInterest] at hne
    by_contra hwake
    rw [if_neg hwake] at hne
    exact hne rfl
  case closed => simp

/-- A step of a call that makes no request. -/
theorem Inv.of_call (h : s.Inv)
    (hreg : Registered s'.handle s'.recorded s'.app)
    (hpiped : Piped s'.handle s'.pipes s'.writers)
    (hrequest : ∀ c, (s'.handle c).request = (s.handle c).request)
    (hrecord : ∀ c req r, (s.handle c).request = some req → (s'.handle c).record = some r →
      r ∈ s'.app.inhibitors → (s.handle c).record = some r ∧ r ∈ s.app.inhibitors)
    (hclosed : ∀ c, (s.handle c).closed = true → (s'.handle c).closed = true)
    (hthread : s'.thread = s.thread) (hpending : s'.pending = s.pending) (hfds : s'.fds = s.fds)
    (hinterest : s'.interest = s.interest) (hwake : s.wake ≤ s'.wake) : s'.Inv where
  registered := hreg
  piped := hpiped
  placed := by
    rw [queue, hthread, hpending, hfds]
    exact h.placed.congr hrequest hrecord
  listening := by
    rw [hthread, hfds, hinterest]
    exact h.listening.mono fun c req hc => (hrequest c).trans hc
  served := by
    rw [hthread]
    exact h.served.mono (fun c req hc => (hrequest c).trans hc) hclosed hwake

/-- A call that comes to another point with what it has made. -/
theorem Inv.move (h : s.Inv) {c : ℕ} {call : Call} (hc : s.calls[c]? = some call)
    {phase : Phase} (hphase : call.phase = phase) (phase' : Phase)
    (hrecord : (Call.handle ⟨call.args, phase'⟩).record = (Call.handle ⟨call.args, phase⟩).record)
    (hpipe : (Call.handle ⟨call.args, phase'⟩).pipe = (Call.handle ⟨call.args, phase⟩).pipe)
    (hrequest : (Call.handle ⟨call.args, phase'⟩).request =
      (Call.handle ⟨call.args, phase⟩).request)
    (hclosed : (Call.handle ⟨call.args, phase'⟩).closed =
      (Call.handle ⟨call.args, phase⟩).closed) : (s.move c phase').Inv := by
  have hrecord' := field_move Handle.record hc hphase phase' hrecord
  have hclosed' := field_move Handle.closed hc hphase phase' hclosed
  have hmono : ∀ c', (s.handle c').closed = true → ((s.move c phase').handle c').closed = true :=
    fun c' hcl => (hclosed' c').trans hcl
  have hreg := h.registered.congr hrecord' hmono
  rw [← recorded_move hc hphase phase' (congrArg Option.isSome hrecord)] at hreg
  exact h.of_call hreg (h.piped.congr (field_move Handle.pipe hc hphase phase' hpipe) hclosed')
    (field_move Handle.request hc hphase phase' hrequest)
    (fun c' req r _ hr hmem => ⟨hrecord' c' ▸ hr, hmem⟩) hmono rfl rfl rfl rfl le_rfl

/-- The critical section that makes a record. -/
theorem Inv.record (h : s.Inv) {c : ℕ} {call : Call} (hc : s.calls[c]? = some call)
    (hphase : call.phase = .asked) (hlen : s.calls.length < 2 ^ 32) :
    Inv { s.move c (.recorded s.app.nextInhibitorId) with
      app := ⟨s.app.nextInhibitorId + 1,
        s.app.inhibitors ++ [call.inhibitor s.app.nextInhibitorId]⟩ } := by
  let phase' : Phase := .recorded s.app.nextInhibitorId
  have hat := handle_at hc hphase
  have hnew : call.Recorded = false := by simp [Call.Recorded, Call.handle, hphase]
  have hlt := recorded_lt hc hnew
  have hmade : s.recorded + 1 < 2 ^ 32 := by omega
  have hreg : Registered (Function.update s.handle c (Call.handle ⟨call.args, phase'⟩)) _ _ :=
    h.registered.record hmade (congrArg Handle.record hat) rfl rfl (congrArg Handle.closed hat).symm
  rw [← handle_move hc, ← recorded_move_succ hc hphase phase' rfl rfl] at hreg
  have hclosed := field_move Handle.closed hc hphase phase' rfl
  have hpiped := h.piped.congr (field_move Handle.pipe hc hphase phase' rfl) hclosed
  refine h.of_call hreg hpiped (field_move Handle.request hc hphase phase' rfl)
    (fun c' req r hreq hr hmem => ?_) (fun c' hcl => (hclosed c').trans hcl) rfl rfl rfl rfl le_rfl
  -- the new record is not that of a call with a request
  have hcc : c' ≠ c := by
    rintro rfl
    rw [hat] at hreq
    cases hreq
  have hr' : (Function.update s.handle c _ c').record = some r := handle_move hc _ ▸ hr
  rw [Function.update_of_ne hcc] at hr'
  refine ⟨hr', (List.mem_append.mp hmem).resolve_right fun hnew => ?_⟩
  refine h.registered.fresh hmade hr' ?_
  rw [List.mem_singleton.mp hnew]
  rfl

/-- The pipe of a record is made. -/
theorem Inv.pipe (h : s.Inv) {c : ℕ} {call : Call} {id : UInt32} (hc : s.calls[c]? = some call)
    (hphase : call.phase = .recorded id) :
    Inv { s.move c (.piped id s.pipes) with
      pipes := s.pipes + 1
      writers := s.pipes :: s.writers } := by
  let phase' : Phase := .piped id s.pipes
  have hrecord := field_move Handle.record hc hphase phase' rfl
  have hclosed := field_move Handle.closed hc hphase phase' rfl
  have hmono : ∀ c', (s.handle c').closed = true → ((s.move c phase').handle c').closed = true :=
    fun c' hcl => (hclosed c').trans hcl
  have hreg := h.registered.congr hrecord hmono
  rw [← recorded_move hc hphase phase' rfl] at hreg
  have hpiped : Piped (Function.update s.handle c (Call.handle ⟨call.args, phase'⟩)) _ _ :=
    h.piped.make rfl rfl
  rw [← handle_move hc] at hpiped
  exact h.of_call hreg hpiped (field_move Handle.request hc hphase phase' rfl)
    (fun c' req r _ hr hmem => ⟨hrecord c' ▸ hr, hmem⟩) hmono rfl rfl rfl rfl le_rfl

/-- The caller closes its write end. -/
theorem Inv.close (h : s.Inv) {c : ℕ} {call : Call} {id : UInt32} {fd : ℕ}
    (hc : s.calls[c]? = some call) (hphase : call.phase = .returned id fd) :
    Inv { s.move c (.closed id fd) with writers := s.writers.filter (· ≠ fd) } := by
  let phase' : Phase := .closed id fd
  have hat := handle_at hc hphase
  have hrecord := field_move Handle.record hc hphase phase' rfl
  have hmono : ∀ c', (s.handle c').closed = true →
      ((s.move c phase').handle c').closed = true := by
    intro c' hcl
    rw [handle_move hc]
    by_cases hcc : c' = c
    · rw [hcc, Function.update_self]
      rfl
    · rw [Function.update_of_ne hcc]
      exact hcl
  have hreg := h.registered.congr hrecord hmono
  rw [← recorded_move hc hphase phase' rfl] at hreg
  have hpiped : Piped (Function.update s.handle c (Call.handle ⟨call.args, phase'⟩)) _ _ :=
    h.piped.close (congrArg Handle.pipe hat) (congrArg Handle.pipe hat).symm rfl
  rw [← handle_move hc] at hpiped
  exact h.of_call hreg hpiped (field_move Handle.request hc hphase phase' rfl)
    (fun c' req r _ hr hmem => ⟨hrecord c' ▸ hr, hmem⟩) hmono rfl rfl rfl rfl le_rfl

/-- A read end enters the queue. -/
theorem Inv.push (h : s.Inv) {c : ℕ} {call : Call} {id : UInt32} {fd : ℕ}
    (hc : s.calls[c]? = some call) (hphase : call.phase = .piped id fd) :
    (s.registerPush c ⟨id, fd⟩).Inv := by
  let phase' : Phase := .queued id fd
  have hat := handle_at hc hphase
  have hclosed := field_move Handle.closed hc hphase phase' rfl
  have hmono : ∀ c', (s.handle c').closed = true → ((s.move c phase').handle c').closed = true :=
    fun c' hcl => (hclosed c').trans hcl
  have hreg := h.registered.congr (field_move Handle.record hc hphase phase' rfl) hmono
  have hrequest : ∀ c' req', (s.handle c').request = some req' →
      ((s.move c phase').handle c').request = some req' := by
    intro c' req' hreq
    have hcc : c' ≠ c := by
      rintro rfl
      rw [hat] at hreq
      cases hreq
    rw [handle_move hc, Function.update_of_ne hcc]
    exact hreq
  constructor
  case registered =>
    rw [← recorded_move hc hphase phase' rfl] at hreg
    exact hreg
  case piped => exact h.piped.congr (field_move Handle.pipe hc hphase phase' rfl) hclosed
  case placed =>
    rw [handle_move hc] at hreg
    have hplaced := h.placed.push hreg (congrArg Handle.request hat) rfl
      (congrArg Handle.record hat).symm
    rw [← handle_move hc, queue, List.append_assoc] at hplaced
    exact hplaced
  case listening => exact h.listening.mono hrequest
  case served => exact h.served.mono hrequest hmono le_rfl

/-- The first request of the batch enters the map. -/
theorem Inv.insert (h : s.Inv) {req : AddRequest} {batch : List AddRequest}
    (hthread : s.thread = .inserting req batch) :
    Inv { s.insertFd req with thread := .draining batch } := by
  obtain ⟨hreg, hpiped, hplaced, hlistening, hserved⟩ := h.at_thread hthread
  have hinsert : s.insertFd req = { s with fds := s.fds.insert req.id req.fd } := by
    rw [insertFd, hplaced.lookup_eq_none]
  rw [hinsert]
  exact ⟨hreg, hpiped, hplaced.insert, hlistening.insert, hserved⟩

/-- A handle that hung up leaves the map. -/
theorem Inv.hangup (h : s.Inv) {ev : EpollEvent} {events : List EpollEvent}
    (hthread : s.thread = .serving (ev :: events)) (hev : ev.u64 ≠ wakeToken) :
    Inv { s.releaseFd ev.u64.toUInt32 with thread := .releasing ev.u64.toUInt32 events } := by
  obtain ⟨hreg, hpiped, hplaced, hlistening, hserved⟩ := h.at_thread hthread
  have hserved' := hserved.hangup hev
  cases hlookup : s.fds.lookup ev.u64.toUInt32 with
  | none =>
    have hrelease : s.releaseFd ev.u64.toUInt32 = s := by rw [releaseFd, hlookup]
    rw [hrelease]
    exact ⟨hreg, hpiped, hplaced.leave _, hlistening, hserved'⟩
  | some fd =>
    have hrelease : s.releaseFd ev.u64.toUInt32 =
        { s.closeRead fd with fds := s.fds.erase ev.u64.toUInt32 } := by
      rw [releaseFd, hlookup]
    rw [hrelease]
    exact ⟨hreg, hpiped, hplaced.erase _,
      hlistening.erase fun id' hid' => hplaced.fd_inj hpiped hid' hlookup, hserved'⟩

/-- The record of the handle that hung up leaves the registry. -/
theorem Inv.release (h : s.Inv) {id : UInt32} {events : List EpollEvent}
    (hthread : s.thread = .releasing id events) :
    Inv { s.releaseRecord id with thread := .serving events } := by
  obtain ⟨hreg, hpiped, hplaced, hlistening, hserved⟩ := h.at_thread hthread
  obtain ⟨c, req, hc, hid, hclosed⟩ := hserved.closed id rfl
  obtain ⟨⟨r, hr, hrid⟩, -⟩ := (s.handle c).request_made req hc
  have hreg' := hreg.release hr hclosed
  rw [hrid, hid] at hreg'
  exact ⟨hreg', hpiped, hplaced.release, hlistening, hserved.release⟩

/-- What the steps of calls preserve. -/
theorem CallStep.inv (hstep : s.CallStep s') (hlen : s.calls.length < 2 ^ 32) (h : s.Inv) :
    s'.Inv := by
  cases hstep with
  | ask args =>
    have hask := handle_ask (s := s) args
    refine h.of_call ?_ ?_ (fun c => hask ▸ rfl) (fun c req r _ hr hmem => ⟨hask ▸ hr, hmem⟩)
      (fun c hcl => hask ▸ hcl) rfl rfl rfl rfl le_rfl
    · rw [hask, recorded_ask]
      exact h.registered
    · rw [hask]
      exact h.piped
  | refuse e hc hphase => exact h.move hc hphase _ rfl rfl rfl rfl
  | record hc hphase => exact h.record hc hphase hlen
  | pipe hc hphase => exact h.pipe hc hphase
  | push hc hphase => exact h.push hc hphase
  | wake hc hphase =>
    obtain ⟨hreg, hpiped, hplaced, hlistening, hserved⟩ :=
      h.move hc hphase (.woken _ _) rfl rfl rfl rfl
    exact ⟨hreg, hpiped, hplaced, hlistening,
      hserved.mono (fun _ _ => id) (fun _ => id) (Nat.le_succ s.wake)⟩
  | reply hc hphase => exact h.move hc hphase _ rfl rfl rfl rfl
  | close hc hphase => exact h.close hc hphase

/-- What the steps of the watcher thread preserve. -/
theorem WatchStep.inv (hstep : s.WatchStep s') (h : s.Inv) : s'.Inv := by
  cases hstep with
  | insert hthread => exact h.insert hthread
  | hangup hthread hev => exact h.hangup hthread hev
  | release hthread => exact h.release hthread
  | report hthread hready =>
    have hserved := h.report hready
    obtain ⟨hreg, hpiped, hplaced, hlistening, -⟩ := h.at_thread hthread
    exact ⟨hreg, hpiped, hplaced, hlistening, hserved⟩
  | add hthread =>
    obtain ⟨hreg, hpiped, hplaced, hlistening, hserved⟩ := h.at_thread hthread
    obtain ⟨c, hc⟩ := hplaced.sent _ (.inl List.mem_cons_self)
    exact ⟨hreg, hpiped, hplaced, hlistening.add hc, hserved⟩
  | take hthread =>
    obtain ⟨hreg, hpiped, hplaced, hlistening, hserved⟩ := h.at_thread hthread
    have hplaced' : Placed s.handle s.app.inhibitors none (s.pending ++ []) s.fds := by
      rw [List.append_nil]
      exact hplaced
    exact ⟨hreg, hpiped, hplaced', hlistening, hserved⟩
  | drained hthread | retry hthread | stop hthread | again hthread | ignore hthread hev =>
    obtain ⟨hreg, hpiped, hplaced, hlistening, hserved⟩ := h.at_thread hthread
    first
      | exact ⟨hreg, hpiped, hplaced, hlistening, hserved⟩
      | exact ⟨hreg, hpiped, hplaced, hlistening, hserved.tail⟩
  | answer hthread hev hwake =>
    obtain ⟨hreg, hpiped, hplaced, hlistening, hserved⟩ := h.at_thread hthread
    exact ⟨hreg, hpiped, hplaced, hlistening, hserved.answer hev⟩

/-- **What every step preserves.** -/
theorem Step.inv (hstep : s.Step s') (hlen : s.calls.length < 2 ^ 32) (h : s.Inv) : s'.Inv :=
  hstep.elim (fun hcall => hcall.inv hlen h) fun hwatch => hwatch.inv h

end Daemon

end WriteonceOs.Logind
