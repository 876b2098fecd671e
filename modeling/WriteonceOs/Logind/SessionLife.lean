import WriteonceOs.Logind.LockSignals
import WriteonceOs.Logind.SessionTable

/-!
# The life of a session

The daemon does not watch the descriptor that it hands out for a session.  Without a call of
`ReleaseSession` a session stays in the table for ever, whatever becomes of its leader.

* `Lasting.next` — the sessions created stay through every step that does not release;
* `sessions_last` — so every session that was handed out is in the table of every later state.
-/

namespace WriteonceOs.Logind

open WriteonceOs.Library

/-- The call asks for a session to be released. -/
def Method.Releases : Method → Prop
  | .releaseSession _ => True
  | _ => False

/-- The event is no message that asks for a session to be released. -/
def BusEvent.Keeps : BusEvent → Prop
  | .call _ method => ¬ method.Releases
  | .serve _ _ => True

namespace Shim

variable {d d' : Shim} {ev : BusEvent} {key : CallKey} {method : Method} {progress : Progress}

/-- The session that a call of `CreateSession` works on has been created for its arguments. -/
def Backed (d : Shim) (args : CreateArgs) : Progress → Prop
  | .inserted info => info ∈ d.created ∧ info.uid = args.uid ∧ info.leaderPid = args.pid
  | .exported info => info ∈ d.created ∧ info.uid = args.uid ∧ info.leaderPid = args.pid
  | .piped info _ => info ∈ d.created ∧ info.uid = args.uid ∧ info.leaderPid = args.pid
  | .returned (.session r) =>
    r.runtimePath = "/run/user/" ++ toString args.uid.toNat ∧
      ∃ info ∈ d.created, info.id = r.id ∧ info.uid = args.uid ∧ info.leaderPid = args.pid
  | _ => True

theorem backed_refuse {args : CreateArgs} {r : Reply} (hr : r.Refuses) :
    d.Backed args (.returned r) := by
  cases r with
  | session r => cases hr
  | _ => trivial

/-- The session is in the table, but for its idle hint as it was created. -/
def InTable (d : Shim) (info : SessionInfo) : Prop :=
  ∃ s, d.state.sessions.lookup info.id = some s ∧ s.SameCore info

/-- The sessions created are in the table, and no call is about to release one. -/
structure Lasting (d : Shim) : Prop where
  numbered : d.Numbered
  calls : ∀ key call, d.calls key = some call → ¬ call.method.Releases
  table : ∀ info ∈ d.created, d.InTable info
  active : ∀ info ∈ d.created, info.state = "active"
  backed : ∀ key args p, d.calls key = some ⟨.createSession args, p⟩ → d.Backed args p

theorem Backed.mono {args : CreateArgs} {p : Progress} (h : d.Backed args p)
    (hsub : ∀ info ∈ d.created, info ∈ d'.created) : d'.Backed args p := by
  cases p with
  | inserted info => exact ⟨hsub _ h.1, h.2⟩
  | exported info => exact ⟨hsub _ h.1, h.2⟩
  | piped info fd => exact ⟨hsub _ h.1, h.2⟩
  | returned r =>
    cases r with
    | session r =>
      obtain ⟨hpath, info, hmem, hinfo⟩ := h
      exact ⟨hpath, info, hsub _ hmem, hinfo⟩
    | _ => trivial
  | _ => trivial

/-- A step that creates no session and releases none. -/
theorem Lasting.step (hd : d.Lasting) {p : Progress} (hcreated : d'.created = d.created)
    (hnext : d'.state.nextSessionId = d.state.nextSessionId)
    (hcalls : d'.calls = Function.update d.calls key (some ⟨method, p⟩))
    (hmethod : ¬ method.Releases) (htable : ∀ info, d.InTable info → d'.InTable info)
    (hbacked : ∀ args, method = .createSession args → d.Backed args p) : d'.Lasting where
  numbered := by
    constructor
    · rw [hcreated]
      exact hd.numbered.ids
    · rw [hcreated, hnext]
      exact hd.numbered.next
  calls key' call h := by
    rw [hcalls] at h
    rcases calls_update_cases h with ⟨-, rfl⟩ | h
    · exact hmethod
    · exact hd.calls key' call h
  table info hinfo := htable info (hd.table info (hcreated ▸ hinfo))
  active info hinfo := hd.active info (hcreated ▸ hinfo)
  backed key' args q h := by
    have hsub : ∀ info ∈ d.created, info ∈ d'.created := by
      rw [hcreated]
      exact fun _ h => h
    rw [hcalls] at h
    rcases calls_update_cases h with ⟨-, heq⟩ | h
    · cases heq
      exact (hbacked args rfl).mono hsub
    · exact (hd.backed key' args q h).mono hsub

/-- A step that changes a call and nothing else. -/
theorem Lasting.move (hd : d.Lasting) {p : Progress} (hmethod : ¬ method.Releases)
    (hbacked : ∀ args, method = .createSession args → d.Backed args p) :
    (d.move key method p).Lasting :=
  hd.step rfl rfl rfl hmethod (fun _ h => h) hbacked

/-- A session is created, under an identifier that no earlier one had. -/
theorem Lasting.insert (hd : d.Lasting) (hfew : d.created.length < 2 ^ 64) (args : CreateArgs)
    (ans : StepAnswer) : (d.createInsert key args ans).Lasting := by
  have hfresh := hd.numbered.fresh hfew
  have hsub : ∀ info ∈ d.created, info ∈ (d.createInsert key args ans).created :=
    fun info h => List.mem_append_left _ h
  have hnew : args.sessionInfo d.state.freshId ans ∈ (d.createInsert key args ans).created :=
    List.mem_append_right _ (List.mem_singleton_self _)
  constructor
  case numbered => exact hd.numbered.insert key args ans
  case calls =>
    intro key' call h
    rcases calls_update_cases h with ⟨-, rfl⟩ | h
    · exact fun hr => hr
    · exact hd.calls key' call h
  case table =>
    intro info hinfo
    rcases List.mem_append.mp hinfo with hinfo | hinfo
    · obtain ⟨s, hs, hcore⟩ := hd.table info hinfo
      have hne : info.id ≠ d.state.freshId := fun hid => hfresh ⟨info, hinfo, hid⟩
      exact ⟨s, (AList.lookup_insert_ne hne).trans hs, hcore⟩
    · obtain rfl := List.mem_singleton.mp hinfo
      exact ⟨_, AList.lookup_insert _, .refl _⟩
  case active =>
    intro info hinfo
    rcases List.mem_append.mp hinfo with hinfo | hinfo
    · exact hd.active info hinfo
    · obtain rfl := List.mem_singleton.mp hinfo
      rfl
  case backed =>
    intro key' args' q h
    rcases calls_update_cases h with ⟨-, heq⟩ | h
    · cases heq
      exact ⟨hnew, rfl, rfl⟩
    · exact (hd.backed key' args' q h).mono hsub

theorem Served.lasting (hd : d.Lasting) (hfew : d'.created.length ≤ 2 ^ 64)
    (hc : d.calls key = some ⟨method, progress⟩) (h : Served d key method progress d') :
    d'.Lasting := by
  have hmethod : ¬ method.Releases := hd.calls key _ hc
  cases h with
  | insert args ans =>
    refine hd.insert ?_ args ans
    have hlen : (d.createInsert key args ans).created.length = d.created.length + 1 := by
      simp [createInsert]
    omega
  | register args info =>
    refine hd.step rfl rfl rfl hmethod (fun _ h => h) fun args' heq => ?_
    cases heq
    obtain ⟨hmem, hinfo⟩ := hd.backed key args _ hc
    exact ⟨hmem, hinfo⟩
  | pipe args info fd =>
    refine hd.move hmethod fun args' heq => ?_
    cases heq
    obtain ⟨hmem, hinfo⟩ := hd.backed key args _ hc
    exact ⟨hmem, hinfo⟩
  | announce args info fd =>
    refine hd.step rfl rfl rfl hmethod (fun _ h => h) fun args' heq => ?_
    cases heq
    obtain ⟨hmem, huid, hpid⟩ := hd.backed key args _ hc
    exact ⟨rfl, info, hmem, rfl, huid, hpid⟩
  | remove hid => exact absurd trivial hmethod
  | withdraw id => exact absurd trivial hmethod
  | keep id => exact absurd trivial hmethod
  | announceRemoved id => exact absurd trivial hmethod
  | find hfind =>
    refine hd.move hmethod fun args heq => ?_
    rw [heq] at hfind
    cases hfind
  | signal hsignal =>
    refine hd.step rfl rfl rfl hmethod (fun _ h => h) fun args heq => ?_
    rw [heq] at hsignal
    cases hsignal
  | terminal hs hvtnr => exact hd.move hmethod fun _ heq => by cases heq
  | switch id vtnr => exact hd.move hmethod fun _ heq => by cases heq
  | hint hs idle since =>
    rename_i id s
    refine hd.step rfl rfl rfl hmethod (fun info hinfo => ?_) fun _ heq => by cases heq
    obtain ⟨s', hs', hcore⟩ := hinfo
    by_cases hid : info.id = id
    · rw [hid, hs] at hs'
      cases hs'
      refine ⟨_, by rw [hid]; exact AList.lookup_insert _, ?_⟩
      rw [SessionInfo.SameCore, hcore]
    · exact ⟨s', (AList.lookup_insert_ne hid).trans hs', hcore⟩
  | refuse hr => exact hd.move hmethod fun _ _ => backed_refuse hr

theorem Lasting.next (hd : d.Lasting) (hev : ev.Keeps) (h : d.next ev = some d')
    (hfew : d'.created.length ≤ 2 ^ 64) : d'.Lasting := by
  obtain ⟨method, heq, -, rfl⟩ | ⟨ans, call, -, hc, hserved⟩ := next_inv h
  · rw [heq] at hev
    exact hd.move hev fun _ _ => trivial
  · exact hserved.lasting hd hfew hc

/-- No session that was created is forgotten. -/
theorem created_grows (h : d.next ev = some d') : d.created <+: d'.created := by
  obtain ⟨method, -, -, rfl⟩ | ⟨ans, ⟨method, progress⟩, -, hc, hserved⟩ := next_inv h
  · exact List.prefix_rfl
  · cases hserved with
    | insert args ans => exact List.prefix_append _ _
    | _ => exact List.prefix_rfl

theorem created_later {events : List BusEvent} (h : events.foldlM Shim.next d = some d') :
    d.created <+: d'.created :=
  foldlM_inv (I := fun t => d.created <+: t.created)
    (fun _ _ _ ht hnext => ht.trans (created_grows hnext)) List.prefix_rfl h

theorem lasting_new : Shim.new.Lasting where
  numbered := ⟨rfl, rfl⟩
  calls := fun _ _ h => by cases h
  table := fun _ h => by cases h
  active := fun _ h => by cases h
  backed := fun _ _ _ h => by cases h

theorem lasting_run {events : List BusEvent} (hkeeps : ∀ ev ∈ events, ev.Keeps)
    (hrun : run events = some d) (hfew : d.created.length ≤ 2 ^ 64) : d.Lasting := by
  refine foldlM_inv_of (I := fun t => t.created.length ≤ 2 ^ 64 → t.Lasting) (K := BusEvent.Keeps)
    (fun t ev t' ht hev hnext hle => ?_) (fun _ => lasting_new) hkeeps hrun hfew
  exact (ht ((created_grows hnext).length_le.trans hle)).next hev hnext hle

/-- The invariant holds in a state and in the later ones, and what was created stays in the list. -/
theorem lasting_later {events later : List BusEvent} (hkeeps : ∀ ev ∈ events ++ later, ev.Keeps)
    (hrun : run events = some d) (hlater : later.foldlM Shim.next d = some d')
    (hfew : d'.created.length ≤ 2 ^ 64) :
    d.Lasting ∧ d'.Lasting ∧ d.created <+: d'.created := by
  have hgrows := created_later hlater
  refine ⟨?_, ?_, hgrows⟩
  · exact lasting_run (fun ev hev => hkeeps ev (List.mem_append_left _ hev)) hrun
      (hgrows.length_le.trans hfew)
  · exact lasting_run hkeeps (foldlM_append_some.mpr ⟨d, hrun, hlater⟩) hfew

/-- The session of an answer, in a later table. -/
theorem Lasting.session (hd : d.Lasting) (hd' : d'.Lasting) (hgrows : d.created <+: d'.created)
    {args : CreateArgs} {r : CreateSessionReply}
    (hr : d.calls key = some ⟨.createSession args, .returned (.session r)⟩) :
    r.runtimePath = "/run/user/" ++ toString args.uid.toNat ∧
      ∃ s, d'.state.sessions.lookup r.id = some s ∧ s.uid = args.uid ∧ s.leaderPid = args.pid ∧
        s.state = "active" := by
  obtain ⟨hpath, info, hmem, hid, huid, hpid⟩ := hd.backed key args _ hr
  have hmem' : info ∈ d'.created := hgrows.subset hmem
  obtain ⟨s, hs, hcore⟩ := hd'.table info hmem'
  refine ⟨hpath, s, hid ▸ hs, hcore.uid_eq.trans huid, hcore.leaderPid_eq.trans hpid, ?_⟩
  rw [hcore.state_eq, hd'.active info hmem']

/-- **A session is for ever**: in every run without a call of `ReleaseSession`, the session of an
answer to `CreateSession` is in the table of every later state, active and with its leader. -/
theorem sessions_last {events later : List BusEvent} (hkeeps : ∀ ev ∈ events ++ later, ev.Keeps)
    (hrun : run events = some d) (hlater : later.foldlM Shim.next d = some d')
    (hfew : d'.created.length ≤ 2 ^ 64) {args : CreateArgs} {r : CreateSessionReply}
    (hr : d.calls key = some ⟨.createSession args, .returned (.session r)⟩) :
    r.runtimePath = "/run/user/" ++ toString args.uid.toNat ∧
      ∃ s, d'.state.sessions.lookup r.id = some s ∧ s.uid = args.uid ∧ s.leaderPid = args.pid ∧
        s.state = "active" := by
  obtain ⟨hd, hd', hgrows⟩ := lasting_later hkeeps hrun hlater hfew
  exact hd.session hd' hgrows hr

/-- A login, and another one when the process of the first may be gone. -/
theorem sessions_last_two :
    ∃ d, run (login ⟨0, 1⟩ (localUser 1000 500) ++ login ⟨0, 2⟩ (localUser 1000 501)) = some d ∧
      ∃ s, d.state.sessions.lookup "c1" = some s ∧ s.leaderPid = 500 ∧ s.state = "active" := by
  obtain ⟨d, hd⟩ : ∃ d, run (login ⟨0, 1⟩ (localUser 1000 500)) = some d := ⟨_, rfl⟩
  obtain ⟨d', hd'⟩ : ∃ d', (login ⟨0, 2⟩ (localUser 1000 501)).foldlM Shim.next d = some d' := by
    cases hd
    exact ⟨_, rfl⟩
  have hkeeps : ∀ ev ∈ login ⟨0, 1⟩ (localUser 1000 500) ++ login ⟨0, 2⟩ (localUser 1000 501),
      ev.Keeps := by
    simp [login, BusEvent.Keeps, Method.Releases]
  have hr : d.calls ⟨0, 1⟩ = some ⟨.createSession (localUser 1000 500), .returned (.session
      (createReply (localUser 1000 500) ((localUser 1000 500).sessionInfo "c1" {}) 0))⟩ := by
    cases hd
    rfl
  have hfew : d'.created.length ≤ 2 ^ 64 := by
    cases hd
    cases hd'
    decide
  obtain ⟨-, s, hs, -, hpid, hactive⟩ := sessions_last hkeeps hd hd' hfew hr
  exact ⟨d', foldlM_append_some.mpr ⟨d, hd, hd'⟩, s, hs, hpid, hactive⟩

end Shim

end WriteonceOs.Logind
