import WriteonceOs.Svc.Shutdown
import WriteonceOs.Svc.Spawn

/-!
# Units whose user is unknown

The start attempts of the supervisor are answered by `spawn`, with the account files as they are.

* `spawn_ok_resolves` — `spawn` gives a process only to a unit whose user and group are known;
* `spawned_known` — so it is for every process of every run of the supervisor.
-/

namespace WriteonceOs.Svc

open WriteonceOs.Library

/-- **A process is given** only to a unit whose user and group are known. -/
theorem spawn_ok_resolves {req : SpawnRequest} {p : Proc} {ans : SpawnAnswers} {pid : Pid}
    (h : (spawn req p ans).result = .ok pid) :
    ∃ creds, resolveCreds ans.getpwnam ans.getgrnam req.service = .ok creds := by
  rw [spawn] at h
  split at h
  · cases h
  · next creds hcreds => exact ⟨creds, hcreds⟩

namespace SupervisorState

variable {alloc : PidAllocator} {s : SupervisorState} (getpwnam getgrnam : String → Option UInt32)

/-- A start attempt is answered by `spawn`, in some state of the supervisor's process. -/
def SpawnAnswered (s : SupervisorState) (id : UnitId) (ans : StartAnswer) : Prop :=
  ∀ service, (s.registry.get id).file.service = some service →
    ∃ req p a, req.name = s.registry.nameOf id ∧ req.service = service ∧
      a.getpwnam = getpwnam ∧ a.getgrnam = getgrnam ∧
      ans.spawn = (spawn req p a).result.map fun _ => ()

/-- The user and the group of a unit are known. -/
def UserKnown (reg : UnitRegistry) (id : UnitId) : Prop :=
  ∃ service creds, (reg.get id).file.service = some service ∧
    resolveCreds getpwnam getgrnam service = .ok creds

/-- The units that have had a process, with the files of the units as they were. -/
structure SpawnedKnown (reg : UnitRegistry) (s : SupervisorState) : Prop where
  units : s.registry.units = reg.units
  known : ∀ u pid, .spawned u pid ∈ s.trace → UserKnown getpwnam getgrnam reg u

variable {getpwnam getgrnam} {reg : UnitRegistry}

theorem SpawnedKnown.get (h : SpawnedKnown getpwnam getgrnam reg s) (id : UnitId) :
    s.registry.get id = reg.get id := by
  rw [UnitRegistry.get, UnitRegistry.get, h.units]

theorem SpawnedKnown.notes (h : SpawnedKnown getpwnam getgrnam reg s) {t : SupervisorState}
    (hunits : t.registry.units = s.registry.units) (es : List Effect)
    (htrace : t.trace = s.trace ++ es) (hes : ∀ e ∈ es, ∀ u p, e ≠ .spawned u p) :
    SpawnedKnown getpwnam getgrnam reg t where
  units := hunits.trans h.units
  known := fun u pid hmem => by
    rw [htrace, List.mem_append] at hmem
    rcases hmem with hmem | hmem
    · exact h.known u pid hmem
    · exact absurd rfl (hes _ hmem u pid)

theorem SpawnedKnown.emit (h : SpawnedKnown getpwnam getgrnam reg s) {e : Effect}
    (he : ∀ u p, e ≠ .spawned u p) : SpawnedKnown getpwnam getgrnam reg (s.emit e) :=
  h.notes rfl [e] rfl (by simpa using he)

/-- A start attempt that gives a process. -/
theorem SpawnedKnown.spawned (h : SpawnedKnown getpwnam getgrnam reg s) {id : UnitId}
    {ans : StartAnswer} (hans : SpawnAnswered getpwnam getgrnam s id ans)
    (hspawn : s.Spawns id ans) : UserKnown getpwnam getgrnam reg id := by
  obtain ⟨-, hservice, hok⟩ := hspawn
  obtain ⟨service, hservice⟩ := Option.ne_none_iff_exists'.mp hservice
  obtain ⟨req, p, a, -, rfl, hpw, hgr, hres⟩ := hans service hservice
  rw [hok] at hres
  cases hresult : (spawn req p a).result with
  | error e =>
    rw [hresult] at hres
    cases hres
  | ok pid =>
    obtain ⟨creds, hcreds⟩ := spawn_ok_resolves hresult
    rw [hpw, hgr] at hcreds
    exact ⟨req.service, creds, by rw [← h.get, hservice], hcreds⟩

theorem SpawnedKnown.start (h : SpawnedKnown getpwnam getgrnam reg s) {id : UnitId}
    {ans : StartAnswer} (hans : SpawnAnswered getpwnam getgrnam s id ans) :
    SpawnedKnown getpwnam getgrnam reg (s.startUnitInternal alloc id ans) := by
  have hunits := congrArg UnitRegistry.units (start_frame alloc s id ans).registry
  cases StartStep.of_start alloc s id ans with
  | idle hspawn _ _ htrace =>
    rcases htrace with htrace | ⟨-, htrace⟩
    · exact h.notes hunits [] (by rw [htrace, List.append_nil]) (by simp)
    · exact h.notes hunits _ htrace (by simp)
  | running hspawn _ _ _ htrace =>
    refine ⟨hunits.trans h.units, fun u pid hmem => ?_⟩
    rw [htrace, List.mem_append, List.mem_singleton] at hmem
    rcases hmem with hmem | hmem
    · exact h.known u pid hmem
    · cases hmem
      exact h.spawned hans hspawn
  | oneshot hspawn _ _ _ es hes htrace =>
    refine ⟨hunits.trans h.units, fun u pid hmem => ?_⟩
    rw [htrace] at hmem
    have hcases : .spawned u pid ∈ s.trace ∨ u = id := by
      rcases hes with rfl | rfl
      · simp at hmem
        tauto
      · simp at hmem
        tauto
    rcases hcases with hmem | rfl
    · exact h.known u pid hmem
    · exact h.spawned hans hspawn

theorem spawnedKnown_opInv (alloc : PidAllocator) (reg : UnitRegistry) :
    OpInv alloc (SpawnAnswered getpwnam getgrnam) (SpawnedKnown getpwnam getgrnam reg) where
  start := fun _ _ _ h hans => h.start hans
  reap := fun s r h => by
    obtain ⟨es, htrace, hes⟩ := reap_trace s r
    refine h.notes (congrArg UnitRegistry.units (reap_registry s r)) _ htrace ?_
    intro e he
    rcases List.mem_cons.mp he with rfl | he
    · simp
    · exact (hes e he).not_spawned
  advance := fun _ _ h => ⟨h.units, h.known⟩
  kill := fun _ _ _ h => h.emit (by simp)
  cgroup := fun _ _ h => h.emit (by simp)
  stopping := fun _ _ h => h.emit (by simp)
  shutdown := fun _ h => h.emit (by simp)
  setState := fun _ _ _ h => ⟨h.units, h.known⟩
  setShuttingDown := fun _ h => ⟨h.units, h.known⟩
  restoreShuttingDown := fun _ _ _ h => ⟨h.units, h.known⟩
  setPending := fun _ _ h => ⟨h.units, h.known⟩
  registry := fun s target unit h => by
    obtain ⟨hunits, -, -, -, -, -, htrace⟩ := addWantedBy_frame s target unit
    exact h.notes hunits [] (by rw [htrace, List.append_nil]) (by simp)

/-- **A unit whose user or group is unknown never has a process**, whatever is requested,
restarted or stopped. -/
theorem spawned_known (alloc : PidAllocator) (getpwnam getgrnam : String → Option UInt32)
    (reg : UnitRegistry) (fake : Bool) (ops : List Op)
    (hG : Guarded (step alloc) (OpStartsMeet alloc (SpawnAnswered getpwnam getgrnam))
      (SupervisorState.new reg fake) ops) :
    ∀ u pid, .spawned u pid ∈ (reached (run (step alloc) (.new reg fake) ops)).trace →
      UserKnown getpwnam getgrnam reg u :=
  (run_inv (step alloc) (I := SpawnedKnown getpwnam getgrnam reg)
    (fun _ op hs hG => (spawnedKnown_opInv alloc reg).step hs op hG)
    ⟨rfl, fun _ _ hmem => absurd hmem List.not_mem_nil⟩ hG).known

/-- Of two services the user of the second is unknown. -/
def ghostUnits : List LoadedUnit :=
  [⟨"dbus.service", { service := some { execStart := "/usr/bin/dbus-daemon" } }⟩,
    ⟨"ghost.service", { service := some { execStart := "/usr/bin/true", user := "ghost" } }⟩]

/-- Both are started, without any account files. -/
def ghostOps : List Op :=
  [.activatePlan [(⟨0, .start, .waiting⟩, {}),
    (⟨1, .start, .waiting⟩, { spawn := .error "unknown user: ghost" })]]

theorem spawned_known_ghost :
    let s := reached (run (step .counting) (.new (.fromLoaded ghostUnits) true) ghostOps)
    .spawned 0 1 ∈ s.trace ∧ ∀ pid, .spawned 1 pid ∉ s.trace := by
  refine ⟨by decide, fun pid hmem => ?_⟩
  have hknown := spawned_known .counting (fun _ => none) (fun _ => none)
    (.fromLoaded ghostUnits) true ghostOps
    ⟨⟨fun _ service hservice => ?_, fun _ service hservice => ?_, trivial⟩, fun _ _ => trivial⟩
    1 pid hmem
  · obtain ⟨service, creds, hservice, hcreds⟩ := hknown
    cases hservice
    exact absurd hcreds (by simp [resolveCreds, uidForUser, hasNul])
  · cases hservice
    exact ⟨{ name := "dbus.service", service := _, fake := true },
      ⟨[], Credentials.same 0 0 [], true, [], []⟩,
      { getpwnam := fun _ => none, getgrnam := fun _ => none, fork := .ok 1 },
      by decide, rfl, rfl, rfl, rfl⟩
  · cases hservice
    exact ⟨{ name := "ghost.service", service := _, fake := true },
      ⟨[], Credentials.same 0 0 [], true, [], []⟩,
      { getpwnam := fun _ => none, getgrnam := fun _ => none, fork := .ok 1 },
      by decide, rfl, rfl, rfl, by decide⟩

end SupervisorState

end WriteonceOs.Svc
