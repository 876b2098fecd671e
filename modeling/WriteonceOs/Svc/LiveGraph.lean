import WriteonceOs.Svc.Enabled
import WriteonceOs.Svc.EventLoop

/-!
# The running graph and the enabled units

`ENABLE` and `DISABLE` requests change two things: the stubs in `enabled.d`, which the next boot
reads, and the registry of the running supervisor.

* `requires_fresh` — what the registry of the next boot pulls in;
* `serve_inSync_iff` — when a request leaves the running registry with the edges of the next boot;
* `live_graph_run` — runs of such requests.
-/

namespace WriteonceOs.Svc

open WriteonceOs.Library Enabled

/-- The supervisor and the stub directory. -/
structure Live where
  sup : SupervisorState
  dir : EnabledDir

/-! ### Requests -/

def requestOf : Call → Request
  | .enable u => .enable (some u)
  | .disable u => .disable (some u)

/-- The removal of a stub, which may fail for a reason that the directory does not show. -/
def removeStub (dir : EnabledDir) (ans : ControlAnswer) (u : String) :
    Except IoError (Bool × EnabledDir) :=
  match ans.disableStub with
  | .error e => .error e
  | .ok _ => disable dir u

/-- What the stub directory answers to the handlers, next to the other answers. -/
def answersOf (dir : EnabledDir) (ans : ControlAnswer) (u : String) : ControlAnswer :=
  { ans with
    enableStub := (enable dir u).map (fun _ => ())
    disableStub := (removeStub dir ans u).map Prod.fst }

/-- The stub directory after a request that returns. -/
def dirAfter (live : Live) (ans : ControlAnswer) : Call → EnabledDir
  | .enable u =>
    match live.sup.registry.lookup u with
    | none => live.dir
    | some _ =>
      match enable live.dir u with
      | .error _ => live.dir
      | .ok dir => dir
  | .disable u =>
    match ans.firstWrite with
    | .error _ => live.dir
    | .ok _ =>
      match removeStub live.dir ans u with
      | .error _ => live.dir
      | .ok (_, dir) => dir

variable (alloc : PidAllocator)

/-- Serve an `ENABLE` or a `DISABLE`; a stop that still waits has not come to the stub. -/
def serve (live : Live) (op : Call × ControlAnswer) : Except Live Live :=
  match Control.handle alloc live.sup (answersOf live.dir op.2 op.1.unit) (requestOf op.1) with
  | .error sup => .error { live with sup := sup }
  | .ok (sup, _) => .ok ⟨sup, dirAfter live op.2 op.1⟩

/-! ### What the next boot pulls in -/

namespace UnitRegistry

/-- A registry with one injected edge. -/
theorem requires_addWantedBy {reg reg' : UnitRegistry} {targetName unitName : String}
    (h : reg.addWantedBy targetName unitName = .ok reg') (t v : UnitId) :
    reg'.Requires t v ↔ reg.Requires t v ∨
      (reg.lookup targetName = some t ∧ reg.lookup unitName = some v) := by
  obtain ⟨hunits, hnames, hreq, target, unit, ht, hu, hwants⟩ := addWantedBy_spec h
  have hget : reg'.get t = reg.get t := by rw [get, get, hunits]
  have hlookup : ∀ name, reg'.lookup name = reg.lookup name := by
    intro name
    rw [lookup, lookup, hnames]
  rw [Requires, Requires, hget, hreq, hwants, ht, hu]
  simp only [hlookup, Option.some.injEq, @eq_comm _ target t, @eq_comm _ unit v]
  exact (or_congr Iff.rfl or_right_comm).trans or_assoc.symm

/-- Several injected edges. -/
theorem requires_inject (reg : UnitRegistry) (injected : List (String × String)) (t v : UnitId) :
    (reg.inject injected).Requires t v ↔ reg.Requires t v ∨
      ∃ p ∈ injected, reg.lookup p.1 = some t ∧ reg.lookup p.2 = some v := by
  obtain ⟨hunits, hnames, hreq, hwants⟩ := inject_spec injected reg
  have hget : (reg.inject injected).get t = reg.get t := by rw [get, get, hunits]
  have hlookup : ∀ name, (reg.inject injected).lookup name = reg.lookup name := by
    intro name
    rw [lookup, lookup, hnames]
  rw [Requires, Requires, hget, hreq, hwants]
  simp only [hlookup]
  exact (or_congr Iff.rfl or_right_comm).trans or_assoc.symm

/-- Different names have different ids. -/
theorem fromLoaded_lookup_inj {loaded : List LoadedUnit} {a b : String} {id : UnitId}
    (ha : (fromLoaded loaded).lookup a = some id) (hb : (fromLoaded loaded).lookup b = some id) :
    a = b := by
  obtain ⟨unit, hunit, rfl⟩ := registerAll_sound loaded a id ha
  obtain ⟨unit', hunit', rfl⟩ := registerAll_sound loaded b id hb
  rw [hunit] at hunit'
  rw [Option.some.inj hunit']

end UnitRegistry

section Graph

variable (fromStr : String → Except IoError Stub) (loaded : List LoadedUnit)

/-- The registry that the next boot builds from the unit files and the stubs. -/
def nextRegistry (dir : EnabledDir) : UnitRegistry :=
  builtRegistry loaded ((load fromStr dir).map fun unit => ("multi-user.target", unit))

/-- The running registry has the effective targets of the next boot. -/
def InSync (live : Live) : Prop :=
  ∀ id, live.sup.registry.requirementTargets id =
    (nextRegistry fromStr loaded live.dir).requirementTargets id

/-- The edge that a stub of the directory adds. -/
def StubEdge (dir : EnabledDir) (t v : UnitId) : Prop :=
  (UnitRegistry.fromLoaded loaded).lookup "multi-user.target" = some t ∧
    ∃ u ∈ load fromStr dir, (UnitRegistry.fromLoaded loaded).lookup u = some v

theorem requires_next (dir : EnabledDir) (t v : UnitId) :
    (nextRegistry fromStr loaded dir).Requires t v ↔
      (UnitRegistry.fromLoaded loaded).Requires t v ∨ StubEdge fromStr loaded dir t v := by
  rw [nextRegistry, builtRegistry, UnitRegistry.requires_inject]
  refine or_congr Iff.rfl ?_
  constructor
  · intro h
    obtain ⟨p, hp, ht, hv⟩ := h
    obtain ⟨u, hu, rfl⟩ := List.mem_map.mp hp
    exact ⟨ht, u, hu, hv⟩
  · intro h
    obtain ⟨ht, u, hu, hv⟩ := h
    exact ⟨_, List.mem_map.mpr ⟨u, hu, rfl⟩, ht, hv⟩

theorem inSync_iff {live : Live} : InSync fromStr loaded live ↔
    ∀ t v, live.sup.registry.Requires t v ↔
      (UnitRegistry.fromLoaded loaded).Requires t v ∨ StubEdge fromStr loaded live.dir t v := by
  refine forall_congr' fun t => ?_
  rw [UnitRegistry.requirementTargets_eq_iff]
  simp only [requires_next]

/-- A stub of `u` makes no difference: the multi-user target or the unit is not loaded, or the unit
files alone make the one pull in the other. -/
def Anchored (u : String) : Prop :=
  ∀ t v, (UnitRegistry.fromLoaded loaded).lookup "multi-user.target" = some t →
    (UnitRegistry.fromLoaded loaded).lookup u = some v →
    (UnitRegistry.fromLoaded loaded).Requires t v

/-- **Two directories and one more edge**: from a registry in step with `dir`, adding the edge of
`u` or nothing leads to one in step with `dir'` exactly when the two directories name the same units
but for the edge, as far as stubs make a difference. -/
theorem sync_step {reg reg' : UnitRegistry} {dir dir' : EnabledDir} {u : String} {edge : Prop}
    (hreg : ∀ t v, reg.Requires t v ↔
      (UnitRegistry.fromLoaded loaded).Requires t v ∨ StubEdge fromStr loaded dir t v)
    (hreg' : ∀ t v, reg'.Requires t v ↔ reg.Requires t v ∨
      (edge ∧ (UnitRegistry.fromLoaded loaded).lookup "multi-user.target" = some t ∧
        (UnitRegistry.fromLoaded loaded).lookup u = some v)) :
    (∀ t v, reg'.Requires t v ↔
      (UnitRegistry.fromLoaded loaded).Requires t v ∨ StubEdge fromStr loaded dir' t v) ↔
      ∀ x, Anchored loaded x ∨
        (x ∈ load fromStr dir' ↔ x ∈ load fromStr dir ∨ (edge ∧ x = u)) := by
  -- an edge of a loaded unit belongs to one name
  have hedge : ∀ dir t v x, (UnitRegistry.fromLoaded loaded).lookup "multi-user.target" = some t →
      (UnitRegistry.fromLoaded loaded).lookup x = some v →
      (StubEdge fromStr loaded dir t v ↔ x ∈ load fromStr dir) := by
    intro dir t v x ht hx
    constructor
    · intro h
      obtain ⟨-, y, hy, hyv⟩ := h
      rwa [UnitRegistry.fromLoaded_lookup_inj hx hyv]
    · exact fun h => ⟨ht, x, h, hx⟩
  constructor
  · intro h x
    by_cases hx : Anchored loaded x
    · exact Or.inl hx
    · right
      simp only [Anchored, not_forall] at hx
      obtain ⟨t, v, ht, hxv, hbase⟩ := hx
      have hu : (UnitRegistry.fromLoaded loaded).lookup u = some v ↔ x = u := by
        constructor
        · exact fun hu => UnitRegistry.fromLoaded_lookup_inj hxv hu
        · intro heq
          rwa [← heq]
      have hiff := h t v
      rw [hreg', hreg, hedge dir t v x ht hxv, hedge dir' t v x ht hxv, hu] at hiff
      simpa [hbase, ht] using hiff.symm
  · intro h t v
    rw [hreg', hreg]
    by_cases hbase : (UnitRegistry.fromLoaded loaded).Requires t v
    · simp [hbase]
    · simp only [hbase, false_or]
      constructor
      · intro h'
        rcases h' with ⟨ht, x, hx, hxv⟩ | ⟨he, ht, huv⟩
        · have hx' := (h x).resolve_left (fun ha => hbase (ha t v ht hxv))
          exact ⟨ht, x, hx'.mpr (Or.inl hx), hxv⟩
        · have hu' := (h u).resolve_left (fun ha => hbase (ha t v ht huv))
          exact ⟨ht, u, hu'.mpr (Or.inr ⟨he, rfl⟩), huv⟩
      · intro h'
        obtain ⟨ht, x, hx, hxv⟩ := h'
        have hx' := (h x).resolve_left (fun ha => hbase (ha t v ht hxv))
        rcases hx'.mp hx with hold | ⟨he, rfl⟩
        · exact Or.inl ⟨ht, x, hold, hxv⟩
        · exact Or.inr ⟨he, ht, hxv⟩

/-! ### One request -/

/-- The request gets to a stub that it can write or remove. -/
def Reaches (live : Live) (ans : ControlAnswer) : Call → Prop
  | .enable u => live.sup.registry.lookup u ≠ none ∧
      nodeAt live.dir (stubName u) ≠ some .directory
  | .disable u => ans.firstWrite = .ok () ∧ (∃ removed, ans.disableStub = .ok removed) ∧
      nodeAt live.dir (stubName u) ≠ some .directory

/-- The request adds the edge of its unit. -/
def AddsEdge (live : Live) (ans : ControlAnswer) : Call → Prop
  | .enable u => Reaches live ans (.enable u) ∧ ans.firstWrite = .ok ()
  | .disable _ => False

/-- The stubs change as the edges do.  Names whose stubs make no difference, or that another entry
names as well, are free.  Else an `ENABLE` leaves a text for its own unit and changes no other
name's stub, and one whose client is gone before the edge changes none at all; a `DISABLE` removes
no name's last stub. -/
def Keeps (live : Live) (op : Call × ControlAnswer) : Prop :=
  Reaches live op.2 op.1 →
    match op with
    | (.enable u, ans) =>
      (Anchored loaded u ∨ Elsewhere fromStr live.dir u u ∨
        match ans.firstWrite with
        | .ok _ => Writes fromStr live.dir u u
        | .error _ => Writes fromStr live.dir u u ↔ Names fromStr live.dir (stubName u) u) ∧
      ∀ v ≠ u.1, Anchored loaded v ∨ Elsewhere fromStr live.dir u v ∨
        (Writes fromStr live.dir u v ↔ Names fromStr live.dir (stubName u) v)
    | (.disable u, _) => ∀ v, Anchored loaded v ∨ Elsewhere fromStr live.dir u v ∨
        ¬ Names fromStr live.dir (stubName u) v

variable {fromStr loaded}

theorem enable_ok_iff {dir : EnabledDir} {u : String} :
    (∃ dir', enable dir u = .ok dir') ↔ nodeAt dir (stubName u) ≠ some .directory := by
  have hnode : (dir.getD ∅).lookup (stubName u) = nodeAt dir (stubName u) := by
    cases dir with
    | none => rfl
    | some files => rfl
  unfold enable
  simp only [hnode]
  split
  · rename_i h
    simp [h]
  · rename_i h
    simp [h]
  · rename_i hdir hspecial
    simpa using hdir

theorem disable_ok_iff {dir : EnabledDir} {u : String} :
    (∃ res, disable dir u = .ok res) ↔ nodeAt dir (stubName u) ≠ some .directory := by
  unfold disable
  split
  · rename_i h
    simp [h]
  · rename_i h
    simp [h]
  · rename_i hdir h
    simpa [h] using hdir

/-- A request that gets to its stub performs the call, another leaves the directory alone. -/
theorem dirAfter_cases (live : Live) (ans : ControlAnswer) (c : Call) :
    (Reaches live ans c ∧ perform live.dir c = .ok (dirAfter live ans c)) ∨
      (¬ Reaches live ans c ∧ dirAfter live ans c = live.dir) := by
  cases c with
  | enable u =>
    simp only [Reaches, perform, dirAfter]
    cases live.sup.registry.lookup u with
    | none => simp
    | some id =>
      rw [← enable_ok_iff]
      cases enable live.dir u with
      | error e => simp
      | ok dir => simp
  | disable u =>
    simp only [Reaches, perform, dirAfter]
    cases ans.firstWrite with
    | error e => simp
    | ok _ =>
      rw [← disable_ok_iff, removeStub]
      cases ans.disableStub with
      | error e => simp
      | ok _ =>
        cases disable live.dir u with
        | error e => simp
        | ok res => simp

/-- An injected edge is there exactly when both of its units are. -/
theorem requires_stateEdge (s : SupervisorState) (targetName unitName : String) (t v : UnitId) :
    (s.addWantedBy targetName unitName).registry.Requires t v ↔ s.registry.Requires t v ∨
      (s.registry.lookup targetName = some t ∧ s.registry.lookup unitName = some v) := by
  unfold SupervisorState.addWantedBy
  cases hadd : s.registry.addWantedBy targetName unitName with
  | ok registry => exact UnitRegistry.requires_addWantedBy hadd t v
  | error e =>
    have hno : ¬ (s.registry.lookup targetName = some t ∧ s.registry.lookup unitName = some v) := by
      intro h
      obtain ⟨reg', hreg'⟩ := (s.registry.addWantedBy_ok_iff targetName unitName).mpr
        ⟨by simp [h.1], by simp [h.2]⟩
      rw [hadd] at hreg'
      cases hreg'
    simp [hno]

section Handlers

variable {alloc : PidAllocator} {s t : SupervisorState} {ans : ControlAnswer} {u : String}
  {res : Except RequestError Unit}

/-- `ENABLE` adds the edge once the stub is written and the client has been told. -/
theorem enable_registry_edge (h : Control.enable alloc s ans (some u) = .ok (t, res))
    (hid : s.registry.lookup u ≠ none) (hstub : ans.enableStub = .ok ())
    (hwrite : ans.firstWrite = .ok ()) :
    t.registry = (s.addWantedBy "multi-user.target" u).registry := by
  obtain ⟨id, hid⟩ := Option.ne_none_iff_exists'.mp hid
  unfold SupervisorState.addWantedBy
  simp only [Control.enable, hid, hstub, hwrite] at h
  cases hadd : s.registry.addWantedBy "multi-user.target" u with
  | error e =>
    rw [hadd] at h
    cases h
    rfl
  | ok registry =>
    rw [hadd] at h
    cases hsecond : ans.secondWrite with
    | error e =>
      simp only [hsecond] at h
      cases h
      rfl
    | ok _ =>
      simp only [hsecond, Except.ok.injEq] at h
      have ht := congrArg (fun r => r.1.registry) h
      rw [← ht]
      exact SupervisorState.startNamed_registry _ _ _

theorem enable_registry_other (h : Control.enable alloc s ans (some u) = .ok (t, res))
    (hno : ¬ (s.registry.lookup u ≠ none ∧ ans.enableStub = .ok () ∧ ans.firstWrite = .ok ())) :
    t.registry = s.registry := by
  simp only [Control.enable] at h
  split at h
  · cases h
    rfl
  · rename_i id hid
    split at h
    · cases h
      rfl
    · rename_i hstub
      split at h
      · cases h
        rfl
      · rename_i hwrite
        exact absurd ⟨by simp [hid], hstub, hwrite⟩ hno

theorem disable_registry (h : Control.disable s ans (some u) = .ok (t, res)) :
    t.registry = s.registry := by
  simp only [Control.disable] at h
  split at h
  · cases h
    rfl
  · split at h
    · cases h
    · rename_i t' res' hstop
      have hreg := SupervisorState.stopUnit_registry hstop
      split at h
      · cases h
        exact hreg
      · cases h
        exact hreg

end Handlers

/-- What a request that returns leaves in the registry. -/
theorem serve_registry {alloc : PidAllocator} {live live' : Live} {op : Call × ControlAnswer}
    (h : serve alloc live op = .ok live') :
    live'.dir = dirAfter live op.2 op.1 ∧
      live'.sup.registry.byName = live.sup.registry.byName ∧
      ∀ t v, live'.sup.registry.Requires t v ↔ live.sup.registry.Requires t v ∨
        (AddsEdge live op.2 op.1 ∧ live.sup.registry.lookup "multi-user.target" = some t ∧
          live.sup.registry.lookup op.1.unit = some v) := by
  obtain ⟨c, ans⟩ := op
  unfold serve at h
  split at h
  · cases h
  · rename_i sup res hres
    cases h
    refine ⟨rfl, ?_⟩
    cases c with
    | enable u =>
      change Control.enable alloc live.sup (answersOf live.dir ans u) (some u) = _ at hres
      have hstub : (answersOf live.dir ans u).enableStub = .ok () ↔
          nodeAt live.dir (stubName u) ≠ some .directory := by
        rw [← enable_ok_iff]
        simp only [answersOf]
        cases enable live.dir u with
        | error e => simp [Except.map]
        | ok dir => simp [Except.map]
      by_cases hedge : AddsEdge live ans (.enable u)
      · rw [enable_registry_edge hres hedge.1.1 (hstub.mpr hedge.1.2) hedge.2]
        refine ⟨SupervisorState.addWantedBy_byName _ _ _, fun t v => ?_⟩
        simp only [requires_stateEdge, hedge, true_and]
        rfl
      · have hno : ¬ (live.sup.registry.lookup u ≠ none ∧
            (answersOf live.dir ans u).enableStub = .ok () ∧ ans.firstWrite = .ok ()) :=
          fun h => hedge ⟨⟨h.1, hstub.mp h.2.1⟩, h.2.2⟩
        rw [enable_registry_other hres hno]
        exact ⟨rfl, fun t v => by simp [hedge]⟩
    | disable u =>
      change Control.disable live.sup (answersOf live.dir ans u) (some u) = _ at hres
      rw [disable_registry hres]
      exact ⟨rfl, fun t v => by simp [AddsEdge]⟩

/-- The names read after a request, next to the names read and the edges added before. -/
theorem keeps_iff (live : Live) (op : Call × ControlAnswer) :
    (∀ x, Anchored loaded x ∨ (x ∈ load fromStr (dirAfter live op.2 op.1) ↔
      x ∈ load fromStr live.dir ∨ (AddsEdge live op.2 op.1 ∧ x = op.1.unit))) ↔
      Keeps fromStr loaded live op := by
  obtain ⟨c, ans⟩ := op
  rcases dirAfter_cases live ans c with ⟨hreach, hdir⟩ | ⟨hno, hdir⟩
  · simp only [mem_load_after fromStr hdir, mem_load_before fromStr live.dir c.unit, Keeps, hreach,
      forall_const]
    cases c with
    | disable u =>
      refine forall_congr' fun v => ?_
      simp only [StubAfter, AddsEdge, Call.unit]
      by_cases helse : Elsewhere fromStr live.dir u v
      · simp [helse]
      · simp [helse]
    | enable u =>
      simp only [StubAfter, AddsEdge, Call.unit, hreach, true_and]
      constructor
      · intro h
        refine ⟨?_, fun v hv => ?_⟩
        · have hu := h u
          cases hwrite : ans.firstWrite with
          | ok _ => simpa [hwrite] using hu
          | error e =>
            by_cases helse : Elsewhere fromStr live.dir u u
            · simp [helse]
            · simpa [hwrite, helse] using hu
        · have hx := h v
          by_cases helse : Elsewhere fromStr live.dir u v
          · simp [helse]
          · simpa [hv, helse] using hx
      · intro h v
        by_cases hv : v = u
        · subst hv
          have hu := h.1
          cases hwrite : ans.firstWrite with
          | ok _ => simpa [hwrite] using hu
          | error e =>
            by_cases helse : Elsewhere fromStr live.dir u u
            · simp [helse]
            · simpa [hwrite, helse] using hu
        · have hx := h.2 v hv
          by_cases helse : Elsewhere fromStr live.dir u v
          · simp [helse]
          · simpa [hv, helse] using hx
  · have hedge : ¬ AddsEdge live ans c := by
      cases c with
      | enable u => exact fun h => hno h.1
      | disable u => exact fun h => h
    simp [hdir, hedge, Keeps, hno]

/-- **One request**: from a registry in step with the stubs, a request that returns leaves it in
step exactly when the stubs change as the edges do. -/
theorem serve_inSync_iff {alloc : PidAllocator} {live live' : Live} {op : Call × ControlAnswer}
    (hnames : live.sup.registry.byName = (UnitRegistry.fromLoaded loaded).byName)
    (hsync : InSync fromStr loaded live) (h : serve alloc live op = .ok live') :
    InSync fromStr loaded live' ↔ Keeps fromStr loaded live op := by
  have hlookup : ∀ name, live.sup.registry.lookup name =
      (UnitRegistry.fromLoaded loaded).lookup name := by
    intro name
    rw [UnitRegistry.lookup, hnames]
    rfl
  obtain ⟨hdir, -, hreq⟩ := serve_registry h
  simp only [hlookup] at hreq
  rw [inSync_iff, hdir, ← keeps_iff]
  exact sync_step fromStr loaded ((inSync_iff fromStr loaded).mp hsync) hreq

end Graph

/-! ### Runs -/

theorem boot_registry {alloc : PidAllocator} {loaded : List LoadedUnit} {fake : Bool}
    {enabledUnits : List String} {target : String} {ords : HashOrders}
    {answers : UnitId → StartAnswer} {s : SupervisorState}
    (h : SupervisorState.boot alloc loaded fake enabledUnits target ords answers = .ok s) :
    s.registry =
      builtRegistry loaded (enabledUnits.map fun unit => ("multi-user.target", unit)) := by
  unfold SupervisorState.boot at h
  dsimp only at h
  split at h
  · cases h
  · cases h
    exact SupervisorState.startEach_registry _ _

/-- **The running graph in every run**: after a boot with the units that the stubs name, as long as
the stubs change as the edges do, the running registry has the effective requirement targets of the
registry that the next boot would build. -/
theorem live_graph_run {alloc : PidAllocator} (fromStr : String → Except IoError Stub)
    {loaded : List LoadedUnit} {fake : Bool} {dir : EnabledDir} {target : String}
    {ords : HashOrders} {answers : UnitId → StartAnswer} {s : SupervisorState}
    (hboot : SupervisorState.boot alloc loaded fake (load fromStr dir) target ords answers = .ok s)
    {ops : List (Call × ControlAnswer)}
    (hops : Guarded (serve alloc) (Keeps fromStr loaded) ⟨s, dir⟩ ops) {live : Live}
    (hrun : run (serve alloc) ⟨s, dir⟩ ops = .ok live) : InSync fromStr loaded live := by
  have hreg := boot_registry hboot
  have hstart : s.registry.byName = (UnitRegistry.fromLoaded loaded).byName ∧
      InSync fromStr loaded ⟨s, dir⟩ := by
    rw [hreg]
    exact ⟨(UnitRegistry.inject_spec _ _).2.1, fun id => by rw [hreg]; rfl⟩
  refine (run_ok_inv (serve alloc) (I := fun live =>
    live.sup.registry.byName = (UnitRegistry.fromLoaded loaded).byName ∧
      InSync fromStr loaded live) ?_ hstart hops hrun).2
  intro live op live' h hk hs
  exact ⟨(serve_registry hs).2.1.trans h.1, (serve_inSync_iff h.1 h.2 hs).mpr hk⟩

def networkTarget : UnitName := ⟨"network.target", by decide⟩

def networkUnits : List LoadedUnit := [⟨"multi-user.target", {}⟩, ⟨"network.target", {}⟩]

/-- The supervisor of two targets, booted to the first. -/
def networkState : SupervisorState :=
  (SupervisorState.new (builtRegistry networkUnits []) true).activatePlan .counting
    [(⟨0, .start, .waiting⟩, {})]

theorem live_graph_run_network : ∃ live,
    run (serve .counting) ⟨networkState, none⟩ [(.enable networkTarget, {})] = .ok live ∧
      InSync basicStub networkUnits live := by
  have hboot : SupervisorState.boot .counting networkUnits true (load basicStub none)
      "multi-user.target" ⟨.inserted, .inserted⟩ (fun _ => {}) = .ok networkState := rfl
  have hstub : basicStub (stubText "network.target") = .ok ⟨"network.target"⟩ :=
    basicStub_stubText (by decide)
  have hkeeps : Keeps basicStub networkUnits ⟨networkState, none⟩ (.enable networkTarget, {}) := by
    intro _
    refine ⟨Or.inr (Or.inr ⟨by simp [nodeAt], hstub⟩), fun v hv => Or.inr (Or.inr ?_)⟩
    constructor
    · intro h
      have heq := hstub.symm.trans h.2
      rw [Except.ok.injEq, Stub.mk.injEq] at heq
      exact absurd heq.symm hv
    · intro h
      obtain ⟨node, hnode, -⟩ := h
      cases hnode
  have hops : Guarded (serve .counting) (Keeps basicStub networkUnits) ⟨networkState, none⟩
      [(.enable networkTarget, {})] := ⟨hkeeps, fun _ _ => trivial⟩
  exact ⟨_, rfl, live_graph_run basicStub hboot hops rfl⟩

def networkOffAgain : Except Live Live :=
  run (serve .counting) ⟨networkState, none⟩
    [(.enable networkTarget, {}), (.disable networkTarget, {})]

/-- `DISABLE` removes the stub of `ENABLE` and leaves its edge: the next start of the multi-user
target pulls the unit in again, the next boot does not. -/
theorem disable_keeps_edge : networkOffAgain = .ok (reached networkOffAgain) ∧
    load basicStub (reached networkOffAgain).dir = [] ∧
    (((reached networkOffAgain).sup.registry.buildTransaction ⟨.inserted, .inserted⟩
      "multi-user.target").toOption.map fun plan => plan.map Job.unit) = some [0, 1] ∧
    ¬ InSync basicStub networkUnits (reached networkOffAgain) := by
  refine ⟨rfl, rfl, by decide, fun h => ?_⟩
  have h0 := h 0
  revert h0
  decide

end WriteonceOs.Svc
