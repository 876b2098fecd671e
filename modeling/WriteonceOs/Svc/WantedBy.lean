import WriteonceOs.Svc.TransactionSpec

/-!
# Injected and declared wanted-by edges

The boot loader injects a wanted-by edge for every enabled unit; a unit file may declare the same
edge in its `[install]` table.  What a registry computes depends on its edges only as sets, so the
two ways agree.

* `Alike` — two registries with the same units, names and edges;
* `Alike.buildTransaction_eq`, `Alike.buildStopTransaction_eq`, `Alike.hardRequirementTargets_eq` —
  what they compute is the same;
* `injected_declared` — the registry with injected pairs and the one with declared ones.
-/

namespace WriteonceOs.Svc

namespace UnitRegistry

/-! ### Registries with the same edges -/

/-- Two registries differ at most in the `[install]` tables of their units, and in the order and
the repetitions of the lifted edges. -/
structure Alike (reg reg' : UnitRegistry) : Prop where
  len : reg.len = reg'.len
  lookup : ∀ name, reg.lookup name = reg'.lookup name
  name : ∀ id, reg.nameOf id = reg'.nameOf id
  unit : ∀ id, (reg.get id).file.unit = (reg'.get id).file.unit
  wants : ∀ t v, v ∈ targetsOf reg.extraWants t ↔ v ∈ targetsOf reg'.extraWants t
  requires : ∀ t v, v ∈ targetsOf reg.extraRequires t ↔ v ∈ targetsOf reg'.extraRequires t

namespace Alike

variable {reg reg' : UnitRegistry} (h : reg.Alike reg')

include h

theorem requires_iff (u v : UnitId) : reg.Requires u v ↔ reg'.Requires u v := by
  simp only [Requires, h.unit, h.lookup, h.wants, h.requires]

theorem hardRequires_iff (u v : UnitId) : reg.HardRequires u v ↔ reg'.HardRequires u v := by
  simp only [HardRequires, h.unit, h.lookup, h.requires]

theorem requirementTargets_eq : reg.requirementTargets = reg'.requirementTargets := by
  funext u
  exact (requirementTargets_eq_iff u).mpr (h.requires_iff u)

theorem hardRequirementTargets_eq (u : UnitId) :
    reg.hardRequirementTargets u = reg'.hardRequirementTargets u := by
  refine sortDedup_eq_iff.mpr fun v => ?_
  have hv := h.hardRequires_iff u v
  simpa only [← mem_hardRequirementTargets, hardRequirementTargets, mem_sortDedup] using hv

theorem addOrdering_eq : reg.addOrdering = reg'.addOrdering := by
  funext set table id
  simp only [addOrdering, h.unit, h.lookup]

theorem sortUnits_eq (ords : HashOrders) (set : List UnitId) :
    reg.sortUnits ords set = reg'.sortUnits ords set := by
  rw [sortUnits, sortUnits, orderTable, orderTable, h.addOrdering_eq]

theorem orderUnits_eq (ords : HashOrders) (set : List UnitId) :
    reg.orderUnits ords set = reg'.orderUnits ords set := by
  have hname : reg.nameOf = reg'.nameOf := funext h.name
  rw [orderUnits, orderUnits, h.sortUnits_eq, hname]

theorem buildTransaction_eq (ords : HashOrders) (anchor : String) :
    reg.buildTransaction ords anchor = reg'.buildTransaction ords anchor := by
  simp only [buildTransaction, h.lookup, h.orderUnits_eq, startClosure, h.requirementTargets_eq,
    h.len]

theorem buildStopTransaction_eq (ords : HashOrders) (anchor : String) :
    reg.buildStopTransaction ords anchor = reg'.buildStopTransaction ords anchor := by
  simp only [buildStopTransaction, h.lookup, h.orderUnits_eq, stopClosure, dependents,
    h.requirementTargets_eq, h.len]

end Alike

/-! ### Refused pairs -/

theorem addWantedBy_error_iff (reg : UnitRegistry) (targetName unitName : String) :
    (∃ e, reg.addWantedBy targetName unitName = .error e) ↔
      reg.lookup targetName = none ∨ reg.lookup unitName = none := by
  have hok := reg.addWantedBy_ok_iff targetName unitName
  cases hadd : reg.addWantedBy targetName unitName with
  | error e =>
    have hnone := mt hok.mpr (by simp [hadd])
    exact iff_of_true ⟨e, rfl⟩ (by grind)
  | ok reg' =>
    obtain ⟨htarget, hunit⟩ := hok.mp ⟨reg', hadd⟩
    exact iff_of_false (by simp) (by grind)

/-- A refused pair leaves the registry as it is. -/
theorem inject_refused {reg : UnitRegistry} {p : String × String}
    (h : reg.lookup p.1 = none ∨ reg.lookup p.2 = none) (rest : List (String × String)) :
    reg.inject (p :: rest) = reg.inject rest := by
  obtain ⟨e, he⟩ := (reg.addWantedBy_error_iff p.1 p.2).mpr h
  rw [inject, List.foldl_cons, he]
  rfl

end UnitRegistry

/-! ### Declared pairs -/

/-- The unit with the targets of its pairs added to its wanted-by list. -/
def LoadedUnit.declare (pairs : List (String × String)) (lu : LoadedUnit) : LoadedUnit :=
  { lu with
    file :=
      { lu.file with
        install :=
          { lu.file.install with
            wantedBy := lu.file.install.wantedBy ++
              (pairs.filter (fun p => p.2 = lu.name)).map Prod.fst } } }

/-- The units, each with the targets of its pairs. -/
def declare (pairs : List (String × String)) (loaded : List LoadedUnit) : List LoadedUnit :=
  loaded.map (LoadedUnit.declare pairs)

theorem mem_declare_wantedBy {pairs : List (String × String)} {lu : LoadedUnit} {t : String} :
    t ∈ (lu.declare pairs).file.install.wantedBy ↔
      t ∈ lu.file.install.wantedBy ∨ (t, lu.name) ∈ pairs := by
  simp [LoadedUnit.declare]

section Declared

variable {pairs injected : List (String × String)} {loaded : List LoadedUnit}

open UnitRegistry

/-- The name index depends on the names alone. -/
theorem registerAll_declare (acc acc' : List RegisteredUnit × NameIndex)
    (hlen : acc.1.length = acc'.1.length) (hnames : acc.2 = acc'.2) :
    ((declare pairs loaded).foldl registerUnit acc').2 = (loaded.foldl registerUnit acc).2 := by
  induction loaded generalizing acc acc' with
  | nil => exact hnames.symm
  | cons lu loaded ih =>
    refine ih (registerUnit acc lu) (registerUnit acc' (lu.declare pairs)) ?_ ?_
    · simp only [registerUnit, List.length_append, hlen]
      rfl
    · simp only [registerUnit, hlen, hnames]
      rfl

theorem lookup_declare (name : String) :
    (fromLoaded (declare pairs loaded)).lookup name = (fromLoaded loaded).lookup name :=
  congrArg (fun names : NameIndex => names.lookup name)
    (registerAll_declare ([], ∅) ([], ∅) rfl rfl)

theorem units_declare (id : UnitId) : (fromLoaded (declare pairs loaded)).units[id]? =
    loaded[id]?.map fun lu => ⟨lu.name, (lu.declare pairs).file⟩ := by
  rw [fromLoaded_units, declare, List.map_map, List.getElem?_map]
  rfl

theorem units_loaded (id : UnitId) : (fromLoaded loaded).units[id]? =
    loaded[id]?.map fun lu => ⟨lu.name, lu.file⟩ := by
  rw [fromLoaded_units, List.getElem?_map]

/-- The registries of the units with and without the pairs have the same name and `[unit]` table at
every id. -/
theorem get_declare (id : UnitId) :
    (fromLoaded (declare pairs loaded)).nameOf id = (fromLoaded loaded).nameOf id ∧
      ((fromLoaded (declare pairs loaded)).get id).file.unit =
        ((fromLoaded loaded).get id).file.unit := by
  simp only [nameOf, UnitRegistry.get, List.getD_eq_getElem?_getD]
  rw [units_declare, units_loaded]
  cases loaded[id]? with
  | none => exact ⟨rfl, rfl⟩
  | some lu => exact ⟨rfl, rfl⟩

/-- A pair whose second name is that of the unit at an id. -/
theorem lookup_eq_some_iff (hnames : (loaded.map LoadedUnit.name).Nodup) (name : String)
    (id : UnitId) :
    (fromLoaded loaded).lookup name = some id ↔ ∃ lu, loaded[id]? = some lu ∧ lu.name = name := by
  rw [fromLoaded_namesExact hnames name id, units_loaded]
  simp only [Option.map_eq_some_iff]
  constructor
  · rintro ⟨_, ⟨lu, hlu, rfl⟩, hname⟩
    exact ⟨lu, hlu, hname⟩
  · rintro ⟨lu, hlu, hname⟩
    exact ⟨_, ⟨lu, hlu, rfl⟩, hname⟩

/-- **The declared edges are the injected ones.** -/
theorem declare_extraWants (hnames : (loaded.map LoadedUnit.name).Nodup) (t v : UnitId) :
    v ∈ targetsOf (fromLoaded (declare pairs loaded)).extraWants t ↔
      v ∈ targetsOf (fromLoaded loaded).extraWants t ∨
        ∃ p ∈ pairs, (fromLoaded loaded).lookup p.1 = some t ∧
          (fromLoaded loaded).lookup p.2 = some v := by
  rw [fromLoaded_extraWants, fromLoaded_extraWants, units_declare, units_loaded]
  simp only [lookup_declare, lookup_eq_some_iff hnames _ v, Option.map_eq_some_iff]
  constructor
  · rintro ⟨_, ⟨lu, hlu, rfl⟩, name, hname, ht⟩
    rcases mem_declare_wantedBy.mp hname with hold | hpair
    · exact .inl ⟨_, ⟨lu, hlu, rfl⟩, name, hold, ht⟩
    · exact .inr ⟨_, hpair, ht, lu, hlu, rfl⟩
  · rintro (⟨_, ⟨lu, hlu, rfl⟩, name, hname, ht⟩ | ⟨⟨name, _⟩, hpair, ht, lu, hlu, rfl⟩)
    · exact ⟨_, ⟨lu, hlu, rfl⟩, name, mem_declare_wantedBy.mpr (.inl hname), ht⟩
    · exact ⟨_, ⟨lu, hlu, rfl⟩, name, mem_declare_wantedBy.mpr (.inr hpair), ht⟩

theorem declare_extraRequires (t v : UnitId) :
    v ∈ targetsOf (fromLoaded (declare pairs loaded)).extraRequires t ↔
      v ∈ targetsOf (fromLoaded loaded).extraRequires t := by
  rw [fromLoaded_extraRequires, fromLoaded_extraRequires, units_declare, units_loaded]
  simp only [lookup_declare]
  cases loaded[v]? with
  | none => simp
  | some lu => simp [LoadedUnit.declare]

/-- **The two ways give registries that are alike.** -/
theorem built_alike (hnames : (loaded.map LoadedUnit.name).Nodup)
    (hset : ∀ p, p ∈ injected ↔ p ∈ pairs) :
    (builtRegistry loaded injected).Alike (fromLoaded (declare pairs loaded)) := by
  obtain ⟨hunits, hindex, hrequires, hwants⟩ := inject_spec injected (fromLoaded loaded)
  have hget (id : UnitId) :
      (builtRegistry loaded injected).get id = (fromLoaded loaded).get id := by
    rw [UnitRegistry.get, UnitRegistry.get, builtRegistry, hunits]
  refine
    { len := ?_, lookup := fun name => ?_, name := fun id => ?_, unit := fun id => ?_,
      wants := fun t v => ?_, requires := fun t v => ?_ }
  · rw [built_len, UnitRegistry.len, fromLoaded_units, List.length_map, declare, List.length_map]
  · rw [built_lookup, lookup_declare]
  · rw [nameOf, hget]
    exact (get_declare id).1.symm
  · rw [hget, (get_declare id).2]
  · rw [builtRegistry, hwants, declare_extraWants hnames]
    simp only [hset]
  · rw [builtRegistry, hrequires, declare_extraRequires]

/-- **Injected and declared pairs are equivalent**: injected in any order and with any repetitions,
they give the transactions and the hard requirement targets of units that declare them, and a pair
with an unknown name is refused and changes nothing. -/
theorem injected_declared (hnames : (loaded.map LoadedUnit.name).Nodup)
    (hset : ∀ p, p ∈ injected ↔ p ∈ pairs) (ords : HashOrders) (anchor : String) (id : UnitId) :
    (builtRegistry loaded injected).buildTransaction ords anchor =
        (fromLoaded (declare pairs loaded)).buildTransaction ords anchor ∧
      (builtRegistry loaded injected).buildStopTransaction ords anchor =
        (fromLoaded (declare pairs loaded)).buildStopTransaction ords anchor ∧
      (builtRegistry loaded injected).hardRequirementTargets id =
        (fromLoaded (declare pairs loaded)).hardRequirementTargets id ∧
      ∀ (reg : UnitRegistry) (t u : String),
        ((∃ e, reg.addWantedBy t u = .error e) ↔ reg.lookup t = none ∨ reg.lookup u = none) ∧
        ((∃ e, reg.addWantedBy t u = .error e) → ∀ rest, reg.inject ((t, u) :: rest) =
          reg.inject rest) := by
  have halike := built_alike hnames hset
  refine ⟨halike.buildTransaction_eq ords anchor, halike.buildStopTransaction_eq ords anchor,
    halike.hardRequirementTargets_eq id, fun reg t u => ?_⟩
  have herror := reg.addWantedBy_error_iff t u
  exact ⟨herror, fun h => inject_refused (herror.mp h)⟩

end Declared

/-- A target, and two services that no file asks for. -/
def optIn : List LoadedUnit :=
  [⟨"multi-user.target", {}⟩, ⟨"iwd.service", { unit := { after := ["dbus.service"] } }⟩,
    ⟨"dbus.service", {}⟩]

/-- The services are enabled, one of them twice. -/
def optInEnabled : List (String × String) :=
  [("multi-user.target", "iwd.service"), ("multi-user.target", "dbus.service"),
    ("multi-user.target", "iwd.service")]

/-- They start as if they had asked for it, in another order and once each. -/
theorem injected_declared_optIn :
    (builtRegistry optIn optInEnabled).buildTransaction ⟨.inserted, .inserted⟩
        "multi-user.target" =
      .ok [⟨0, .start, .waiting⟩, ⟨2, .start, .waiting⟩, ⟨1, .start, .waiting⟩] := by
  have hnames : (optIn.map LoadedUnit.name).Nodup := by decide
  have hset : ∀ p, p ∈ optInEnabled ↔
      p ∈ [("multi-user.target", "dbus.service"), ("multi-user.target", "iwd.service")] := by
    intro p
    simp only [optInEnabled, List.mem_cons, List.not_mem_nil, or_false]
    grind
  have hsame := injected_declared hnames hset ⟨.inserted, .inserted⟩ "multi-user.target" 0
  exact hsame.1.trans (by decide +kernel)

end WriteonceOs.Svc
