import Mathlib.Data.List.AList
import Mathlib.Data.List.Destutter
import WriteonceOs.Svc.Config

/-!
# The unit registry

Units in load order with their name index, and the reverse `[install]` directives lifted into
per-target lists.  A unit id is an index into the unit list; that every id the registry holds is
one is a field of the structure, so lookups and edge lists never leave the list.

* `mem_requirementTargets`, `mem_hardRequirementTargets` — the sorted, deduplicated target lists
  hold exactly the declared and the lifted edges;
* `fromLoaded_namesExact`, `fromLoaded_extraWants`, `fromLoaded_extraRequires` — what construction
  from a list of loaded units computes;
* `addWantedBy_spec` — an injected wanted-by edge adds exactly that edge.
-/

namespace WriteonceOs.Svc

/-- Index of a unit in load order. -/
abbrev UnitId := ℕ

structure RegisteredUnit where
  name : String
  file : UnitFile
  deriving DecidableEq, Repr

instance : Inhabited RegisteredUnit := ⟨⟨"", {}⟩⟩

/-- `HashMap<String, UnitId>`. -/
abbrev NameIndex := AList (fun _ : String => UnitId)

/-- `HashMap<UnitId, Vec<UnitId>>`. -/
abbrev EdgeMap := AList (fun _ : UnitId => List UnitId)

/-- The list stored for `t`, empty when there is none. -/
def targetsOf (m : EdgeMap) (t : UnitId) : List UnitId := (m.lookup t).getD []

/-- `entry(t).or_default().push(u)`. -/
def pushEdge (m : EdgeMap) (t u : UnitId) : EdgeMap := m.insert t (targetsOf m t ++ [u])

@[simp] theorem targetsOf_empty (t : UnitId) : targetsOf ∅ t = [] := rfl

theorem targetsOf_pushEdge (m : EdgeMap) (t u s : UnitId) :
    targetsOf (pushEdge m t u) s = if s = t then targetsOf m t ++ [u] else targetsOf m s := by
  unfold pushEdge
  split
  · rename_i h
    subst h
    simp [targetsOf]
  · rename_i h
    simp [targetsOf, AList.lookup_insert_ne h]

theorem mem_targetsOf_pushEdge {m : EdgeMap} {t u s v : UnitId} :
    v ∈ targetsOf (pushEdge m t u) s ↔ v ∈ targetsOf m s ∨ (s = t ∧ v = u) := by
  rw [targetsOf_pushEdge]
  by_cases h : s = t
  · subst h
    simp
  · simp [h]

/-- Lift one directive list of unit `me` into the map of its targets. -/
def liftUnit (byName : NameIndex) (names : List String) (me : UnitId) (m : EdgeMap) : EdgeMap :=
  names.foldl (fun m name =>
    match byName.lookup name with
    | some t => pushEdge m t me
    | none => m) m

theorem mem_liftUnit {byName : NameIndex} {names : List String} {me : UnitId} {m : EdgeMap}
    {t v : UnitId} : v ∈ targetsOf (liftUnit byName names me m) t ↔
      v ∈ targetsOf m t ∨ (v = me ∧ ∃ name ∈ names, byName.lookup name = some t) := by
  induction names generalizing m with
  | nil => simp [liftUnit]
  | cons name names ih =>
    simp only [liftUnit, List.foldl_cons] at ih ⊢
    rw [ih]
    cases hname : byName.lookup name with
    | none => simp [hname]
    | some s =>
      simp only [mem_targetsOf_pushEdge, List.exists_mem_cons_iff, hname, Option.some.injEq]
      constructor
      · intro h'
        rcases h' with (h | ⟨rfl, rfl⟩) | ⟨rfl, h⟩
        · exact Or.inl h
        · exact Or.inr ⟨rfl, Or.inl rfl⟩
        · exact Or.inr ⟨rfl, Or.inr h⟩
      · intro h'
        rcases h' with h | ⟨rfl, h | h⟩
        · exact Or.inl (Or.inl h)
        · exact Or.inl (Or.inr ⟨h.symm, rfl⟩)
        · exact Or.inr ⟨rfl, h⟩

/-- Lift one kind of `[install]` directive of every unit, the first of which has id `i`. -/
def liftInstall (byName : NameIndex) (directive : UnitFile → List String) :
    ℕ → List RegisteredUnit → EdgeMap → EdgeMap
  | _, [], m => m
  | i, unit :: units, m =>
    liftInstall byName directive (i + 1) units (liftUnit byName (directive unit.file) i m)

theorem mem_liftInstall {byName : NameIndex} {directive : UnitFile → List String} {i : ℕ}
    {units : List RegisteredUnit} {m : EdgeMap} {t v : ℕ} :
    v ∈ targetsOf (liftInstall byName directive i units m) t ↔
      v ∈ targetsOf m t ∨ (i ≤ v ∧ ∃ unit, units[v - i]? = some unit ∧
        ∃ name ∈ directive unit.file, byName.lookup name = some t) := by
  induction units generalizing i m with
  | nil => simp [liftInstall]
  | cons unit units ih =>
    rw [liftInstall, ih, mem_liftUnit]
    constructor
    · intro h'
      rcases h' with (h | ⟨rfl, h⟩) | ⟨hle, u, hu, h⟩
      · exact Or.inl h
      · exact Or.inr ⟨le_refl _, unit, by simp, h⟩
      · refine Or.inr ⟨by omega, u, ?_, h⟩
        rw [show v - i = v - (i + 1) + 1 by omega, List.getElem?_cons_succ]
        exact hu
    · intro h'
      rcases h' with h | ⟨hle, u, hu, h⟩
      · exact Or.inl (Or.inl h)
      · by_cases hv : v = i
        · subst hv
          rw [Nat.sub_self, List.getElem?_cons_zero, Option.some.injEq] at hu
          exact Or.inl (Or.inr ⟨rfl, hu ▸ h⟩)
        · rw [show v - i = v - (i + 1) + 1 by omega, List.getElem?_cons_succ] at hu
          exact Or.inr ⟨by omega, u, hu, h⟩

/-! ### The registry -/

/-- The parsed units; every id in the index and in the lifted edges is a unit's. -/
structure UnitRegistry where
  units : List RegisteredUnit
  byName : NameIndex
  extraWants : EdgeMap
  extraRequires : EdgeMap
  byName_lt : ∀ name id, byName.lookup name = some id → id < units.length
  extraWants_lt : ∀ t, ∀ u ∈ targetsOf extraWants t, t < units.length ∧ u < units.length
  extraRequires_lt : ∀ t, ∀ u ∈ targetsOf extraRequires t, t < units.length ∧ u < units.length

/-- The registration loop: the next id goes into the index, the unit into the list. -/
def registerUnit (acc : List RegisteredUnit × NameIndex) (lu : LoadedUnit) :
    List RegisteredUnit × NameIndex :=
  (acc.1 ++ [⟨lu.name, lu.file⟩], acc.2.insert lu.name acc.1.length)

/-- Every indexed name is the name of the unit at its id. -/
def IndexSound (acc : List RegisteredUnit × NameIndex) : Prop :=
  ∀ name id, acc.2.lookup name = some id → ∃ unit, acc.1[id]? = some unit ∧ unit.name = name

theorem IndexSound.registerUnit {acc : List RegisteredUnit × NameIndex} (h : IndexSound acc)
    (lu : LoadedUnit) : IndexSound (registerUnit acc lu) := by
  intro name id hid
  simp only [Svc.registerUnit] at hid ⊢
  by_cases hname : name = lu.name
  · subst hname
    rw [AList.lookup_insert, Option.some.injEq] at hid
    subst hid
    exact ⟨⟨lu.name, lu.file⟩, by simp, rfl⟩
  · rw [AList.lookup_insert_ne hname] at hid
    obtain ⟨unit, hunit, hn⟩ := h name id hid
    have hlt := (List.getElem?_eq_some_iff.mp hunit).1
    exact ⟨unit, by rw [List.getElem?_append_left hlt]; exact hunit,
      hn⟩

theorem indexSound_foldl (loaded : List LoadedUnit) (acc : List RegisteredUnit × NameIndex)
    (h : IndexSound acc) : IndexSound (loaded.foldl registerUnit acc) := by
  induction loaded generalizing acc with
  | nil => exact h
  | cons lu loaded ih => exact ih _ (h.registerUnit lu)

/-- The unit list and the name index after registering every loaded unit. -/
def registerAll (loaded : List LoadedUnit) : List RegisteredUnit × NameIndex :=
  loaded.foldl registerUnit ([], ∅)

theorem registerAll_sound (loaded : List LoadedUnit) : IndexSound (registerAll loaded) :=
  indexSound_foldl loaded _ (fun _ _ h => by simp at h)

theorem registerAll_lt (loaded : List LoadedUnit) (name : String) (id : UnitId)
    (h : (registerAll loaded).2.lookup name = some id) : id < (registerAll loaded).1.length := by
  obtain ⟨unit, hunit, -⟩ := registerAll_sound loaded name id h
  exact (List.getElem?_eq_some_iff.mp hunit).1

/-- Lifting only produces edges between units of the list. -/
theorem liftInstall_lt (loaded : List LoadedUnit) (directive : UnitFile → List String)
    (t : UnitId) :
    ∀ u ∈ targetsOf (liftInstall (registerAll loaded).2 directive 0 (registerAll loaded).1 ∅) t,
      t < (registerAll loaded).1.length ∧ u < (registerAll loaded).1.length := by
  intro u hu
  rcases mem_liftInstall.mp hu with h | ⟨-, unit, hunit, name, -, ht⟩
  · simp at h
  · exact ⟨registerAll_lt loaded name t ht, (List.getElem?_eq_some_iff.mp hunit).1⟩

namespace UnitRegistry

def fromLoaded (loaded : List LoadedUnit) : UnitRegistry where
  units := (registerAll loaded).1
  byName := (registerAll loaded).2
  extraWants :=
    liftInstall (registerAll loaded).2 (·.install.wantedBy) 0 (registerAll loaded).1 ∅
  extraRequires :=
    liftInstall (registerAll loaded).2 (·.install.requiredBy) 0 (registerAll loaded).1 ∅
  byName_lt := registerAll_lt loaded
  extraWants_lt := liftInstall_lt loaded _
  extraRequires_lt := liftInstall_lt loaded _

variable (reg : UnitRegistry)

def len : ℕ := reg.units.length

/-- The unit of an id; the ids of a registry are in range. -/
def get (id : UnitId) : RegisteredUnit := reg.units.getD id default

def nameOf (id : UnitId) : String := (reg.get id).name

def lookup (name : String) : Option UnitId := reg.byName.lookup name

theorem lookup_lt {name : String} {id : UnitId} (h : reg.lookup name = some id) : id < reg.len :=
  reg.byName_lt name id h

/-- Inject a wanted-by edge after construction; both names must be loaded. -/
def addWantedBy (targetName unitName : String) : Except String UnitRegistry :=
  match htarget : reg.byName.lookup targetName with
  | none => .error ("unknown target: " ++ targetName)
  | some target =>
    match hunit : reg.byName.lookup unitName with
    | none => .error ("unknown unit: " ++ unitName)
    | some unit =>
      if unit ∈ targetsOf reg.extraWants target then .ok reg
      else .ok { reg with
        extraWants := pushEdge reg.extraWants target unit
        extraWants_lt := by
          intro t u hu
          rcases mem_targetsOf_pushEdge.mp hu with h | ⟨rfl, rfl⟩
          · exact reg.extraWants_lt t u h
          · exact ⟨reg.byName_lt targetName t htarget, reg.byName_lt unitName u hunit⟩ }

/-- The ids of the loaded ones among some names. -/
def pushNamed (names : List String) : List UnitId := names.filterMap reg.lookup

theorem mem_pushNamed {names : List String} {v : UnitId} :
    v ∈ reg.pushNamed names ↔ ∃ name ∈ names, reg.lookup name = some v :=
  List.mem_filterMap

end UnitRegistry

/-- `sort_by_key` on the id, then `dedup`. -/
def sortDedup (ids : List UnitId) : List UnitId :=
  (ids.insertionSort (· ≤ ·)).destutter (· ≠ ·)

theorem mem_sortDedup {ids : List UnitId} {v : UnitId} : v ∈ sortDedup ids ↔ v ∈ ids := by
  unfold sortDedup
  rw [(List.pairwise_insertionSort (· ≤ ·) ids).destutter_eq_dedup, List.mem_dedup,
    List.mem_insertionSort]

theorem sortDedup_eq_iff {ids ids' : List UnitId} :
    sortDedup ids = sortDedup ids' ↔ ∀ v, v ∈ ids ↔ v ∈ ids' := by
  constructor
  · intro h v
    rw [← mem_sortDedup, h, mem_sortDedup]
  · intro h
    unfold sortDedup
    rw [(List.pairwise_insertionSort (· ≤ ·) ids).destutter_eq_dedup,
      (List.pairwise_insertionSort (· ≤ ·) ids').destutter_eq_dedup]
    have hsorted : ∀ l : List UnitId, ((l.insertionSort (· ≤ ·)).dedup).Pairwise (· ≤ ·) :=
      fun l => (List.pairwise_insertionSort (· ≤ ·) l).sublist (List.dedup_sublist _)
    refine List.Perm.eq_of_pairwise' (hsorted ids) (hsorted ids') ?_
    refine (List.perm_ext_iff_of_nodup (List.nodup_dedup _) (List.nodup_dedup _)).mpr ?_
    intro v
    rw [List.mem_dedup, List.mem_dedup, List.mem_insertionSort, List.mem_insertionSort]
    exact h v

namespace UnitRegistry

variable (reg : UnitRegistry)

/-- The effective requirement edges out of `id`: wants, requires, binds-to and the lifted ones. -/
def requirementTargets (id : UnitId) : List UnitId :=
  let unit := (reg.get id).file.unit
  sortDedup (reg.pushNamed unit.wants ++ reg.pushNamed unit.requires ++
    reg.pushNamed unit.bindsTo ++ targetsOf reg.extraWants id ++ targetsOf reg.extraRequires id)

/-- The effective hard requirement edges out of `id`: requires, binds-to and lifted required-by. -/
def hardRequirementTargets (id : UnitId) : List UnitId :=
  let unit := (reg.get id).file.unit
  sortDedup (reg.pushNamed unit.requires ++ reg.pushNamed unit.bindsTo ++
    targetsOf reg.extraRequires id)

/-- `u` pulls in `v`: a declared want, requirement or binding, or a lifted `[install]` edge. -/
def Requires (u v : UnitId) : Prop :=
  (∃ name ∈ (reg.get u).file.unit.wants ++ (reg.get u).file.unit.requires ++
    (reg.get u).file.unit.bindsTo, reg.lookup name = some v) ∨
  v ∈ targetsOf reg.extraWants u ∨ v ∈ targetsOf reg.extraRequires u

/-- `v` is a hard requirement of `u`: requires, binds-to or lifted required-by. -/
def HardRequires (u v : UnitId) : Prop :=
  (∃ name ∈ (reg.get u).file.unit.requires ++ (reg.get u).file.unit.bindsTo,
    reg.lookup name = some v) ∨ v ∈ targetsOf reg.extraRequires u

theorem mem_requirementTargets {u v : UnitId} :
    v ∈ reg.requirementTargets u ↔ reg.Requires u v := by
  simp only [requirementTargets, Requires, mem_sortDedup, List.mem_append, mem_pushNamed,
    or_and_right, exists_or, or_assoc]

theorem mem_hardRequirementTargets {u v : UnitId} :
    v ∈ reg.hardRequirementTargets u ↔ reg.HardRequires u v := by
  simp only [hardRequirementTargets, HardRequires, mem_sortDedup, List.mem_append, mem_pushNamed,
    or_and_right, exists_or, or_assoc]

/-- Two registries have the same effective targets when they relate the same units. -/
theorem requirementTargets_eq_iff {reg reg' : UnitRegistry} (u : UnitId) :
    reg.requirementTargets u = reg'.requirementTargets u ↔
      ∀ v, reg.Requires u v ↔ reg'.Requires u v := by
  simp only [← mem_requirementTargets]
  constructor
  · intro h v
    rw [h]
  · intro h
    refine sortDedup_eq_iff.mpr (fun v => ?_)
    have hv := h v
    simpa only [requirementTargets, mem_sortDedup] using hv

theorem HardRequires.requires {reg : UnitRegistry} {u v : UnitId} (h : reg.HardRequires u v) :
    reg.Requires u v := by
  rcases h with ⟨name, hname, hv⟩ | h
  · refine Or.inl ⟨name, ?_, hv⟩
    rw [List.append_assoc]
    exact List.mem_append_right _ hname
  · exact Or.inr (Or.inr h)

theorem Requires.lt {reg : UnitRegistry} {u v : UnitId} (h : reg.Requires u v) : v < reg.len := by
  rcases h with ⟨name, -, hv⟩ | h | h
  · exact reg.lookup_lt hv
  · exact (reg.extraWants_lt u v h).2
  · exact (reg.extraRequires_lt u v h).2

/-- Out-of-range ids have no directives, so only units of the registry pull something in. -/
theorem get_eq_default {id : UnitId} (h : reg.len ≤ id) : reg.get id = default := by
  rw [get, List.getD_eq_getElem?_getD, List.getElem?_eq_none h, Option.getD_none]

theorem Requires.left_lt {reg : UnitRegistry} {u v : UnitId} (h : reg.Requires u v) :
    u < reg.len := by
  by_contra hge
  have hget := reg.get_eq_default (Nat.le_of_not_lt hge)
  rcases h with ⟨name, hname, -⟩ | h | h
  · rw [hget] at hname
    simp [default] at hname
  · exact hge (reg.extraWants_lt u v h).1
  · exact hge (reg.extraRequires_lt u v h).1

/-! ### Construction from loaded units -/

theorem registerAll_units (loaded : List LoadedUnit) (acc : List RegisteredUnit × NameIndex) :
    (loaded.foldl registerUnit acc).1 = acc.1 ++ loaded.map (fun lu => ⟨lu.name, lu.file⟩) := by
  induction loaded generalizing acc with
  | nil => simp
  | cons lu loaded ih =>
    rw [List.foldl_cons, ih]
    simp [registerUnit]

theorem fromLoaded_units (loaded : List LoadedUnit) :
    (fromLoaded loaded).units = loaded.map (fun lu => ⟨lu.name, lu.file⟩) :=
  registerAll_units loaded ([], ∅)

theorem registerAll_indexed (loaded : List LoadedUnit) (acc : List RegisteredUnit × NameIndex)
    (name : String) (h : name ∈ loaded.map LoadedUnit.name ∨ acc.2.lookup name ≠ none) :
    (loaded.foldl registerUnit acc).2.lookup name ≠ none := by
  induction loaded generalizing acc with
  | nil => simpa using h
  | cons lu loaded ih =>
    apply ih
    by_cases hname : name = lu.name
    · right
      simp [registerUnit, hname]
    · simp only [List.map_cons, List.mem_cons, hname, false_or] at h
      rcases h with h | h
      · exact Or.inl h
      · right
        simpa only [registerUnit, AList.lookup_insert_ne hname] using h

/-- The index is exact: with pairwise distinct names it maps each unit's name to its id. -/
def NamesExact (reg : UnitRegistry) : Prop :=
  ∀ name id, reg.lookup name = some id ↔ ∃ unit, reg.units[id]? = some unit ∧ unit.name = name

theorem fromLoaded_namesExact {loaded : List LoadedUnit}
    (hnames : (loaded.map LoadedUnit.name).Nodup) : (fromLoaded loaded).NamesExact := by
  intro name id
  refine ⟨registerAll_sound loaded name id, ?_⟩
  intro h
  obtain ⟨unit, hunit, rfl⟩ := h
  rw [fromLoaded_units, List.getElem?_map, Option.map_eq_some_iff] at hunit
  obtain ⟨lu, hlu, rfl⟩ := hunit
  have hmem : lu.name ∈ loaded.map LoadedUnit.name :=
    List.mem_map_of_mem (List.mem_of_getElem? hlu)
  have hsome := registerAll_indexed loaded ([], ∅) lu.name (Or.inl hmem)
  obtain ⟨id', hid'⟩ := Option.ne_none_iff_exists'.mp hsome
  obtain ⟨unit', hunit', hname'⟩ := registerAll_sound loaded lu.name id' hid'
  have hunits : (registerAll loaded).1 = loaded.map (fun lu => ⟨lu.name, lu.file⟩) :=
    fromLoaded_units loaded
  rw [hunits, List.getElem?_map, Option.map_eq_some_iff] at hunit'
  obtain ⟨lu', hlu', rfl⟩ := hunit'
  have hid : (loaded.map LoadedUnit.name)[id]? = some lu.name := by simp [hlu]
  have hid2 : (loaded.map LoadedUnit.name)[id']? = some lu.name := by simpa [hlu'] using hname'
  have hlt : id < (loaded.map LoadedUnit.name).length := (List.getElem?_eq_some_iff.mp hid).1
  have : id = id' := (List.getElem?_inj hlt hnames).mp (hid.trans hid2.symm)
  rw [this]
  exact hid'

theorem fromLoaded_extraWants (loaded : List LoadedUnit) {t v : UnitId} :
    v ∈ targetsOf (fromLoaded loaded).extraWants t ↔
      ∃ unit, (fromLoaded loaded).units[v]? = some unit ∧
        ∃ name ∈ unit.file.install.wantedBy, (fromLoaded loaded).lookup name = some t := by
  refine mem_liftInstall.trans ?_
  simp [fromLoaded, lookup]

theorem fromLoaded_extraRequires (loaded : List LoadedUnit) {t v : UnitId} :
    v ∈ targetsOf (fromLoaded loaded).extraRequires t ↔
      ∃ unit, (fromLoaded loaded).units[v]? = some unit ∧
        ∃ name ∈ unit.file.install.requiredBy, (fromLoaded loaded).lookup name = some t := by
  refine mem_liftInstall.trans ?_
  simp [fromLoaded, lookup]

/-! ### Injected edges -/

/-- What an injected edge leaves alone, and the one edge it adds. -/
theorem addWantedBy_spec {reg reg' : UnitRegistry} {targetName unitName : String}
    (h : reg.addWantedBy targetName unitName = .ok reg') :
    reg'.units = reg.units ∧ reg'.byName = reg.byName ∧ reg'.extraRequires = reg.extraRequires ∧
      ∃ target unit, reg.lookup targetName = some target ∧ reg.lookup unitName = some unit ∧
        ∀ t v, v ∈ targetsOf reg'.extraWants t ↔
          v ∈ targetsOf reg.extraWants t ∨ (t = target ∧ v = unit) := by
  unfold addWantedBy at h
  split at h
  · cases h
  · rename_i target htarget
    split at h
    · cases h
    · rename_i unit hunit
      split at h
      · rename_i hmem
        cases h
        refine ⟨rfl, rfl, rfl, target, unit, htarget, hunit, fun t v => ?_⟩
        constructor
        · exact Or.inl
        · intro h'
          rcases h' with h | ⟨rfl, rfl⟩
          · exact h
          · exact hmem
      · cases h
        exact ⟨rfl, rfl, rfl, target, unit, htarget, hunit, fun t v => mem_targetsOf_pushEdge⟩

/-- An injected edge is refused exactly when one of the names is not loaded. -/
theorem addWantedBy_ok_iff (targetName unitName : String) :
    (∃ reg', reg.addWantedBy targetName unitName = .ok reg') ↔
      reg.lookup targetName ≠ none ∧ reg.lookup unitName ≠ none := by
  unfold addWantedBy lookup
  split
  · rename_i h
    simp [h]
  · rename_i h
    split
    · rename_i h'
      simp [h']
    · rename_i h'
      split <;> simp [h, h']

end UnitRegistry

end WriteonceOs.Svc
