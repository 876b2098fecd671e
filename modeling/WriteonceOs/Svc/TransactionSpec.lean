import WriteonceOs.Library.Relabel
import WriteonceOs.Svc.Transaction

/-!
# What the transactions contain, in terms of the unit files

The abstract view of a registry is its list of loaded units and the list of injected wanted-by
pairs: which unit names pull in which, and which must precede which.  With pairwise distinct names
the ids of the registry are a relabelling of the names, so what the code computes over ids carries
over.

* `requires_relabelling`, `precede_relabelling` — the two relations of the registry are those of the
  unit files;
* `StartCorrect`, `StopCorrect` — what the two transactions of an anchor should be: their content,
  their order, and when they are refused;
* `buildTransaction_correct`, `buildStopTransaction_correct` — they are, when the in-degrees of the
  sort have no bound.
-/

namespace WriteonceOs.Svc

open WriteonceOs.Library Relation

/-! ### The relations of the unit files -/

/-- One of `A`'s wants, requires or binds-to, one of `B`'s `[install]` directives, or an injected
pair makes `A` pull in `B`. -/
def LoadedUnit.PullsIn (injected : List (String × String)) (A B : LoadedUnit) : Prop :=
  B.name ∈ A.file.unit.wants ∨ B.name ∈ A.file.unit.requires ∨ B.name ∈ A.file.unit.bindsTo ∨
    A.name ∈ B.file.install.wantedBy ∨ (A.name, B.name) ∈ injected ∨
    A.name ∈ B.file.install.requiredBy

/-- `B` lists `A` in `after`, or `A` lists `B` in `before`. -/
def LoadedUnit.OrderedBefore (A B : LoadedUnit) : Prop :=
  A.name ∈ B.file.unit.after ∨ B.name ∈ A.file.unit.before

/-- The unit named `a` pulls in the unit named `b`. -/
def Pulls (loaded : List LoadedUnit) (injected : List (String × String)) (a b : String) : Prop :=
  ∃ A ∈ loaded, ∃ B ∈ loaded, A.name = a ∧ B.name = b ∧ A.PullsIn injected B

/-- The unit named `a` must stand before the unit named `b`. -/
def Precedes (loaded : List LoadedUnit) (a b : String) : Prop :=
  ∃ A ∈ loaded, ∃ B ∈ loaded, A.name = a ∧ B.name = b ∧ A.OrderedBefore B

/-- Everything the anchor pulls in, itself included: the least such set. -/
def Needed (loaded : List LoadedUnit) (injected : List (String × String)) (anchor : String) :
    String → Prop :=
  ReflTransGen (Pulls loaded injected) anchor

/-- Everything that pulls in the anchor, itself included. -/
def Dependent (loaded : List LoadedUnit) (injected : List (String × String)) (anchor : String) :
    String → Prop :=
  fun n => ReflTransGen (Pulls loaded injected) n anchor

/-- The ordering relation between the members of a set of names. -/
def PrecedesIn (loaded : List LoadedUnit) (S : String → Prop) (a b : String) : Prop :=
  S a ∧ S b ∧ Precedes loaded a b

namespace UnitRegistry

/-- Inject wanted-by pairs; a pair with an unknown name is skipped, as the boot loader does. -/
def inject (reg : UnitRegistry) (injected : List (String × String)) : UnitRegistry :=
  injected.foldl (fun reg p =>
    match reg.addWantedBy p.1 p.2 with
    | .ok reg' => reg'
    | .error _ => reg) reg

theorem inject_spec (injected : List (String × String)) (reg : UnitRegistry) :
    (reg.inject injected).units = reg.units ∧ (reg.inject injected).byName = reg.byName ∧
      (reg.inject injected).extraRequires = reg.extraRequires ∧
      ∀ t v, v ∈ targetsOf (reg.inject injected).extraWants t ↔
        v ∈ targetsOf reg.extraWants t ∨
          ∃ p ∈ injected, reg.lookup p.1 = some t ∧ reg.lookup p.2 = some v := by
  induction injected generalizing reg with
  | nil => simp [inject]
  | cons p injected ih =>
    simp only [inject, List.foldl_cons] at ih ⊢
    cases hp : reg.addWantedBy p.1 p.2 with
    | error e =>
      obtain ⟨hu, hn, hr, hw⟩ := ih reg
      refine ⟨hu, hn, hr, fun t v => ?_⟩
      rw [hw t v, List.exists_mem_cons_iff]
      have hno : ¬ (reg.lookup p.1 = some t ∧ reg.lookup p.2 = some v) := by
        intro h
        obtain ⟨h₁, h₂⟩ := h
        obtain ⟨reg', hok⟩ := (reg.addWantedBy_ok_iff p.1 p.2).mpr ⟨by simp [h₁], by simp [h₂]⟩
        rw [hp] at hok
        cases hok
      simp [hno]
    | ok reg' =>
      obtain ⟨hu', hn', hr', target, unit, ht, hv, hw'⟩ := addWantedBy_spec hp
      obtain ⟨hu, hn, hr, hw⟩ := ih reg'
      have hlookup : ∀ name, reg'.lookup name = reg.lookup name := by
        intro name
        rw [lookup, hn', lookup]
      refine ⟨hu.trans hu', hn.trans hn', hr.trans hr', fun t v => ?_⟩
      rw [hw t v, hw' t v, List.exists_mem_cons_iff, ht, hv]
      simp only [hlookup, Option.some.injEq, or_assoc, eq_comm]

end UnitRegistry

/-- The registry of the loaded units after injecting the pairs. -/
def builtRegistry (loaded : List LoadedUnit) (injected : List (String × String)) : UnitRegistry :=
  (UnitRegistry.fromLoaded loaded).inject injected

section Bridge

variable {loaded : List LoadedUnit} {injected : List (String × String)}

theorem built_units : (builtRegistry loaded injected).units =
    loaded.map (fun lu => ⟨lu.name, lu.file⟩) :=
  (UnitRegistry.inject_spec injected _).1.trans (UnitRegistry.fromLoaded_units loaded)

theorem built_len (injected : List (String × String)) :
    (builtRegistry loaded injected).len = loaded.length := by
  rw [UnitRegistry.len, built_units, List.length_map]

theorem built_lookup (injected : List (String × String)) (name : String) :
    (builtRegistry loaded injected).lookup name =
    (UnitRegistry.fromLoaded loaded).lookup name := by
  rw [UnitRegistry.lookup, builtRegistry, (UnitRegistry.inject_spec injected _).2.1]
  rfl

/-- A unit of the registry is the loaded unit at its id. -/
theorem built_get {id : UnitId} {lu : LoadedUnit} (h : loaded[id]? = some lu) :
    (builtRegistry loaded injected).get id = ⟨lu.name, lu.file⟩ := by
  rw [UnitRegistry.get, List.getD_eq_getElem?_getD, built_units, List.getElem?_map, h]
  rfl

theorem exists_loaded {id : UnitId} (h : id < (builtRegistry loaded injected).len) :
    ∃ lu, loaded[id]? = some lu := by
  rw [built_len] at h
  exact ⟨_, List.getElem?_eq_getElem h⟩

variable (hnames : (loaded.map LoadedUnit.name).Nodup)

include hnames

/-- With distinct names, a relation between named units relates the units themselves. -/
theorem exists_named_iff {P : LoadedUnit → LoadedUnit → Prop} {A B : LoadedUnit} (hA : A ∈ loaded)
    (hB : B ∈ loaded) :
    (∃ A' ∈ loaded, ∃ B' ∈ loaded, A'.name = A.name ∧ B'.name = B.name ∧ P A' B') ↔ P A B := by
  constructor
  · intro h'
    obtain ⟨A', hA', B', hB', ha, hb, h⟩ := h'
    rw [List.inj_on_of_nodup_map hnames hA' hA ha, List.inj_on_of_nodup_map hnames hB' hB hb] at h
    exact h
  · intro h
    exact ⟨A, hA, B, hB, rfl, rfl, h⟩

/-- A name is looked up to the id of the unit that carries it. -/
theorem built_lookup_iff (injected : List (String × String)) {name : String} {id : UnitId} :
    (builtRegistry loaded injected).lookup name = some id ↔
      ∃ lu, loaded[id]? = some lu ∧ lu.name = name := by
  rw [built_lookup, UnitRegistry.fromLoaded_namesExact hnames name id,
    UnitRegistry.fromLoaded_units, List.getElem?_map]
  cases loaded[id]? with
  | none => simp
  | some lu => simp

theorem loaded_ext {id id' : UnitId} {lu lu' : LoadedUnit} (h : loaded[id]? = some lu)
    (h' : loaded[id']? = some lu') (hn : lu.name = lu'.name) : id = id' := by
  have h₁ := (built_lookup_iff hnames []).mpr ⟨lu, h, rfl⟩
  have h₂ := (built_lookup_iff hnames []).mpr ⟨lu', h', rfl⟩
  rw [hn, h₂] at h₁
  exact (Option.some.inj h₁).symm

theorem mem_loaded_lookup (injected : List (String × String)) {lu : LoadedUnit} (h : lu ∈ loaded) :
    ∃ id, loaded[id]? = some lu ∧ (builtRegistry loaded injected).lookup lu.name = some id := by
  obtain ⟨id, hid⟩ := List.mem_iff_getElem?.mp h
  exact ⟨id, hid, (built_lookup_iff hnames _).mpr ⟨lu, hid, rfl⟩⟩

/-- Both relations of the registry relate exactly the labelled ids of loaded units. -/
theorem built_relabelling {r : UnitId → UnitId → Prop} {s : String → String → Prop}
    (hr : ∀ {u v}, r u v → u < (builtRegistry loaded injected).len ∧
      v < (builtRegistry loaded injected).len)
    (hs : ∀ {a b}, s a b → ∃ A ∈ loaded, ∃ B ∈ loaded, A.name = a ∧ B.name = b)
    (hrs : ∀ {u v A B}, loaded[u]? = some A → loaded[v]? = some B → (r u v ↔ s A.name B.name)) :
    Relabelling (· < (builtRegistry loaded injected).len)
      (builtRegistry loaded injected).nameOf r s where
  inj := by
    intro u v hu hv huv
    obtain ⟨A, hA⟩ := exists_loaded hu
    obtain ⟨B, hB⟩ := exists_loaded hv
    rw [UnitRegistry.nameOf, UnitRegistry.nameOf, built_get hA, built_get hB] at huv
    exact loaded_ext hnames hA hB huv
  dom := hr
  cod := by
    intro a b hab
    obtain ⟨A, hA, B, hB, rfl, rfl⟩ := hs hab
    obtain ⟨u, hu, hlu⟩ := mem_loaded_lookup hnames injected hA
    obtain ⟨v, hv, hlv⟩ := mem_loaded_lookup hnames injected hB
    exact ⟨u, v, UnitRegistry.lookup_lt _ hlu, UnitRegistry.lookup_lt _ hlv,
      by rw [UnitRegistry.nameOf, built_get hu], by rw [UnitRegistry.nameOf, built_get hv]⟩
  iff := by
    intro u v hu hv
    obtain ⟨A, hA⟩ := exists_loaded hu
    obtain ⟨B, hB⟩ := exists_loaded hv
    rw [UnitRegistry.nameOf, UnitRegistry.nameOf, built_get hA, built_get hB]
    exact hrs hA hB

/-- A name list resolves to `v` exactly when it holds `v`'s name. -/
theorem exists_name_iff {names : List String} {v : UnitId} {B : LoadedUnit}
    (hB : loaded[v]? = some B) :
    (∃ name ∈ names, (builtRegistry loaded injected).lookup name = some v) ↔ B.name ∈ names := by
  constructor
  · intro h
    obtain ⟨name, hname, hv⟩ := h
    obtain ⟨lu, hlu, rfl⟩ := (built_lookup_iff hnames _).mp hv
    rw [hB, Option.some.injEq] at hlu
    exact hlu ▸ hname
  · intro hname
    exact ⟨B.name, hname, (built_lookup_iff hnames _).mpr ⟨B, hB, rfl⟩⟩

/-- A lifted directive of `v` names `u` exactly when it holds `u`'s name. -/
theorem lifted_iff (directive : UnitFile → List String) {u v : UnitId} {A B : LoadedUnit}
    (hA : loaded[u]? = some A) (hB : loaded[v]? = some B) :
    (∃ unit, (UnitRegistry.fromLoaded loaded).units[v]? = some unit ∧
      ∃ name ∈ directive unit.file, (UnitRegistry.fromLoaded loaded).lookup name = some u) ↔
      A.name ∈ directive B.file := by
  have hunit : (UnitRegistry.fromLoaded loaded).units[v]? = some ⟨B.name, B.file⟩ := by
    rw [UnitRegistry.fromLoaded_units, List.getElem?_map, hB]
    rfl
  simp only [hunit, Option.some.injEq, exists_eq_left', ← built_lookup []]
  exact exists_name_iff hnames hA

/-- **The requirement edges of the registry are those of the unit files.** -/
theorem requires_relabelling : Relabelling (· < (builtRegistry loaded injected).len)
    (builtRegistry loaded injected).nameOf (builtRegistry loaded injected).Requires
    (Pulls loaded injected) := by
  refine built_relabelling hnames (fun h => ⟨h.left_lt, h.lt⟩) ?_ ?_
  · rintro a b ⟨A, hA, B, hB, ha, hb, -⟩
    exact ⟨A, hA, B, hB, ha, hb⟩
  · intro u v A B hA hB
    obtain ⟨-, -, hreq, hwants⟩ :=
      UnitRegistry.inject_spec injected (UnitRegistry.fromLoaded loaded)
    have hpair : (∃ p ∈ injected, (UnitRegistry.fromLoaded loaded).lookup p.1 = some u ∧
        (UnitRegistry.fromLoaded loaded).lookup p.2 = some v) ↔ (A.name, B.name) ∈ injected := by
      simp only [← built_lookup injected, built_lookup_iff hnames _]
      constructor
      · intro h'
        obtain ⟨p, hp, ⟨A', hA', ha⟩, ⟨B', hB', hb⟩⟩ := h'
        rw [hA, Option.some.injEq] at hA'
        rw [hB, Option.some.injEq] at hB'
        rw [hA', hB', ha, hb]
        exact hp
      · intro hp
        exact ⟨_, hp, ⟨A, hA, rfl⟩, ⟨B, hB, rfl⟩⟩
    unfold UnitRegistry.Requires
    rw [exists_name_iff hnames hB, built_get hA, builtRegistry, hwants, hreq,
      UnitRegistry.fromLoaded_extraWants, UnitRegistry.fromLoaded_extraRequires,
      lifted_iff hnames (·.install.wantedBy) hA hB,
      lifted_iff hnames (·.install.requiredBy) hA hB, hpair]
    simp only [List.mem_append, or_assoc]
    exact (exists_named_iff (P := fun A B => A.PullsIn injected B) hnames
      (List.mem_of_getElem? hA) (List.mem_of_getElem? hB)).symm

/-- **The ordering directives of the registry are those of the unit files.** -/
theorem precede_relabelling : Relabelling (· < (builtRegistry loaded injected).len)
    (builtRegistry loaded injected).nameOf (builtRegistry loaded injected).MustPrecede
    (Precedes loaded) := by
  refine built_relabelling hnames (fun h => h.lt) ?_ ?_
  · rintro a b ⟨A, hA, B, hB, ha, hb, -⟩
    exact ⟨A, hA, B, hB, ha, hb⟩
  · intro u v A B hA hB
    unfold UnitRegistry.MustPrecede
    rw [exists_name_iff hnames hA, exists_name_iff hnames hB, built_get hA, built_get hB]
    exact (exists_named_iff (P := LoadedUnit.OrderedBefore) hnames
      (List.mem_of_getElem? hA) (List.mem_of_getElem? hB)).symm

/-! ### Sorted sets of names -/

/-- The labels of a set of ids. -/
structure Labels (loaded : List LoadedUnit) (injected : List (String × String))
    (set : List UnitId) (S : String → Prop) : Prop where
  nodup : set.Nodup
  lt : ∀ u ∈ set, u < (builtRegistry loaded injected).len
  iff : ∀ n, S n ↔ ∃ u ∈ set, (builtRegistry loaded injected).nameOf u = n

variable {set : List UnitId} {S : String → Prop}

/-- Different units have different names. -/
theorem built_nameOf_inj {u v : UnitId} (hu : u < (builtRegistry loaded injected).len)
    (hv : v < (builtRegistry loaded injected).len)
    (h : (builtRegistry loaded injected).nameOf u = (builtRegistry loaded injected).nameOf v) :
    u = v :=
  (precede_relabelling hnames).inj hu hv h

theorem Labels.mem_iff (h : Labels loaded injected set S) {u : UnitId}
    (hu : u < (builtRegistry loaded injected).len) :
    u ∈ set ↔ S ((builtRegistry loaded injected).nameOf u) := by
  rw [h.iff]
  constructor
  · intro hmem
    exact ⟨u, hmem, rfl⟩
  · intro h'
    obtain ⟨v, hv, hvu⟩ := h'
    exact built_nameOf_inj hnames (h.lt v hv) hu hvu ▸ hv

/-- Restricting both ordering relations keeps them a relabelling. -/
theorem Labels.relabelling (h : Labels loaded injected set S) :
    Relabelling (· < (builtRegistry loaded injected).len) (builtRegistry loaded injected).nameOf
      ((builtRegistry loaded injected).MustPrecedeIn set) (PrecedesIn loaded S) where
  inj := built_nameOf_inj hnames
  dom := fun huv => ⟨h.lt _ huv.1, h.lt _ huv.2.1⟩
  cod := fun hab => (precede_relabelling hnames).cod hab.2.2
  iff := fun hu hv => and_congr (h.mem_iff hnames hu)
    (and_congr (h.mem_iff hnames hv) ((precede_relabelling hnames).iff hu hv))

/-- A returned order, as a list of names. -/
theorem Labels.order_ok (h : Labels loaded injected set S) {ords : HashOrders}
    {sorted : List UnitId}
    (hok : (builtRegistry loaded injected).orderUnits ords set = .ok sorted) :
    (∀ u ∈ sorted, u < loaded.length) ∧
      (sorted.map (builtRegistry loaded injected).nameOf).Nodup ∧
      (∀ n, n ∈ sorted.map (builtRegistry loaded injected).nameOf ↔ S n) ∧
      ∀ a b, PrecedesIn loaded S a b →
        Before (sorted.map (builtRegistry loaded injected).nameOf) a b := by
  obtain ⟨hperm, hbefore⟩ := UnitRegistry.orderUnits_ok _ h.nodup hok
  have hlt : ∀ u ∈ sorted, u < (builtRegistry loaded injected).len :=
    fun u hu => h.lt u (hperm.mem_iff.mp hu)
  refine ⟨fun u hu => built_len injected ▸ hlt u hu, ?_, ?_, ?_⟩
  · refine (hperm.nodup_iff.mpr h.nodup).map_on fun u hu v hv huv => ?_
    exact built_nameOf_inj hnames (hlt u hu) (hlt v hv) huv
  · intro n
    rw [h.iff, List.mem_map]
    simp only [hperm.mem_iff]
  · intro a b hab
    obtain ⟨u, v, hu, hv, rfl, rfl⟩ := (h.relabelling hnames).cod hab
    exact (hbefore u v (((h.relabelling hnames).iff hu hv).mpr hab)).map _

theorem Labels.order_error_iff (h : Labels loaded injected set S) (ords : HashOrders) :
    (∃ names, (builtRegistry loaded injected).orderUnits ords set = .error names) ↔
      ∃ n, TransGen (PrecedesIn loaded S) n n := by
  rw [UnitRegistry.orderUnits_error_iff _ ords h.nodup]
  exact (h.relabelling hnames).cycle_iff.symm

/-- The start closure of a unit is labelled by what its name needs. -/
theorem startClosure_labels {id : UnitId} (hid : id < (builtRegistry loaded injected).len) :
    Labels loaded injected ((builtRegistry loaded injected).startClosure id)
      (Needed loaded injected ((builtRegistry loaded injected).nameOf id)) where
  nodup := UnitRegistry.startClosure_nodup _ hid
  lt := fun u hu => List.mem_range.mp
    (UnitRegistry.start_universe _ hid u ((UnitRegistry.requirementTargets_fun _).symm ▸
      (UnitRegistry.mem_startClosure _ hid u).mp hu))
  iff := by
    intro n
    rw [Needed, (requires_relabelling hnames).reflTransGen_iff hid]
    constructor
    · intro h
      obtain ⟨u, -, hn, hr⟩ := h
      exact ⟨u, (UnitRegistry.mem_startClosure _ hid u).mpr hr, hn⟩
    · intro h
      obtain ⟨u, hu, hn⟩ := h
      have hr := (UnitRegistry.mem_startClosure _ hid u).mp hu
      exact ⟨u, (requires_relabelling hnames).reachable_dom hid hr, hn, hr⟩

/-- The stop closure of a unit is labelled by what depends on its name. -/
theorem stopClosure_labels {id : UnitId} (hid : id < (builtRegistry loaded injected).len) :
    Labels loaded injected ((builtRegistry loaded injected).stopClosure id)
      (Dependent loaded injected ((builtRegistry loaded injected).nameOf id)) where
  nodup := UnitRegistry.stopClosure_nodup _ hid
  lt := fun u hu => (requires_relabelling hnames).swap.reachable_dom hid
    (reflTransGen_swap.mpr ((UnitRegistry.mem_stopClosure _ hid u).mp hu))
  iff := by
    intro n
    rw [Dependent, ← reflTransGen_swap, (requires_relabelling hnames).swap.reflTransGen_iff hid]
    simp only [reflTransGen_swap]
    constructor
    · intro h
      obtain ⟨u, -, hn, hr⟩ := h
      exact ⟨u, (UnitRegistry.mem_stopClosure _ hid u).mpr hr, hn⟩
    · intro h
      obtain ⟨u, hu, hn⟩ := h
      have hr := (UnitRegistry.mem_stopClosure _ hid u).mp hu
      exact ⟨u, (requires_relabelling hnames).swap.reachable_dom hid (reflTransGen_swap.mpr hr),
        hn, hr⟩

/-- An anchor is unknown exactly when no loaded unit carries its name. -/
theorem built_lookup_none (injected : List (String × String)) {anchor : String} :
    (builtRegistry loaded injected).lookup anchor = none ↔
      anchor ∉ loaded.map LoadedUnit.name := by
  rw [Option.eq_none_iff_forall_ne_some, List.mem_map]
  constructor
  · rintro h ⟨lu, hlu, rfl⟩
    obtain ⟨id, -, hid⟩ := mem_loaded_lookup hnames injected hlu
    exact h id hid
  · intro h id hid
    obtain ⟨lu, hlu, hn⟩ := (built_lookup_iff hnames _).mp hid
    exact h ⟨lu, List.mem_of_getElem? hlu, hn⟩

theorem built_nameOf_lookup {anchor : String} {id : UnitId}
    (h : (builtRegistry loaded injected).lookup anchor = some id) :
    (builtRegistry loaded injected).nameOf id = anchor := by
  obtain ⟨lu, hlu, rfl⟩ := (built_lookup_iff hnames _).mp h
  rw [UnitRegistry.nameOf, built_get hlu]

end Bridge

/-! ### The two transactions -/

/-- Directives of units that are not loaded order nothing. -/
theorem no_cycle_of_unknown {loaded : List LoadedUnit} {S : String → Prop}
    (hS : ∀ n, S n → n ∉ loaded.map LoadedUnit.name) :
    ¬ ∃ n, TransGen (PrecedesIn loaded S) n n := by
  intro h
  obtain ⟨n, hn⟩ := h
  obtain ⟨m, ⟨hSn, -, A, hA, -, -, rfl, -⟩, -⟩ := TransGen.head'_iff.mp hn
  exact hS _ hSn (List.mem_map_of_mem hA)

theorem needed_unknown {loaded : List LoadedUnit} {injected : List (String × String)}
    {anchor n : String} (hanchor : anchor ∉ loaded.map LoadedUnit.name)
    (h : Needed loaded injected anchor n) : n = anchor := by
  cases h using ReflTransGen.head_induction_on with
  | refl => rfl
  | head hpull _ =>
    obtain ⟨A, hA, -, -, rfl, -⟩ := hpull
    exact absurd (List.mem_map_of_mem hA) hanchor

theorem dependent_unknown {loaded : List LoadedUnit} {injected : List (String × String)}
    {anchor n : String} (hanchor : anchor ∉ loaded.map LoadedUnit.name)
    (h : Dependent loaded injected anchor n) : n = anchor := by
  rcases ReflTransGen.cases_tail h with h | ⟨m, -, -, -, B, hB, -, rfl, -⟩
  · exact h.symm
  · exact absurd (List.mem_map_of_mem hB) hanchor

/-- **What a start transaction should be**: refused for an unknown anchor or a cycle of the
directives inside what the anchor needs, and for nothing else; otherwise exactly the needed units,
once each, as waiting start jobs, in an order that respects every directive. -/
structure StartCorrect (loaded : List LoadedUnit) (injected : List (String × String))
    (anchor : String) (result : Except TransactionError (List Job)) : Prop where
  unknown : (∃ n, result = .error (.unknownUnit n)) ↔ anchor ∉ loaded.map LoadedUnit.name
  plan : ∀ plan, result = .ok plan →
    let names := plan.map fun job => (builtRegistry loaded injected).nameOf job.unit
    (∀ job ∈ plan, job.unit < loaded.length ∧ job.kind = .start ∧ job.state = .waiting) ∧
      names.Nodup ∧ (∀ n, n ∈ names ↔ Needed loaded injected anchor n) ∧
      ∀ a b, PrecedesIn loaded (Needed loaded injected anchor) a b → Before names a b
  cycle : (∃ ns, result = .error (.orderingCycle ns)) ↔
    ∃ n, TransGen (PrecedesIn loaded (Needed loaded injected anchor)) n n

/-- **What a stop transaction should be**: refused for an unknown anchor or a cycle of the
directives among the units that depend on the anchor; otherwise exactly these, once each, with every
directive reversed. -/
structure StopCorrect (loaded : List LoadedUnit) (injected : List (String × String))
    (anchor : String) (result : Except TransactionError (List UnitId)) : Prop where
  unknown : (∃ n, result = .error (.unknownUnit n)) ↔ anchor ∉ loaded.map LoadedUnit.name
  order : ∀ order, result = .ok order →
    let names := order.map (builtRegistry loaded injected).nameOf
    (∀ u ∈ order, u < loaded.length) ∧
      names.Nodup ∧ (∀ n, n ∈ names ↔ Dependent loaded injected anchor n) ∧
      ∀ a b, PrecedesIn loaded (Dependent loaded injected anchor) a b → Before names b a
  cycle : (∃ ns, result = .error (.orderingCycle ns)) ↔
    ∃ n, TransGen (PrecedesIn loaded (Dependent loaded injected anchor)) n n

section Unbounded

variable {loaded : List LoadedUnit} (hnames : (loaded.map LoadedUnit.name).Nodup)
  (ords : HashOrders) (injected : List (String × String)) (anchor : String)

include hnames

theorem mem_of_lookup {id : UnitId}
    (h : (builtRegistry loaded injected).lookup anchor = some id) :
    anchor ∈ loaded.map LoadedUnit.name := by
  by_contra hno
  rw [(built_lookup_none hnames injected).mpr hno] at h
  cases h

/-- **The start transaction** of the unbounded sort. -/
theorem buildTransaction_correct : StartCorrect loaded injected anchor
    ((builtRegistry loaded injected).buildTransaction ords anchor) := by
  rw [UnitRegistry.buildTransaction]
  cases hlookup : (builtRegistry loaded injected).lookup anchor with
  | none =>
    have hanchor := (built_lookup_none hnames _).mp hlookup
    have hno := no_cycle_of_unknown (S := Needed loaded injected anchor)
      (fun n hn => needed_unknown hanchor hn ▸ hanchor)
    exact ⟨iff_of_true ⟨anchor, rfl⟩ hanchor, nofun, iff_of_false nofun hno⟩
  | some id =>
    have hanchor := mem_of_lookup hnames injected anchor hlookup
    have hlabels := startClosure_labels hnames (UnitRegistry.lookup_lt _ hlookup)
    rw [built_nameOf_lookup hnames hlookup] at hlabels
    have hcycle := hlabels.order_error_iff hnames ords
    dsimp only
    cases horder : (builtRegistry loaded injected).orderUnits ords
        ((builtRegistry loaded injected).startClosure id) with
    | error names =>
      rw [horder] at hcycle
      exact ⟨iff_of_false nofun (absurd hanchor), nofun,
        iff_of_true ⟨names, rfl⟩ (hcycle.mp ⟨names, rfl⟩)⟩
    | ok sorted =>
      rw [horder] at hcycle
      obtain ⟨hlt, hnd, hmem, hbefore⟩ := hlabels.order_ok hnames horder
      refine ⟨iff_of_false nofun (absurd hanchor), fun plan hplan => ?_,
        iff_of_false nofun fun h => nomatch hcycle.mpr h⟩
      obtain rfl := Except.ok.inj hplan
      have hmap : (sorted.map fun u => (⟨u, .start, .waiting⟩ : Job)).map
          (fun job => (builtRegistry loaded injected).nameOf job.unit) =
            sorted.map (builtRegistry loaded injected).nameOf := List.map_map
      dsimp only
      rw [hmap]
      refine ⟨fun job hjob => ?_, hnd, hmem, hbefore⟩
      obtain ⟨u, hu, rfl⟩ := List.mem_map.mp hjob
      exact ⟨hlt u hu, rfl, rfl⟩

/-- **The stop transaction** of the unbounded sort. -/
theorem buildStopTransaction_correct : StopCorrect loaded injected anchor
    ((builtRegistry loaded injected).buildStopTransaction ords anchor) := by
  rw [UnitRegistry.buildStopTransaction]
  cases hlookup : (builtRegistry loaded injected).lookup anchor with
  | none =>
    have hanchor := (built_lookup_none hnames _).mp hlookup
    have hno := no_cycle_of_unknown (S := Dependent loaded injected anchor)
      (fun n hn => dependent_unknown hanchor hn ▸ hanchor)
    exact ⟨iff_of_true ⟨anchor, rfl⟩ hanchor, nofun, iff_of_false nofun hno⟩
  | some id =>
    have hanchor := mem_of_lookup hnames injected anchor hlookup
    have hlabels := stopClosure_labels hnames (UnitRegistry.lookup_lt _ hlookup)
    rw [built_nameOf_lookup hnames hlookup] at hlabels
    have hcycle := hlabels.order_error_iff hnames ords
    dsimp only
    cases horder : (builtRegistry loaded injected).orderUnits ords
        ((builtRegistry loaded injected).stopClosure id) with
    | error names =>
      rw [horder] at hcycle
      exact ⟨iff_of_false nofun (absurd hanchor), nofun,
        iff_of_true ⟨names, rfl⟩ (hcycle.mp ⟨names, rfl⟩)⟩
    | ok sorted =>
      rw [horder] at hcycle
      obtain ⟨hlt, hnd, hmem, hbefore⟩ := hlabels.order_ok hnames horder
      refine ⟨iff_of_false nofun (absurd hanchor), fun order horder => ?_,
        iff_of_false nofun fun h => nomatch hcycle.mpr h⟩
      obtain rfl := Except.ok.inj horder
      dsimp only
      rw [List.map_reverse]
      refine ⟨fun u hu => hlt u (List.mem_reverse.mp hu), List.nodup_reverse.mpr hnd,
        fun n => ?_, fun a b hab => before_reverse.mpr (hbefore a b hab)⟩
      rw [List.mem_reverse]
      exact hmem n

end Unbounded

/-- A service that requires a database and starts after it. -/
def webAndDb : List LoadedUnit :=
  [⟨"db.service", { service := some { execStart := "/bin/db" } }⟩,
    ⟨"web.service",
      { unit := { after := ["db.service"], requires := ["db.service"] }
        service := some { execStart := "/bin/web" } }⟩]

end WriteonceOs.Svc
