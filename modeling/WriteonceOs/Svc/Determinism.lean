import WriteonceOs.Svc.TransactionSpec

/-!
# Transactions are functions of the unit files

Two runs may list the unit directory in different orders and iterate every hash container
differently; the plans they compute are the same.

* `buildTransaction_hash`, `buildStopTransaction_hash` — one registry, two iteration orders;
* `transactions_deterministic` — from the directory listing to both plans.
-/

namespace WriteonceOs.Svc

open WriteonceOs.Library

/-- Two runs with one outcome: both return the same value, or both fail. -/
theorem toOption_eq_cases {ε α : Type} {x y : Except ε α} (h : x.toOption = y.toOption) :
    (∃ a, x = .ok a ∧ y = .ok a) ∨ ∃ e e', x = .error e ∧ y = .error e' := by
  cases x with
  | ok a =>
    cases y with
    | ok b =>
      cases h
      exact Or.inl ⟨a, rfl, rfl⟩
    | error e => cases h
  | error e =>
    cases y with
    | ok b => cases h
    | error e' => exact Or.inr ⟨e, e', rfl, rfl⟩

namespace UnitRegistry

variable (reg : UnitRegistry)

theorem orderUnits_hash_eq (ords ords' : HashOrders) (set : List UnitId) :
    (reg.orderUnits ords set).toOption = (reg.orderUnits ords' set).toOption := by
  cases h : reg.orderUnits ords set with
  | ok sorted => rw [reg.orderUnits_hash h]
  | error names =>
    cases h' : reg.orderUnits ords' set with
    | error names' => rfl
    | ok sorted =>
      rw [reg.orderUnits_hash h'] at h
      cases h

/-- A transaction is its order or nothing, whatever the cycle's names are. -/
theorem buildTransaction_hash (ords ords' : HashOrders) (anchor : String) :
    (reg.buildTransaction ords anchor).toOption = (reg.buildTransaction ords' anchor).toOption := by
  unfold buildTransaction
  cases reg.lookup anchor with
  | none => rfl
  | some id =>
    rcases toOption_eq_cases (reg.orderUnits_hash_eq ords ords' (reg.startClosure id)) with
      ⟨sorted, h, h'⟩ | ⟨names, names', h, h'⟩
    · simp only [h, h']
    · simp only [h, h', Except.toOption]

theorem buildStopTransaction_hash (ords ords' : HashOrders) (anchor : String) :
    (reg.buildStopTransaction ords anchor).toOption =
      (reg.buildStopTransaction ords' anchor).toOption := by
  unfold buildStopTransaction
  cases reg.lookup anchor with
  | none => rfl
  | some id =>
    rcases toOption_eq_cases (reg.orderUnits_hash_eq ords ords' (reg.stopClosure id)) with
      ⟨sorted, h, h'⟩ | ⟨names, names', h, h'⟩
    · simp only [h, h']
    · simp only [h, h', Except.toOption]

end UnitRegistry

/-! ### From the directory to the plan -/

/-- A directory: entries with pairwise different file names. -/
structure Directory where
  entries : List (Except IoError DirEntry)
  distinct : (fileNames entries).Nodup

inductive BootError where
  | load (e : IoError)
  | transaction (e : TransactionError)

/-- The registry at boot: the loaded units, each enabled one wanted by the multi-user target. -/
def bootRegistry (fromStr : String → Except IoError UnitFile)
    (listing : List (Except IoError DirEntry)) (enabledUnits : List String) :
    Except BootError UnitRegistry :=
  match loadDirectory fromStr listing with
  | .error e => .error (.load e)
  | .ok loaded =>
    .ok (builtRegistry loaded (enabledUnits.map fun name => ("multi-user.target", name)))

/-- The activation plan at boot. -/
def bootPlan (fromStr : String → Except IoError UnitFile) (ords : HashOrders)
    (listing : List (Except IoError DirEntry)) (enabledUnits : List String)
    (defaultTarget : String) : Except BootError (List Job) :=
  match bootRegistry fromStr listing enabledUnits with
  | .error e => .error e
  | .ok reg =>
    match reg.buildTransaction ords defaultTarget with
    | .error e => .error (.transaction e)
    | .ok plan => .ok plan

/-- Two listings of one directory load the same units or both fail. -/
theorem loadDirectory_listings (fromStr : String → Except IoError UnitFile) (dir : Directory)
    {listing listing' : List (Except IoError DirEntry)} (h : listing.Perm dir.entries)
    (h' : listing'.Perm dir.entries) :
    (loadDirectory fromStr listing).toOption = (loadDirectory fromStr listing').toOption := by
  have hdistinct : ∀ {l : List (Except IoError DirEntry)}, l.Perm dir.entries →
      (fileNames l).Nodup := fun hl => (hl.filterMap _).nodup_iff.mpr dir.distinct
  cases hus : loadDirectory fromStr listing with
  | ok us => rw [loadDirectory_perm fromStr (h.trans h'.symm) (hdistinct h) hus]
  | error e =>
    cases hvs : loadDirectory fromStr listing' with
    | error e' => rfl
    | ok vs =>
      rw [loadDirectory_perm fromStr (h'.trans h.symm) (hdistinct h') hvs] at hus
      cases hus

theorem bootRegistry_listings (fromStr : String → Except IoError UnitFile) (dir : Directory)
    {listing listing' : List (Except IoError DirEntry)} (h : listing.Perm dir.entries)
    (h' : listing'.Perm dir.entries) (enabledUnits : List String) :
    (bootRegistry fromStr listing enabledUnits).toOption =
      (bootRegistry fromStr listing' enabledUnits).toOption := by
  unfold bootRegistry
  rcases toOption_eq_cases (loadDirectory_listings fromStr dir h h') with
    ⟨loaded, hl, hl'⟩ | ⟨e, e', hl, hl'⟩
  · simp only [hl, hl']
  · simp only [hl, hl', Except.toOption]

/-- **Plans depend on nothing but the files.**  Whatever the iteration orders of two runs, their
start and stop transactions both succeed with equal lists or both fail; and whatever the two orders
in which they list the unit directory, they boot with the same registry and the same plan. -/
theorem transactions_deterministic (fromStr : String → Except IoError UnitFile)
    (ords ords' : HashOrders) (anchor : String) :
    (∀ reg : UnitRegistry,
      (reg.buildTransaction ords anchor).toOption = (reg.buildTransaction ords' anchor).toOption ∧
      (reg.buildStopTransaction ords anchor).toOption =
        (reg.buildStopTransaction ords' anchor).toOption) ∧
    ∀ (dir : Directory) (listing listing' : List (Except IoError DirEntry)),
      listing.Perm dir.entries → listing'.Perm dir.entries →
      (loadDirectory fromStr listing).toOption = (loadDirectory fromStr listing').toOption ∧
      ∀ enabledUnits,
        (bootRegistry fromStr listing enabledUnits).toOption =
          (bootRegistry fromStr listing' enabledUnits).toOption ∧
        (bootPlan fromStr ords listing enabledUnits anchor).toOption =
          (bootPlan fromStr ords' listing' enabledUnits anchor).toOption := by
  refine ⟨fun reg => ⟨reg.buildTransaction_hash ords ords' anchor,
    reg.buildStopTransaction_hash ords ords' anchor⟩, ?_⟩
  intro dir listing listing' h h'
  refine ⟨loadDirectory_listings fromStr dir h h', fun enabledUnits => ?_⟩
  have hreg := bootRegistry_listings fromStr dir h h' enabledUnits
  refine ⟨hreg, ?_⟩
  unfold bootPlan
  rcases toOption_eq_cases hreg with ⟨reg, hr, hr'⟩ | ⟨e, e', hr, hr'⟩
  · simp only [hr, hr']
    rcases toOption_eq_cases (reg.buildTransaction_hash ords ords' anchor) with
      ⟨plan, hp, hp'⟩ | ⟨e, e', hp, hp'⟩
    · simp only [hp, hp']
    · simp only [hp, hp', Except.toOption]
  · simp only [hr, hr', Except.toOption]

/-- A directory with a target and a service it requires, listed either way. -/
def twoEntries : Directory where
  entries :=
    [.ok ⟨some "b.service.toml", true, .ok "service"⟩,
      .ok ⟨some "a.target.toml", true, .ok "target"⟩]
  distinct := by decide

/-- The service's file requires nothing, the target's requires the service. -/
def readTwo (body : String) : Except IoError UnitFile :=
  .ok (if body = "target" then { unit := { requires := ["b.service"] } } else {})

theorem transactions_deterministic_twoEntries :
    (bootPlan readTwo ⟨.inserted, .inserted⟩ twoEntries.entries [] "a.target").toOption =
      some [⟨0, .start, .waiting⟩, ⟨1, .start, .waiting⟩] ∧
    (bootPlan readTwo ⟨.inserted, .inserted⟩ twoEntries.entries [] "a.target").toOption =
      (bootPlan readTwo ⟨.inserted, .inserted⟩ twoEntries.entries.reverse [] "a.target").toOption :=
  ⟨by decide, (((transactions_deterministic readTwo ⟨.inserted, .inserted⟩ ⟨.inserted, .inserted⟩
    "a.target").2 twoEntries twoEntries.entries twoEntries.entries.reverse (List.Perm.refl _)
    (List.reverse_perm _)).2 []).2⟩

end WriteonceOs.Svc
