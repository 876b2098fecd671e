import Mathlib.Data.String.Basic
import Mathlib.Data.List.Sort
import Mathlib.Data.List.Nodup

/-!
# Unit files and the directory loader

The sections of a unit file with the defaults the deserialiser fills in, the duration strings, and
the loader that turns a directory listing into a list of units sorted by name.

Durations and instants are counted in nanoseconds.  The TOML deserialiser is the parameter
`fromStr` of the loader; reading a file is part of the directory entry.

* `collectUnits_perm` — two listings of one directory load the same units up to order;
* `collected_names_nodup` — units of one directory have different names;
* `loadDirectory_perm` — so the sorted result does not depend on the listing order.
-/

namespace WriteonceOs.Svc

/-! ### Durations -/

abbrev Duration := ℕ

abbrev Instant := ℕ

def fromMillis (n : ℕ) : Duration := n * 1000000

def fromSecs (n : ℕ) : Duration := n * 1000000000

/-- `Instant + Duration`: the seconds of an instant are an `i64`, and what does not fit is a
panic. -/
def addDuration (now : Instant) (d : Duration) : Option Instant :=
  if now + d < fromSecs (2 ^ 63) then some (now + d) else none

theorem addDuration_of_lt {now : Instant} {d : Duration} (h : ¬ fromSecs (2 ^ 63) ≤ now + d) :
    addDuration now d = some (now + d) := by
  rw [addDuration, if_pos (Nat.lt_of_not_le h)]

theorem addDuration_of_le {now : Instant} {d : Duration} (h : fromSecs (2 ^ 63) ≤ now + d) :
    addDuration now d = none := by
  rw [addDuration, if_neg (Nat.not_lt_of_le h)]

/-- The characters of Unicode's `White_Space` property, which `str::trim` removes. -/
def isWhitespace (c : Char) : Bool :=
  let n := c.toNat
  (9 ≤ n && n ≤ 13) || n == 32 || n == 0x85 || n == 0xA0 || n == 0x1680 ||
    (0x2000 ≤ n && n ≤ 0x200A) || n == 0x2028 || n == 0x2029 || n == 0x202F || n == 0x205F ||
    n == 0x3000

theorem isWhitespace_digit {c : Char} (h : c.isDigit = true) : isWhitespace c = false := by
  obtain ⟨hge, hle⟩ : 48 ≤ c.toNat ∧ c.toNat ≤ 57 := by
    simpa [Char.isDigit, UInt32.le_iff_toNat_le, ← Char.toNat_val] using h
  simp only [isWhitespace]
  grind

def trim (cs : List Char) : List Char :=
  ((cs.dropWhile isWhitespace).reverse.dropWhile isWhitespace).reverse

def stripSuffix (suffix cs : List Char) : Option (List Char) :=
  if suffix.isSuffixOf cs then some (cs.take (cs.length - suffix.length)) else none

/-- `str::parse::<u64>`: an optional plus sign and at least one decimal digit; what does not fit
64 bits is an error. -/
def parseU64 (cs : List Char) : Option ℕ :=
  let digits := match cs with
    | '+' :: rest => rest
    | _ => cs
  if digits.isEmpty || !digits.all Char.isDigit then none
  else
    let n := digits.foldl (fun n c => n * 10 + (c.toNat - 48)) 0
    if n < 2 ^ 64 then some n else none

/-- `str::parse::<u32>`. -/
def parseU32 (cs : List Char) : Option UInt32 :=
  match parseU64 cs with
  | none => none
  | some n => if n < 2 ^ 32 then some (UInt32.ofNat n) else none

/-- Multiplication of `u64` in a release build. -/
def wrappingMul (m n : ℕ) : ℕ := m * n % 2 ^ 64

/-- A duration string: milliseconds, hours, minutes, seconds or bare seconds. -/
def parseDuration (s : String) : Option Duration :=
  let cs := trim s.toList
  match stripSuffix ['m', 's'] cs with
  | some n => (parseU64 n).map fromMillis
  | none =>
    match stripSuffix ['h'] cs with
    | some n => (parseU64 n).map (fun v => fromSecs (wrappingMul v 3600))
    | none =>
      match stripSuffix ['m'] cs with
      | some n => (parseU64 n).map (fun v => fromSecs (wrappingMul v 60))
      | none =>
        match stripSuffix ['s'] cs with
        | some n => (parseU64 n).map fromSecs
        | none => (parseU64 cs).map fromSecs

example : parseDuration "2ms" = some (fromMillis 2) := by decide

example : parseDuration "5min" = none := by decide

/-! ### Unit files -/

inductive ServiceType where
  | simple | forking | oneshot | notify
  deriving DecidableEq, Repr

inductive RestartPolicy where
  | no | always | onFailure | onAbnormal
  deriving DecidableEq, Repr

/-- The `[unit]` table: the fields the graph and the status report read. -/
structure UnitSection where
  description : String := ""
  after : List String := []
  before : List String := []
  requires : List String := []
  wants : List String := []
  bindsTo : List String := []
  deriving DecidableEq, Repr

/-- The `[service]` table: the fields the supervisor reads, with the defaults of the schema. -/
structure ServiceSection where
  kind : ServiceType := .simple
  execStart : String
  restart : RestartPolicy := .no
  restartSec : String := "5s"
  startLimitBurst : ℕ := 3
  startLimitIntervalSec : String := "30s"
  timeoutStartSec : String := "30s"
  timeoutStopSec : String := "10s"
  user : String := "root"
  group : String := "root"
  remainAfterExit : Bool := false
  deriving DecidableEq, Repr

/-- The `[install]` table. -/
structure InstallSection where
  wantedBy : List String := []
  requiredBy : List String := []
  deriving DecidableEq, Repr

/-- A unit file; target units have no `[service]` table. -/
structure UnitFile where
  unit : UnitSection := {}
  service : Option ServiceSection := none
  install : InstallSection := {}
  deriving DecidableEq, Repr

/-- A unit file with the name derived from its file name. -/
structure LoadedUnit where
  name : String
  file : UnitFile
  deriving DecidableEq, Repr

/-! ### The directory loader -/

abbrev IoError := String

/-- One directory entry: its file name when that is UTF-8, and what reading it gives. -/
structure DirEntry where
  fileName : Option String
  isFile : Bool
  body : Except IoError String

/-- The unit name of an entry: a regular file whose name, less `.toml`, ends in `.service` or
`.target`. -/
def DirEntry.unitName (entry : DirEntry) : Option String :=
  if entry.isFile then
    match entry.fileName with
    | none => none
    | some fileName =>
      match stripSuffix ".toml".toList fileName.toList with
      | none => none
      | some name =>
        if ".service".toList.isSuffixOf name || ".target".toList.isSuffixOf name then
          some (String.ofList name)
        else none
  else none

section Loader

variable (fromStr : String → Except IoError UnitFile)

/-- The loop body: what one entry pushes, or the error that ends the loop. -/
def loadEntry : Except IoError DirEntry → Except IoError (List LoadedUnit)
  | .error e => .error e
  | .ok entry =>
    match entry.unitName with
    | none => .ok []
    | some name =>
      match entry.body with
      | .error e => .error e
      | .ok body =>
        match fromStr body with
        | .error e => .error (entry.fileName.getD "" ++ ": " ++ e)
        | .ok file => .ok [⟨name, file⟩]

/-- The loop over the listing. -/
def collectUnits : List (Except IoError DirEntry) → Except IoError (List LoadedUnit)
  | [] => .ok []
  | entry :: rest =>
    match loadEntry fromStr entry with
    | .error e => .error e
    | .ok new =>
      match collectUnits rest with
      | .error e => .error e
      | .ok units => .ok (new ++ units)

def sortByName (units : List LoadedUnit) : List LoadedUnit :=
  units.insertionSort (fun a b => a.name ≤ b.name)

/-- Load every unit file of a listing, sorted by name. -/
def loadDirectory (listing : List (Except IoError DirEntry)) : Except IoError (List LoadedUnit) :=
  match collectUnits fromStr listing with
  | .error e => .error e
  | .ok units => .ok (sortByName units)

/-- The units one entry adds. -/
def entryUnits (entry : Except IoError DirEntry) : List LoadedUnit :=
  (loadEntry fromStr entry).toOption.getD []

/-- The loop succeeds when every entry does, and then collects what the entries add. -/
theorem collectUnits_ok_iff (listing : List (Except IoError DirEntry)) (units : List LoadedUnit) :
    collectUnits fromStr listing = .ok units ↔
      (∀ e ∈ listing, ∃ new, loadEntry fromStr e = .ok new) ∧
        units = listing.flatMap (entryUnits fromStr) := by
  induction listing generalizing units with
  | nil => simp [collectUnits, eq_comm]
  | cons entry rest ih =>
    rw [List.forall_mem_cons, List.flatMap_cons]
    simp only [collectUnits, entryUnits]
    cases hnew : loadEntry fromStr entry with
    | error e =>
      constructor
      · intro h
        cases h
      · intro h'
        obtain ⟨⟨⟨new, h⟩, -⟩, -⟩ := h'
        cases h
    | ok new =>
      cases hrest : collectUnits fromStr rest with
      | error e =>
        have hno : ¬ ∀ e ∈ rest, ∃ new, loadEntry fromStr e = .ok new := by
          intro hall
          have := (ih _).mpr ⟨hall, rfl⟩
          rw [hrest] at this
          cases this
        exact ⟨fun h => (by cases h), fun h => absurd h.1.2 hno⟩
      | ok us =>
        obtain ⟨hall, hus⟩ := (ih us).mp hrest
        constructor
        · intro h
          cases h
          exact ⟨⟨⟨new, rfl⟩, hall⟩, by rw [hus]; rfl⟩
        · intro h'
          obtain ⟨-, rfl⟩ := h'
          rw [hus]
          rfl

/-- Two listings of the same entries both load or both fail, and load the same units. -/
theorem collectUnits_perm {l₁ l₂ : List (Except IoError DirEntry)} (h : l₁.Perm l₂)
    {us : List LoadedUnit} (hus : collectUnits fromStr l₁ = .ok us) :
    ∃ vs, collectUnits fromStr l₂ = .ok vs ∧ us.Perm vs := by
  obtain ⟨hall, rfl⟩ := (collectUnits_ok_iff fromStr l₁ us).mp hus
  refine ⟨_, (collectUnits_ok_iff fromStr l₂ _).mpr
    ⟨fun e he => hall e (h.mem_iff.mpr he), rfl⟩, ?_⟩
  exact h.flatMap_right _

theorem stripSuffix_eq_some {suffix cs name : List Char} (h : stripSuffix suffix cs = some name) :
    cs = name ++ suffix := by
  unfold stripSuffix at h
  split at h
  · rename_i hsuf
    obtain ⟨init, rfl⟩ := List.isSuffixOf_iff_suffix.mp hsuf
    simp only [List.length_append, Nat.add_sub_cancel, List.take_left, Option.some.injEq] at h
    rw [h]
  · cases h

theorem DirEntry.fileName_eq {entry : DirEntry} {name : String} (h : entry.unitName = some name) :
    entry.fileName = some (name ++ ".toml") := by
  unfold DirEntry.unitName at h
  split at h
  · split at h
    · cases h
    · rename_i fileName hfile
      split at h
      · cases h
      · rename_i cs hcs
        split at h
        · cases h
          rw [hfile]
          congr 1
          apply String.toList_injective
          rw [stripSuffix_eq_some hcs, String.toList_append]
          congr 1
          exact String.toList_ofList.symm
        · cases h
  · cases h

/-- The file names of a listing. -/
def fileNames (listing : List (Except IoError DirEntry)) : List String :=
  listing.filterMap (fun e => e.toOption.bind DirEntry.fileName)

/-- The loaded units carry, in order, file names of the listing less `.toml`. -/
theorem collected_names (listing : List (Except IoError DirEntry)) :
    ((listing.flatMap (entryUnits fromStr)).map (fun u => u.name ++ ".toml")).Sublist
      (fileNames listing) := by
  induction listing with
  | nil => simp [fileNames]
  | cons e rest ih =>
    rw [List.flatMap_cons, List.map_append]
    have hrest : (fileNames rest).Sublist (fileNames (e :: rest)) :=
      (List.sublist_cons_self e rest).filterMap _
    have hskip : entryUnits fromStr e = [] →
        ((entryUnits fromStr e).map (fun u => u.name ++ ".toml")
          ++ (rest.flatMap (entryUnits fromStr)).map (fun u => u.name ++ ".toml")).Sublist
            (fileNames (e :: rest)) := by
      intro hnil
      rw [hnil]
      exact ih.trans hrest
    cases e with
    | error e => exact hskip rfl
    | ok entry =>
      cases hname : entry.unitName with
      | none => exact hskip (by simp [entryUnits, loadEntry, hname, Except.toOption])
      | some name =>
        cases hbody : entry.body with
        | error e => exact hskip (by simp [entryUnits, loadEntry, hname, hbody, Except.toOption])
        | ok body =>
          cases hfile : fromStr body with
          | error e =>
            exact hskip (by simp [entryUnits, loadEntry, hname, hbody, hfile, Except.toOption])
          | ok file =>
            have hunits : entryUnits fromStr (.ok entry) = [⟨name, file⟩] := by
              simp [entryUnits, loadEntry, hname, hbody, hfile, Except.toOption]
            have hhead : fileNames (.ok entry :: rest) = (name ++ ".toml") :: fileNames rest := by
              simp [fileNames, Except.toOption, DirEntry.fileName_eq hname]
            rw [hunits, hhead]
            exact ih.cons_cons _

/-- A directory holds one entry of each name, so the loaded units have different names. -/
theorem collected_names_nodup {listing : List (Except IoError DirEntry)}
    (hdistinct : (fileNames listing).Nodup) :
    ((listing.flatMap (entryUnits fromStr)).map LoadedUnit.name).Nodup := by
  have h := (collected_names fromStr listing).nodup hdistinct
  rw [show (fun u : LoadedUnit => u.name ++ ".toml") = (· ++ ".toml") ∘ LoadedUnit.name from rfl,
    ← List.map_map] at h
  exact h.of_map _

instance : Std.Total (fun a b : LoadedUnit => a.name ≤ b.name) :=
  ⟨fun a b => le_total a.name b.name⟩

instance : IsTrans LoadedUnit (fun a b => a.name ≤ b.name) :=
  ⟨fun _ _ _ => le_trans⟩

/-- Sorting by name forgets the order of units with different names. -/
theorem sortByName_perm {us vs : List LoadedUnit} (h : us.Perm vs)
    (hnames : (us.map LoadedUnit.name).Nodup) : sortByName us = sortByName vs := by
  have hu : (sortByName us).Perm us := List.perm_insertionSort _ us
  have hv : (sortByName vs).Perm vs := List.perm_insertionSort _ vs
  have hperm : (sortByName us).Perm (sortByName vs) := (hu.trans h).trans hv.symm
  refine hperm.eq_of_pairwise ?_ (List.pairwise_insertionSort _ us)
    (List.pairwise_insertionSort _ vs)
  intro a b ha hb hab hba
  have hb' : b ∈ us := h.mem_iff.mpr (hv.mem_iff.mp hb)
  exact List.inj_on_of_nodup_map hnames (hu.mem_iff.mp ha) hb' (le_antisymm hab hba)

/-- **The loader's result does not depend on the order of the listing**: two listings of one
directory both load or both fail, and what they load is the same list. -/
theorem loadDirectory_perm {l₁ l₂ : List (Except IoError DirEntry)} (h : l₁.Perm l₂)
    (hdistinct : (fileNames l₁).Nodup) {us : List LoadedUnit}
    (hus : loadDirectory fromStr l₁ = .ok us) : loadDirectory fromStr l₂ = .ok us := by
  unfold loadDirectory at hus ⊢
  cases hc : collectUnits fromStr l₁ with
  | error e =>
    rw [hc] at hus
    cases hus
  | ok collected =>
    rw [hc] at hus
    cases hus
    obtain ⟨vs, hvs, hperm⟩ := collectUnits_perm fromStr h hc
    rw [hvs]
    obtain ⟨-, rfl⟩ := (collectUnits_ok_iff fromStr l₁ collected).mp hc
    exact congrArg Except.ok (sortByName_perm hperm (collected_names_nodup fromStr hdistinct)).symm

end Loader

end WriteonceOs.Svc
