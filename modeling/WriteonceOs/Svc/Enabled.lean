import Mathlib.Data.List.AList
import Mathlib.Data.List.DropRight
import Mathlib.Data.List.Destutter
import WriteonceOs.Library.Marks
import WriteonceOs.Svc.Config

/-!
# The directory of enabled units

Every regular `.toml` file of `enabled.d` is a stub that names one unit in its text.  The writer
and the remover find a unit's stub by its file name, the reader by the text of every file.  Every
name of the directory is a file of its own: links between them are left out, and so are calls that
fail for another reason than a directory in the stub's place.

The TOML deserialiser is the parameter `fromStr`; `basicStub` is one that reads comments and plain
basic strings.

* `mem_load`, `load_sorted` — what the reader returns;
* `perform_marks_iff` — when a call changes its own unit's membership, as it should, and no other;
* `enabled_run` — runs of such calls keep a set of names under its last calls;
* `canonical_run` — calls on plain names in a directory that holds only its own stubs are such.
-/

namespace WriteonceOs.Svc.Enabled

open WriteonceOs.Library

/-! ### The directory -/

/-- The name of a directory entry: text, or bytes that are not UTF-8. -/
inductive FileName where
  | text (name : String)
  | bytes (raw : List UInt8)
  deriving DecidableEq, Repr

/-- What follows the last dot of a name, unless that dot leads it. -/
def afterLastDot {α : Type*} [DecidableEq α] (dot : α) (name : List α) : Option (List α) :=
  let stem := name.rdropWhile (· ≠ dot)
  if stem = [] ∨ stem = [dot] ∨ name = [dot, dot] then none
  else some (name.rtakeWhile (· ≠ dot))

/-- Does `Path::extension` equal `toml`? -/
def FileName.hasTomlExtension : FileName → Bool
  | .text name => afterLastDot '.' name.toList = some ['t', 'o', 'm', 'l']
  | .bytes raw => afterLastDot 46 raw = some [116, 111, 109, 108]

/-- What a name of the directory stands for. -/
inductive Node where
  -- a regular file and what reading it gives
  | file (body : Except IoError String)
  | directory
  -- a device that swallows what is written to it
  | special

abbrev Files := AList (fun _ : FileName => Node)

/-- `enabled.d`, which need not exist. -/
abbrev EnabledDir := Option Files

/-- What a name stands for, if it is there. -/
def nodeAt (dir : EnabledDir) (fileName : FileName) : Option Node :=
  dir.bind (fun files => files.lookup fileName)

/-- A stub's text after parsing. -/
structure Stub where
  unit : String
  deriving DecidableEq, Repr

/-- The unit names that the loader of unit files can produce. -/
structure IsUnitName (u : String) : Prop where
  noSlash : '/' ∉ u.toList
  noNul : '\x00' ∉ u.toList
  kind : ".service".toList.isSuffixOf u.toList ∨ ".target".toList.isSuffixOf u.toList

abbrev UnitName := {u : String // IsUnitName u}

instance (u : String) : Decidable (IsUnitName u) :=
  decidable_of_iff ('/' ∉ u.toList ∧ '\x00' ∉ u.toList ∧
    (".service".toList.isSuffixOf u.toList ∨ ".target".toList.isSuffixOf u.toList))
    ⟨fun h => ⟨h.1, h.2.1, h.2.2⟩, fun h => ⟨h.noSlash, h.noNul, h.kind⟩⟩

/-- The loader derives a unit's name from a file name. -/
theorem isUnitName_of_entry {entry : DirEntry} {u : String} (h : entry.unitName = some u)
    (hfile : ∀ f, entry.fileName = some f → '/' ∉ f.toList ∧ '\x00' ∉ f.toList) :
    IsUnitName u := by
  have hname := hfile _ (DirEntry.fileName_eq h)
  rw [String.toList_append] at hname
  refine ⟨fun hc => hname.1 (List.mem_append_left _ hc),
    fun hc => hname.2 (List.mem_append_left _ hc), ?_⟩
  unfold DirEntry.unitName at h
  split at h
  · split at h
    · cases h
    · split at h
      · cases h
      · split at h
        · rename_i hkind
          cases h
          rw [String.toList_ofList]
          simpa using hkind
        · cases h
  · cases h

/-! ### Reading -/

/-- `sort`, then `dedup`. -/
def sortNames (names : List String) : List String :=
  (names.insertionSort (· ≤ ·)).destutter (· ≠ ·)

def stubName (unitName : String) : FileName := .text (unitName ++ ".toml")

def stubText (unitName : String) : String :=
  "# Stub written by wo-ctl. Removing this file disables " ++ unitName ++ ".\nunit = \"" ++
    unitName ++ "\"\n"

section Parser

variable (fromStr : String → Except IoError Stub)

/-- The unit that one entry of the directory names; a stub that cannot be read is skipped. -/
def loadEntry (fileName : FileName) : Node → Option String
  | .file body =>
    if fileName.hasTomlExtension then
      match body with
      | .error _ => none
      | .ok text =>
        match fromStr text with
        | .error _ => none
        | .ok stub => some stub.unit
    else none
  | .directory => none
  | .special => none

def load : EnabledDir → List String
  | none => []
  | some files => sortNames (files.entries.filterMap (fun e => loadEntry fromStr e.1 e.2))

end Parser

/-! ### Writing -/

/-- Write the stub of a unit, in a directory created if need be. -/
def enable (dir : EnabledDir) (unitName : String) : Except IoError EnabledDir :=
  let files := dir.getD ∅
  match files.lookup (stubName unitName) with
  | some .directory => .error "Is a directory (os error 21)"
  | some .special => .ok (some files)
  | _ => .ok (some (files.insert (stubName unitName) (.file (.ok (stubText unitName)))))

/-- Remove the stub of a unit; the flag says whether there was one. -/
def disable (dir : EnabledDir) (unitName : String) : Except IoError (Bool × EnabledDir) :=
  match nodeAt dir (stubName unitName) with
  | none => .ok (false, dir)
  | some .directory => .error "Is a directory (os error 21)"
  | some _ => .ok (true, dir.map (fun files => files.erase (stubName unitName)))

/-- A call of the writer or the remover. -/
inductive Call where
  | enable (unit : UnitName)
  | disable (unit : UnitName)

def Call.unit : Call → String
  | .enable u => u
  | .disable u => u

/-- What a call is for: its unit is enabled afterwards, or not. -/
def Call.mark : Call → String × Bool
  | .enable u => (u, true)
  | .disable u => (u, false)

/-- A call that fails ends the run. -/
def perform (dir : EnabledDir) : Call → Except EnabledDir EnabledDir
  | .enable u =>
    match enable dir u with
    | .error _ => .error dir
    | .ok dir => .ok dir
  | .disable u =>
    match disable dir u with
    | .error _ => .error dir
    | .ok (_, dir) => .ok dir

/-! ### What the reader returns -/

theorem mem_sortNames {names : List String} {u : String} : u ∈ sortNames names ↔ u ∈ names := by
  unfold sortNames
  rw [(List.pairwise_insertionSort (· ≤ ·) names).destutter_eq_dedup, List.mem_dedup,
    List.mem_insertionSort]

theorem sortNames_sorted (names : List String) : (sortNames names).Pairwise (· < ·) := by
  have hsorted := List.pairwise_insertionSort (· ≤ ·) names
  unfold sortNames
  rw [hsorted.destutter_eq_dedup]
  have hle := hsorted.sublist (List.dedup_sublist _)
  exact hle.imp₂ (fun a b hab hne => lt_of_le_of_ne hab hne) (List.nodup_dedup _)

section Parser

variable (fromStr : String → Except IoError Stub)

/-- An entry of the directory names a unit. -/
def Names (dir : EnabledDir) (f : FileName) (u : String) : Prop :=
  ∃ node, nodeAt dir f = some node ∧ loadEntry fromStr f node = some u

theorem mem_load {dir : EnabledDir} {u : String} :
    u ∈ load fromStr dir ↔ ∃ f, Names fromStr dir f u := by
  cases dir with
  | none => simp [load, Names, nodeAt]
  | some files =>
    simp only [load, mem_sortNames, List.mem_filterMap, Names, nodeAt, Option.bind_some]
    constructor
    · intro h
      obtain ⟨⟨f, node⟩, he, hu⟩ := h
      exact ⟨f, node, AList.mem_lookup_iff.mpr he, hu⟩
    · intro h
      obtain ⟨f, node, hf, hu⟩ := h
      exact ⟨⟨f, node⟩, AList.mem_lookup_iff.mp hf, hu⟩

theorem load_sorted (dir : EnabledDir) : (load fromStr dir).Pairwise (· < ·) := by
  cases dir with
  | none => exact List.Pairwise.nil
  | some files => exact sortNames_sorted _

/-! ### What the writer and the remover do to the entries -/

theorem afterLastDot_append {α : Type*} [DecidableEq α] {dot : α} {stem ext : List α}
    (hstem : stem ≠ []) (hext : ext ≠ []) (hdot : dot ∉ ext) :
    afterLastDot dot (stem ++ dot :: ext) = some ext := by
  have hall : ∀ x ∈ ext.reverse, decide (x ≠ dot) = true := by
    intro x hx
    exact decide_eq_true (fun h => hdot (h ▸ List.mem_reverse.mp hx))
  have hrev : (stem ++ dot :: ext).reverse = ext.reverse ++ dot :: stem.reverse := by simp
  have hdrop : (stem ++ dot :: ext).rdropWhile (· ≠ dot) = stem ++ [dot] := by
    rw [List.rdropWhile, hrev, List.dropWhile_append_of_pos hall, List.dropWhile_cons]
    simp
  have htake : (stem ++ dot :: ext).rtakeWhile (· ≠ dot) = ext := by
    rw [List.rtakeWhile, hrev, List.takeWhile_append_of_pos hall, List.takeWhile_cons]
    simp
  have hne : stem ++ dot :: ext ≠ [dot, dot] := by
    intro h
    have hlen := congrArg List.length h
    have h1 := List.length_pos_iff.mpr hstem
    have h2 := List.length_pos_iff.mpr hext
    simp only [List.length_append, List.length_cons, List.length_nil] at hlen
    omega
  unfold afterLastDot
  simp only [hdrop, htake, hne]
  simp [hstem]

theorem stubName_hasTomlExtension {u : String} (hu : u ≠ "") :
    (stubName u).hasTomlExtension = true := by
  have hstem : u.toList ≠ [] := fun h => hu (String.toList_eq_nil_iff.mp h)
  simp only [stubName, FileName.hasTomlExtension, String.toList_append]
  rw [show ".toml".toList = '.' :: ['t', 'o', 'm', 'l'] from rfl,
    afterLastDot_append hstem (by simp) (by decide)]
  simp

theorem UnitName.ne_empty (u : UnitName) : u.1 ≠ "" := by
  intro h
  have := u.2.kind
  rw [h] at this
  revert this
  decide

/-- Another entry than the stub of `u` names `v`. -/
def Elsewhere (dir : EnabledDir) (u v : String) : Prop :=
  ∃ f, f ≠ stubName u ∧ Names fromStr dir f v

/-- The stub that the writer leaves for `u` names `v`. -/
def Writes (dir : EnabledDir) (u v : String) : Prop :=
  nodeAt dir (stubName u) ≠ some .special ∧ fromStr (stubText u) = .ok ⟨v⟩

theorem loadEntry_stub {u : String} (hu : u ≠ "") {v : String} :
    loadEntry fromStr (stubName u) (.file (.ok (stubText u))) = some v ↔
      fromStr (stubText u) = .ok ⟨v⟩ := by
  simp only [loadEntry, stubName_hasTomlExtension hu, if_true]
  cases hstub : fromStr (stubText u) with
  | error e => simp
  | ok stub =>
    obtain ⟨w⟩ := stub
    simp

theorem enable_names {dir dir' : EnabledDir} {u : String} (hu : u ≠ "")
    (h : enable dir u = .ok dir') (f : FileName) (v : String) :
    Names fromStr dir' f v ↔
      if f = stubName u then Writes fromStr dir u v else Names fromStr dir f v := by
  have hnode : ∀ f, (dir.getD ∅).lookup f = nodeAt dir f := by
    intro f
    cases dir with
    | none => rfl
    | some files => rfl
  -- what is at the stub's place decides what the writer leaves there
  have hwritten : nodeAt dir (stubName u) ≠ some .special →
      dir' = some ((dir.getD ∅).insert (stubName u) (.file (.ok (stubText u)))) →
      (Names fromStr dir' f v ↔
        if f = stubName u then Writes fromStr dir u v else Names fromStr dir f v) := by
    intro hspecial heq
    subst heq
    by_cases hf : f = stubName u
    · subst hf
      simp only [Names, nodeAt, Option.bind_some, AList.lookup_insert, Option.some.injEq,
        exists_eq_left', if_true, Writes, loadEntry_stub fromStr hu]
      exact ⟨fun hv => ⟨hspecial, hv⟩, And.right⟩
    · simp only [Names, nodeAt, Option.bind_some, AList.lookup_insert_ne hf, hf, if_false]
      rw [hnode f]
      rfl
  unfold enable at h
  simp only [hnode] at h
  split at h
  · cases h
  · rename_i hspecial
    cases h
    by_cases hf : f = stubName u
    · subst hf
      simp only [if_true, Writes, hspecial, ne_eq, not_true_eq_false, false_and, iff_false]
      intro hv
      obtain ⟨node, hat, hload⟩ := hv
      rw [nodeAt, Option.bind_some, hnode, hspecial] at hat
      cases hat
      cases hload
    · rw [if_neg hf]
      simp only [Names, nodeAt, Option.bind_some]
      rw [hnode f]
      rfl
  · rename_i hnone
    cases h
    exact hwritten (fun hs => hnone hs) rfl

theorem disable_names {dir dir' : EnabledDir} {u : String} {removed : Bool}
    (h : disable dir u = .ok (removed, dir')) (f : FileName) (v : String) :
    Names fromStr dir' f v ↔ f ≠ stubName u ∧ Names fromStr dir f v := by
  unfold disable at h
  split at h
  · rename_i hnone
    cases h
    refine ⟨fun hv => ⟨?_, hv⟩, And.right⟩
    intro hf
    obtain ⟨node, hat, -⟩ := hv
    rw [hf, hnone] at hat
    cases hat
  · cases h
  · rename_i node hnode hat
    cases h
    cases dir with
    | none => cases hat
    | some files =>
      by_cases hf : f = stubName u
      · subst hf
        simp [Names, nodeAt]
      · simp [Names, nodeAt, hf, AList.lookup_erase_ne hf]

/-- What the stub of a call's unit names after the call. -/
def StubAfter (dir : EnabledDir) : Call → String → Prop
  | .enable u, v => Writes fromStr dir u v
  | .disable _, _ => False

theorem mem_load_before (dir : EnabledDir) (u v : String) :
    v ∈ load fromStr dir ↔ Elsewhere fromStr dir u v ∨ Names fromStr dir (stubName u) v := by
  rw [mem_load]
  constructor
  · intro h
    obtain ⟨f, hf⟩ := h
    by_cases hstub : f = stubName u
    · exact Or.inr (hstub ▸ hf)
    · exact Or.inl ⟨f, hstub, hf⟩
  · intro h
    rcases h with ⟨f, -, hf⟩ | h
    · exact ⟨f, hf⟩
    · exact ⟨_, h⟩

theorem perform_names {dir dir' : EnabledDir} {c : Call} (h : perform dir c = .ok dir')
    (f : FileName) (v : String) : Names fromStr dir' f v ↔
      if f = stubName c.unit then StubAfter fromStr dir c v else Names fromStr dir f v := by
  cases c with
  | enable u =>
    simp only [perform] at h
    cases he : enable dir u with
    | error e =>
      rw [he] at h
      cases h
    | ok next =>
      rw [he] at h
      cases h
      exact enable_names fromStr (UnitName.ne_empty u) he f v
  | disable u =>
    simp only [perform] at h
    cases hd : disable dir u with
    | error e =>
      rw [hd] at h
      cases h
    | ok res =>
      obtain ⟨removed, next⟩ := res
      rw [hd] at h
      cases h
      rw [disable_names fromStr hd f v]
      by_cases hf : f = stubName u
      · simp [hf, Call.unit, StubAfter]
      · simp [hf, Call.unit]

theorem mem_load_after {dir dir' : EnabledDir} {c : Call} (h : perform dir c = .ok dir')
    (v : String) : v ∈ load fromStr dir' ↔
      Elsewhere fromStr dir c.unit v ∨ StubAfter fromStr dir c v := by
  rw [mem_load_before fromStr dir' c.unit v, perform_names fromStr h, if_pos rfl]
  have helse : Elsewhere fromStr dir' c.unit v ↔ Elsewhere fromStr dir c.unit v := by
    unfold Elsewhere
    constructor
    · intro h'
      obtain ⟨f, hf, hv⟩ := h'
      rw [perform_names fromStr h, if_neg hf] at hv
      exact ⟨f, hf, hv⟩
    · intro h'
      obtain ⟨f, hf, hv⟩ := h'
      exact ⟨f, hf, by rw [perform_names fromStr h, if_neg hf]; exact hv⟩
  rw [helse]

/-! ### One call -/

/-- A call changes the membership of its own unit, as it should, and of no other name. -/
def MarksSet (dir dir' : EnabledDir) (c : Call) : Prop :=
  ∀ v, v ∈ load fromStr dir' ↔ if v = c.unit then c.mark.2 = true else v ∈ load fromStr dir

/-- File names and texts agree as far as a call needs them to.  To enable, the text written names
the unit, unless another entry does; to disable, no other entry names it.  Any other name that the
text in the stub's place gives before or after the call, and not both, has another entry too. -/
def Agrees (dir : EnabledDir) : Call → Prop
  | .enable u => (Elsewhere fromStr dir u u ∨ Writes fromStr dir u u) ∧
      ∀ v ≠ u.1, Elsewhere fromStr dir u v ∨
        (Writes fromStr dir u v ↔ Names fromStr dir (stubName u) v)
  | .disable u => ¬ Elsewhere fromStr dir u u ∧
      ∀ v ≠ u.1, Elsewhere fromStr dir u v ∨ ¬ Names fromStr dir (stubName u) v

/-- **When a call does what it is for.** -/
theorem perform_marks_iff {dir dir' : EnabledDir} {c : Call} (h : perform dir c = .ok dir') :
    MarksSet fromStr dir dir' c ↔ Agrees fromStr dir c := by
  have hsplit : MarksSet fromStr dir dir' c ↔
      (Elsewhere fromStr dir c.unit c.unit ∨ StubAfter fromStr dir c c.unit ↔ c.mark.2 = true) ∧
        ∀ v ≠ c.unit, Elsewhere fromStr dir c.unit v ∨
          (StubAfter fromStr dir c v ↔ Names fromStr dir (stubName c.unit) v) := by
    unfold MarksSet
    constructor
    · intro hall
      refine ⟨?_, fun v hv => ?_⟩
      · have hu := hall c.unit
        rwa [if_pos rfl, mem_load_after fromStr h] at hu
      · have hu := hall v
        rw [if_neg hv, mem_load_after fromStr h, mem_load_before fromStr dir c.unit] at hu
        by_cases helse : Elsewhere fromStr dir c.unit v
        · exact Or.inl helse
        · simpa [helse] using hu
    · intro h' v
      by_cases hv : v = c.unit
      · rw [if_pos hv, hv, mem_load_after fromStr h]
        exact h'.1
      · rw [if_neg hv, mem_load_after fromStr h, mem_load_before fromStr dir c.unit]
        rcases h'.2 v hv with helse | hiff
        · simp [helse]
        · rw [hiff]
  rw [hsplit]
  cases c with
  | enable u => simp [Agrees, Call.unit, Call.mark, StubAfter]
  | disable u => simp [Agrees, Call.unit, Call.mark, StubAfter]

end Parser

/-! ### Plain names -/

/-- A character that a basic string holds as it is. -/
def plainChar (c : Char) : Bool :=
  c != '"' && c != '\\' && (c == '\t' || (0x20 ≤ c.toNat && c.toNat != 0x7f))

def Plain (u : String) : Prop := ∀ c ∈ u.toList, plainChar c = true

instance (u : String) : Decidable (Plain u) :=
  List.decidableBAll (fun c => plainChar c = true) u.toList

/-- Skip a comment line. -/
def skipComment : List Char → List Char
  | '#' :: cs => (cs.dropWhile (· ≠ '\n')).drop 1
  | cs => cs

/-- Parse an optional comment line and one line `unit = "..."` with a plain basic string. -/
def basicStub (text : String) : Except IoError Stub :=
  let cs := skipComment text.toList
  let name := (cs.drop 8).takeWhile plainChar
  if cs.take 8 = "unit = \"".toList ∧ cs.drop (8 + name.length) = ['"', '\n'] then
    .ok ⟨String.ofList name⟩
  else .error "expected one unit"

example : basicStub "unit = \"iwd.service\"\n" = .ok ⟨"iwd.service"⟩ := by decide

example : basicStub "unit = \"a\"b.service\"\n" = .error "expected one unit" := by decide

theorem takeWhile_plain {u rest : List Char} (hu : ∀ c ∈ u, plainChar c = true) :
    (u ++ '"' :: rest).takeWhile plainChar = u := by
  rw [List.takeWhile_append_of_pos hu, List.takeWhile_cons]
  simp [show plainChar '"' = false from rfl]

theorem plain_ne_newline {c : Char} (hc : plainChar c = true) : c ≠ '\n' := by
  intro h
  subst h
  exact absurd hc (by decide)

theorem skipComment_line {comment rest : List Char} (h : ∀ c ∈ comment, c ≠ '\n') :
    skipComment ('#' :: (comment ++ '\n' :: rest)) = rest := by
  have hall : ∀ c ∈ comment, decide (c ≠ '\n') = true := fun c hc => decide_eq_true (h c hc)
  rw [skipComment, List.dropWhile_append_of_pos hall, List.dropWhile_cons]
  simp

/-- The shape of the text that the writer leaves, with its fixed parts opened. -/
theorem toList_framed (head mid last u : String) {comment key close : List Char}
    (hhead : head.toList = '#' :: comment) (hmid : mid.toList = '.' :: '\n' :: key)
    (hlast : last.toList = close) : (head ++ u ++ mid ++ u ++ last).toList =
      '#' :: ((comment ++ u.toList ++ ['.']) ++ '\n' :: (key ++ (u.toList ++ close))) := by
  simp only [String.toList_append]
  rw [hhead, hmid, hlast]
  simp

theorem skipComment_stubText {u : String} (hu : Plain u) :
    skipComment (stubText u).toList = "unit = \"".toList ++ (u.toList ++ ['"', '\n']) := by
  have hframe : (stubText u).toList = '#' ::
      ((" Stub written by wo-ctl. Removing this file disables ".toList ++ u.toList ++ ['.']) ++
        '\n' :: ("unit = \"".toList ++ (u.toList ++ ['"', '\n']))) :=
    toList_framed _ _ _ u (by decide) (by decide) (by decide)
  refine (congrArg skipComment hframe).trans (skipComment_line ?_)
  intro c hc
  simp only [List.mem_append] at hc
  rcases hc with (hc | hc) | hc
  · have hmid : '\n' ∉ " Stub written by wo-ctl. Removing this file disables ".toList := by decide
    exact ne_of_mem_of_not_mem hc hmid
  · exact plain_ne_newline (hu c hc)
  · have hdot : '\n' ∉ ['.'] := by decide
    exact ne_of_mem_of_not_mem hc hdot

/-- The text written for a plain name reads back as the name. -/
theorem basicStub_stubText {u : String} (hu : Plain u) : basicStub (stubText u) = .ok ⟨u⟩ := by
  have hlen : "unit = \"".toList.length = 8 := rfl
  have htake : (u.toList ++ ['"', '\n']).takeWhile plainChar = u.toList := takeWhile_plain hu
  unfold basicStub
  simp only [skipComment_stubText hu, ← hlen, List.drop_left, List.take_left, htake]
  rw [← List.drop_drop, List.drop_left, List.drop_left]
  simp

/-- Every stub is filed under the unit it names, and no device lies in a stub's place. -/
structure Canonical (fromStr : String → Except IoError Stub) (dir : EnabledDir) : Prop where
  filed : ∀ f v, Names fromStr dir f v → f = stubName v
  noDevice : ∀ f, nodeAt dir f ≠ some .special

theorem canonical_none (fromStr : String → Except IoError Stub) : Canonical fromStr none where
  filed := by
    intro f v h
    obtain ⟨node, hat, -⟩ := h
    cases hat
  noDevice := nofun

theorem stubName_inj {u v : String} (h : stubName u = stubName v) : u = v := by
  rw [stubName, stubName, FileName.text.injEq] at h
  have hl := congrArg String.toList h
  rw [String.toList_append, String.toList_append] at hl
  exact String.toList_injective (List.append_cancel_right hl)

theorem perform_special {dir dir' : EnabledDir} {c : Call} (h : perform dir c = .ok dir')
    {f : FileName} (hf : nodeAt dir' f = some .special) : nodeAt dir f = some .special := by
  cases c with
  | enable u =>
    simp only [perform, enable] at h
    split at h
    · cases h
    · rename_i next hnext
      cases h
      split at hnext
      · cases hnext
      · cases hnext
        cases dir with
        | none => exact absurd hf (by simp [nodeAt])
        | some files => exact hf
      · cases hnext
        by_cases hstub : f = stubName u
        · subst hstub
          simp [nodeAt] at hf
        · cases dir with
          | none =>
            rw [nodeAt, Option.bind_some, AList.lookup_insert_ne hstub] at hf
            cases hf
          | some files => simpa [nodeAt, AList.lookup_insert_ne hstub] using hf
  | disable u =>
    simp only [perform, disable] at h
    split at h
    · cases h
    · rename_i removed next hnext
      cases h
      split at hnext
      · cases hnext
        exact hf
      · cases hnext
      · cases hnext
        cases dir with
        | none => cases hf
        | some files =>
          by_cases hstub : f = stubName u
          · subst hstub
            simp [nodeAt] at hf
          · simpa [nodeAt, AList.lookup_erase_ne hstub] using hf

section Canonical

variable {fromStr : String → Except IoError Stub}

theorem Canonical.agrees {dir : EnabledDir} (h : Canonical fromStr dir) {c : Call}
    (hc : fromStr (stubText c.unit) = .ok ⟨c.unit⟩) : Agrees fromStr dir c := by
  have hown : ∀ v ≠ c.unit, ¬ Names fromStr dir (stubName c.unit) v :=
    fun v hv hn => hv (stubName_inj (h.filed _ v hn)).symm
  cases c with
  | enable u =>
    refine ⟨Or.inr ⟨h.noDevice _, hc⟩, fun v hv => Or.inr ?_⟩
    refine ⟨fun hw => ?_, fun hn => absurd hn (hown v hv)⟩
    have heq := hc.symm.trans hw.2
    rw [Except.ok.injEq, Stub.mk.injEq] at heq
    exact absurd heq.symm hv
  | disable u =>
    refine ⟨?_, fun v hv => Or.inr (hown v hv)⟩
    intro helse
    obtain ⟨f, hf, hn⟩ := helse
    exact hf (h.filed f _ hn)

theorem Canonical.perform {dir dir' : EnabledDir} (h : Canonical fromStr dir) {c : Call}
    (hc : fromStr (stubText c.unit) = .ok ⟨c.unit⟩) (hs : perform dir c = .ok dir') :
    Canonical fromStr dir' where
  filed := by
    intro f v hn
    rw [perform_names fromStr hs] at hn
    by_cases hf : f = stubName c.unit
    · rw [if_pos hf] at hn
      cases c with
      | enable u =>
        have heq := hc.symm.trans hn.2
        rw [Except.ok.injEq, Stub.mk.injEq] at heq
        rw [hf, heq]
      | disable u => exact absurd hn (fun h => h)
    · rw [if_neg hf] at hn
      exact h.filed f v hn
  noDevice := fun f hf => h.noDevice f (perform_special hs hf)

/-- **Plain names keep the directory canonical**: from a directory that holds only its own stubs,
every run of calls on plain names changes the memberships as it should. -/
theorem canonical_run (hplain : ∀ u, Plain u → fromStr (stubText u) = .ok ⟨u⟩) {dir : EnabledDir}
    (hdir : Canonical fromStr dir) {calls : List Call} (hcalls : ∀ c ∈ calls, Plain c.unit) :
    Guarded perform (Agrees fromStr) dir calls := by
  induction calls generalizing dir with
  | nil => trivial
  | cons c calls ih =>
    have hc := hplain _ (hcalls c List.mem_cons_self)
    exact ⟨hdir.agrees hc, fun dir' hs => ih (hdir.perform hc hs)
      (fun c' hc' => hcalls c' (List.mem_cons_of_mem _ hc'))⟩

end Canonical

/-! ### A set of names -/

/-- **The directory as a set of names**: what is read is sorted and without repetitions; a call
changes its own unit's membership, and no other, exactly when file names and texts agree for it;
and as long as they do, the names read are the initial ones under the last call on each name. -/
theorem enabled_run (fromStr : String → Except IoError Stub) (dir : EnabledDir) :
    (load fromStr dir).Pairwise (· < ·) ∧
      (∀ c dir', perform dir c = .ok dir' →
        (MarksSet fromStr dir dir' c ↔ Agrees fromStr dir c)) ∧
      ∀ calls dir', Guarded perform (Agrees fromStr) dir calls →
        run perform dir calls = .ok dir' →
        ∀ v, v ∈ load fromStr dir' ↔
          (lastMark (calls.map Call.mark) v).elim (v ∈ load fromStr dir) (· = true) := by
  refine ⟨load_sorted fromStr dir, fun c dir' h => perform_marks_iff fromStr h, ?_⟩
  intro calls dir' hG hrun v
  have hstep : ∀ dir c dir', Agrees fromStr dir c → perform dir c = .ok dir' →
      {u | u ∈ load fromStr dir'} = mark {u | u ∈ load fromStr dir} c.mark := by
    intro dir c dir' hc hs
    ext v
    have hv := (perform_marks_iff fromStr hs).mpr hc v
    cases c with
    | enable u => exact hv
    | disable u => exact hv
  have hv := Set.ext_iff.mp (run_marks hstep hG hrun) v
  rwa [mem_marks] at hv

def iwd : UnitName := ⟨"iwd.service", by decide⟩

/-- Enabled and disabled under its own name, the unit comes and goes. -/
theorem enabled_run_iwd :
    ∀ v, v ∈ load basicStub (some ∅) ↔
      (lastMark ([Call.enable iwd, .disable iwd].map Call.mark) v).elim (v ∈ load basicStub none)
        (· = true) :=
  (enabled_run basicStub none).2.2 [.enable iwd, .disable iwd] (some ∅)
    (canonical_run (fun _ hu => basicStub_stubText hu)
      (canonical_none _) (by decide)) rfl

/-- One file, not named after the unit that its text names. -/
def networkStub : EnabledDir :=
  some (AList.insert (FileName.text "net.toml") (.file (.ok "unit = \"iwd.service\"\n")) ∅)

/-- The remover looks for a file of the unit's name and finds none; the unit is read as before. -/
theorem disable_misses_networkStub : perform networkStub (.disable iwd) = .ok networkStub ∧
    ¬ MarksSet basicStub networkStub networkStub (.disable iwd) := by
  refine ⟨rfl, fun h => ?_⟩
  have hv := (h "iwd.service").mp (by decide)
  exact absurd hv (by decide)

end WriteonceOs.Svc.Enabled
