import WriteonceOs.Library.Paths
import WriteonceOs.Svc.Enabled
import WriteonceOs.Svc.EventLoop

/-!
# The files of the control socket

The files that the requests themselves create, read or remove: the stubs of `ENABLE`, `DISABLE` and
`ENABLED`, and the logs of `JOURNAL`.  What the supervisor opens for the processes it starts and
the kernel's cgroup tree are left out.  A path with a NUL never reaches the kernel.

* `named_run` — in every state reached the units are called as files can be called;
* `request_inside_iff` — when every file of a request is a direct child of its directory.
-/

namespace WriteonceOs.Svc

open WriteonceOs.Library WriteonceOs.Library.Paths Enabled

/-! ### Names in every run -/

theorem entryUnits_isUnitName {fromStr : String → Except IoError UnitFile}
    {e : Except IoError DirEntry}
    (hfile : ∀ f, e.toOption.bind DirEntry.fileName = some f → '/' ∉ f.toList ∧ '\x00' ∉ f.toList)
    {u : LoadedUnit} (hu : u ∈ entryUnits fromStr e) : IsUnitName u.name := by
  cases e with
  | error e => simp [entryUnits, loadEntry, Except.toOption] at hu
  | ok entry =>
    unfold entryUnits Svc.loadEntry at hu
    cases hname : entry.unitName with
    | none => simp [hname, Except.toOption] at hu
    | some name =>
      simp only [hname] at hu
      split at hu
      · simp [Except.toOption] at hu
      · split at hu
        · simp [Except.toOption] at hu
        · simp only [Except.toOption, Option.getD_some, List.mem_singleton] at hu
          rw [hu]
          exact isUnitName_of_entry hname hfile

/-- The loader only produces unit names. -/
theorem loadDirectory_isUnitName {fromStr : String → Except IoError UnitFile}
    {listing : List (Except IoError DirEntry)} {loaded : List LoadedUnit}
    (hfiles : ∀ f ∈ fileNames listing, '/' ∉ f.toList ∧ '\x00' ∉ f.toList)
    (hload : loadDirectory fromStr listing = .ok loaded) : ∀ u ∈ loaded, IsUnitName u.name := by
  intro u hu
  unfold loadDirectory at hload
  cases hc : collectUnits fromStr listing with
  | error e =>
    rw [hc] at hload
    cases hload
  | ok collected =>
    rw [hc] at hload
    cases hload
    obtain ⟨-, rfl⟩ := (collectUnits_ok_iff fromStr listing collected).mp hc
    rw [sortByName, List.mem_insertionSort, List.mem_flatMap] at hu
    obtain ⟨e, he, hu⟩ := hu
    exact entryUnits_isUnitName (fun f hf => hfiles f (List.mem_filterMap.mpr ⟨e, he, hf⟩)) hu

namespace SupervisorState

/-- The registry only knows unit names. -/
def Named (s : SupervisorState) : Prop := ∀ u, s.registry.lookup u ≠ none → IsUnitName u

variable {alloc : PidAllocator} {s : SupervisorState}

theorem Named.congr (h : s.Named) {t : SupervisorState}
    (hregistry : t.registry.byName = s.registry.byName) : t.Named := by
  intro u hu
  rw [UnitRegistry.lookup, hregistry] at hu
  exact h u hu

theorem named_opInv (alloc : PidAllocator) : OpInv alloc (fun _ _ _ => True) Named where
  start := fun s id ans h _ => h.congr (by rw [(start_frame alloc s id ans).registry])
  reap := fun s r h => h.congr (by rw [reap_registry])
  advance := fun _ _ h => h
  kill := fun _ _ _ h => h
  cgroup := fun _ _ h => h
  stopping := fun _ _ h => h
  shutdown := fun _ h => h
  setState := fun _ _ _ h => h
  setShuttingDown := fun _ h => h
  restoreShuttingDown := fun _ _ _ h => h
  setPending := fun _ _ h => h
  registry := fun s target unit h => h.congr (addWantedBy_byName s target unit)

theorem named_new {loaded : List LoadedUnit} (hloaded : ∀ u ∈ loaded, IsUnitName u.name)
    (injected : List (String × String)) (fake : Bool) :
    (SupervisorState.new (builtRegistry loaded injected) fake).Named := by
  intro u hu
  obtain ⟨id, hid⟩ := Option.ne_none_iff_exists'.mp hu
  have hlookup : (registerAll loaded).2.lookup u = some id := by
    rw [← hid]
    exact (built_lookup injected u).symm
  obtain ⟨unit, hunit, rfl⟩ := registerAll_sound loaded u id hlookup
  have hunits : (registerAll loaded).1 = loaded.map (fun lu => ⟨lu.name, lu.file⟩) :=
    UnitRegistry.fromLoaded_units loaded
  rw [hunits] at hunit
  obtain ⟨lu, hlu, rfl⟩ := List.mem_map.mp (List.mem_of_getElem? hunit)
  exact hloaded lu hlu

/-- **Names in every run**: from the boot on, the registry only knows unit names. -/
theorem named_run {loaded : List LoadedUnit} (hloaded : ∀ u ∈ loaded, IsUnitName u.name)
    {fake : Bool} {enabledUnits : List String} {target : String} {ords : HashOrders}
    {answers : UnitId → StartAnswer} {s₀ : SupervisorState}
    (hboot : boot alloc loaded fake enabledUnits target ords answers = .ok s₀) {ops : List Op}
    (hrun : run (step alloc) s₀ ops = .ok s) : s.Named := by
  unfold boot at hboot
  dsimp only at hboot
  split at hboot
  · cases hboot
  · rename_i plan hplan
    cases hboot
    have h := (named_opInv alloc).run (named_new hloaded
      (enabledUnits.map fun unit => ("multi-user.target", unit)) fake)
      (.activatePlan (plan.map fun job => (job, answers job.unit)) :: ops)
    rw [run, step] at h
    dsimp only at h
    rw [hrun] at h
    exact h

end SupervisorState

/-! ### Files -/

/-- Where the supervisor is told to keep its files, and what is in the stub directory. -/
structure FileLayout where
  cwd : Place
  enabledD : String
  logDir : String
  stubs : Files
  stubs_noSlash : ∀ name node, stubs.lookup (.text name) = some node → '/' ∉ name.toList

inductive Access where
  | create
  | read
  | remove
  deriving DecidableEq, Repr

/-- The names from the root to a file. -/
abbrev Location := List FileName

def located (place : Place) : Location := place.map (fun c => .text (String.ofList c))

theorem located_inj {p q : Place} (h : located p = located q) : p = q := by
  refine List.map_injective_iff.mpr ?_ h
  intro c d hcd
  exact String.ofList_injective (FileName.text.inj hcd)

def stubPath (layout : FileLayout) (name : String) : List Char :=
  join layout.enabledD.toList (name ++ ".toml").toList

def logPath (layout : FileLayout) (name : String) : List Char :=
  layout.logDir.toList ++ '/' :: (name ++ ".log").toList

/-- What the kernel is asked for; a path with a NUL is refused before. -/
def touch (layout : FileLayout) (access : Access) (path : List Char) : List (Access × Location) :=
  if '\x00' ∈ path then [] else [(access, located (resolve layout.cwd path))]

/-- Where an entry of the stub directory lies. -/
def entryAt (layout : FileLayout) : FileName → Location
  | .text name => located (resolve layout.cwd (join layout.enabledD.toList name.toList))
  | .bytes raw => located (resolve layout.cwd layout.enabledD.toList) ++ [.bytes raw]

/-- The stubs that are read. -/
def readStubs (layout : FileLayout) : List (Access × Location) :=
  layout.stubs.entries.filterMap (fun e =>
    match e.2 with
    | .file _ => if e.1.hasTomlExtension then some (.read, entryAt layout e.1) else none
    | _ => none)

section Requests

variable (layout : FileLayout) (s : SupervisorState) (ans : ControlAnswer)

/-- The files of a request. -/
def filesOf : Request → List (Access × Location)
  | .enable (some name) =>
    match s.registry.lookup name with
    | none => []
    | some _ => touch layout .create (stubPath layout name)
  | .disable (some name) =>
    match ans.firstWrite with
    | .error _ => []
    | .ok _ =>
      match s.stopUnit name ans.stop with
      | .error _ => []
      | .ok _ => touch layout .remove (stubPath layout name)
  | .enabled => readStubs layout
  | .journal (some name) _ =>
    match s.registry.lookup name with
    | none => []
    | some _ => touch layout .read (logPath layout name)
  | _ => []

def ChildOf (dir : String) (l : Location) : Prop :=
  ∃ name, l = located (resolve layout.cwd dir.toList) ++ [name]

/-- Stubs are children of the stub directory, what is read of that or of the log directory. -/
def Inside : Access × Location → Prop
  | (.read, l) => ChildOf layout layout.enabledD l ∨ ChildOf layout layout.logDir l
  | (_, l) => ChildOf layout layout.enabledD l

/-- The part of an argument up to its last slash leads from the stub directory back to it. -/
def LeadsBack (name : String) : Prop :=
  resolve layout.cwd (join layout.enabledD.toList (leading name.toList)) =
    resolve layout.cwd layout.enabledD.toList

/-- `DISABLE` may remove a stub only under a name that leads back; an empty log directory is no
directory, and its logs lie in the root. -/
def Stays : Request → Prop
  | .disable (some name) => ans.firstWrite = .ok () → (∃ t, s.stopUnit name ans.stop = .ok t) →
      '\x00' ∉ stubPath layout name → LeadsBack layout name
  | .journal (some name) _ => s.registry.lookup name ≠ none → layout.logDir = "" →
      layout.cwd = [] ∨ resolve layout.cwd layout.enabledD.toList = []
  | _ => True

/-! ### Where the files lie -/

variable {layout s ans}

theorem isName_append {stem suffix : List Char} (hstem : '/' ∉ stem) (hsuffix : '/' ∉ suffix)
    (hlen : 2 < suffix.length) : IsName (stem ++ suffix) where
  ne_nil := by
    intro h
    have := congrArg List.length h
    simp only [List.length_append, List.length_nil] at this
    omega
  ne_dot := by
    intro h
    have := congrArg List.length h
    simp only [List.length_append, List.length_cons, List.length_nil] at this
    omega
  ne_dotdot := by
    intro h
    have := congrArg List.length h
    simp only [List.length_append, List.length_cons, List.length_nil] at this
    omega
  noSlash := by
    rw [List.mem_append, not_or]
    exact ⟨hstem, hsuffix⟩

theorem childOf_iff {dir : String} {place : Place} :
    ChildOf layout dir (located place) ↔ ∃ c, place = resolve layout.cwd dir.toList ++ [c] := by
  unfold ChildOf
  constructor
  · intro h
    obtain ⟨name, hname⟩ := h
    obtain ⟨init, last, rfl, hinit, hlast⟩ := List.map_eq_append_iff.mp hname
    obtain ⟨c, rfl, -⟩ := List.map_eq_singleton_iff.mp hlast
    exact ⟨c, by rw [located_inj hinit]⟩
  · intro h
    obtain ⟨c, rfl⟩ := h
    exact ⟨.text (String.ofList c), by simp [located]⟩

theorem stub_child_iff (name : String) :
    ChildOf layout layout.enabledD (located (resolve layout.cwd (stubPath layout name))) ↔
      LeadsBack layout name := by
  have hslash : '/' ∉ ".toml".toList := by decide
  have hname : IsName (lastPart (name.toList ++ ".toml".toList)) := by
    rw [lastPart_append hslash]
    exact isName_append (lastPart_noSlash _) hslash (by decide)
  rw [childOf_iff, stubPath, String.toList_append, child_of_base_iff hname, leading_append hslash]
  rfl

theorem leadsBack_of_unitName {name : String} (h : IsUnitName name) : LeadsBack layout name := by
  unfold LeadsBack
  rw [leading_eq_nil_iff.mpr h.noSlash, resolve_join rfl, components_nil]
  simp [walk]

/-- A log lies in the log directory, or in the root when that is empty. -/
theorem resolve_logPath {name : String} (h : IsUnitName name) :
    resolve layout.cwd (logPath layout name) =
      (if layout.logDir = "" then [] else resolve layout.cwd layout.logDir.toList) ++
        [(name ++ ".log").toList] := by
  have hslash : '/' ∉ ".log".toList := by decide
  have hname : IsName (name ++ ".log").toList := by
    rw [String.toList_append]
    exact isName_append h.noSlash hslash (by decide)
  have hwalk : ∀ dir, walk dir (components (name ++ ".log").toList) =
      dir ++ [(name ++ ".log").toList] := by
    intro dir
    rw [components_noSlash hname.noSlash]
    exact visit_name hname dir
  unfold logPath
  by_cases hdir : layout.logDir = ""
  · rw [if_pos hdir, hdir, ← hwalk]
    have hcomp : components ('/' :: (name ++ ".log").toList) =
        [] :: components (name ++ ".log").toList := components_append_slash [] _
    rw [show "".toList = [] from rfl, List.nil_append, resolve, hcomp]
    rfl
  · have hne : layout.logDir.toList ≠ [] := fun hnil => hdir (String.toList_eq_nil_iff.mp hnil)
    rw [if_neg hdir, resolve_append_slash hne, hwalk]

theorem noNul_logPath {name : String} (h : IsUnitName name) (hdir : layout.logDir = "") :
    '\x00' ∉ logPath layout name := by
  rw [logPath, hdir, String.toList_append]
  simp only [String.toList_empty, List.nil_append, List.mem_cons, List.mem_append, not_or]
  exact ⟨by decide, h.noNul, by decide⟩

/-- The stubs that are read are entries of the stub directory. -/
theorem readStubs_inside : ∀ a ∈ readStubs layout, Inside layout a := by
  intro a ha
  unfold readStubs at ha
  obtain ⟨⟨f, node⟩, he, ha⟩ := List.mem_filterMap.mp ha
  cases node with
  | directory => cases ha
  | special => cases ha
  | file body =>
    simp only at ha
    split at ha
    · rename_i htoml
      cases ha
      left
      cases f with
      | bytes raw => exact ⟨_, rfl⟩
      | text name =>
        have hname : IsName name.toList := by
          refine ⟨?_, ?_, ?_, layout.stubs_noSlash name _ (AList.mem_lookup_iff.mpr he)⟩
          all_goals
            intro h
            simp only [FileName.hasTomlExtension, h] at htoml
            revert htoml
            decide
        exact childOf_iff.mpr ⟨_, child_of_noSlash hname _ _⟩
    · cases ha

theorem forall_touch {access : Access} {path : List Char} {P : Access × Location → Prop} :
    (∀ a ∈ touch layout access path, P a) ↔
      ('\x00' ∉ path → P (access, located (resolve layout.cwd path))) := by
  unfold touch
  split
  · rename_i h
    simp [h]
  · rename_i h
    simp [h]

/-- **The files of one request**, in a state that only knows unit names. -/
theorem filesOf_inside_iff (hs : s.Named) (req : Request) :
    (∀ a ∈ filesOf layout s ans req, Inside layout a) ↔ Stays layout s ans req := by
  cases req with
  | enable name =>
    cases name with
    | none => simp [filesOf, Stays]
    | some name =>
      simp only [filesOf, Stays, iff_true]
      cases hid : s.registry.lookup name with
      | none => simp
      | some id =>
        have hunit : IsUnitName name := hs name (by simp [hid])
        exact forall_touch.mpr (fun _ => (stub_child_iff name).mpr (leadsBack_of_unitName hunit))
  | disable name =>
    cases name with
    | none => simp [filesOf, Stays]
    | some name =>
      simp only [filesOf, Stays]
      cases hwrite : ans.firstWrite with
      | error e => simp
      | ok _ =>
        cases hstop : s.stopUnit name ans.stop with
        | error t => simp
        | ok t =>
          rw [forall_touch]
          simp only [forall_const, Except.ok.injEq, exists_eq']
          exact imp_congr_right (fun _ => stub_child_iff name)
  | journal name lines =>
    cases name with
    | none => simp [filesOf, Stays]
    | some name =>
      simp only [filesOf, Stays]
      cases hid : s.registry.lookup name with
      | none => simp
      | some id =>
        have hunit : IsUnitName name := hs name (by simp [hid])
        rw [forall_touch]
        simp only [Inside, childOf_iff, resolve_logPath hunit, ne_eq, reduceCtorEq,
          not_false_eq_true, forall_const]
        by_cases hdir : layout.logDir = ""
        · have hroot : ∀ p : Place,
              (∃ c, [] ++ [(name ++ ".log").toList] = p ++ [c]) ↔ p = [] := by
            intro p
            constructor
            · intro h
              obtain ⟨c, hc⟩ := h
              exact (List.append_inj' hc rfl).1.symm
            · intro h
              exact ⟨_, by rw [h]⟩
          have hcwd : resolve layout.cwd layout.logDir.toList = layout.cwd := by
            rw [hdir]
            simp [resolve, isAbsolute, walk]
          rw [if_pos hdir, hcwd, hroot, hroot]
          simp only [noNul_logPath hunit hdir, not_false_eq_true, forall_const, hdir]
          exact or_comm
        · simp only [hdir, if_false, false_implies, iff_true]
          exact fun _ => Or.inr ⟨_, rfl⟩
  | enabled =>
    simp only [filesOf, Stays, iff_true]
    exact readStubs_inside
  | _ => simp [filesOf, Stays]

end Requests

/-- **The files of every request**: in every state that a supervisor reaches after loading its
units from a directory, and for every line that a client sends, the files of the request are direct
children of their directories exactly when a `DISABLE` that gets to its stub names one that leads
back to the stub directory, and a `JOURNAL` finds a log directory. -/
theorem request_inside_iff {alloc : PidAllocator} {fromStr : String → Except IoError UnitFile}
    {listing : List (Except IoError DirEntry)}
    (hfiles : ∀ f ∈ fileNames listing, '/' ∉ f.toList ∧ '\x00' ∉ f.toList)
    {loaded : List LoadedUnit} (hload : loadDirectory fromStr listing = .ok loaded) {fake : Bool}
    {enabledUnits : List String} {target : String} {ords : HashOrders}
    {answers : UnitId → StartAnswer} {s₀ s : SupervisorState}
    (hboot : SupervisorState.boot alloc loaded fake enabledUnits target ords answers = .ok s₀)
    {ops : List Op} (hrun : run (SupervisorState.step alloc) s₀ ops = .ok s) (layout : FileLayout)
    (ans : ControlAnswer) (line : Except IoError String) :
    (∀ a ∈ filesOf layout s ans (parseRequest line), Inside layout a) ↔
      Stays layout s ans (parseRequest line) :=
  filesOf_inside_iff
    (SupervisorState.named_run (loadDirectory_isUnitName hfiles hload) hboot hrun) _

/-! ### A stub outside the stub directory -/

def consoleListing : List (Except IoError DirEntry) :=
  [.ok ⟨some "console.target.toml", true, .ok ""⟩]

def consoleUnits : List LoadedUnit := [⟨"console.target", {}⟩]

/-- The supervisor of one target, after its boot. -/
def consoleState : SupervisorState :=
  (SupervisorState.new (builtRegistry consoleUnits []) true).activatePlan .counting
    [(⟨0, .start, .waiting⟩, {})]

def defaultLayout : FileLayout where
  cwd := []
  enabledD := "/etc/writeonce/enabled.d"
  logDir := "/var/log/writeonce"
  stubs := ∅
  stubs_noSlash := nofun

theorem request_inside_iff_console :
    (∀ a ∈ filesOf defaultLayout consoleState {} (parseRequest (.ok "ENABLE console.target\n")),
      Inside defaultLayout a) ↔
      Stays defaultLayout consoleState {} (parseRequest (.ok "ENABLE console.target\n")) := by
  have hfiles : ∀ f ∈ fileNames consoleListing, '/' ∉ f.toList ∧ '\x00' ∉ f.toList := by decide
  have hload : loadDirectory (fun _ => .ok {}) consoleListing = .ok consoleUnits := rfl
  have hboot : SupervisorState.boot .counting consoleUnits true [] "console.target"
      ⟨.inserted, .inserted⟩ (fun _ => {}) = .ok consoleState := rfl
  have hrun : run (SupervisorState.step .counting) consoleState [] = .ok consoleState := rfl
  exact request_inside_iff hfiles hload hboot hrun defaultLayout {} _

/-- The stub of `../../passwd` is a file of `/etc`. -/
theorem disable_escapes :
    filesOf defaultLayout consoleState {} (parseRequest (.ok "DISABLE ../../passwd\n")) =
        [(.remove, [.text "etc", .text "passwd.toml"])] ∧
      ¬ Inside defaultLayout (.remove, [.text "etc", .text "passwd.toml"]) := by
  refine ⟨by decide, fun h => ?_⟩
  obtain ⟨name, hname⟩ := h
  have hlen := congrArg List.length hname
  rw [List.length_append, List.length_singleton] at hlen
  revert hlen
  decide

end WriteonceOs.Svc
