import WriteonceOs.Svc.Client
import WriteonceOs.Svc.Replies

/-!
# What `LIST` shows

The reply to `LIST` has a line for each unit: its name, padded, its state and its process.  Nothing
in a line is quoted, so it is the blanks that a reader has to go by.

* `words_listLine` — a line is read back word by word;
* `readList_listReply` — so is the whole reply, when every unit has a name of one word;
* `list_faithful` — what a client learns from `LIST`, and that it is all there is to learn.
-/

namespace WriteonceOs.Svc

open WriteonceOs.Library

/-- What is listed of a unit. -/
structure UnitRow where
  name : String
  state : UnitActiveState
  pid : Option Pid
  deriving DecidableEq, Repr

namespace SupervisorState

def unitRow (s : SupervisorState) (id : UnitId) : UnitRow :=
  ⟨s.registry.nameOf id, (s.units id).state, (s.units id).pid⟩

/-- The units of a state, in the order of the registry. -/
def unitTable (s : SupervisorState) : List UnitRow := (List.range s.registry.len).map s.unitRow

end SupervisorState

namespace UnitRow

def pidText : Option Pid → Text
  | some p => decimal p
  | none => ['—']

/-- The three words of a line. -/
def texts (row : UnitRow) : List Text :=
  [row.name.toList, row.state.debug, "pid=".toList ++ pidText row.pid]

theorem pidText_injective : Function.Injective pidText := by
  have hdash (p : Pid) : decimal p ≠ ['—'] := by
    intro h
    have hmem : '—' ∈ decimal p := h ▸ List.mem_cons_self
    exact absurd (decimal_digits hmem) (by decide)
  intro a b h
  cases a with
  | none =>
    cases b with
    | none => rfl
    | some q => exact absurd h.symm (hdash q)
  | some p =>
    cases b with
    | none => exact absurd h (hdash p)
    | some q => exact congrArg some (decimal_injective h)

theorem debug_injective : Function.Injective UnitActiveState.debug := by
  intro a b h
  cases a <;> cases b <;> first | rfl | exact absurd h (by decide)

/-- The words of a line tell what it is about. -/
theorem texts_injective : Function.Injective texts := by
  rintro ⟨name, state, pid⟩ ⟨name', state', pid'⟩ h
  simp only [texts, List.cons.injEq, and_true] at h
  obtain ⟨hname, hstate, hpid⟩ := h
  rw [String.toList_inj.mp hname, debug_injective hstate,
    pidText_injective (List.append_cancel_left hpid)]

end UnitRow

/-! ### Reading a line -/

/-- The line of a unit. -/
def listLine (row : UnitRow) : Text :=
  Control.padRight 32 row.name.toList ++ "  ".toList ++ row.state.debug ++ "  pid=".toList ++
    UnitRow.pidText row.pid

theorem listBody_eq (s : SupervisorState) : Control.listBody s = s.unitTable.map listLine := by
  rw [Control.listBody, SupervisorState.unitTable, List.map_map]
  refine List.map_congr_left fun id _ => ?_
  show _ = listLine (s.unitRow id)
  cases hpid : (s.units id).pid with
  | none => simp [listLine, SupervisorState.unitRow, UnitRow.pidText, hpid]
  | some p => simp [listLine, SupervisorState.unitRow, UnitRow.pidText, hpid]

/-- Blanks before a text are no words. -/
theorem words_blanks (n : ℕ) (rest : Text) :
    words isWhitespace (List.replicate n ' ' ++ rest) = words isWhitespace rest := by
  induction n with
  | zero => rfl
  | succ n ih =>
    have hblank := words_append_separator (show isWhitespace ' ' = true by decide) []
      (List.replicate n ' ' ++ rest)
    rw [List.replicate_succ, List.cons_append, ← ih]
    exact hblank

theorem words_padded {name : Text} (h : ∀ c ∈ name, isWhitespace c = false) (hne : name ≠ [])
    (width : ℕ) (rest : Text) :
    words isWhitespace (Control.padRight width name ++ ' ' :: rest) =
      name :: words isWhitespace rest := by
  have hblank : isWhitespace ' ' = true := by decide
  cases hpad : width - name.length with
  | zero =>
    rw [Control.padRight, hpad, List.replicate_zero, List.append_nil,
      words_append_separator hblank, words_of_free h hne]
    rfl
  | succ n =>
    rw [Control.padRight, hpad, List.replicate_succ, List.append_assoc, List.cons_append,
      words_append_separator hblank, words_of_free h hne, words_blanks]
    have hrest := words_blanks 1 rest
    exact congrArg (name :: ·) hrest

theorem pidText_free (pid : Option Pid) :
    ∀ c ∈ "pid=".toList ++ UnitRow.pidText pid, isWhitespace c = false := by
  have hkey : ∀ c ∈ "pid=".toList, isWhitespace c = false := free_of_all (by decide)
  have hdash : ∀ c ∈ ['—'], isWhitespace c = false := free_of_all (by decide)
  intro c hc
  rcases List.mem_append.mp hc with hc | hc
  · exact hkey c hc
  · cases pid with
    | none => exact hdash c hc
    | some p => exact isWhitespace_digit (decimal_digits hc)

theorem debug_free (state : UnitActiveState) : ∀ c ∈ state.debug, isWhitespace c = false := by
  cases state <;> exact free_of_all (by decide)

/-- **A line is read back**, word by word. -/
theorem words_listLine {row : UnitRow} (h : IsWord row.name) :
    words isWhitespace (listLine row) = row.texts := by
  have hblank : isWhitespace ' ' = true := by decide
  have hne : row.name.toList ≠ [] := fun hnil => h.1 (String.toList_inj.mp hnil)
  have hline : listLine row = Control.padRight 32 row.name.toList ++
      ' ' :: (List.replicate 1 ' ' ++ (row.state.debug ++
        ' ' :: (List.replicate 1 ' ' ++ ("pid=".toList ++ UnitRow.pidText row.pid)))) := by
    simp [listLine]
  have hstate : row.state.debug ≠ [] := by cases row.state <;> decide
  rw [hline, words_padded h.2 hne, words_blanks, words_append_separator hblank,
    words_of_free (debug_free row.state) hstate, words_blanks,
    words_of_free (pidText_free row.pid) (by simp)]
  rfl

/-! ### Reading a reply -/

/-- What a client reads: the lines up to the last one, each cut at its blanks. -/
def readList (reply : Text) : List (List Text) := (lines reply).dropLast.map (words isWhitespace)

/-- Every unit has a name of one word. -/
def OneWordNames (s : SupervisorState) : Prop := ∀ row ∈ s.unitTable, IsWord row.name

theorem mem_listLine {row : UnitRow} (h : IsWord row.name) {c : Char} (hc : c ∈ listLine row) :
    c = ' ' ∨ isWhitespace c = false := by
  rw [listLine, List.append_assoc _ "  pid=".toList] at hc
  rcases List.mem_append.mp hc with hc | hc
  · rcases List.mem_append.mp hc with hc | hc
    · rcases List.mem_append.mp hc with hc | hc
      · rcases List.mem_append.mp hc with hc | hc
        · exact .inr (h.2 c hc)
        · exact .inl (List.eq_of_mem_replicate hc)
      · exact .inl (by simpa using hc)
    · exact .inr (debug_free row.state c hc)
  · have hblanks : "  pid=".toList = [' ', ' '] ++ "pid=".toList := rfl
    rw [hblanks, List.append_assoc] at hc
    rcases List.mem_append.mp hc with hc | hc
    · exact .inl (by simpa using hc)
    · exact .inr (pidText_free row.pid c hc)

theorem free_listLine {row : UnitRow} (h : IsWord row.name) {c : Char} (hc : isWhitespace c = true)
    (hne : c ≠ ' ') : c ∉ listLine row := by
  intro hmem
  rcases mem_listLine h hmem with heq | hfree
  · exact hne heq
  · rw [hc] at hfree
    cases hfree

/-- The reply to `LIST`. -/
def listReply (s : SupervisorState) : Text := unlines (Control.listBody s ++ ["ok".toList])

theorem handleOne_list (s : SupervisorState) (ans : ControlAnswer) (files : Contents)
    (ctx : ReplyContext) (alloc : PidAllocator) {line : Except IoError String}
    (hline : parseRequest line = .list) :
    Control.handleOne s ans files ctx alloc line = .ok (s, .ok (), listReply s) := by
  rw [Control.handleOne, hline]
  rfl

/-- The lines of the reply. -/
theorem lines_listReply {s : SupervisorState} (h : OneWordNames s) :
    lines (listReply s) = s.unitTable.map listLine ++ ["ok".toList] := by
  have hfree (c : Char) (hc : isWhitespace c = true) (hne : c ≠ ' ') (hok : c ∉ "ok".toList) :
      ∀ l ∈ s.unitTable.map listLine ++ ["ok".toList], c ∉ l := by
    intro l hl
    rcases List.mem_append.mp hl with hl | hl
    · obtain ⟨row, hrow, rfl⟩ := List.mem_map.mp hl
      exact free_listLine (h row hrow) hc hne
    · exact (List.mem_singleton.mp hl) ▸ hok
  rw [listReply, listBody_eq, lines_unlines (hfree '\n' (by decide) (by decide) (by decide)),
    map_chopReturn (hfree '\r' (by decide) (by decide) (by decide))]

/-- **The reply is read back.** -/
theorem readList_listReply {s : SupervisorState} (h : OneWordNames s) :
    readList (listReply s) = s.unitTable.map UnitRow.texts := by
  rw [readList, lines_listReply h, List.dropLast_concat, List.map_map]
  exact List.map_congr_left fun row hrow => words_listLine (h row hrow)

theorem exitStatus_listReply (s : SupervisorState) : exitStatus (listReply s) = 0 := by
  rw [exitStatus, listReply, lastLine_ok, if_pos rfl]

/-- What is listed of the units is all that a reply tells. -/
theorem listReply_eq_iff {s t : SupervisorState} (hs : OneWordNames s) (ht : OneWordNames t) :
    listReply s = listReply t ↔ s.unitTable = t.unitTable := by
  constructor
  · intro h
    have htexts : s.unitTable.map UnitRow.texts = t.unitTable.map UnitRow.texts := by
      rw [← readList_listReply hs, h, readList_listReply ht]
    exact List.map_injective_iff.mpr UnitRow.texts_injective htexts
  · intro h
    rw [listReply, listReply, listBody_eq, listBody_eq, h]

/-- The supervisor behind the socket of a client. -/
def answering (s : SupervisorState) (ans : ControlAnswer) (files : Contents) (ctx : ReplyContext)
    (alloc : PidAllocator) (text : Text) : Contact :=
  match Control.handleOne s ans files ctx alloc (.ok (received text)) with
  | .error _ => .unread []
  | .ok (_, _, reply) => .replied reply

/-- `wo-ctl list` asks for the list, and succeeds if it can print the reply. -/
theorem clientStatus_list {s : SupervisorState} (h : OneWordNames s) (ans : ControlAnswer)
    (files : Contents) (ctx : ReplyContext) (alloc : PidAllocator) (console : Console)
    (env : Option String) :
    clientStatus console env ["list"] (fun _ => answering s ans files ctx alloc) =
      if Written console.out (s.registry.len + 1) then 0 else panicStatus := by
  have hline : parseRequest (.ok (received (sent ["list"]))) = .list := by decide
  have hscan : invocation env ["list"] = some ⟨env.getD defaultSocket, ["list"]⟩ := by
    cases env <;> rfl
  have hreplied : answering s ans files ctx alloc (sent ["list"]) = .replied (listReply s) := by
    rw [answering, handleOne_list s ans files ctx alloc hline]
  have hlen : (lines (listReply s)).length = s.registry.len + 1 := by
    rw [lines_listReply h, List.length_append, List.length_map, SupervisorState.unitTable,
      List.length_map, List.length_range]
    rfl
  rw [clientStatus, hscan]
  dsimp only
  rw [hreplied]
  dsimp only
  rw [exitStatus_listReply, hlen, printing]

/-- **`LIST` is faithful** in a complete exchange while every unit has a name of one word: nothing
changes, the client succeeds if it can print the reply, the reply is read back line by line into
name, state and process of each unit, and two states get the same reply exactly when these are the
same. -/
theorem list_faithful {s : SupervisorState} (hs : OneWordNames s) (ans : ControlAnswer)
    (files : Contents) (ctx : ReplyContext) (alloc : PidAllocator) {line : Except IoError String}
    (hline : parseRequest line = .list) :
    Control.handleOne s ans files ctx alloc line = .ok (s, .ok (), listReply s) ∧
      (∀ console env, clientStatus console env ["list"] (fun _ => answering s ans files ctx alloc) =
        if Written console.out (s.registry.len + 1) then 0 else panicStatus) ∧
      readList (listReply s) = s.unitTable.map UnitRow.texts ∧
      ∀ t, OneWordNames t → (listReply s = listReply t ↔ s.unitTable = t.unitTable) :=
  ⟨handleOne_list s ans files ctx alloc hline, clientStatus_list hs ans files ctx alloc,
    readList_listReply hs, fun _ ht => listReply_eq_iff hs ht⟩

theorem list_faithful_dhcpcd : readList (listReply Control.dhcpcdState) =
    [["dhcpcd.service".toList, "Inactive".toList, "pid=—".toList]] := by
  have hnames : OneWordNames Control.dhcpcdState :=
    List.forall_mem_singleton.mpr ⟨by decide, free_of_all (by decide)⟩
  have hline : parseRequest (.ok "LIST\n") = .list := by decide
  have hlist := list_faithful hnames {} Control.unreadableFiles (Control.logsIn "/var/log")
    .counting hline
  exact hlist.2.2.1

/-- A name with a newline in it passes for two units. -/
example : ∃ s t, listReply s = listReply t ∧ s.unitTable ≠ t.unitTable := by
  refine ⟨.new (.fromLoaded [⟨"a.service", {}⟩, ⟨"a-service-with-a-longer-name.service", {}⟩]) true,
    .new (.fromLoaded [⟨"a.service                         " ++
      "Inactive  pid=—\na-service-with-a-longer-name.service", {}⟩]) true, ?_, ?_⟩
  · decide +kernel
  · decide

end WriteonceOs.Svc
