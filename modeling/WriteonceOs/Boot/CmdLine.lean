import Mathlib.Data.List.Infix
import WriteonceOs.Library.Words
import WriteonceOs.Svc.Config

/-!
# The kernel command line

The installer fills the root UUID into a template, the bootloader reads the file and adds the
initramfs, and the initramfs parses what the kernel hands on.  A text is the list of its
characters, a file the bytes of its UTF-8 encoding.

* `parse_fullCmdline` — the bootloader's line parses as the file it was built from;
* `parse_lastValue`, `parse_mountFlags` — of the words for a parameter the last one counts;
* `parse_congr` — words that are no parameters do not count;
* `parse_rootSpec` — the root device is the one of the last `root=` word;
* `words_formatCmdline` — the words of a filled template.
-/

namespace WriteonceOs.Boot

open WriteonceOs.Library

abbrev Text := List Char

def stripPrefix (pre cs : Text) : Option Text :=
  if pre.isPrefixOf cs then some (cs.drop pre.length) else none

/-! ### The installer -/

def rootUuidMark : Text := "__ROOT_UUID__".toList

/-- Fill the root UUID into a template. -/
def formatCmdline (template rootUuid : Text) : Text := replace rootUuidMark rootUuid template

/-- The bytes of a text file. -/
def fileBytes (text : Text) : ByteArray := (String.ofList text).toByteArray

/-! ### The bootloader -/

def initrdPath : Text := "EFI\\WriteOnce\\initramfs.img".toList

/-- The line handed to the kernel; a file that is not UTF-8 counts as empty. -/
def fullCmdline (cmdlineBytes : ByteArray) : Text :=
  let cmdlineIn := trimEnd (fun c => c == '\r' || c == '\n' || c == '\x00')
    ((String.fromUTF8? cmdlineBytes).getD "").toList
  if "initrd=".toList <:+: cmdlineIn then cmdlineIn
  else cmdlineIn ++ " initrd=\\".toList ++ initrdPath

/-! ### The initramfs -/

inductive RootSpec where
  | uuid (u : Text)
  | partUuid (u : Text)
  | label (l : Text)
  | device (path : Text)
  deriving DecidableEq, Repr

def msRdonly : UInt64 := 1

def msNoatime : UInt64 := 1024

structure CmdLine where
  rootSpec : Option RootSpec := none
  rootfstype : Option Text := none
  rootflags : Option Text := none
  initPath : Text := "/sbin/writeonce-pid1".toList
  recovery : Bool := false
  rootwaitSecs : ℕ := 30
  mountFlags : UInt64 := msNoatime
  deriving DecidableEq, Repr

def parseRoot (v : Text) : RootSpec :=
  match stripPrefix "UUID=".toList v with
  | some u => .uuid u
  | none =>
    match stripPrefix "PARTUUID=".toList v with
    | some u => .partUuid u
    | none =>
      match stripPrefix "LABEL=".toList v with
      | some l => .label l
      | none => .device v

/-- What one word sets; a wait time that is no number is zero. -/
def parseToken (out : CmdLine) (tok : Text) : CmdLine :=
  match stripPrefix "root=".toList tok with
  | some v => { out with rootSpec := some (parseRoot v) }
  | none =>
    match stripPrefix "rootfstype=".toList tok with
    | some v => { out with rootfstype := some v }
    | none =>
      match stripPrefix "rootflags=".toList tok with
      | some v => { out with rootflags := some v }
      | none =>
        match stripPrefix "init=".toList tok with
        | some v => { out with initPath := v }
        | none =>
          match stripPrefix "writeonce.rootwait=".toList tok with
          | some v => { out with rootwaitSecs := (Svc.parseU64 v).getD 0 }
          | none =>
            if tok = "rw".toList then { out with mountFlags := out.mountFlags &&& ~~~msRdonly }
            else if tok = "ro".toList then { out with mountFlags := out.mountFlags ||| msRdonly }
            else if tok = "wo.recovery".toList ∨ tok = "wo.fake".toList then
              { out with recovery := true }
            else out

def parse (s : Text) : CmdLine := (words Svc.isWhitespace s).foldl parseToken {}

example : parse "root=LABEL=writeonce-root writeonce.rootwait=45 ro rw\n".toList =
    { rootSpec := some (.label "writeonce-root".toList), rootwaitSecs := 45 } := by decide

/-! ### The line of the bootloader -/

theorem fromUTF8_fileBytes (text : Text) :
    String.fromUTF8? (fileBytes text) = some (String.ofList text) := by
  have hvalid : (fileBytes text).IsValidUTF8 := (String.ofList text).isValidUTF8
  rw [String.fromUTF8?, dif_pos hvalid]
  rfl

theorem parse_initrd (out : CmdLine) :
    parseToken out ("initrd=\\".toList ++ initrdPath) = out := rfl

/-- **The bootloader's line parses as its file**, where that holds no NUL. -/
theorem parse_fullCmdline {text : Text} (hnul : '\x00' ∉ text) :
    parse (fullCmdline (fileBytes text)) = parse text := by
  have hsep : ∀ c ∈ text, (c == '\r' || c == '\n' || c == '\x00') = true →
      Svc.isWhitespace c = true := by
    intro c hc h
    simp only [Bool.or_eq_true, beq_iff_eq] at h
    rcases h with (rfl | rfl) | rfl
    · decide
    · decide
    · exact absurd hc hnul
  have hwords := words_trimEnd hsep
  unfold fullCmdline
  rw [fromUTF8_fileBytes, Option.getD_some, String.toList_ofList]
  dsimp only
  split
  · rw [parse, parse, hwords]
  · -- the appended word sets nothing
    have happ : words Svc.isWhitespace
        (trimEnd (fun c => c == '\r' || c == '\n' || c == '\x00') text ++ " initrd=\\".toList ++
          initrdPath) = words Svc.isWhitespace text ++ ["initrd=\\".toList ++ initrdPath] := by
      have hword : words Svc.isWhitespace ("initrd=\\".toList ++ initrdPath) =
          ["initrd=\\".toList ++ initrdPath] := words_of_free (free_of_all (by decide)) (by decide)
      rw [List.append_assoc, show " initrd=\\".toList ++ initrdPath =
        ' ' :: ("initrd=\\".toList ++ initrdPath) from rfl, words_append_separator rfl, hwords,
        hword]
    rw [parse, parse, happ, List.foldl_append, List.foldl_cons, List.foldl_nil, parse_initrd]

/-! ### The last word wins -/

/-- The value of the last word that begins with `pre`. -/
def lastValue (pre text : Text) : Option Text :=
  ((words Svc.isWhitespace text).filterMap (stripPrefix pre)).getLast?

theorem stripPrefix_append (pre v : Text) : stripPrefix pre (pre ++ v) = some v := by
  rw [stripPrefix, if_pos (List.isPrefixOf_iff_prefix.mpr (List.prefix_append pre v)),
    List.drop_left]

/-- **A parameter with a value**: what the last of its words sets, and else the default. -/
theorem parse_lastValue {β : Type*} (view : CmdLine → β) (pre : Text) (g : Text → β)
    (hset : ∀ out v, view (parseToken out (pre ++ v)) = g v)
    (hkeep : ∀ out tok, pre.isPrefixOf tok = false → view (parseToken out tok) = view out)
    (text : Text) : view (parse text) = ((lastValue pre text).map g).getD (view {}) := by
  have hstep : ∀ out tok, view (parseToken out tok) =
      ((stripPrefix pre tok).map g).getD (view out) := by
    intro out tok
    cases h : pre.isPrefixOf tok with
    | true =>
      obtain ⟨v, rfl⟩ := List.isPrefixOf_iff_prefix.mp h
      rw [hset, stripPrefix_append]
      rfl
    | false =>
      rw [hkeep out tok h, stripPrefix, h]
      rfl
  have hlast : ((words Svc.isWhitespace text).filterMap fun tok => (stripPrefix pre tok).map g) =
      ((words Svc.isWhitespace text).filterMap (stripPrefix pre)).map g :=
    List.map_filterMap.symm
  rw [parse, foldl_lastSet hstep, hlast, List.getLast?_map, lastValue]

theorem parse_rootSpec_eq (text : Text) :
    (parse text).rootSpec = (lastValue "root=".toList text).map parseRoot := by
  have hkeep : ∀ out tok, "root=".toList.isPrefixOf tok = false →
      (parseToken out tok).rootSpec = out.rootSpec := by
    intro out tok h
    simp only [parseToken, stripPrefix, h]
    repeat' split
    all_goals first | rfl | contradiction
  rw [parse_lastValue CmdLine.rootSpec "root=".toList (fun v => some (parseRoot v))
    (fun _ _ => rfl) hkeep]
  cases lastValue "root=".toList text <;> rfl

/-- The words that begin with `pre`, without it. -/
theorem filterMap_stripPrefix (pre : Text) (toks : List Text) :
    toks.filterMap (stripPrefix pre) =
      (toks.filter (pre.isPrefixOf ·)).map (·.drop pre.length) := by
  induction toks with
  | nil => rfl
  | cons tok toks ih =>
    cases h : pre.isPrefixOf tok <;> simp [stripPrefix, h, ih]

/-- **The last `root=` word is the root device.** -/
theorem parse_rootSpec {text v : Text}
    (hlast : ((words Svc.isWhitespace text).filter ("root=".toList.isPrefixOf ·)).getLast? =
      some ("root=".toList ++ v)) : (parse text).rootSpec = some (parseRoot v) := by
  rw [parse_rootSpec_eq, lastValue, filterMap_stripPrefix, List.getLast?_map, hlast,
    Option.map_some, Option.map_some, List.drop_left]

theorem parse_rootfstype (text : Text) :
    (parse text).rootfstype = lastValue "rootfstype=".toList text := by
  have hkeep : ∀ out tok, "rootfstype=".toList.isPrefixOf tok = false →
      (parseToken out tok).rootfstype = out.rootfstype := by
    intro out tok h
    simp only [parseToken, stripPrefix, h]
    repeat' split
    all_goals first | rfl | contradiction
  rw [parse_lastValue CmdLine.rootfstype "rootfstype=".toList some (fun _ _ => rfl) hkeep]
  cases lastValue "rootfstype=".toList text <;> rfl

theorem parse_initPath (text : Text) :
    (parse text).initPath =
      (lastValue "init=".toList text).getD "/sbin/writeonce-pid1".toList := by
  have hkeep : ∀ out tok, "init=".toList.isPrefixOf tok = false →
      (parseToken out tok).initPath = out.initPath := by
    intro out tok h
    simp only [parseToken, stripPrefix, h]
    repeat' split
    all_goals first | rfl | contradiction
  rw [parse_lastValue CmdLine.initPath "init=".toList id (fun _ _ => rfl) hkeep, Option.map_id]
  rfl

theorem parse_rootwaitSecs (text : Text) :
    (parse text).rootwaitSecs =
      ((lastValue "writeonce.rootwait=".toList text).map fun v =>
        (Svc.parseU64 v).getD 0).getD 30 := by
  have hkeep : ∀ out tok, "writeonce.rootwait=".toList.isPrefixOf tok = false →
      (parseToken out tok).rootwaitSecs = out.rootwaitSecs := by
    intro out tok h
    simp only [parseToken, stripPrefix, h]
    repeat' split
    all_goals first | rfl | contradiction
  exact parse_lastValue CmdLine.rootwaitSecs "writeonce.rootwait=".toList _ (fun _ _ => rfl)
    hkeep text

def isAccess (tok : Text) : Bool := tok == "ro".toList || tok == "rw".toList

/-- The last of the words `ro` and `rw`. -/
def lastAccess (text : Text) : Option Text :=
  ((words Svc.isWhitespace text).filter isAccess).getLast?

theorem parseToken_mountFlags (out : CmdLine) (tok : Text) :
    (parseToken out tok).mountFlags =
      if tok = "rw".toList then out.mountFlags &&& ~~~msRdonly
      else if tok = "ro".toList then out.mountFlags ||| msRdonly
      else out.mountFlags := by
  by_cases hrw : tok = "rw".toList
  · subst hrw
    rfl
  by_cases hro : tok = "ro".toList
  · subst hro
    rfl
  simp only [if_neg hrw, if_neg hro, parseToken]
  repeat' split
  all_goals rfl

/-- **The flags of the mount**: no access times, and read-only where `ro` is the last word. -/
theorem parse_mountFlags (text : Text) :
    (parse text).mountFlags =
      if lastAccess text = some "ro".toList then msNoatime ||| msRdonly else msNoatime := by
  rw [parse, lastAccess]
  induction words Svc.isWhitespace text using List.reverseRecOn with
  | nil => rfl
  | append_singleton toks tok ih =>
    rw [List.foldl_append, List.foldl_cons, List.foldl_nil, parseToken_mountFlags, ih,
      List.filter_append]
    by_cases hrw : tok = "rw".toList
    · subst hrw
      have hlast : some "rw".toList ≠ some "ro".toList := by decide
      rw [show ["rw".toList].filter isAccess = ["rw".toList] from rfl, List.getLast?_concat,
        if_neg hlast, if_pos rfl]
      split <;> rfl
    by_cases hro : tok = "ro".toList
    · subst hro
      rw [show ["ro".toList].filter isAccess = ["ro".toList] from rfl, List.getLast?_concat,
        if_pos rfl, if_neg hrw, if_pos rfl]
      split <;> rfl
    · have hother : isAccess tok = false := by
        rw [isAccess, beq_false_of_ne hrw, beq_false_of_ne hro]
        rfl
      have hnil : [tok].filter isAccess = [] := by
        rw [List.filter_cons_of_neg (by rw [hother]; simp), List.filter_nil]
      rw [if_neg hrw, if_neg hro, hnil, List.append_nil]

/-- The beginnings of the parameters with a value. -/
def valueParameters : List Text :=
  ["root=".toList, "rootfstype=".toList, "rootflags=".toList, "init=".toList,
    "writeonce.rootwait=".toList]

def flagParameters : List Text :=
  ["rw".toList, "ro".toList, "wo.recovery".toList, "wo.fake".toList]

/-- A word that is one of the parameters; a longer word is none. -/
def isParameter (tok : Text) : Bool :=
  valueParameters.any (·.isPrefixOf tok) || flagParameters.contains tok

theorem parseToken_of_not_parameter (out : CmdLine) {tok : Text} (h : isParameter tok = false) :
    parseToken out tok = out := by
  rw [isParameter, Bool.or_eq_false_iff] at h
  have hvalue : ∀ pre ∈ valueParameters, stripPrefix pre tok = none := by
    intro pre hpre
    rw [stripPrefix, if_neg fun htok => Bool.eq_false_iff.mp h.1 (List.any_eq_true.mpr
      ⟨pre, hpre, htok⟩)]
  have hflag : ∀ flag ∈ flagParameters, tok ≠ flag := by
    intro flag hmem heq
    rw [heq, List.contains_iff_mem.mpr hmem] at h
    exact absurd h.2 (by decide)
  rw [parseToken, hvalue _ (by decide), hvalue _ (by decide), hvalue _ (by decide),
    hvalue _ (by decide), hvalue _ (by decide)]
  dsimp only
  rw [if_neg (hflag _ (by decide)), if_neg (hflag _ (by decide)), if_neg]
  exact fun hrecovery => hrecovery.elim (hflag _ (by decide)) (hflag _ (by decide))

/-- **The other words have no effect.** -/
theorem parse_congr {text text' : Text}
    (h : (words Svc.isWhitespace text).filter isParameter =
      (words Svc.isWhitespace text').filter isParameter) : parse text = parse text' := by
  have hfilter : ∀ (toks : List Text) (out : CmdLine),
      toks.foldl parseToken out = (toks.filter isParameter).foldl parseToken out := by
    intro toks
    induction toks with
    | nil => exact fun _ => rfl
    | cons tok toks ih =>
      intro out
      rw [List.foldl_cons, ih, List.filter_cons]
      cases htok : isParameter tok with
      | true => rfl
      | false => rw [parseToken_of_not_parameter out htok]; rfl
  rw [parse, parse, hfilter, h, ← hfilter]

def isRecovery (tok : Text) : Bool := tok == "wo.recovery".toList || tok == "wo.fake".toList

theorem parseToken_recovery (out : CmdLine) (tok : Text) :
    (parseToken out tok).recovery = (out.recovery || isRecovery tok) := by
  by_cases h : isRecovery tok = true
  · rw [h, Bool.or_true]
    simp only [isRecovery, Bool.or_eq_true, beq_iff_eq] at h
    rcases h with rfl | rfl <;> rfl
  · have hne : ¬ (tok = "wo.recovery".toList ∨ tok = "wo.fake".toList) := by
      simpa only [isRecovery, Bool.or_eq_true, beq_iff_eq] using h
    rw [Bool.eq_false_iff.mpr h, Bool.or_false]
    simp only [parseToken, if_neg hne]
    repeat' split
    all_goals rfl

theorem parse_recovery (text : Text) :
    (parse text).recovery = (words Svc.isWhitespace text).any isRecovery := by
  have hfold : ∀ (toks : List Text) (out : CmdLine),
      (toks.foldl parseToken out).recovery = (out.recovery || toks.any isRecovery) := by
    intro toks
    induction toks with
    | nil => exact fun out => (Bool.or_false _).symm
    | cons tok toks ih =>
      intro out
      rw [List.foldl_cons, ih, parseToken_recovery, List.any_cons, Bool.or_assoc]
  exact hfold _ {}

/-! ### A filled template -/

/-- What is filled in is a word, and does not start as a `root=` word could go on. -/
structure Fills (rootUuid : Text) : Prop where
  free : ∀ c ∈ rootUuid, Svc.isWhitespace c = false
  head : ∃ c rest, rootUuid = c :: rest ∧ c ∉ "root=".toList

/-- **The words of a filled template** are its words, filled. -/
theorem words_formatCmdline {rootUuid : Text} (h : Fills rootUuid) (template : Text) :
    words Svc.isWhitespace (formatCmdline template rootUuid) =
      (words Svc.isWhitespace template).map (replace rootUuidMark rootUuid) := by
  obtain ⟨c, rest, rfl, -⟩ := h.head
  exact words_replace (free_of_all (by decide)) (by decide) h.free (by simp) template

theorem parse_formatCmdline_rootSpec {rootUuid template : Text} (h : Fills rootUuid)
    (hlast : ((words Svc.isWhitespace template).filter ("root=".toList.isPrefixOf ·)).getLast? =
      some "root=UUID=__ROOT_UUID__".toList) :
    (parse (formatCmdline template rootUuid)).rootSpec = some (.uuid rootUuid) := by
  have hprefix : ∀ w, "root=".toList.isPrefixOf (replace rootUuidMark rootUuid w) =
      "root=".toList.isPrefixOf w := by
    obtain ⟨c, rest, rfl, hc⟩ := h.head
    exact isPrefixOf_replace (by decide) hc
  have hfill : replace rootUuidMark rootUuid "root=UUID=__ROOT_UUID__".toList =
      "root=".toList ++ ("UUID=".toList ++ rootUuid) := by
    have hcalc : replace rootUuidMark rootUuid "root=UUID=__ROOT_UUID__".toList =
      "root=".toList ++ ("UUID=".toList ++ (rootUuid ++ [])) := rfl
    rw [hcalc, List.append_nil]
  have hspec : (parse (formatCmdline template rootUuid)).rootSpec =
      some (parseRoot ("UUID=".toList ++ rootUuid)) := by
    refine parse_rootSpec ?_
    rw [words_formatCmdline h, List.filter_map]
    have hcomp : (("root=".toList.isPrefixOf ·) ∘ replace rootUuidMark rootUuid) =
        ("root=".toList.isPrefixOf ·) := funext hprefix
    rw [hcomp, List.getLast?_map, hlast, Option.map_some, hfill]
  rw [hspec]
  simp [parseRoot, stripPrefix]

end WriteonceOs.Boot
