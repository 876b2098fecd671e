import WriteonceOs.Library.Panics
import WriteonceOs.Svc.Enabled
import WriteonceOs.Svc.Replies

/-!
# The client of the control socket

`wo-ctl` joins its arguments into one line, and the supervisor reads the line up to its end and
splits it again.  An argument with a blank in it comes out as several, one with a line break ends
the request, and an empty one is lost.

* `arrives_iff` — the supervisor reads the arguments that were given when each is one word;
* `addressable_iff` — the units that a request can name.
-/

namespace WriteonceOs.Svc

open WriteonceOs.Library

/-! ### The command line -/

structure Invocation where
  socket : String
  cmdArgs : List String
  deriving DecidableEq, Repr

/-- The arguments from here on; `none` is the usage text. -/
def scanArgs (inv : Invocation) : List String → Option Invocation
  | [] => some inv
  | arg :: rest =>
    if arg = "--socket" then
      match rest with
      | [] => none
      | path :: rest => scanArgs { inv with socket := path } rest
    else if arg = "-h" ∨ arg = "--help" then none
    else scanArgs { inv with cmdArgs := inv.cmdArgs ++ [arg] } rest

def defaultSocket : String := "/run/writeonce/control.sock"

/-- The environment may name another socket, and the arguments may again. -/
def invocation (env : Option String) (argv : List String) : Option Invocation :=
  match scanArgs ⟨env.getD defaultSocket, []⟩ argv with
  | none => none
  | some inv => if inv.cmdArgs = [] then none else some inv

/-! ### The request -/

def requestLine (args : List String) : Text := [' '].intercalate (args.map String.toList)

/-- What is written to the socket. -/
def sent (args : List String) : Text := requestLine args ++ ['\n']

/-- What `read_line` makes of it. -/
def received (stream : Text) : String :=
  String.ofList (stream.takeWhile (· ≠ '\n') ++ (stream.dropWhile (· ≠ '\n')).take 1)

/-! ### What the client reports -/

/-- How far the exchange came; the reply may break off. -/
inductive Contact where
  | refused
  | unwritten
  | unread (reply : Text)
  | replied (reply : Text)
  deriving DecidableEq, Repr

/-- Which of the lines on standard output and standard error can be written.  A line on a stream
that is closed counts as written. -/
structure Console where
  out : ℕ → Bool
  err : ℕ → Bool

/-- The first `n` lines of a stream are printed, and the program goes on. -/
def printing (writes : ℕ → Bool) (n : ℕ) (status : ℕ) : ℕ :=
  if Written writes n then status else panicStatus

/-- The number of lines of the usage text. -/
def usageLines : ℕ := 12

/-- The exit status of `main`; the supervisor behind a socket is an argument. -/
def clientStatus (console : Console) (env : Option String) (argv : List String)
    (serve : String → Text → Contact) : ℕ :=
  match invocation env argv with
  | none => printing console.err usageLines 2
  | some inv =>
    match serve inv.socket (sent inv.cmdArgs) with
    | .refused => printing console.err 1 1
    | .unwritten => printing console.err 1 1
    | .unread reply => printing console.out (lines reply).length (printing console.err 1 1)
    | .replied reply => printing console.out (lines reply).length (exitStatus reply)

/-! ### What arrives -/

/-- A word of a request line. -/
def IsWord (word : String) : Prop := word ≠ "" ∧ ∀ c ∈ word.toList, isWhitespace c = false

theorem isWord_of_mem {line word : String} (h : word ∈ splitWhitespace line) : IsWord word := by
  obtain ⟨piece, hpiece, rfl⟩ := List.mem_map.mp h
  obtain ⟨hsplit, hne⟩ := List.mem_filter.mp hpiece
  refine ⟨fun hempty => ?_, fun c hc => ?_⟩
  · have hnil : piece = [] := by simpa using congrArg String.toList hempty
    exact absurd hnil (by simpa using hne)
  · exact free_of_mem_splitOnP hsplit c (by simpa using hc)

theorem splitWhitespace_ofList (text : Text) :
    splitWhitespace (String.ofList text) = (words isWhitespace text).map String.ofList := by
  rw [splitWhitespace, String.toList_ofList]
  rfl

/-- Words with a blank between them. -/
theorem words_requestLine {args : List String} (h : ∀ a ∈ args, IsWord a) :
    words isWhitespace (requestLine args) = args.map String.toList := by
  induction args with
  | nil => rfl
  | cons a args ih =>
    obtain ⟨⟨hne, hfree⟩, hargs⟩ := List.forall_mem_cons.mp h
    have hword : words isWhitespace a.toList = [a.toList] :=
      words_of_free hfree fun hnil => hne (String.toList_inj.mp hnil)
    cases args with
    | nil =>
      show words isWhitespace ([' '].intercalate [a.toList]) = _
      rw [List.intercalate_singleton, hword]
      rfl
    | cons b args =>
      have hjoin : requestLine (a :: b :: args) = a.toList ++ ' ' :: requestLine (b :: args) := by
        show [' '].intercalate (a.toList :: b.toList :: _) = _
        rw [List.intercalate_cons_cons, List.append_assoc]
        rfl
      rw [hjoin, words_append_separator rfl, hword, ih hargs]
      rfl

theorem newline_not_mem_requestLine {args : List String} (h : ∀ a ∈ args, IsWord a) :
    '\n' ∉ requestLine args := by
  refine not_mem_intercalate (by decide) ?_
  intro part hpart hmem
  obtain ⟨a, ha, rfl⟩ := List.mem_map.mp hpart
  exact absurd ((h a ha).2 '\n' hmem) (by decide)

/-- **What arrives** is what was given when each argument is one word. -/
theorem arrives_iff (args : List String) :
    splitWhitespace (received (sent args)) = args ↔ ∀ a ∈ args, IsWord a := by
  constructor
  · intro h a ha
    exact isWord_of_mem (h ▸ ha)
  · intro h
    have hline := newline_not_mem_requestLine h
    have hkept : ∀ c ∈ requestLine args, decide (c ≠ '\n') = true := by
      intro c hc
      exact decide_eq_true fun e => hline (e ▸ hc)
    have hreceived : received (sent args) = String.ofList (requestLine args ++ ['\n']) := by
      rw [received, sent, List.takeWhile_append_of_pos hkept, List.dropWhile_append_of_pos hkept,
        List.takeWhile_cons_of_neg (by simp), List.dropWhile_cons_of_neg (by simp),
        List.append_nil]
      rfl
    rw [hreceived, splitWhitespace_ofList, words_append_separator rfl, words_nil, List.append_nil,
      words_requestLine h, List.map_map]
    exact (List.map_congr_left fun a _ => String.ofList_toList).trans (List.map_id args)

/-! ### The units that can be named -/

/-- The unit of a request. -/
def Request.unit : Request → Option String
  | .status name => name
  | .start name => name
  | .stop name => name
  | .restart name => name
  | .enable name => name
  | .disable name => name
  | .journal name _ => name
  | _ => none

theorem unit_mem {line name : String} (h : (parseRequest (.ok line)).unit = some name) :
    name ∈ splitWhitespace line := by
  cases hsplit : splitWhitespace line with
  | nil => simp [parseRequest, hsplit, Request.unit] at h
  | cons command args =>
    have harg (hname : args[0]? = some name) : name ∈ command :: args :=
      List.mem_cons_of_mem command (List.mem_of_getElem? hname)
    simp only [parseRequest, hsplit] at h
    split at h
    all_goals first | exact harg h | cases h

theorem scanArgs_one {inv : Invocation} {arg : String} (hsocket : arg ≠ "--socket")
    (hhelp : ¬ (arg = "-h" ∨ arg = "--help")) :
    scanArgs inv [arg] = some { inv with cmdArgs := inv.cmdArgs ++ [arg] } := by
  rw [scanArgs.eq_def]
  simp only [if_neg hsocket, if_neg hhelp]
  rfl

/-- Only arguments that are given are sent. -/
theorem mem_of_scanArgs {inv inv' : Invocation} {argv : List String}
    (h : scanArgs inv argv = some inv') :
    ∀ arg ∈ inv'.cmdArgs, arg ∈ inv.cmdArgs ∨ arg ∈ argv := by
  fun_induction scanArgs inv argv with
  | case1 inv =>
    cases h
    exact fun arg harg => .inl harg
  | case2 inv => cases h
  | case3 inv path rest ih =>
    exact fun arg harg => (ih h arg harg).imp_right fun hrest =>
      List.mem_cons_of_mem _ (List.mem_cons_of_mem _ hrest)
  | case4 inv arg rest => cases h
  | case5 inv first rest _ _ ih =>
    intro arg harg
    rcases ih h arg harg with hmem | hrest
    · refine (List.mem_append.mp hmem).imp_right fun hlast => ?_
      rw [List.mem_singleton.mp hlast]
      exact List.mem_cons_self
    · exact .inr (List.mem_cons_of_mem _ hrest)

/-- A character of a word that arrives was sent. -/
theorem mem_sent_of_received {args : List String} {word : String} {c : Char}
    (h : word ∈ splitWhitespace (received (sent args))) (hc : c ∈ word.toList) : c ∈ sent args := by
  rw [received, splitWhitespace_ofList] at h
  obtain ⟨text, htext, rfl⟩ := List.mem_map.mp h
  rw [String.toList_ofList] at hc
  rcases List.mem_append.mp (mem_of_mem_words htext hc) with hbefore | hend
  · exact (List.takeWhile_subset _) hbefore
  · exact (List.dropWhile_subset _) (List.mem_of_mem_take hend)

/-- No argument of a command line has a NUL in it. -/
def NulFree (argv : List String) : Prop := ∀ arg ∈ argv, '\x00' ∉ arg.toList

theorem nul_not_mem_sent {args : List String} (h : NulFree args) : '\x00' ∉ sent args := by
  rw [sent, List.mem_append, not_or]
  refine ⟨not_mem_intercalate (by decide) fun part hpart => ?_, by decide⟩
  obtain ⟨arg, harg, rfl⟩ := List.mem_map.mp hpart
  exact h arg harg

/-- The units that some invocation asks the supervisor for. -/
def Addressable (name : String) : Prop :=
  ∃ env argv inv, NulFree argv ∧ invocation env argv = some inv ∧
    (parseRequest (.ok (received (sent inv.cmdArgs)))).unit = some name

/-- **The units that can be named** are those whose names are one word, without a NUL. -/
theorem addressable_iff (name : String) :
    Addressable name ↔ IsWord name ∧ '\x00' ∉ name.toList := by
  constructor
  · rintro ⟨env, argv, inv, hfree, hinv, hunit⟩
    refine ⟨isWord_of_mem (unit_mem hunit), fun hnul => ?_⟩
    refine nul_not_mem_sent (fun arg harg => ?_) (mem_sent_of_received (unit_mem hunit) hnul)
    rw [invocation] at hinv
    split at hinv
    · cases hinv
    · next inv' hscan =>
      split at hinv
      · cases hinv
      · cases hinv
        exact hfree arg ((mem_of_scanArgs hscan arg harg).resolve_left List.not_mem_nil)
  · rintro ⟨h, hnul⟩
    -- the name behind the command, in one argument, so that it is taken for no option
    have hfirst {other : String} (hother : other.toList.head? ≠ some 's') :
        "start " ++ name ≠ other := by
      rintro rfl
      exact hother (by rw [String.toList_append]; rfl)
    have hscan : scanArgs ⟨defaultSocket, []⟩ ["start " ++ name] =
        some ⟨defaultSocket, ["start " ++ name]⟩ :=
      scanArgs_one (hfirst (by decide)) fun hhelp =>
        hhelp.elim (hfirst (by decide)) (hfirst (by decide))
    have hfree : NulFree ["start " ++ name] := by
      refine List.forall_mem_singleton.mpr ?_
      rw [String.toList_append, List.mem_append, not_or]
      exact ⟨by decide, hnul⟩
    refine ⟨none, ["start " ++ name], ⟨defaultSocket, ["start " ++ name]⟩, hfree, ?_, ?_⟩
    · rw [invocation, Option.getD_none, hscan]
      rfl
    · have hwords : ∀ a ∈ ["start", name], IsWord a := by
        intro a ha
        rcases List.mem_cons.mp ha with rfl | ha
        · exact ⟨by decide, free_of_all (by decide)⟩
        · exact (List.mem_singleton.mp ha) ▸ h
      have hsame : sent ["start " ++ name] = sent ["start", name] := by
        rw [sent, sent, requestLine, requestLine, List.map_singleton, String.toList_append,
          List.intercalate_singleton]
        show _ = [' '].intercalate ["start".toList, name.toList] ++ _
        rw [List.intercalate_cons_cons, List.intercalate_singleton]
        rfl
      show (parseRequest (.ok (received (sent ["start " ++ name])))).unit = some name
      rw [hsame]
      have harrives := (arrives_iff ["start", name]).mpr hwords
      have hupper : toAsciiUppercase "start" = "START" := by decide
      simp only [parseRequest, harrives, hupper]
      rfl

/-- The loader takes up a unit with a blank in its name, and no request can name it. -/
example : Enabled.IsUnitName "my app.service" ∧ ¬ IsWord "my app.service" := by
  refine ⟨by decide, fun h => ?_⟩
  exact absurd (h.2 ' ' (by decide)) (by decide)

end WriteonceOs.Svc
