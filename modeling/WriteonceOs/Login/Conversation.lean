import Mathlib.Data.Int.Notation
import Mathlib.Data.List.Forall2
import WriteonceOs.Library.Words

/-!
# The PAM conversation

PAM asks its questions through a callback, which puts each message to a `Conversation` object and
collects the answers for PAM.  The object may do anything: it is a state and four functions on it.
Whether memory can be had is an argument.

* `convTrampoline` — the callback;
* `ttyConv` — the conversation on the tty, where reading can fail;
* `exchanges` — what was asked and answered, message by message;
* `fillResponses_map` — the responses of a call that succeeds;
* `faithful_iff` — when PAM gets what the user answered.
-/

namespace WriteonceOs.Login

open WriteonceOs.Library

abbrev Text := List Char

/-! ### The interface of libpam -/

def pamSuccess : ℤ := 0

def pamBufErr : ℤ := 5

def pamConvErr : ℤ := 19

def pamPromptEchoOff : ℤ := 1

def pamPromptEchoOn : ℤ := 2

def pamErrorMsg : ℤ := 3

def pamTextInfo : ℤ := 4

/-- A message; the text is the bytes of a C string, or null. -/
structure PamMessage where
  msgStyle : ℤ
  msg : Option ByteArray

/-- A response; the text is what a C string holds, or null. -/
structure PamResponse where
  resp : Option Text := none
  respRetcode : ℤ := 0
  deriving DecidableEq, Repr

/-- The arguments of the callback, where a null pointer is `none` or `false`, and the memory that
is there: for the array and for the answer to each message. -/
structure ConvCall where
  numMsg : ℤ
  msg : Option (ℕ → Option PamMessage)
  respOut : Bool := true
  appdata : Bool := true
  calloc : Bool := true
  malloc : ℕ → Bool := fun _ => true

/-- The messages of the array. -/
def ConvCall.messages (call : ConvCall) : List (Option PamMessage) :=
  match call.msg with
  | none => []
  | some msg => (List.range call.numMsg.toNat).map msg

/-! ### The callback -/

/-- What talks to the user. -/
structure Conversation (σ : Type*) where
  promptEchoOff : σ → Text → Option Text × σ
  promptEchoOn : σ → Text → Option Text × σ
  info : σ → Text → σ
  error : σ → Text → σ

/-- The text of a message; null and what is not UTF-8 count as empty. -/
def PamMessage.text (m : PamMessage) : Text := ((m.msg.bind String.fromUTF8?).getD "").toList

/-- `CString::new(s).unwrap_or_default()`. -/
def cString (s : Text) : Text := if '\x00' ∈ s then [] else s

section Callback

variable {σ : Type*} (conv : Conversation σ)

/-- Put one message to the user. -/
def answer (s : σ) (m : PamMessage) : Option Text × σ :=
  if m.msgStyle = pamPromptEchoOff then conv.promptEchoOff s m.text
  else if m.msgStyle = pamPromptEchoOn then conv.promptEchoOn s m.text
  else if m.msgStyle = pamTextInfo then (none, conv.info s m.text)
  else if m.msgStyle = pamErrorMsg then (none, conv.error s m.text)
  else (none, s)

/-- The responses from the message with number `i` on; none when there is no memory for an
answer. -/
def fillResponses (malloc : ℕ → Bool) :
    ℕ → σ → List (Option PamMessage) → Option (List PamResponse) × σ
  | _, s, [] => (some [], s)
  | i, s, none :: ms => ((fillResponses malloc (i + 1) s ms).1.map ({} :: ·),
      (fillResponses malloc (i + 1) s ms).2)
  | i, s, some m :: ms =>
    match answer conv s m with
    | (none, s) => ((fillResponses malloc (i + 1) s ms).1.map ({} :: ·),
        (fillResponses malloc (i + 1) s ms).2)
    | (some text, s) =>
      if malloc i then
        ((fillResponses malloc (i + 1) s ms).1.map ({ resp := some (cString text) } :: ·),
          (fillResponses malloc (i + 1) s ms).2)
      else (none, s)

/-- `conv_trampoline`: the return code, what is stored in `*resp_out`, and the state of the
conversation. -/
def convTrampoline (s : σ) (call : ConvCall) : ℤ × Option (List PamResponse) × σ :=
  if call.numMsg ≤ 0 ∨ call.msg.isNone ∨ !call.respOut ∨ !call.appdata then (pamConvErr, none, s)
  else if !call.calloc then (pamBufErr, none, s)
  else
    match fillResponses conv call.malloc 0 s call.messages with
    | (none, s) => (pamBufErr, none, s)
    | (some responses, s) => (pamSuccess, some responses, s)

end Callback

/-! ### The conversation on the tty -/

/-- What the tty does at one prompt: whether its handle can be cloned, the prompt written, the echo
switched off and the newline written, and the line that is read. -/
structure TtyAnswer where
  cloned : Bool := true
  prompted : Bool := true
  echo : Bool := true
  line : Option Text
  newline : Bool := true
  deriving DecidableEq, Repr

def trimLine (line : Text) : Text := trimEnd (fun c => c == '\r' || c == '\n') line

def readLine (a : TtyAnswer) : Option Text := if a.prompted then a.line.map trimLine else none

def readPassword (a : TtyAnswer) : Option Text :=
  if a.prompted && a.echo && a.newline then a.line.map trimLine else none

/-- The conversation of the login program; nothing can be read when the answers are used up. -/
def ttyConv : Conversation (List TtyAnswer) where
  promptEchoOff answers _ :=
    (answers.head?.bind fun a => if a.cloned then readPassword a else none, answers.tail)
  promptEchoOn answers _ :=
    (answers.head?.bind fun a => if a.cloned then readLine a else none, answers.tail)
  info answers _ := answers
  error answers _ := answers

example :
    (convTrampoline ttyConv [{ line := some "s3cret\n".toList }]
      { numMsg := 2
        msg := some fun i => some ⟨if i = 0 then pamTextInfo else pamPromptEchoOff, none⟩ }).2.1 =
      some [{}, { resp := some "s3cret".toList }] := by decide

/-! ### What was asked and answered -/

def PamMessage.isPrompt (m : PamMessage) : Bool :=
  m.msgStyle == pamPromptEchoOff || m.msgStyle == pamPromptEchoOn

/-- One message and what came of it. -/
inductive Exchange where
  | silent
  | prompt (answer : Option Text)
  deriving DecidableEq, Repr

/-- What the callback makes of an exchange. -/
def Exchange.response : Exchange → PamResponse
  | .silent => {}
  | .prompt answer => { resp := answer.map cString }

/-- **A response that is true to its exchange.** -/
inductive Transmits : Exchange → PamResponse → Prop
  | silent {r : PamResponse} : r.resp = none → Transmits .silent r
  | prompt {text : Text} {r : PamResponse} : r.resp = some text →
      Transmits (.prompt (some text)) r

/-- An answer that can be passed on. -/
def Exchange.Passable : Exchange → Prop
  | .silent => True
  | .prompt answer => ∃ text, answer = some text ∧ '\x00' ∉ text

section Faithful

variable {σ : Type*} (conv : Conversation σ)

/-- The exchanges of the messages, one after the other. -/
def exchanges : σ → List (Option PamMessage) → List Exchange
  | _, [] => []
  | s, none :: ms => .silent :: exchanges s ms
  | s, some m :: ms =>
    (if m.isPrompt then .prompt (answer conv s m).1 else .silent) ::
      exchanges (answer conv s m).2 ms

/-- **The conversation is faithful**: a call that succeeds has one response for each message, in
order, each true to its exchange. -/
def Faithful (s : σ) (call : ConvCall) : Prop :=
  (convTrampoline conv s call).1 = pamSuccess →
    ∃ responses, (convTrampoline conv s call).2.1 = some responses ∧
      List.Forall₂ Transmits (exchanges conv s call.messages) responses

/-- The call is refused: its arguments are bad, or there is no memory for the array. -/
def ConvCall.Refused (call : ConvCall) : Prop :=
  call.numMsg ≤ 0 ∨ call.msg.isNone ∨ !call.respOut ∨ !call.appdata ∨ !call.calloc

/-- There is no memory for one of the answers, the first message having the number `i`. -/
def OutOfMemory (malloc : ℕ → Bool) (i : ℕ) (es : List Exchange) : Prop :=
  ∃ k text, es[k]? = some (.prompt (some text)) ∧ malloc (i + k) = false

variable {conv}

theorem transmits_response {e : Exchange} : Transmits e e.response ↔ e.Passable := by
  cases e with
  | silent => exact ⟨fun _ => trivial, fun _ => .silent rfl⟩
  | prompt answer =>
    cases answer with
    | none =>
      refine ⟨fun h => (by cases h), fun h => ?_⟩
      obtain ⟨text, htext, -⟩ := h
      cases htext
    | some text =>
      refine ⟨fun h => ⟨text, rfl, fun hnul => ?_⟩, fun h => .prompt ?_⟩
      · cases h with
        | prompt hresp =>
          -- the empty string is passed on instead
          have hempty : cString text = [] := if_pos hnul
          have htext : [] = text := Option.some.inj ((congrArg some hempty).symm.trans hresp)
          rw [← htext] at hnul
          cases hnul
      · obtain ⟨text', htext, hnul⟩ := h
        obtain rfl := Option.some.inj htext
        show some (cString text) = some text
        rw [cString, if_neg hnul]

theorem answer_of_not_isPrompt {m : PamMessage} (h : m.isPrompt = false) (s : σ) :
    (answer conv s m).1 = none := by
  simp only [PamMessage.isPrompt, Bool.or_eq_false_iff, beq_eq_false_iff_ne] at h
  rw [answer, if_neg h.1, if_neg h.2]
  split
  · rfl
  · split <;> rfl

theorem outOfMemory_cons {malloc : ℕ → Bool} {i : ℕ} {e : Exchange} {es : List Exchange} :
    OutOfMemory malloc i (e :: es) ↔
      (∃ text, e = .prompt (some text) ∧ malloc i = false) ∨ OutOfMemory malloc (i + 1) es := by
  refine ⟨?_, ?_⟩
  · rintro ⟨k, text, hk, hmalloc⟩
    cases k with
    | zero => exact Or.inl ⟨text, Option.some.inj hk, hmalloc⟩
    | succ k => exact Or.inr ⟨k, text, hk, by rwa [Nat.add_right_comm i 1 k]⟩
  · rintro (⟨text, rfl, hmalloc⟩ | ⟨k, text, hk, hmalloc⟩)
    · exact ⟨0, text, rfl, hmalloc⟩
    · exact ⟨k + 1, text, hk, by rwa [← Nat.add_assoc, Nat.add_right_comm i k 1]⟩

/-- The responses answer the exchanges one by one, unless memory runs out. -/
def Answers (malloc : ℕ → Bool) (i : ℕ) (es : List Exchange)
    (responses : Option (List PamResponse)) : Prop :=
  OutOfMemory malloc i es ∧ responses = none ∨
    ¬ OutOfMemory malloc i es ∧ responses = some (es.map Exchange.response)

theorem Answers.cons {malloc : ℕ → Bool} {i : ℕ} {e : Exchange} {es : List Exchange}
    {responses : Option (List PamResponse)} (h : Answers malloc (i + 1) es responses)
    (hmalloc : ∀ text, e = .prompt (some text) → malloc i = true) :
    Answers malloc i (e :: es) (responses.map (e.response :: ·)) := by
  have hhead : ¬ ∃ text, e = .prompt (some text) ∧ malloc i = false := by
    rintro ⟨text, he, hfalse⟩
    rw [hmalloc text he] at hfalse
    cases hfalse
  rw [Answers, outOfMemory_cons, or_iff_right hhead]
  rcases h with ⟨hout, rfl⟩ | ⟨hin, rfl⟩
  · exact Or.inl ⟨hout, rfl⟩
  · exact Or.inr ⟨hin, rfl⟩

/-- **The responses of the loop.** -/
theorem fillResponses_answers (malloc : ℕ → Bool) (i : ℕ) (s : σ)
    (ms : List (Option PamMessage)) :
    Answers malloc i (exchanges conv s ms) (fillResponses conv malloc i s ms).1 := by
  induction ms generalizing i s with
  | nil =>
    refine Or.inr ⟨?_, rfl⟩
    rintro ⟨k, text, hk, -⟩
    cases hk
  | cons m ms ih =>
    cases m with
    | none => exact (ih (i + 1) s).cons fun text h => by cases h
    | some m =>
      have hsilent : m.isPrompt = false → (answer conv s m).1 = none :=
        fun h => answer_of_not_isPrompt h s
      rw [exchanges, fillResponses]
      generalize answer conv s m = res at hsilent
      obtain ⟨a, s'⟩ := res
      cases a with
      | none =>
        have hresponse : (if m.isPrompt then Exchange.prompt none else .silent).response = {} := by
          split <;> rfl
        have h := (ih (i + 1) s').cons (e := if m.isPrompt then .prompt none else .silent)
          fun text h => by split at h <;> cases h
        rwa [hresponse] at h
      | some text =>
        have hprompt : m.isPrompt = true := by
          cases h : m.isPrompt with
          | true => rfl
          | false => exact absurd (hsilent h) (Option.some_ne_none text)
        rw [if_pos hprompt]
        dsimp only
        split
        · rename_i hmalloc
          exact (ih (i + 1) s').cons fun _ _ => hmalloc
        · rename_i hmalloc
          refine Or.inl ⟨outOfMemory_cons.mpr (Or.inl ⟨text, rfl, ?_⟩), rfl⟩
          exact Bool.eq_false_iff.mpr hmalloc

theorem convTrampoline_of_refused {call : ConvCall} (h : call.Refused) (s : σ) :
    (convTrampoline conv s call).1 ≠ pamSuccess := by
  rw [convTrampoline]
  split
  · show pamConvErr ≠ pamSuccess
    decide
  · rename_i hargs
    have hcalloc : (!call.calloc) = true := by
      simp only [ConvCall.Refused] at h
      tauto
    rw [if_pos hcalloc]
    show pamBufErr ≠ pamSuccess
    decide

theorem convTrampoline_of_not_refused {call : ConvCall} (h : ¬ call.Refused) (s : σ) :
    convTrampoline conv s call =
      match fillResponses conv call.malloc 0 s call.messages with
      | (none, s) => (pamBufErr, none, s)
      | (some responses, s) => (pamSuccess, some responses, s) := by
  simp only [ConvCall.Refused, not_or] at h
  obtain ⟨hnum, hmsg, hout, hdata, hcalloc⟩ := h
  rw [convTrampoline, if_neg (by tauto), if_neg hcalloc]

/-- **When the conversation is faithful**: the call fails, or every prompt is answered by a text
without NUL. -/
theorem faithful_iff (s : σ) (call : ConvCall) :
    Faithful conv s call ↔
      call.Refused ∨ OutOfMemory call.malloc 0 (exchanges conv s call.messages) ∨
        ∀ e ∈ exchanges conv s call.messages, e.Passable := by
  by_cases hrefused : call.Refused
  · exact ⟨fun _ => Or.inl hrefused,
      fun _ hsuccess => absurd hsuccess (convTrampoline_of_refused hrefused s)⟩
  have hanswers : Answers call.malloc 0 (exchanges conv s call.messages)
      (fillResponses conv call.malloc 0 s call.messages).1 :=
    fillResponses_answers call.malloc 0 s call.messages
  rw [or_iff_right hrefused, Faithful, convTrampoline_of_not_refused hrefused]
  generalize fillResponses conv call.malloc 0 s call.messages = res at hanswers
  obtain ⟨responses, s'⟩ := res
  rcases hanswers with ⟨hout, hnone⟩ | ⟨hin, hsome⟩
  · obtain rfl : responses = none := hnone
    refine ⟨fun _ => Or.inl hout, fun _ hsuccess => ?_⟩
    exact absurd hsuccess (by show pamBufErr ≠ pamSuccess; decide)
  · obtain rfl : responses = some _ := hsome
    have htransmits : List.Forall₂ Transmits (exchanges conv s call.messages)
        ((exchanges conv s call.messages).map Exchange.response) ↔
        ∀ e ∈ exchanges conv s call.messages, e.Passable := by
      rw [List.forall₂_map_right_iff, List.forall₂_same]
      exact forall₂_congr fun e _ => transmits_response
    rw [or_iff_right hin, ← htransmits]
    refine ⟨fun h => ?_, fun h _ => ⟨_, rfl, h⟩⟩
    obtain ⟨responses, hresponses, htrue⟩ := h rfl
    rwa [← Option.some.inj hresponses] at htrue

/-- A password prompt at which the tty cannot be read. -/
def unreadCall : ConvCall where
  numMsg := 1
  msg := some fun _ => some ⟨pamPromptEchoOff, some "Password: ".toUTF8⟩

/-- A prompt that cannot be read is answered with success and no response. -/
theorem unread_prompt_succeeds : ¬ Faithful ttyConv [{ line := none }] unreadCall := by
  intro h
  obtain ⟨responses, -, htrue⟩ := h rfl
  cases htrue with
  | cons hfirst hrest => cases hfirst

end Faithful

end WriteonceOs.Login
