import WriteonceOs.Installer.PartitionFits
import WriteonceOs.Installer.TuiSession

/-!
# Two ways to one plan

The prompts and the form, given the same decisions.  Where the specification leaves a field open
the prompts ask for it; the form shows every field, filled with what the specification offers.
Both run the hash program on the same password, each with a salt of its own.

* `Supplies` — the replies that carry the decisions of the operator to the prompts;
* `Carries` — the form that carries them;
* `gatherPlan_given`, `confirmsAs_iff` — what each of them accepts;
* `front_ends_agree` — where they make the same plan.
-/

namespace WriteonceOs.Installer

open WriteonceOs.Library
open WriteonceOs.Svc (IoError trim parseU32)

abbrev Lines := List (Except IoError Text)

/-! ### Decisions -/

/-- What an operator decides: `none` accepts what is offered. -/
structure Choices where
  esp : Option UInt32 := none
  root : Option UInt32 := none
  name : Option Text := none
  realName : Option Text := none
  password : Text
  layout : Option Text := none
  variant : Option Text := none

/-- The values that the decisions stand for. -/
def Choices.values (spec : TargetOsSpec) (c : Choices) : Values where
  esp := c.esp.getD (offeredEsp spec)
  root := c.root.getD (offeredRoot spec)
  name := c.name.getD (offeredName spec)
  realName := c.realName.getD (offeredRealName spec)
  password := c.password
  layout := c.layout.getD (offeredLayout spec)
  variant := c.variant.getD (offeredVariant spec)

/-- A line that gives a number, or accepts the default. -/
def AnswersNumber (choice : Option UInt32) (line : Text) : Prop :=
  match choice with
  | none => trim line = []
  | some v => trim line ≠ [] ∧ parseU32 (trim line) = some v

/-- A line that gives a text, or accepts the default. -/
def AnswersText (choice : Option Text) (line : Text) : Prop :=
  match choice with
  | none => trim line = []
  | some t => t ≠ [] ∧ trim line = t

/-- The next line answers a question that is asked; the end of the input is an empty line. -/
def Answered (answers : Text → Prop) (lines rest : Lines) : Prop :=
  (∃ line, lines = .ok line :: rest ∧ answers line) ∨ (lines = [] ∧ rest = [] ∧ answers [])

/-- A question is asked when the specification leaves the field open, and otherwise there is
nothing to decide. -/
def Given {α : Type} (asked : Prop) (choice : Option α) (answers : Option α → Text → Prop)
    (lines rest : Lines) : Prop :=
  (asked ∧ Answered (answers choice) lines rest) ∨ (¬ asked ∧ choice = none ∧ lines = rest)

/-- The specification leaves the variant open: an empty one is none. -/
def VariantAsked (spec : TargetOsSpec) : Prop := offeredVariant spec = []

/-- The replies carry the decisions: one line for each question, in the order of the questions,
and the password twice. -/
def Supplies (spec : TargetOsSpec) (c : Choices) (replies : Replies) : Prop :=
  replies.passwords = [.ok c.password, .ok c.password] ∧ ∃ l₁ l₂ l₃ l₄ l₅ l₆,
    Given (spec.partitions.bind (·.espMib) = none) c.esp AnswersNumber replies.lines l₁ ∧
    Given (¬ RootFixed spec.partitions) c.root AnswersNumber l₁ l₂ ∧
    Given (spec.user.bind (·.name) = none) c.name AnswersText l₂ l₃ ∧
    Given (spec.user.bind (·.realName) = none) c.realName AnswersText l₃ l₄ ∧
    Given (spec.keyboard.bind (·.layout) = none) c.layout AnswersText l₄ l₅ ∧
    Given (VariantAsked spec) c.variant AnswersText l₅ l₆

/-- The form carries the values. -/
structure App.Carries (app : App) (v : Values) : Prop where
  esp : parseU32 (trim app.espMibInput) = some v.esp
  root : parseU32 (trim app.rootGibInput) = some v.root
  name : app.userName = v.name
  realName : app.userRealname = v.realName
  password : app.userPassword = v.password
  layout : app.kbLayout = v.layout
  variant : app.kbVariant = v.variant

/-! ### Prompts -/

section Prompts

variable {lines rest : Lines} {p : List (Except IoError Text)}

theorem readLine_answered {answers : Text → Prop} (h : Answered answers lines rest) :
    ∃ line, answers line ∧ readLine ⟨lines, p⟩ = .ok (line, ⟨rest, p⟩) := by
  rcases h with ⟨line, rfl, hline⟩ | ⟨rfl, rfl, hline⟩
  · exact ⟨line, hline, rfl⟩
  · exact ⟨[], hline, rfl⟩

theorem promptU32_answered {choice : Option UInt32} (h : Answered (AnswersNumber choice) lines rest)
    (default : UInt32) : promptU32 default ⟨lines, p⟩ = .ok (choice.getD default, ⟨rest, p⟩) := by
  obtain ⟨line, hline, hread⟩ := readLine_answered (p := p) h
  rw [promptU32, Dialogue.bind_ok hread]
  cases choice with
  | none =>
    have hempty : trim line = [] := hline
    rw [if_pos hempty]
    rfl
  | some v =>
    rw [if_neg hline.1, hline.2]
    rfl

/-- What a text prompt returns: without a default, an answer is needed. -/
theorem promptString_answered {choice : Option Text} (h : Answered (AnswersText choice) lines rest)
    (default : Option Text) : promptString default ⟨lines, p⟩ =
      match choice <|> default with
      | some t => .ok (t, ⟨rest, p⟩)
      | none => .error "input required".toList := by
  obtain ⟨line, hline, hread⟩ := readLine_answered (p := p) h
  unfold promptString
  rw [Dialogue.bind_ok hread]
  cases choice with
  | none =>
    have hempty : trim line = [] := hline
    rw [if_pos hempty]
    cases default with
    | none => rfl
    | some d => rfl
  | some t =>
    rw [hline.2, if_neg hline.1]
    rfl

theorem promptString_default {choice : Option Text}
    (h : Answered (AnswersText choice) lines rest) (default : Text) :
    promptString (some default) ⟨lines, p⟩ = .ok (choice.getD default, ⟨rest, p⟩) := by
  rw [promptString_answered h]
  cases choice with
  | none => rfl
  | some t => rfl

/-- A field that is asked for with a default, or taken from the specification. -/
theorem specOr_given {field choice : Option Text} {default : Text}
    (h : Given (field = none) choice AnswersText lines rest) :
    specOr field (promptString (some default)) ⟨lines, p⟩ =
      .ok (choice.getD (field.getD default), ⟨rest, p⟩) := by
  rcases h with ⟨rfl, hline⟩ | ⟨hfield, rfl, rfl⟩
  · exact promptString_default hline default
  · obtain ⟨value, rfl⟩ := Option.ne_none_iff_exists'.mp hfield
    rfl

end Prompts

/-! ### What the prompts accept -/

section Cli

variable {spec : TargetOsSpec} {device : UsbDevice} {c : Choices} {lines rest : Lines}
variable {p : List (Except IoError Text)}

/-- The size of the root in a plan. -/
def rootPlan (root : UInt32) : Option UInt32 := if root = 0 then none else some root

theorem chooseEsp_given
    (h : Given (spec.partitions.bind (·.espMib) = none) c.esp AnswersNumber lines rest) :
    chooseEsp spec.partitions ⟨lines, p⟩ = .ok ((c.values spec).esp, ⟨rest, p⟩) := by
  simp only [chooseEsp, Choices.values, offeredEsp]
  rcases h with ⟨hnone, hline⟩ | ⟨hfield, hchoice, rfl⟩
  · rw [hnone]
    exact promptU32_answered hline _
  · obtain ⟨v, hv⟩ := Option.ne_none_iff_exists'.mp hfield
    rw [hv, hchoice]
    rfl

theorem offeredRoot_asked (h : ¬ RootFixed spec.partitions) : offeredRoot spec = 0 := by
  unfold offeredRoot
  cases hroot : spec.partitions.bind (·.rootGib) with
  | none => rfl
  | some v =>
    by_contra hne
    exact h ⟨v, hroot, hne⟩

/-- A number below the largest, or the default, is taken for what it is. -/
theorem chooseRoot_given {max : UInt32} {root : Option UInt32} {r : Replies}
    (h : Given (¬ RootFixed spec.partitions) c.root AnswersNumber lines rest)
    (hbelow : ∀ v, c.root = some v → v = 0 ∨ v < max) :
    chooseRoot spec.partitions max ⟨lines, p⟩ = .ok (root, r) ↔
      (RootFixed spec.partitions → (c.values spec).root ≤ max) ∧
        root = rootPlan (c.values spec).root ∧ r = ⟨rest, p⟩ := by
  rcases h with ⟨hasked, hline⟩ | ⟨hfixed, hchoice, rfl⟩
  · have hplan : (if c.root.getD max = max ∨ c.root.getD max = 0 then none
        else some (c.root.getD max)) = rootPlan (c.values spec).root := by
      simp only [Choices.values, offeredRoot_asked hasked, rootPlan]
      cases hroot : c.root with
      | none => simp
      | some v =>
        have hne : v = max → v = 0 := by
          rintro rfl
          exact (hbelow v hroot).resolve_right (UInt32.lt_irrefl v)
        simp only [Option.getD_some]
        grind
    rw [chooseRoot_asked hasked, promptRoot_ok_iff]
    simp only [promptU32_answered hline]
    constructor
    · rintro ⟨chosen, hchosen, rfl⟩
      cases hchosen
      exact ⟨fun hf => absurd hf hasked, hplan, rfl⟩
    · rintro ⟨-, rfl, rfl⟩
      exact ⟨_, rfl, hplan.symm⟩
  · obtain ⟨v, hv, hne⟩ := not_not.mp hfixed
    have hvalue : (c.values spec).root = v := by
      simp only [Choices.values, hchoice, offeredRoot, hv]
      rfl
    have hfix : RootFixed spec.partitions := not_not.mp hfixed
    simp only [hvalue, rootPlan, if_neg hne, hfix, true_imp_iff]
    unfold chooseRoot
    simp only [hv, if_neg hne]
    split
    case isTrue hlt =>
      exact iff_of_false nofun fun h => absurd hlt (UInt32.not_lt.mpr h.1)
    case isFalse hle =>
      exact Dialogue.ok_pair_iff.trans (and_iff_right (UInt32.not_lt.mp hle)).symm

theorem gatherPartition_given {l₁ l₂ : Lines} {plan : PartitionPlan} {r : Replies}
    (hesp : Given (spec.partitions.bind (·.espMib) = none) c.esp AnswersNumber lines l₁)
    (hroot : Given (¬ RootFixed spec.partitions) c.root AnswersNumber l₁ l₂)
    (hbelow : ∀ v, c.root = some v → v = 0 ∨ v < maxRootGib device (c.values spec).esp) :
    gatherPartition spec.partitions device ⟨lines, p⟩ = .ok (plan, r) ↔
      (100 ≤ (c.values spec).esp ∧ (c.values spec).esp ≤ 4096 ∧
        (RootFixed spec.partitions →
          (c.values spec).root ≤ maxRootGib device (c.values spec).esp)) ∧
      plan = ⟨(c.values spec).esp, rootPlan (c.values spec).root⟩ ∧ r = ⟨l₂, p⟩ := by
  rw [gatherPartition_ok_iff]
  simp only [chooseEsp_given hesp]
  constructor
  · rintro ⟨hge, hle, r', hr', h⟩
    obtain ⟨espMib, rootGib⟩ := plan
    cases hr'
    obtain ⟨hmax, hplan, hr⟩ := (chooseRoot_given hroot hbelow).mp h
    exact ⟨⟨hge, hle, hmax⟩, congrArg _ hplan, hr⟩
  · rintro ⟨⟨hge, hle, hmax⟩, rfl, rfl⟩
    exact ⟨hge, hle, _, rfl, (chooseRoot_given hroot hbelow).mpr ⟨hmax, rfl, rfl⟩⟩

/-- A name that both ways let pass. -/
structure NameOk (name : Text) : Prop where
  set : name ≠ []
  not_root : name ≠ rootName
  chars : name.all isNameChar = true

/-- The account of a plan. -/
def userPlan (spec : TargetOsSpec) (v : Values) (passwordHash : Text) : ResolvedUser where
  name := v.name
  realName := v.realName
  passwordHash := passwordHash
  shell := (spec.user.bind (·.shell)).getD defaultShell
  groups := (spec.user.bind (·.groups)).getD defaultGroups
  uid := 1000
  gid := 1000

theorem chooseName_given {name : Text} {r : Replies}
    (h : Given (spec.user.bind (·.name) = none) c.name AnswersText lines rest)
    (hset : (c.values spec).name ≠ []) :
    specOr (spec.user.bind (·.name)) (promptString none) ⟨lines, p⟩ = .ok (name, r) ↔
      name = (c.values spec).name ∧ r = ⟨rest, p⟩ := by
  have hvalue : specOr (spec.user.bind (·.name)) (promptString none) ⟨lines, p⟩ =
      .ok ((c.values spec).name, ⟨rest, p⟩) := by
    simp only [Choices.values, offeredName] at hset ⊢
    rcases h with ⟨hnone, hline⟩ | ⟨hfield, hchoice, rfl⟩
    · rw [hnone] at hset ⊢
      show promptString none ⟨lines, p⟩ = _
      rw [promptString_answered hline]
      cases hc : c.name with
      | none =>
        rw [hc] at hset
        exact absurd rfl hset
      | some t => rfl
    · obtain ⟨v, hv⟩ := Option.ne_none_iff_exists'.mp hfield
      rw [hv, hchoice]
      rfl
  rw [hvalue]
  exact Dialogue.ok_pair_iff

/-- Without a name there is no account. -/
theorem chooseName_unset {name : Text} {r : Replies}
    (h : Given (spec.user.bind (·.name) = none) c.name AnswersText lines rest)
    (hunset : (c.values spec).name = [])
    (hok : specOr (spec.user.bind (·.name)) (promptString none) ⟨lines, p⟩ = .ok (name, r)) :
    name = [] := by
  simp only [Choices.values, offeredName] at hunset
  rcases h with ⟨hnone, hline⟩ | ⟨hfield, hchoice, rfl⟩
  · rw [hnone] at hok hunset
    have hprompt : promptString none ⟨lines, p⟩ = .ok (name, r) := hok
    rw [promptString_answered hline] at hprompt
    cases hc : c.name with
    | none =>
      rw [hc] at hprompt
      cases hprompt
    | some t =>
      rw [hc] at hprompt hunset
      cases hprompt
      exact hunset
  · obtain ⟨v, hv⟩ := Option.ne_none_iff_exists'.mp hfield
    rw [hv] at hok hunset
    rw [hchoice] at hunset
    cases hok
    exact hunset

/-- The password loop given one password twice. -/
theorem readPassword_twice {password : Text} {result : Text × List (Except IoError Text)} :
    readPassword [.ok password, .ok password] = .ok result ↔
      6 ≤ byteLen password ∧ result = (password, []) := by
  by_cases hlen : 6 ≤ byteLen password
  · have hne : password ≠ [] := by
      rintro rfl
      exact absurd hlen (by decide)
    have hshort : ¬ byteLen password < 6 := Nat.not_lt.mpr hlen
    simp only [readPassword, if_neg hne, if_neg hshort, ne_eq, not_true_eq_false, if_false, hlen,
      true_and]
    exact ⟨fun h => (Except.ok.inj h).symm, fun h => h ▸ rfl⟩
  · have hshort : byteLen password < 6 := Nat.not_le.mp hlen
    refine iff_of_false (fun h => ?_) (fun h => hlen h.1)
    simp only [readPassword, if_pos hshort, ite_self] at h
    cases h

theorem gatherUser_ok_iff {openssl : Text → Except Failure Text} {uspec : Option UserSpec}
    {replies r : Replies} {user : ResolvedUser} :
    gatherUser openssl uspec replies = .ok (user, r) ↔
      ∃ r₁, specOr (uspec.bind (·.name)) (promptString none) replies = .ok (user.name, r₁) ∧
        NameOk user.name ∧ ∃ r₂,
          specOr (uspec.bind (·.realName)) (promptString (some [])) r₁ =
            .ok (user.realName, r₂) ∧
          promptPasswordAndHash openssl r₂ = .ok (user.passwordHash, r) ∧
          user.shell = (uspec.bind (·.shell)).getD defaultShell ∧
          user.groups = (uspec.bind (·.groups)).getD defaultGroups ∧
          user.uid = 1000 ∧ user.gid = 1000 := by
  obtain ⟨userName, userRealName, hash, shell, groups, uid, gid⟩ := user
  rw [gatherUser, Dialogue.bind_ok_iff]
  constructor
  · rintro ⟨name, r₁, hname, h⟩
    split at h
    case isTrue => cases h
    case isFalse hset =>
      split at h
      case isTrue => cases h
      case isFalse hchars =>
        obtain ⟨realName, r₂, hreal, h⟩ := Dialogue.bind_ok_iff.mp h
        obtain ⟨hash', r₃, hhash, hpure⟩ := Dialogue.bind_ok_iff.mp h
        cases hpure
        obtain ⟨hroot, hne⟩ := not_or.mp hset
        exact ⟨r₁, hname, ⟨hne, hroot, Bool.eq_true_of_not_eq_false hchars⟩, r₂, hreal, hhash,
          rfl, rfl, rfl, rfl⟩
  · rintro ⟨r₁, hname, hok, r₂, hreal, hhash, rfl, rfl, rfl, rfl⟩
    refine ⟨userName, r₁, hname, ?_⟩
    rw [if_neg (not_or.mpr ⟨hok.not_root, hok.set⟩), if_neg (by simp [hok.chars])]
    exact Dialogue.bind_ok_iff.mpr ⟨_, r₂, hreal, Dialogue.bind_ok_iff.mpr ⟨_, r, hhash, rfl⟩⟩

theorem promptPasswordAndHash_twice {openssl : Text → Except Failure Text} {password hash : Text}
    {r : Replies} :
    promptPasswordAndHash openssl ⟨lines, [.ok password, .ok password]⟩ = .ok (hash, r) ↔
      6 ≤ byteLen password ∧ hashPasswordSha512 openssl password = .ok hash ∧
        r = ⟨lines, []⟩ := by
  unfold promptPasswordAndHash
  by_cases hlen : 6 ≤ byteLen password
  · simp only [readPassword_twice.mpr ⟨hlen, rfl⟩, hlen, true_and]
    cases hashPasswordSha512 openssl password with
    | error e => exact iff_of_false nofun (fun h => nomatch h.1)
    | ok out =>
      constructor
      · rintro ⟨⟩
        exact ⟨rfl, rfl⟩
      · rintro ⟨⟨⟩, rfl⟩
        rfl
  · refine iff_of_false (fun h => ?_) (fun h => hlen h.1)
    cases hread : readPassword [.ok password, .ok password] with
    | error e =>
      simp only [hread] at h
      cases h
    | ok result => exact hlen (readPassword_twice.mp hread).1

theorem gatherUser_given {openssl : Text → Except Failure Text} {l₃ l₄ : Lines}
    {user : ResolvedUser} {r : Replies}
    (hname : Given (spec.user.bind (·.name) = none) c.name AnswersText lines l₃)
    (hreal : Given (spec.user.bind (·.realName) = none) c.realName AnswersText l₃ l₄) :
    gatherUser openssl spec.user ⟨lines, [.ok c.password, .ok c.password]⟩ = .ok (user, r) ↔
      (NameOk (c.values spec).name ∧ 6 ≤ byteLen c.password) ∧
        ∃ hash, hashPasswordSha512 openssl c.password = .ok hash ∧
          user = userPlan spec (c.values spec) hash ∧ r = ⟨l₄, []⟩ := by
  obtain ⟨userName, userRealName, userHash, shell, groups, uid, gid⟩ := user
  rw [gatherUser_ok_iff]
  constructor
  · rintro ⟨r₁, hn, hok, r₂, hr, hhash, rfl, rfl, rfl, rfl⟩
    have hset : (c.values spec).name ≠ [] :=
      fun hunset => hok.set (chooseName_unset hname hunset hn)
    obtain ⟨rfl, rfl⟩ := (chooseName_given hname hset).mp hn
    obtain ⟨rfl, rfl⟩ := Prod.mk.inj (Except.ok.inj ((specOr_given hreal).symm.trans hr))
    obtain ⟨hlen, hhash, hr⟩ := promptPasswordAndHash_twice.mp hhash
    exact ⟨⟨hok, hlen⟩, userHash, hhash, rfl, hr⟩
  · rintro ⟨⟨hok, hlen⟩, hash, hhash, huser, rfl⟩
    rw [huser]
    refine ⟨_, (chooseName_given hname hok.set).mpr ⟨rfl, rfl⟩, hok, _, specOr_given hreal,
      promptPasswordAndHash_twice.mpr ⟨hlen, hhash, rfl⟩, rfl, rfl, rfl, rfl⟩

theorem validateKeymap_ok_iff {s : Text} {u : Unit} :
    validateKeymap s = .ok u ↔ s.all isNameChar = true := by
  unfold validateKeymap
  split
  case isTrue h => exact iff_of_false nofun (by simp [h])
  case isFalse h => exact iff_of_true rfl (Bool.eq_true_of_not_eq_false h)

theorem check_ok_iff {result : Except Failure Unit} {replies r : Replies} {u : Unit} :
    check result replies = .ok (u, r) ↔ result = .ok () ∧ r = replies := by
  unfold check
  cases result with
  | error e => exact iff_of_false nofun (fun h => nomatch h.1)
  | ok _ =>
    constructor
    · rintro ⟨⟩
      exact ⟨rfl, rfl⟩
    · rintro ⟨-, rfl⟩
      rfl

/-- A value that is returned once a name has passed its check. -/
theorem checkKeymap_ok_iff {β : Type} {name : Text} {x y : β} {replies r : Replies} :
    (do check (validateKeymap name); pure x : Prompt β) replies = .ok (y, r) ↔
      name.all isNameChar = true ∧ y = x ∧ r = replies := by
  rw [Dialogue.bind_ok_iff]
  simp only [check_ok_iff, validateKeymap_ok_iff]
  constructor
  · intro h
    obtain ⟨_, _, ⟨hall, rfl⟩, hpure⟩ := h
    cases hpure
    exact ⟨hall, rfl, rfl⟩
  · intro h
    obtain ⟨hall, rfl, rfl⟩ := h
    exact ⟨(), _, ⟨hall, rfl⟩, rfl⟩

theorem chooseLayout_given {layout : Text} {r : Replies}
    (h : Given (spec.keyboard.bind (·.layout) = none) c.layout AnswersText lines rest) :
    specOr (spec.keyboard.bind (·.layout)) promptLayout ⟨lines, p⟩ = .ok (layout, r) ↔
      (spec.keyboard.bind (·.layout) = none → (c.values spec).layout.all isNameChar = true) ∧
        layout = (c.values spec).layout ∧ r = ⟨rest, p⟩ := by
  simp only [Choices.values, offeredLayout]
  rcases h with ⟨hnone, hline⟩ | ⟨hfield, hchoice, rfl⟩
  · simp only [hnone, specOr, promptLayout, Option.getD_none, true_imp_iff]
    rw [Dialogue.bind_ok (promptString_default hline defaultKeyboardLayout)]
    exact checkKeymap_ok_iff
  · obtain ⟨v, hv⟩ := Option.ne_none_iff_exists'.mp hfield
    rw [hv, hchoice]
    exact Dialogue.ok_pair_iff.trans
      (and_iff_right (fun h => absurd h (Option.some_ne_none v))).symm

/-- The variant of a plan. -/
def variantPlan (variant : Text) : Option Text := if variant = [] then none else some variant

theorem chooseVariant_asked (h : VariantAsked spec) :
    chooseVariant (spec.keyboard.bind (·.variant)) = promptVariant := by
  unfold VariantAsked offeredVariant at h
  cases hv : spec.keyboard.bind (·.variant) with
  | none => rfl
  | some v =>
    rw [hv] at h
    exact if_pos h

theorem chooseVariant_given {variant : Option Text} {r : Replies}
    (h : Given (VariantAsked spec) c.variant AnswersText lines rest) :
    chooseVariant (spec.keyboard.bind (·.variant)) ⟨lines, p⟩ = .ok (variant, r) ↔
      (VariantAsked spec → (c.values spec).variant.all isNameChar = true) ∧
        variant = variantPlan (c.values spec).variant ∧ r = ⟨rest, p⟩ := by
  rcases h with ⟨hasked, hline⟩ | ⟨hfixed, hchoice, rfl⟩
  · have hoffered : offeredVariant spec = [] := hasked
    rw [chooseVariant_asked hasked]
    simp only [Choices.values, hoffered, hasked, true_imp_iff]
    rw [promptVariant, Dialogue.bind_ok (promptString_default hline []), variantPlan]
    split
    case isTrue hempty =>
      rw [hempty]
      exact Dialogue.ok_pair_iff.trans (and_iff_right rfl).symm
    case isFalse => exact checkKeymap_ok_iff
  · unfold VariantAsked offeredVariant at hfixed
    cases hv : spec.keyboard.bind (·.variant) with
    | none =>
      rw [hv] at hfixed
      exact absurd rfl hfixed
    | some v =>
      rw [hv] at hfixed
      have hne : v ≠ [] := hfixed
      have hvalue : (c.values spec).variant = v := by
        simp only [Choices.values, hchoice, offeredVariant, hv]
        rfl
      have hnot : ¬ VariantAsked spec := by
        unfold VariantAsked offeredVariant
        rw [hv]
        exact hfixed
      simp only [chooseVariant, if_neg hne, hvalue, variantPlan, hnot, false_imp_iff, true_and]
      exact Dialogue.ok_pair_iff

theorem gatherKeyboard_given {l₅ l₆ : Lines} {keyboard : ResolvedKeyboard} {r : Replies}
    (hlayout : Given (spec.keyboard.bind (·.layout) = none) c.layout AnswersText lines l₅)
    (hvariant : Given (VariantAsked spec) c.variant AnswersText l₅ l₆) :
    gatherKeyboard spec.keyboard ⟨lines, p⟩ = .ok (keyboard, r) ↔
      ((spec.keyboard.bind (·.layout) = none → (c.values spec).layout.all isNameChar = true) ∧
        (VariantAsked spec → (c.values spec).variant.all isNameChar = true)) ∧
      keyboard = ⟨(c.values spec).layout, variantPlan (c.values spec).variant⟩ ∧
      r = ⟨l₆, p⟩ := by
  rw [gatherKeyboard, Dialogue.bind_ok_iff]
  simp only [chooseLayout_given hlayout]
  constructor
  · rintro ⟨_, _, ⟨hl, rfl, rfl⟩, h⟩
    obtain ⟨variant, r', hv, hpure⟩ := Dialogue.bind_ok_iff.mp h
    obtain ⟨hall, rfl, rfl⟩ := (chooseVariant_given hvariant).mp hv
    cases hpure
    exact ⟨⟨hl, hall⟩, rfl, rfl⟩
  · rintro ⟨⟨hl, hall⟩, rfl, rfl⟩
    exact ⟨_, _, ⟨hl, rfl, rfl⟩,
      Dialogue.bind_ok_iff.mpr ⟨_, _, (chooseVariant_given hvariant).mpr ⟨hall, rfl, rfl⟩, rfl⟩⟩

end Cli

/-! ### What each of them accepts -/

/-- The plan for some values. -/
def planOf (spec : TargetOsSpec) (v : Values) (passwordHash : Text) (enabledAtBoot : Bool) :
    InstallationPlan where
  partition := ⟨v.esp, rootPlan v.root⟩
  user := userPlan spec v passwordHash
  keyboard := ⟨v.layout, variantPlan v.variant⟩
  network := ⟨enabledAtBoot⟩

/-- What the prompts let pass. -/
structure CliAccepts (spec : TargetOsSpec) (device : UsbDevice) (v : Values) : Prop where
  esp : 100 ≤ v.esp ∧ v.esp ≤ 4096
  root : RootFixed spec.partitions → v.root ≤ maxRootGib device v.esp
  name : NameOk v.name
  password : 6 ≤ byteLen v.password
  layout : spec.keyboard.bind (·.layout) = none → v.layout.all isNameChar = true
  variant : VariantAsked spec → v.variant.all isNameChar = true

/-- What the form lets pass. -/
structure TuiAccepts (device : UsbDevice) (v : Values) : Prop where
  esp : 64 ≤ v.esp ∧ v.esp ≤ 8192
  root : v.root = 0 ∨ v.root ≤ maxRootGib device v.esp
  name : NameOk v.name
  password : 6 ≤ byteLen v.password
  keyboard : KeyboardOk v.layout v.variant

def networkOf (spec : TargetOsSpec) : Bool := (spec.network.bind (·.enabledAtBoot)).getD false

section Accept

variable {openssl : Text → Except Failure Text} {spec : TargetOsSpec} {device : UsbDevice}
variable {devices : List UsbDevice} {c : Choices} {replies : Replies} {v : Values}
variable {plan : InstallationPlan} {keys : List KeyEvent}

/-- **What the prompts make of the decisions.** -/
theorem gatherPlan_given (h : Supplies spec c replies)
    (hbelow : ∀ v, c.root = some v → v = 0 ∨ v < maxRootGib device (c.values spec).esp) :
    (∃ r, gatherPlan openssl spec device replies = .ok (plan, r)) ↔
      CliAccepts spec device (c.values spec) ∧
        ∃ hash, hashPasswordSha512 openssl c.password = .ok hash ∧
          plan = planOf spec (c.values spec) hash (networkOf spec) := by
  obtain ⟨lines, passwords⟩ := replies
  obtain ⟨rfl, l₁, l₂, l₃, l₄, l₅, l₆, hesp, hroot, hname, hreal, hlayout, hvariant⟩ := h
  constructor
  · rintro ⟨r, hplan⟩
    obtain ⟨partition, r₁, hp, hplan⟩ := Dialogue.bind_ok_iff.mp hplan
    obtain ⟨⟨hge, hle, hmax⟩, rfl, rfl⟩ := (gatherPartition_given hesp hroot hbelow).mp hp
    obtain ⟨user, r₂, hu, hplan⟩ := Dialogue.bind_ok_iff.mp hplan
    obtain ⟨⟨hok, hlen⟩, hash, hhash, rfl, rfl⟩ := (gatherUser_given hname hreal).mp hu
    obtain ⟨keyboard, r₃, hk, hpure⟩ := Dialogue.bind_ok_iff.mp hplan
    obtain ⟨⟨hl, hv⟩, rfl, rfl⟩ := (gatherKeyboard_given hlayout hvariant).mp hk
    cases hpure
    exact ⟨⟨⟨hge, hle⟩, hmax, hok, hlen, hl, hv⟩, hash, hhash, rfl⟩
  · rintro ⟨⟨⟨hge, hle⟩, hmax, hok, hlen, hl, hv⟩, hash, hhash, rfl⟩
    have hp := (gatherPartition_given (p := [.ok c.password, .ok c.password]) hesp hroot
      hbelow).mpr ⟨⟨hge, hle, hmax⟩, rfl, rfl⟩
    have hu := (gatherUser_given hname hreal).mpr ⟨⟨hok, hlen⟩, hash, hhash, rfl, rfl⟩
    have hk := (gatherKeyboard_given (p := []) hlayout hvariant).mpr ⟨⟨hl, hv⟩, rfl, rfl⟩
    refine ⟨⟨l₆, []⟩, Dialogue.bind_ok_iff.mpr ⟨_, _, hp, ?_⟩⟩
    refine Dialogue.bind_ok_iff.mpr ⟨_, _, hu, ?_⟩
    exact Dialogue.bind_ok_iff.mpr ⟨_, _, hk, rfl⟩

theorem validateHash_of_hash {password hash : Text}
    (h : hashPasswordSha512 openssl password = .ok hash) : validateHash hash = .ok () := by
  unfold hashPasswordSha512 at h
  split at h
  case h_1 => cases h
  case h_2 out _ =>
    split at h
    case h_1 => cases h
    case h_2 hvalid =>
      cases h
      exact hvalid

theorem buildPlan_carries {app : App} (h : app.Carries v)
    (hset : app.setting = (devices, spec.user.bind (·.shell), spec.user.bind (·.groups))) :
    buildPlan openssl app = .ok plan ↔
      ∃ hash, hashPasswordSha512 openssl v.password = .ok hash ∧
        plan = planOf spec v hash false := by
  have hshell : app.specUserShell = spec.user.bind (·.shell) := congrArg (·.2.1) hset
  have hgroups : app.specUserGroups = spec.user.bind (·.groups) := congrArg (·.2.2) hset
  simp only [buildPlan, h.esp, h.root, h.password, hshell, hgroups, h.name, h.realName, h.layout,
    h.variant]
  cases hhash : hashPasswordSha512 openssl v.password with
  | error e => exact iff_of_false nofun (fun ⟨_, h, _⟩ => nomatch h)
  | ok hash =>
    have hvalid := validateHash_of_hash hhash
    simp only [Except.mapError, bind, Except.bind, hvalid]
    constructor
    · rintro ⟨⟩
      exact ⟨hash, rfl, rfl⟩
    · rintro ⟨hash', ⟨⟩, rfl⟩
      rfl

/-- The session is confirmed, for a device and with a plan, by a form that carries the values. -/
def ConfirmsAs (openssl : Text → Except Failure Text) (spec : TargetOsSpec)
    (devices : List UsbDevice) (keys : List KeyEvent) (device : UsbDevice) (v : Values)
    (plan : InstallationPlan) : Prop :=
  runTui openssl spec devices keys = some (.ok (some (device, plan))) ∧
    ∃ h : devices ≠ [], (runKeys (App.new spec devices h) keys).Carries v

/-- A confirmed session has an application in the end. -/
theorem runTui_confirmed_iff (hne : devices ≠ []) :
    runTui openssl spec devices keys = some (.ok (some (device, plan))) ↔
      (runKeys (App.new spec devices hne) keys).outcome = some .confirmed ∧
        (runKeys (App.new spec devices hne) keys).currentDevice = device ∧
        buildPlan openssl (runKeys (App.new spec devices hne) keys) = .ok plan := by
  unfold runTui
  rw [dif_neg hne]
  simp only
  split
  case h_1 ho => exact iff_of_false nofun (fun h => by rw [ho] at h; cases h.1)
  case h_2 ho => exact iff_of_false nofun (fun h => by rw [ho] at h; cases h.1)
  case h_3 ho =>
    simp only [ho, true_and]
    cases buildPlan openssl (runKeys (App.new spec devices hne) keys) with
    | error e => exact iff_of_false nofun (fun h => nomatch h.2)
    | ok plan' =>
      constructor
      · rintro ⟨⟩
        exact ⟨rfl, rfl⟩
      · rintro ⟨rfl, ⟨⟩⟩
        rfl

theorem confirmsAs_accepts (h : ConfirmsAs openssl spec devices keys device v plan) :
    device ∈ devices ∧ device.removable = true ∧ TuiAccepts device v ∧
      ∃ hash, hashPasswordSha512 openssl v.password = .ok hash ∧
        plan = planOf spec v hash false := by
  obtain ⟨hrun, hne, hcarries⟩ := h
  obtain ⟨ho, hdevice, hbuild⟩ := (runTui_confirmed_iff hne).mp hrun
  have hchecked := App.checked_runKeys rfl (App.checked_new spec devices hne) keys
  have hset : (runKeys (App.new spec devices hne) keys).setting =
      (devices, spec.user.bind (·.shell), spec.user.bind (·.groups)) :=
    App.setting_runKeys keys
  generalize runKeys (App.new spec devices hne) keys = app at *
  have hscreen := hchecked.confirmed ho
  have hremovable := hchecked.device (by rw [hscreen]; decide)
  obtain ⟨esp, root, hesp, hge, hle, hroot, hmax⟩ := hchecked.partition (by rw [hscreen]; decide)
  have huser := hchecked.user (by rw [hscreen]; decide)
  have hkeyboard := hchecked.keyboard (by rw [hscreen]; decide)
  obtain rfl := Option.some.inj (hcarries.esp.symm.trans hesp)
  obtain rfl := Option.some.inj (hcarries.root.symm.trans hroot)
  rw [hcarries.name, hcarries.password] at huser
  rw [hcarries.layout, hcarries.variant] at hkeyboard
  rw [hdevice] at hremovable hmax
  have hmem : app.currentDevice ∈ app.devices := List.get_mem _ _
  have hdevices : app.devices = devices := congrArg (·.1) hset
  rw [hdevices, hdevice] at hmem
  exact ⟨hmem, hremovable, ⟨⟨hge, hle⟩, hmax, ⟨huser.set, huser.not_root, huser.chars⟩,
    huser.length, hkeyboard⟩, (buildPlan_carries hcarries hset).mp hbuild⟩

/-- **What the form makes of the values.** -/
theorem confirmsAs_iff (hmem : device ∈ devices) (hremovable : device.removable = true) :
    (∃ keys, ConfirmsAs openssl spec devices keys device v plan) ↔
      TuiAccepts device v ∧
        ∃ hash, hashPasswordSha512 openssl v.password = .ok hash ∧
          plan = planOf spec v hash false := by
  constructor
  · rintro ⟨keys, h⟩
    exact (confirmsAs_accepts h).2.2
  · rintro ⟨haccepts, hplan⟩
    have hne : devices ≠ [] := List.ne_nil_of_mem hmem
    obtain ⟨i, rfl⟩ := List.get_of_mem hmem
    have hparse (w : UInt32) : parseU32 (trim (decimal w.toNat)) = some w := by
      rw [trim_decimal, parseU32_decimal]
    have hpartition : PartitionOk (devices.get i) (decimal v.esp.toNat) (decimal v.root.toNat) :=
      ⟨v.esp, v.root, hparse _, haccepts.esp.1, haccepts.esp.2, hparse _, haccepts.root⟩
    have huser : UserOk v.name v.password v.password :=
      ⟨haccepts.name.set, haccepts.name.not_root, haccepts.name.chars, haccepts.password, rfl⟩
    obtain ⟨keys, hkeys⟩ := (App.confirm_steps spec hne v hremovable hpartition huser
      haccepts.keyboard).exists_keys
    have hcarries : (App.confirm (App.page spec devices i .summary (1, 3, 1) v.fields)).Carries v :=
      ⟨hparse _, hparse _, rfl, rfl, rfl, rfl, rfl⟩
    refine ⟨keys, (runTui_confirmed_iff hne).mpr ?_, hne, hkeys ▸ hcarries⟩
    rw [hkeys]
    have hset : (App.confirm (App.page spec devices i .summary (1, 3, 1) v.fields)).setting =
        (devices, spec.user.bind (·.shell), spec.user.bind (·.groups)) := rfl
    exact ⟨rfl, rfl, (buildPlan_carries hcarries hset).mpr hplan⟩

end Accept

/-! ### Agreement -/

/-- The decisions on which the two ways have the same checks. -/
structure Shared (spec : TargetOsSpec) (device : UsbDevice) (c : Choices) : Prop where
  -- the ranges of the boot partition differ at both ends
  esp : (100 ≤ (c.values spec).esp ∧ (c.values spec).esp ≤ 4096) ∨ (c.values spec).esp < 64 ∨
    8192 < (c.values spec).esp
  -- the prompt takes the largest root for the rest, and does not check what is larger
  root : ∀ v, c.root = some v → v = 0 ∨ v < maxRootGib device (c.values spec).esp
  -- the prompts do not check the keyboard of the specification
  layout : ∀ l, spec.keyboard.bind (·.layout) = some l → l ≠ [] ∧ l.all isNameChar = true
  variant : ∀ w, spec.keyboard.bind (·.variant) = some w → w.all isNameChar = true

/-- The two plans are equal but for the network and the salt of the hash. -/
structure Agree (openssl openssl' : Text → Except Failure Text) (spec : TargetOsSpec)
    (password : Text) (plan plan' : InstallationPlan) : Prop where
  partition : plan.partition = plan'.partition
  user : plan.user = { plan'.user with passwordHash := plan.user.passwordHash }
  keyboard : plan.keyboard = plan'.keyboard
  hash : hashPasswordSha512 openssl password = .ok plan.user.passwordHash
  hash' : hashPasswordSha512 openssl' password = .ok plan'.user.passwordHash
  network : plan.network.enabledAtBoot = false
  network' : plan'.network.enabledAtBoot = networkOf spec

section Agreement

variable {openssl openssl' : Text → Except Failure Text} {spec : TargetOsSpec}
variable {device : UsbDevice} {devices : List UsbDevice} {c : Choices} {replies : Replies}

theorem Answered.text_ne_nil {choice : Option Text} {lines rest : Lines} {t : Text}
    (h : Answered (AnswersText choice) lines rest) (ht : choice = some t) : t ≠ [] := by
  subst ht
  rcases h with ⟨line, -, hline⟩ | ⟨-, -, hline⟩
  · exact hline.1
  · exact hline.1

theorem validKeymap_iff {s : Text} :
    App.validKeymap s = true ↔ s ≠ [] ∧ s.all isNameChar = true :=
  decide_eq_true_iff

/-- The layout of decisions that the prompts can be given passes the check of the form. -/
theorem layout_ok_iff {l l' : Lines}
    (h : Given (spec.keyboard.bind (·.layout) = none) c.layout AnswersText l l')
    (hspec : ∀ l, spec.keyboard.bind (·.layout) = some l → l ≠ [] ∧ l.all isNameChar = true) :
    (spec.keyboard.bind (·.layout) = none → (c.values spec).layout.all isNameChar = true) ↔
      App.validKeymap (c.values spec).layout = true := by
  rw [validKeymap_iff]
  simp only [Choices.values, offeredLayout]
  rcases h with ⟨hnone, hline⟩ | ⟨hfield, hchoice, rfl⟩
  · have hne : c.layout.getD defaultKeyboardLayout ≠ [] := by
      cases hc : c.layout with
      | none => decide
      | some t => exact hline.text_ne_nil hc
    simp only [hnone, Option.getD_none, true_imp_iff]
    exact ⟨fun hall => ⟨hne, hall⟩, And.right⟩
  · obtain ⟨v, hv⟩ := Option.ne_none_iff_exists'.mp hfield
    rw [hv, hchoice]
    exact iff_of_true nofun (hspec v hv)

theorem variant_ok_iff {l l' : Lines} (h : Given (VariantAsked spec) c.variant AnswersText l l')
    (hspec : ∀ w, spec.keyboard.bind (·.variant) = some w → w.all isNameChar = true) :
    (VariantAsked spec → (c.values spec).variant.all isNameChar = true) ↔
      ((c.values spec).variant = [] ∨ App.validKeymap (c.values spec).variant = true) := by
  rw [validKeymap_iff]
  rcases h with ⟨hasked, -⟩ | ⟨hfixed, hchoice, rfl⟩
  · simp only [hasked, true_imp_iff]
    constructor
    · intro hall
      by_cases hempty : (c.values spec).variant = []
      · exact .inl hempty
      · exact .inr ⟨hempty, hall⟩
    · rintro (hempty | ⟨-, hall⟩)
      · rw [hempty]
        rfl
      · exact hall
  · refine iff_of_true (fun hasked => absurd hasked hfixed) (.inr ⟨?_, ?_⟩)
    · simp only [Choices.values, hchoice]
      exact hfixed
    · simp only [Choices.values, hchoice, offeredVariant]
      cases hv : spec.keyboard.bind (·.variant) with
      | none => rfl
      | some w => exact hspec w hv

theorem root_ok_iff {l l' : Lines} {max : UInt32}
    (h : Given (¬ RootFixed spec.partitions) c.root AnswersNumber l l')
    (hbelow : ∀ v, c.root = some v → v = 0 ∨ v < max) :
    (RootFixed spec.partitions → (c.values spec).root ≤ max) ↔
      ((c.values spec).root = 0 ∨ (c.values spec).root ≤ max) := by
  simp only [Choices.values]
  rcases h with ⟨hasked, -⟩ | ⟨hfixed, hchoice, rfl⟩
  · refine iff_of_true (fun hf => absurd hf hasked) ?_
    cases hroot : c.root with
    | none => exact .inl (offeredRoot_asked hasked)
    | some v => exact (hbelow v hroot).imp_right UInt32.le_of_lt
  · obtain ⟨v, hv, hne⟩ := not_not.mp hfixed
    have hfix : RootFixed spec.partitions := not_not.mp hfixed
    have hvalue : offeredRoot spec = v := by
      unfold offeredRoot
      rw [hv]
      rfl
    simp only [hchoice, Option.getD_none, hvalue, hne, hfix, true_imp_iff, false_or]

/-- On shared decisions both ways let the same values pass. -/
theorem accepts_iff (h : Supplies spec c replies) (hshared : Shared spec device c) :
    CliAccepts spec device (c.values spec) ↔ TuiAccepts device (c.values spec) := by
  obtain ⟨-, _, _, _, _, _, _, -, hroot, -, -, hlayout, hvariant⟩ := h
  have hesp := hshared.esp
  have hr := root_ok_iff hroot hshared.root
  have hl := layout_ok_iff hlayout hshared.layout
  have hv := variant_ok_iff hvariant hshared.variant
  constructor
  · intro hcli
    obtain ⟨hge, hle⟩ := hcli.esp
    exact ⟨⟨by grind, by grind⟩, hr.mp hcli.root, hcli.name, hcli.password,
      hl.mp hcli.layout, hv.mp hcli.variant⟩
  · intro htui
    obtain ⟨hge, hle⟩ := htui.esp
    exact ⟨⟨by grind, by grind⟩, hr.mpr htui.root, htui.name, htui.password,
      hl.mpr htui.keyboard.layout, hv.mpr htui.keyboard.variant⟩

/-- **The two front ends agree** on shared decisions: both accept or neither does, and their plans
are equal but for the network, which only the prompts take from the specification. -/
theorem front_ends_agree
    (hsalt : ∀ password, (∃ hash, hashPasswordSha512 openssl password = .ok hash) ↔
      ∃ hash, hashPasswordSha512 openssl' password = .ok hash)
    (hmem : device ∈ devices) (hremovable : device.removable = true)
    (hsupplies : Supplies spec c replies) (hshared : Shared spec device c) :
    ((∃ keys plan, ConfirmsAs openssl spec devices keys device (c.values spec) plan) ↔
      ∃ plan r, gatherPlan openssl' spec device replies = .ok (plan, r)) ∧
    ∀ keys plan plan' r, ConfirmsAs openssl spec devices keys device (c.values spec) plan →
      gatherPlan openssl' spec device replies = .ok (plan', r) →
        Agree openssl openssl' spec c.password plan plan' := by
  have hboth := accepts_iff hsupplies hshared
  constructor
  · rw [exists_comm]
    simp only [confirmsAs_iff hmem hremovable, gatherPlan_given hsupplies hshared.root, ← hboth]
    constructor
    · rintro ⟨plan, haccepts, hash, hhash, -⟩
      obtain ⟨hash', hhash'⟩ := (hsalt c.password).mp ⟨hash, hhash⟩
      exact ⟨_, haccepts, hash', hhash', rfl⟩
    · rintro ⟨plan, haccepts, hash', hhash', -⟩
      obtain ⟨hash, hhash⟩ := (hsalt c.password).mpr ⟨hash', hhash'⟩
      exact ⟨_, haccepts, hash, hhash, rfl⟩
  · intro keys plan plan' r hconfirms hgather
    obtain ⟨-, -, -, hash, hhash, rfl⟩ := confirmsAs_accepts hconfirms
    obtain ⟨-, hash', hhash', rfl⟩ := (gatherPlan_given hsupplies hshared.root).mp ⟨r, hgather⟩
    exact ⟨rfl, rfl, rfl, hhash, hhash', rfl, rfl⟩

end Agreement

/-! ### A headless specification -/

/-- A specification that leaves nothing open but the password, and asks for the network. -/
def headlessSpec : TargetOsSpec where
  partitions := some ⟨some 512, some 8⟩
  user := some ⟨some "pi".toList, some "Pi".toList, none, none⟩
  keyboard := some ⟨some "us".toList, some "intl".toList⟩
  network := some ⟨some true⟩

def acceptAll : Choices where
  password := "letmein9".toList

/-- The hashes of one password with two salts. -/
def hashOne : Text :=
  "$6$wosalt01$".toList ++
    "60JEg2ikPGKA7XerAvp6qWFPa/mr6KkU/J3LV/QOyX6bx7INu.qLXcQtCpE86DsOVRnlQaErJ8GCJZksOsoNx.".toList

def hashTwo : Text :=
  "$6$wosalt02$".toList ++
    "Y5U8QyLLWSpGPDrqgLgQHq/hboWLOJOe/Nwg18/w8nQdZzMbJ01RRZx8qNDbr7l4.guUdzenZnr2omu2Bn9/p0".toList

/-- Two runs of the hash program. -/
def saltedOne : Text → Except Failure Text := fun _ => .ok (hashOne ++ ['\n'])

def saltedTwo : Text → Except Failure Text := fun _ => .ok (hashTwo ++ ['\n'])

def typed (t : Text) : List KeyEvent := t.map fun c => { code := .char c }

/-- The keys that accept what is offered, and type the password twice. -/
def acceptKeys : List KeyEvent :=
  [{ code := .enter }, { code := .enter }, { code := .tab }, { code := .tab }] ++
    typed acceptAll.password ++ [{ code := .tab }] ++ typed acceptAll.password ++
    [{ code := .enter }, { code := .enter }, { code := .enter }]

def acceptReplies : Replies := ⟨[], [.ok acceptAll.password, .ok acceptAll.password]⟩

theorem supplies_acceptReplies : Supplies headlessSpec acceptAll acceptReplies := by
  refine ⟨rfl, [], [], [], [], [], [], .inr ⟨by decide, rfl, rfl⟩, .inr ⟨?_, rfl, rfl⟩,
    .inr ⟨by decide, rfl, rfl⟩, .inr ⟨by decide, rfl, rfl⟩, .inr ⟨by decide, rfl, rfl⟩,
    .inr ⟨?_, rfl, rfl⟩⟩
  · exact not_not.mpr ⟨8, rfl, by decide⟩
  · show ¬ offeredVariant headlessSpec = []
    decide

theorem confirmsAs_acceptKeys :
    ConfirmsAs saltedOne headlessSpec [stick] acceptKeys stick (acceptAll.values headlessSpec)
      (planOf headlessSpec (acceptAll.values headlessSpec) hashOne false) := by
  refine ⟨rfl, by decide, ?_⟩
  exact ⟨by decide, by decide, by decide, by decide, by decide, by decide, by decide⟩

/-- Both ways accept, with one salt, and only the prompts enable the network. -/
theorem form_drops_network :
    Supplies headlessSpec acceptAll acceptReplies ∧ ∃ plan plan' r,
      ConfirmsAs saltedOne headlessSpec [stick] acceptKeys stick (acceptAll.values headlessSpec)
        plan ∧
      gatherPlan saltedOne headlessSpec stick acceptReplies = .ok (plan', r) ∧
      plan.network ≠ plan'.network :=
  ⟨supplies_acceptReplies, _, planOf headlessSpec (acceptAll.values headlessSpec) hashOne true,
    ⟨[], []⟩, confirmsAs_acceptKeys, rfl, by decide⟩

theorem front_ends_agree_headless :
    Agree saltedOne saltedTwo headlessSpec acceptAll.password
      (planOf headlessSpec (acceptAll.values headlessSpec) hashOne false)
      (planOf headlessSpec (acceptAll.values headlessSpec) hashTwo true) := by
  have hsalt : ∀ password, (∃ hash, hashPasswordSha512 saltedOne password = .ok hash) ↔
      ∃ hash, hashPasswordSha512 saltedTwo password = .ok hash :=
    fun _ => iff_of_true ⟨hashOne, rfl⟩ ⟨hashTwo, rfl⟩
  have hshared : Shared headlessSpec stick acceptAll := by
    refine ⟨.inl (by decide), nofun, ?_, ?_⟩
    · rintro l ⟨⟩
      decide
    · rintro w ⟨⟩
      decide
  have hmem : stick ∈ [stick] := List.mem_cons_self
  exact (front_ends_agree hsalt hmem rfl
    supplies_acceptReplies hshared).2 acceptKeys _ _ ⟨[], []⟩ confirmsAs_acceptKeys rfl

end WriteonceOs.Installer
