import WriteonceOs.Installer.Customize
import WriteonceOs.Installer.FrontEnds

/-!
# The account databases after the customisation

What a reader of the account files sees: rows between newlines, of which those that are empty or
begin with a number sign are no accounts, and fields between colons.  The three rewriters replace
the placeholder's line by one for the user, with the operator's texts as they are.

* `Database` — every account has its fields, and no name comes twice;
* `database_map_iff` — an account renamed, and the names still distinct;
* `Faithful` — what the databases have to be after a run;
* `accounts_faithful_iff` — when they are.
-/

namespace WriteonceOs.Installer

open WriteonceOs.Library
open Records (fields record key splitN)
open WriteonceOs.Svc (isWhitespace trim parseU32)

namespace Customize

/-! ### Databases -/

/-- Empty rows and comments are skipped. -/
def isAccount (row : Text) : Bool := row.head?.any (· ≠ '#')

def accounts (rs : List Text) : List Text := rs.filter isAccount

def names (rs : List Text) : List Text := (accounts rs).map (key ':')

/-- The accounts of a name. -/
def entries (name : Text) (rs : List Text) : List Text :=
  (accounts rs).filter fun row => key ':' row = name

/-- The accounts of other names. -/
def others (name : Text) (rs : List Text) : List Text :=
  (accounts rs).filter fun row => key ':' row ≠ name

/-- Records of `n` fields with distinct names. -/
structure Database (n : ℕ) (rs : List Text) : Prop where
  arity : ∀ row ∈ accounts rs, (fields ':' row).length = n
  nodup : (names rs).Nodup

section Database

variable {n : ℕ} {rs ls : List Text} {row name old own : Text}

theorem mem_accounts : row ∈ accounts rs ↔ row ∈ rs ∧ isAccount row = true := List.mem_filter

theorem isAccount_append {a b : Text} (h : a ≠ []) : isAccount (a ++ b) = isAccount a := by
  cases a with
  | nil => exact absurd rfl h
  | cons c a => rfl

theorem isAccount_colon (a b : Text) : isAccount (a ++ ':' :: b) = isAccount (a ++ [':']) := by
  have happ : a ++ ':' :: b = (a ++ [':']) ++ b := by simp
  rw [happ]
  exact isAccount_append (by simp)

/-- Whether a record is an account shows in its first field. -/
theorem isAccount_record (a b : Text) (rest : List Text) :
    isAccount (record ':' (a :: b :: rest)) = isAccount (a ++ [':']) := by
  rw [record, List.intercalate_cons_cons]
  exact isAccount_append (by simp)

/-- An account of two fields or more has a colon. -/
theorem colon_mem (hn : 2 ≤ n) (h : (fields ':' row).length = n) : ':' ∈ row := by
  rw [Records.length_fields] at h
  exact List.count_pos_iff.mp (by omega)

/-- **The names of a database whose rows were changed one by one.** -/
theorem names_map {f : Text → Text} {g : Text → Text}
    (haccount : ∀ l ∈ ls, isAccount (f l) = isAccount l)
    (hkey : ∀ l ∈ accounts ls, key ':' (f l) = g (key ':' l)) :
    accounts (ls.map f) = (accounts ls).map f ∧ names (ls.map f) = (names ls).map g := by
  have hmap : accounts (ls.map f) = (accounts ls).map f := by
    rw [accounts, accounts, List.filter_map]
    exact congrArg (List.map f) (List.filter_congr haccount)
  refine ⟨hmap, ?_⟩
  rw [names, hmap, names, List.map_map, List.map_map]
  exact List.map_congr_left hkey

/-- **One account renamed**: a database, when the new name is no other account's. -/
theorem database_map_iff {f : Text → Text} (hdb : Database n ls) (hold : old ∈ names ls)
    (haccount : ∀ l ∈ ls, isAccount (f l) = isAccount l)
    (hkey : ∀ l ∈ accounts ls, key ':' (f l) = if key ':' l = old then name else key ':' l)
    (harity : ∀ l ∈ accounts ls, (fields ':' (f l)).length = n) :
    Database n (ls.map f) ↔ (name ∈ names ls → name = old) := by
  obtain ⟨haccounts, hnames⟩ :=
    names_map (g := fun n => if n = old then name else n) haccount hkey
  rw [← Records.nodup_rename_iff hdb.nodup hold, ← hnames]
  constructor
  · exact fun h => h.nodup
  · intro h
    refine ⟨fun row hrow => ?_, h⟩
    rw [haccounts] at hrow
    obtain ⟨l, hl, rfl⟩ := List.mem_map.mp hrow
    exact harity l hl

/-- **What is found under the new name**: the accounts that were found under the old one. -/
theorem entries_map {f : Text → Text} (haccount : ∀ l ∈ ls, isAccount (f l) = isAccount l)
    (hkey : ∀ l ∈ accounts ls, key ':' (f l) = if key ':' l = old then name else key ':' l)
    (hfree : name ∈ names ls → name = old) :
    entries name (ls.map f) = (entries old ls).map f ∧
      others name (ls.map f) = (others old ls).map f := by
  obtain ⟨haccounts, -⟩ := names_map (g := fun n => if n = old then name else n) haccount hkey
  have hsame : ∀ l ∈ accounts ls, (key ':' (f l) = name) ↔ key ':' l = old := by
    intro l hl
    rw [hkey l hl]
    split
    case isTrue h => exact iff_of_true rfl h
    case isFalse h =>
      refine iff_of_false (fun heq => h ?_) h
      rw [heq]
      exact hfree (heq ▸ List.mem_map_of_mem hl)
  constructor
  · rw [entries, haccounts, List.filter_map]
    exact congrArg (List.map f)
      (List.filter_congr fun l hl => decide_eq_decide.mpr (hsame l hl))
  · rw [others, haccounts, List.filter_map]
    exact congrArg (List.map f)
      (List.filter_congr fun l hl => decide_eq_decide.mpr (not_congr (hsame l hl)))

/-- A name of a database has one account. -/
theorem entries_singleton (hdb : Database n ls) (h : name ∈ names ls) :
    ∃ row, entries name ls = [row] := by
  have hcount : (names ls).count name = (entries name ls).length := by
    rw [names, List.count, List.countP_map, List.countP_eq_length_filter, entries]
    refine congrArg List.length (List.filter_congr fun l _ => ?_)
    rw [Function.comp_apply, Bool.eq_iff_iff, beq_iff_eq, decide_eq_true_iff]
  rw [List.count_eq_one_of_mem hdb.nodup h] at hcount
  exact List.length_eq_one_iff.mp hcount.symm

/-! ### Lines and rows -/

theorem chopReturn_append_colon (a b : Text) :
    ∃ b', chopReturn (a ++ ':' :: b) = a ++ ':' :: b' ∧ b'.count ':' = b.count ':' := by
  unfold chopReturn
  split
  case isFalse => exact ⟨b, rfl, rfl⟩
  case isTrue hlast =>
    cases b using List.reverseRecOn with
    | nil => simp at hlast
    | append_singleton b c =>
      rw [← List.cons_append, ← List.append_assoc] at hlast ⊢
      rw [List.getLast?_concat] at hlast
      rw [List.dropLast_concat, Option.some.inj hlast]
      exact ⟨b, rfl, by simp⟩

/-- A carriage return at the end of an account does not matter for its name and its arity. -/
theorem chopReturn_account (hn : 2 ≤ n)
    (hrow : isAccount row = true → (fields ':' row).length = n) :
    isAccount (chopReturn row) = isAccount row ∧ (isAccount row = true →
      key ':' (chopReturn row) = key ':' row ∧ (fields ':' (chopReturn row)).length = n) := by
  cases haccount : isAccount row with
  | true =>
    have hlength := hrow haccount
    obtain ⟨rest, heq⟩ := Records.eq_key_append (colon_mem hn hlength)
    obtain ⟨rest', hchop, hcount⟩ := chopReturn_append_colon (key ':' row) rest
    rw [← heq] at hchop
    have hkey : key ':' (chopReturn row) = key ':' row := by
      rw [hchop, Records.key_append Records.not_mem_key]
    have hacc : isAccount (chopReturn row) = true := by
      rw [hchop, isAccount_colon, ← isAccount_colon _ rest, ← heq]
      exact haccount
    refine ⟨hacc, fun _ => ⟨hkey, ?_⟩⟩
    rw [Records.length_fields, hchop, ← hlength, Records.length_fields]
    conv_rhs => rw [heq]
    rw [List.count_append, List.count_append, List.count_cons_self, List.count_cons_self, hcount]
  | false =>
    refine ⟨?_, nofun⟩
    unfold chopReturn
    split
    case isFalse => exact haccount
    case isTrue hlast =>
      obtain ⟨before, rfl⟩ := List.getLast?_eq_some_iff.mp hlast
      rw [List.dropLast_concat]
      cases before with
      | nil => rfl
      | cons c before => exact haccount

/-- **The lines that are read make the same database as the rows.** -/
theorem database_lines {text : Text} (hn : 2 ≤ n) (hdb : Database n (rows text)) :
    Database n (lines text) ∧ names (lines text) = names (rows text) := by
  have hrel : ∀ ls rs : List Text, List.Forall₂ (fun l row => l = row ∨ l = chopReturn row) ls rs →
      (∀ row ∈ accounts rs, (fields ':' row).length = n) →
      (∀ l ∈ accounts ls, (fields ':' l).length = n) ∧ names ls = names rs := by
    intro ls rs h
    induction h with
    | nil => exact fun _ => ⟨nofun, rfl⟩
    | @cons l row ls rs hl _ ih =>
      intro harity
      have hrow : isAccount row = true → (fields ':' row).length = n :=
        fun ha => harity row (mem_accounts.mpr ⟨List.mem_cons_self, ha⟩)
      obtain ⟨hrest, hnames⟩ := ih fun r hr => harity r
        (mem_accounts.mpr ⟨List.mem_cons_of_mem _ (mem_accounts.mp hr).1, (mem_accounts.mp hr).2⟩)
      obtain ⟨hacc, hsame⟩ : isAccount l = isAccount row ∧ (isAccount row = true →
          key ':' l = key ':' row ∧ (fields ':' l).length = n) := by
        rcases hl with rfl | rfl
        · exact ⟨rfl, fun ha => ⟨rfl, hrow ha⟩⟩
        · exact chopReturn_account hn hrow
      constructor
      · intro l' hl'
        obtain ⟨hmem, ha⟩ := mem_accounts.mp hl'
        rcases List.mem_cons.mp hmem with rfl | hmem
        · exact (hsame (hacc ▸ ha)).2
        · exact hrest l' (mem_accounts.mpr ⟨hmem, ha⟩)
      · unfold names accounts at hnames ⊢
        cases ha : isAccount row with
        | true =>
          rw [List.filter_cons_of_pos (hacc.trans ha), List.filter_cons_of_pos ha, List.map_cons,
            List.map_cons, hnames, (hsame ha).1]
        | false =>
          rw [List.filter_cons_of_neg (by simp [hacc, ha]), List.filter_cons_of_neg (by simp [ha]),
            hnames]
  obtain ⟨harity, hnames⟩ := hrel _ _ (lines_rows text) hdb.arity
  exact ⟨⟨harity, hnames ▸ hdb.nodup⟩, hnames⟩

end Database

/-! ### One line replaced -/

section Replace

variable {n : ℕ} {ls rs : List Text} {raw name : Text} {fs : List Text}

/-- The loop is a change of every line, and a line at the end when nothing was replaced. -/
theorem rewriteLines_eq (placeholder : Text → Bool) (own : Text) (other : Text → Text)
    (written : Bool) (ls : List Text) :
    rewriteLines placeholder own other written ls =
      (ls.map fun l => if placeholder l then own else other l) ++
        if written = true ∨ ls.any placeholder = true then [] else [own] := by
  induction ls generalizing written with
  | nil => simp [rewriteLines]
  | cons l ls ih =>
    rw [rewriteLines]
    split
    case isTrue hl => simp [ih, hl]
    case isFalse hl => simp [ih, hl]

theorem placeholderName_noColon : ':' ∉ placeholderName := by decide

theorem isPlaceholder_iff {l : Text} :
    isPlaceholder l = true ↔ ':' ∈ l ∧ key ':' l = placeholderName := by
  rw [isPlaceholder, List.isPrefixOf_iff_prefix]
  exact Records.prefix_iff_key placeholderName_noColon

/-- Among the accounts, the placeholder is recognised by its name. -/
theorem isPlaceholder_account (hn : 2 ≤ n) (hdb : Database n ls) {l : Text} (hl : l ∈ accounts ls) :
    isPlaceholder l = true ↔ key ':' l = placeholderName := by
  rw [isPlaceholder_iff]
  exact and_iff_right (colon_mem hn (hdb.arity l hl))

theorem isAccount_placeholder {l : Text} (h : isPlaceholder l = true) : isAccount l = true := by
  obtain ⟨rest, rfl⟩ := List.isPrefixOf_iff_prefix.mp h
  rfl

theorem any_isPlaceholder (hn : 2 ≤ n) (hdb : Database n ls) (hold : placeholderName ∈ names ls) :
    ls.any isPlaceholder = true := by
  obtain ⟨l, hl, hkey⟩ := List.mem_map.mp hold
  exact List.any_eq_true.mpr
    ⟨l, (mem_accounts.mp hl).1, (isPlaceholder_account hn hdb hl).mpr hkey⟩

/-- The new record in the place of the placeholder. -/
def replaceIn (own : Text) (ls : List Text) : List Text :=
  ls.map fun l => if isPlaceholder l then own else id l

/-- **The placeholder's account replaced by a record**: the other accounts stay, and the new one
comes once. -/
theorem replaceIn_iff {b : Text} {rest : List Text} (hn : 2 ≤ n) (hdb : Database n ls)
    (hold : placeholderName ∈ names ls) (hfs : fs = name :: b :: rest) (hlength : fs.length = n)
    (hclean : ∀ f ∈ fs, ':' ∉ f) (haccount : isAccount (name ++ [':']) = true) :
    (Database n (replaceIn (record ':' fs) ls) ∧
      (∃ row, entries name (replaceIn (record ':' fs) ls) = [row] ∧ fields ':' row = fs) ∧
        others name (replaceIn (record ':' fs) ls) = others placeholderName rs) ↔
      (name ∈ names ls → name = placeholderName) ∧
        others placeholderName ls = others placeholderName rs := by
  have hfields : fields ':' (record ':' fs) = fs :=
    Records.fields_record (by rw [hfs]; exact List.cons_ne_nil _ _) hclean
  have hown : isAccount (record ':' fs) = true := by rw [hfs, isAccount_record, haccount]
  have hkeyOwn : key ':' (record ':' fs) = name := by
    rw [hfs]
    exact Records.key_record (List.cons_ne_nil _ _) (hclean name (by rw [hfs]; simp))
  have hkey : ∀ l ∈ accounts ls, key ':' (if isPlaceholder l then record ':' fs else id l) =
      if key ':' l = placeholderName then name else key ':' l := by
    intro l hl
    simp only [isPlaceholder_account hn hdb hl]
    split
    · exact hkeyOwn
    · rfl
  have hacc : ∀ l ∈ ls, isAccount (if isPlaceholder l then record ':' fs else id l) =
      isAccount l := by
    intro l _
    split
    case isTrue hl => rw [hown, isAccount_placeholder hl]
    case isFalse => rfl
  have hiff : Database n (replaceIn (record ':' fs) ls) ↔
      (name ∈ names ls → name = placeholderName) := by
    refine database_map_iff hdb hold hacc hkey fun l hl => ?_
    split
    · rw [hfields, hlength]
    · exact hdb.arity l hl
  have hothers (hfree : name ∈ names ls → name = placeholderName) :
      others name (replaceIn (record ':' fs) ls) = others placeholderName ls := by
    rw [replaceIn, (entries_map hacc hkey hfree).2]
    refine (List.map_congr_left fun l hl => ?_).trans (List.map_id _)
    obtain ⟨hl, hne⟩ := List.mem_filter.mp hl
    have hnot : ¬ isPlaceholder l = true := fun h =>
      of_decide_eq_true hne ((isPlaceholder_account hn hdb hl).mp h)
    exact if_neg hnot
  constructor
  · intro h
    have hfree := hiff.mp h.1
    exact ⟨hfree, (hothers hfree).symm.trans h.2.2⟩
  · intro h
    obtain ⟨hfree, hrs⟩ := h
    refine ⟨hiff.mpr hfree, ⟨record ':' fs, ?_, hfields⟩, (hothers hfree).trans hrs⟩
    obtain ⟨row, hrow⟩ := entries_singleton hdb hold
    have hmem := List.mem_singleton_self row
    rw [← hrow] at hmem
    obtain ⟨hmem, hrowKey⟩ := List.mem_filter.mp hmem
    have hyes := (isPlaceholder_account hn hdb hmem).mpr (of_decide_eq_true hrowKey)
    rw [replaceIn, (entries_map hacc hkey hfree).1, hrow]
    exact congrArg (fun l => [l]) (if_pos hyes)

/-- What a file has to be in which the placeholder was replaced. -/
structure Replaced (n : ℕ) (name : Text) (fs : List Text) (raw raw' : Text) : Prop where
  database : Database n (rows raw')
  entry : ∃ row, entries name (rows raw') = [row] ∧ fields ':' row = fs
  others : others name (rows raw') = others placeholderName (rows raw)

/-- **One account file**: the new record has to be a record, its name free, and the lines of the
others have to be read as they are. -/
theorem replaced_iff (raw : Text) (fs : List Text) {b : Text} {rest : List Text} (hn : 2 ≤ n)
    (hdb : Database n (rows raw)) (hold : placeholderName ∈ names (rows raw))
    (hfs : fs = name :: b :: rest)
    (hlength : fs.length = n) (haccount : isAccount (name ++ [':']) = true) :
    Replaced n name fs raw
        (unlines (rewriteLines isPlaceholder (record ':' fs) id false (lines raw))) ↔
      (∀ f ∈ fs, ':' ∉ f ∧ '\n' ∉ f) ∧ (name ∈ names (rows raw) → name = placeholderName) ∧
        others placeholderName (lines raw) = others placeholderName (rows raw) := by
  obtain ⟨hdb', hnames⟩ := database_lines hn hdb
  rw [← hnames] at hold ⊢
  have htext : rewriteLines isPlaceholder (record ':' fs) id false (lines raw) =
      replaceIn (record ':' fs) (lines raw) := by
    rw [rewriteLines_eq, if_pos (.inr (any_isPlaceholder hn hdb' hold)), List.append_nil]
    rfl
  -- a field of a row has neither colons nor newlines
  have hclean : Replaced n name fs raw
      (unlines (rewriteLines isPlaceholder (record ':' fs) id false (lines raw))) →
        ∀ f ∈ fs, ':' ∉ f ∧ '\n' ∉ f := by
    intro h f hf
    obtain ⟨row, hrow, hfields⟩ := h.entry
    have hmem := List.mem_singleton_self row
    rw [← hrow] at hmem
    have hrows := (mem_accounts.mp (List.mem_filter.mp hmem).1).1
    rw [← hfields] at hf
    exact ⟨Records.free_of_mem_fields hf, fun hc =>
      newline_not_mem_rows hrows (Records.mem_of_mem_fields hf hc)⟩
  have hread (h : ∀ f ∈ fs, ':' ∉ f ∧ '\n' ∉ f) :
      rows (unlines (replaceIn (record ':' fs) (lines raw))) =
        replaceIn (record ':' fs) (lines raw) := by
    refine rows_unlines fun l hl => ?_
    obtain ⟨l₀, hl₀, rfl⟩ := List.mem_map.mp hl
    split
    · exact not_mem_intercalate (by decide) fun f hf => (h f hf).2
    · exact (mem_lines hl₀).1
  constructor
  · intro h
    have hfree := hclean h
    obtain ⟨hdatabase, hentry, hothers⟩ := h
    rw [htext, hread hfree] at hdatabase hentry hothers
    exact ⟨hfree, (replaceIn_iff hn hdb' hold hfs hlength (fun f hf => (hfree f hf).1)
      haccount).mp ⟨hdatabase, hentry, hothers⟩⟩
  · intro h
    obtain ⟨hfree, h⟩ := h
    obtain ⟨hdatabase, hentry, hothers⟩ := (replaceIn_iff hn hdb' hold hfs hlength
      (fun f hf => (hfree f hf).1) haccount).mpr h
    rw [htext]
    refine ⟨?_, ?_, ?_⟩
    · rw [hread hfree]
      exact hdatabase
    · rw [hread hfree]
      exact hentry
    · rw [hread hfree]
      exact hothers

end Replace

/-! ### The group file -/

section Group

variable {user : ResolvedUser} {l a b c d : Text} {x : Char} {ls : List Text} {raw : Text}

theorem groupLine_four (h : splitN 4 ':' l = [a, b, c, d]) :
    groupLine user l = record ':' [a, b, c, List.intercalate [','] (newMembers user a d)] := by
  simp only [groupLine, h]

theorem isPlaceholderGroup_four (h : splitN 4 ':' l = [a, b, c, d]) :
    isPlaceholderGroup l = decide (a = placeholderName) := by
  simp only [isPlaceholderGroup, h]

/-- A line of four pieces, or one that is kept. -/
theorem groupLine_cases (user : ResolvedUser) (l : Text) :
    (∃ a b c d, splitN 4 ':' l = [a, b, c, d]) ∨
      (groupLine user l = l ∧ isPlaceholderGroup l = false) := by
  by_cases h : ∃ a b c d, splitN 4 ':' l = [a, b, c, d]
  · exact .inl h
  · refine .inr ⟨?_, ?_⟩
    · unfold groupLine
      split
      case h_1 a b c d heq => exact absurd ⟨a, b, c, d, heq⟩ h
      case h_2 => rfl
    · unfold isPlaceholderGroup
      split
      case h_1 a b c d heq => exact absurd ⟨a, b, c, d, heq⟩ h
      case h_2 => rfl

/-- What occurs neither in the members nor in the name does not occur in the new members. -/
theorem not_mem_members (hx : x ≠ ',') (hd : x ∉ d) (hname : x ∉ user.name) :
    x ∉ List.intercalate [','] (newMembers user a d) := by
  have hother : ∀ m ∈ otherMembers d, x ∉ m := by
    intro m hm hmem
    exact hd (Records.mem_of_mem_fields (List.mem_filter.mp hm).1 hmem)
  refine not_mem_intercalate (by simpa using hx) fun m hm => ?_
  unfold newMembers at hm
  simp only at hm
  split at hm
  · rcases List.mem_append.mp hm with hm | hm
    · exact hother m hm
    · rw [List.mem_singleton.mp hm]
      exact hname
  · exact hother m hm

theorem not_mem_groupLine (hcolon : x ≠ ':') (hcomma : x ≠ ',') (hl : x ∉ l)
    (hname : x ∉ user.name) : x ∉ groupLine user l := by
  rcases groupLine_cases user l with ⟨a, b, c, d, h⟩ | ⟨h, -⟩
  · have hparts : ∀ p ∈ [a, b, c, d], x ∉ p := by
      intro p hp hmem
      rw [(Records.splitN_four h).1] at hl
      exact hl (Records.mem_record hp hmem)
    rw [groupLine_four h]
    refine not_mem_intercalate (by simpa using hcolon) ?_
    simp only [List.forall_mem_cons] at hparts ⊢
    obtain ⟨ha, hb, hc, hd, -⟩ := hparts
    exact ⟨ha, hb, hc, not_mem_members hcomma hd hname, nofun⟩
  · rwa [h]

/-- An account of the group file, cut into its fields. -/
theorem group_fields (h : (fields ':' l).length = 4) :
    ∃ a b c d, splitN 4 ':' l = [a, b, c, d] ∧ ':' ∉ d ∧ key ':' l = a := by
  have hcut := Records.splitN_of_length h
  match hparts : fields ':' l with
  | [] | [_] | [_, _] | [_, _, _] | _ :: _ :: _ :: _ :: _ :: _ => simp [hparts] at h
  | [a, b, c, d] =>
    rw [hparts] at hcut
    have hmem : d ∈ fields ':' l := by
      rw [hparts]
      simp
    have hd : ':' ∉ d := Records.free_of_mem_fields hmem
    obtain ⟨hl, ha, -, -⟩ := Records.splitN_four hcut
    refine ⟨a, b, c, d, hcut, hd, ?_⟩
    rw [hl]
    exact Records.key_record (List.cons_ne_nil _ _) ha

/-- **The group file**: the groups stay groups, and the names stay distinct when the user's name is
no other group's. -/
theorem group_iff (hdb : Database 4 (rows raw)) (hold : placeholderName ∈ names (rows raw))
    (hcolon : ':' ∉ user.name) (hnewline : '\n' ∉ user.name)
    (haccount : isAccount (user.name ++ [':']) = true) :
    Database 4 (rows (groupText user raw)) ↔
      (user.name ∈ names (rows raw) → user.name = placeholderName) := by
  obtain ⟨hdb', hnames⟩ := database_lines (by omega) hdb
  rw [← hnames] at hold ⊢
  have hclean : ∀ f ∈ groupFields user, ':' ∉ f ∧ '\n' ∉ f := by
    simp only [groupFields, List.forall_mem_cons]
    exact ⟨⟨hcolon, hnewline⟩, by decide,
      ⟨not_mem_decimal (by decide), not_mem_decimal (by decide)⟩, by decide, nofun⟩
  have hfields : fields ':' (record ':' (groupFields user)) = groupFields user :=
    Records.fields_record (List.cons_ne_nil _ _) fun f hf => (hclean f hf).1
  -- the lines of the new file
  let f : Text → Text := fun l =>
    if isPlaceholderGroup l then record ':' (groupFields user) else groupLine user l
  have hany : (lines raw).any isPlaceholderGroup = true := by
    obtain ⟨l, hl, hkey⟩ := List.mem_map.mp hold
    obtain ⟨a, b, c, d, hcut, -, ha⟩ := group_fields (hdb'.arity l hl)
    refine List.any_eq_true.mpr ⟨l, (mem_accounts.mp hl).1, ?_⟩
    rw [isPlaceholderGroup_four hcut, ← ha, hkey]
    rfl
  have hrows : rows (groupText user raw) = (lines raw).map f := by
    rw [groupText, rewriteLines_eq, if_pos (.inr hany), List.append_nil]
    refine rows_unlines fun l hl => ?_
    obtain ⟨l₀, hl₀, rfl⟩ := List.mem_map.mp hl
    split
    · exact not_mem_intercalate (by decide) fun f hf => (hclean f hf).2
    · exact not_mem_groupLine (by decide) (by decide) (mem_lines hl₀).1 hnewline
  rw [hrows]
  refine database_map_iff hdb' hold ?_ ?_ ?_
  · intro l _
    show isAccount (if isPlaceholderGroup l then _ else _) = _
    rcases groupLine_cases user l with ⟨a, b, c, d, h⟩ | ⟨h, hnot⟩
    · have hl := (Records.splitN_four h).1
      rw [isPlaceholderGroup_four h]
      split
      case isTrue ha =>
        rw [groupFields, isAccount_record, haccount, hl, isAccount_record, of_decide_eq_true ha]
        rfl
      case isFalse => rw [groupLine_four h, isAccount_record, hl, isAccount_record]
    · rw [if_neg (by simp [hnot]), h]
  · intro l hl
    obtain ⟨a, b, c, d, hcut, -, ha⟩ := group_fields (hdb'.arity l hl)
    show key ':' (if isPlaceholderGroup l then _ else _) = _
    rw [isPlaceholderGroup_four hcut, ha]
    by_cases hw : a = placeholderName
    · rw [if_pos (decide_eq_true hw), if_pos hw]
      exact Records.key_record (List.cons_ne_nil _ _) hcolon
    · rw [if_neg (by simpa using hw), if_neg hw, groupLine_four hcut]
      exact Records.key_record (List.cons_ne_nil _ _) (Records.splitN_four hcut).2.1
  · intro l hl
    obtain ⟨a, b, c, d, hcut, hd, -⟩ := group_fields (hdb'.arity l hl)
    show (fields ':' (if isPlaceholderGroup l then _ else _)).length = 4
    split
    · rw [hfields]
      rfl
    · obtain ⟨-, ha, hb, hc⟩ := Records.splitN_four hcut
      have hmembers := not_mem_members (a := a) (by decide) hd hcolon
      rw [groupLine_four hcut, Records.fields_record (List.cons_ne_nil _ _)]
      · rfl
      · simp only [List.forall_mem_cons]
        exact ⟨ha, hb, hc, hmembers, nofun⟩

end Group

/-! ### The plans -/

section Plans

variable {openssl : Text → Except Failure Text} {plan : InstallationPlan}

/-- What a plan of the prompts or of the form is. -/
def Returned (openssl : Text → Except Failure Text) (plan : InstallationPlan) : Prop :=
  (∃ spec device replies rest, gatherPlan openssl spec device replies = .ok (plan, rest)) ∨
    ∃ spec devices keys device,
      runTui openssl spec devices keys = some (.ok (some (device, plan)))

/-- The letters of a crypt string: points, slashes, digits, letters and dollar signs. -/
def isCryptChar (c : Char) : Bool :=
  ('.' ≤ c && c ≤ '9') || ('A' ≤ c && c ≤ 'Z') || ('a' ≤ c && c ≤ 'z') || c = '$'

/-- What the hash program prints: a crypt string, and a newline. -/
def PrintsCrypt (openssl : Text → Except Failure Text) : Prop :=
  ∀ password out, openssl password = .ok out →
    ∃ hash, out = hash ++ ['\n'] ∧ ∀ c ∈ hash, isCryptChar c = true

/-- What both ways make of the account. -/
structure ReturnedUser (openssl : Text → Except Failure Text) (user : ResolvedUser) : Prop where
  name : NameOk user.name
  uid : user.uid = 1000
  gid : user.gid = 1000
  hash : ∃ password, hashPasswordSha512 openssl password = .ok user.passwordHash

theorem hash_of_prompt {r r' : Replies} {hash : Text}
    (h : promptPasswordAndHash openssl r = .ok (hash, r')) :
    ∃ password, hashPasswordSha512 openssl password = .ok hash := by
  unfold promptPasswordAndHash at h
  split at h
  case h_1 => cases h
  case h_2 password rest _ =>
    split at h
    case h_1 => cases h
    case h_2 hash' hhash =>
      cases h
      exact ⟨password, hhash⟩

theorem buildPlan_user {app : App} (h : buildPlan openssl app = .ok plan) :
    plan.user.name = app.userName ∧ plan.user.uid = 1000 ∧ plan.user.gid = 1000 ∧
      hashPasswordSha512 openssl app.userPassword = .ok plan.user.passwordHash := by
  unfold buildPlan at h
  cases hesp : parseU32 (trim app.espMibInput) with
  | none =>
    simp only [hesp] at h
    cases h
  | some esp =>
    cases hroot : parseU32 (trim app.rootGibInput) with
    | none =>
      simp only [hesp, hroot] at h
      cases h
    | some root =>
      cases hhash : hashPasswordSha512 openssl app.userPassword with
      | error e =>
        simp only [hesp, hroot, hhash] at h
        cases h
      | ok hash =>
        simp only [hesp, hroot, hhash, Except.mapError, bind, Except.bind,
          validateHash_of_hash hhash] at h
        cases h
        exact ⟨rfl, rfl, rfl, rfl⟩

theorem Returned.user (h : Returned openssl plan) : ReturnedUser openssl plan.user := by
  rcases h with ⟨spec, device, replies, rest, h⟩ | ⟨spec, devices, keys, device, h⟩
  · obtain ⟨partition, r₁, -, h⟩ := Dialogue.bind_ok_iff.mp h
    obtain ⟨user, r₂, huser, h⟩ := Dialogue.bind_ok_iff.mp h
    obtain ⟨keyboard, r₃, -, h⟩ := Dialogue.bind_ok_iff.mp h
    cases h
    obtain ⟨s₁, -, hname, s₂, -, hhash, -, -, huid, hgid⟩ := gatherUser_ok_iff.mp huser
    exact ⟨hname, huid, hgid, hash_of_prompt hhash⟩
  · have hne : devices ≠ [] := by
      rintro rfl
      cases h
    obtain ⟨ho, -, hbuild⟩ := (runTui_confirmed_iff hne).mp h
    have hchecked := App.checked_runKeys rfl (App.checked_new spec devices hne) keys
    have huser := hchecked.user (by rw [hchecked.confirmed ho]; decide)
    obtain ⟨hname, huid, hgid, hhash⟩ := buildPlan_user hbuild
    exact ⟨hname ▸ ⟨huser.set, huser.not_root, huser.chars⟩, huid, hgid, _, hhash⟩

/-- The newline after a text is taken off again. -/
theorem trim_append_newline {t : Text} (h : ∀ c ∈ t, isWhitespace c = false) :
    trim (t ++ ['\n']) = t := by
  have hself := trim_of_free h
  cases t with
  | nil => rfl
  | cons c t =>
    have hc := h c List.mem_cons_self
    unfold trim at hself ⊢
    rw [List.cons_append, List.dropWhile_cons_of_neg (by simp [hc]), ← List.cons_append,
      List.reverse_append]
    rw [List.dropWhile_cons_of_neg (by simp [hc])] at hself
    exact hself

theorem isWhitespace_crypt {c : Char} (h : isCryptChar c = true) : isWhitespace c = false := by
  have hrange : 36 ≤ c.toNat ∧ c.toNat ≤ 122 := by
    simp only [isCryptChar, Bool.or_eq_true, Bool.and_eq_true, decide_eq_true_eq, Char.le_def,
      UInt32.le_iff_toNat_le, Char.toNat_val] at h
    rcases h with h | rfl
    · simp only [Char.reduceToNat] at h
      omega
    · decide
  simp only [isWhitespace]
  grind

/-- **A hash has neither colons nor newlines.** -/
theorem PrintsCrypt.clean (hcrypt : PrintsCrypt openssl) {password hash : Text}
    (h : hashPasswordSha512 openssl password = .ok hash) : ':' ∉ hash ∧ '\n' ∉ hash := by
  have hchars : ∀ c ∈ hash, isCryptChar c = true := by
    unfold hashPasswordSha512 at h
    split at h
    case h_1 => cases h
    case h_2 out hout =>
      obtain ⟨printed, rfl, hprinted⟩ := hcrypt password out hout
      split at h
      case h_1 => cases h
      case h_2 =>
        obtain rfl := Except.ok.inj h
        intro c hc
        have hfree : ∀ c ∈ printed, isWhitespace c = false :=
          fun c hc => isWhitespace_crypt (hprinted c hc)
        rw [trim_append_newline hfree] at hc
        exact hprinted c hc
  constructor
  · exact fun hmem => absurd (hchars _ hmem) (by decide)
  · exact fun hmem => absurd (hchars _ hmem) (by decide)

end Plans

/-! ### The databases of a run -/

section Faithful

variable {openssl : Text → Except Failure Text} {root : Text} {day : ℕ} {plan : InstallationPlan}
  {tree tree' : FileTree} {name : Text} {x : Char}

theorem free_of_nameOk (h : NameOk name) (hx : isNameChar x = false) : x ∉ name := by
  intro hmem
  rw [List.all_eq_true.mp h.chars x hmem] at hx
  cases hx

theorem isName_of_nameOk (h : NameOk name) : Paths.IsName name where
  ne_nil := h.set
  ne_dot heq := free_of_nameOk (x := '.') h (by decide) (by rw [heq]; simp)
  ne_dotdot heq := free_of_nameOk (x := '.') h (by decide) (by rw [heq]; simp)
  noSlash := free_of_nameOk h (by decide)

theorem isAccount_of_nameOk (h : NameOk name) : isAccount (name ++ [':']) = true := by
  have hfree : '#' ∉ name := free_of_nameOk h (by decide)
  cases name with
  | nil => exact absurd rfl h.set
  | cons c name =>
    have hc : c ≠ '#' := fun heq => hfree (heq ▸ List.mem_cons_self)
    exact decide_eq_true hc

def contents (root path : Text) (tree : FileTree) : Text :=
  (tree.text (fileAt root path)).getD []

/-- **A skeleton**: three databases, with one placeholder account in each. -/
structure Skeleton (root : Text) (tree : FileTree) : Prop where
  passwd : Database 7 (rows (contents root passwdPath tree))
  shadow : Database 9 (rows (contents root shadowPath tree))
  group : Database 4 (rows (contents root groupPath tree))
  passwd_account : placeholderName ∈ names (rows (contents root passwdPath tree))
  shadow_account : placeholderName ∈ names (rows (contents root shadowPath tree))
  group_account : placeholderName ∈ names (rows (contents root groupPath tree))

/-- The account that the plan asks for. -/
def passwdEntry (user : ResolvedUser) : List Text :=
  [user.name, ['x'], "1000".toList, "1000".toList, user.realName, "/home/".toList ++ user.name,
    user.shell]

/-- **What the customisation has to do**: databases again, in which the user's account stands for
the placeholder's and the others are what they were. -/
structure Faithful (root : Text) (day : ℕ) (plan : InstallationPlan) (tree tree' : FileTree) :
    Prop where
  passwd : Replaced 7 plan.user.name (passwdEntry plan.user) (contents root passwdPath tree)
    (contents root passwdPath tree')
  shadow : Replaced 9 plan.user.name (shadowFields day plan.user) (contents root shadowPath tree)
    (contents root shadowPath tree')
  group : Database 4 (rows (contents root groupPath tree'))

/-- **What it does it for**: texts that fit into a field, a name that is no other account's and no
other group's, and files without a carriage return before a newline. -/
structure Safe (root : Text) (user : ResolvedUser) (tree : FileTree) : Prop where
  realName : ':' ∉ user.realName ∧ '\n' ∉ user.realName
  shell : ':' ∉ user.shell ∧ '\n' ∉ user.shell
  passwd_name : user.name ∈ names (rows (contents root passwdPath tree)) →
    user.name = placeholderName
  shadow_name : user.name ∈ names (rows (contents root shadowPath tree)) →
    user.name = placeholderName
  group_name : user.name ∈ names (rows (contents root groupPath tree)) →
    user.name = placeholderName
  passwd_lines : others placeholderName (lines (contents root passwdPath tree)) =
    others placeholderName (rows (contents root passwdPath tree))
  shadow_lines : others placeholderName (lines (contents root shadowPath tree)) =
    others placeholderName (rows (contents root shadowPath tree))

theorem contents_of_text {path s : Text} (h : tree.text (fileAt root path) = some s) :
    contents root path tree = s := by
  rw [contents, h]
  rfl

/-- **What a run makes of the three files.** -/
theorem contents_of_run (h : apply root day plan tree = .ok tree')
    (hname : Paths.IsName plan.user.name) :
    contents root passwdPath tree' = passwdText plan.user (contents root passwdPath tree) ∧
      contents root shadowPath tree' =
        shadowText day plan.user (contents root shadowPath tree) ∧
      contents root groupPath tree' = groupText plan.user (contents root groupPath tree) := by
  obtain ⟨run⟩ := apply_ok h
  obtain ⟨passwd, hp, hp'⟩ := run.passwd_text (.inr hname)
  obtain ⟨shadow, hs, hs'⟩ := run.shadow_text (.inr hname)
  obtain ⟨group, hg, hg'⟩ := run.group_text (.inr hname)
  rw [contents_of_text hp, contents_of_text hp', contents_of_text hs, contents_of_text hs',
    contents_of_text hg, contents_of_text hg']
  exact ⟨rfl, rfl, rfl⟩

theorem passwdFields_eq (h : ReturnedUser openssl plan.user) :
    passwdFields plan.user = passwdEntry plan.user := by
  have hdecimal : decimal (1000 : UInt32).toNat = "1000".toList := by decide
  rw [passwdFields, h.uid, h.gid, hdecimal]
  rfl

/-- The fields of the account are clean when the real name and the shell are. -/
theorem passwdEntry_clean (h : NameOk plan.user.name) :
    (∀ f ∈ passwdEntry plan.user, ':' ∉ f ∧ '\n' ∉ f) ↔
      (':' ∉ plan.user.realName ∧ '\n' ∉ plan.user.realName) ∧
        (':' ∉ plan.user.shell ∧ '\n' ∉ plan.user.shell) := by
  have hname : ':' ∉ plan.user.name ∧ '\n' ∉ plan.user.name :=
    ⟨free_of_nameOk h (by decide), free_of_nameOk h (by decide)⟩
  have hhome : ':' ∉ "/home/".toList ++ plan.user.name ∧
      '\n' ∉ "/home/".toList ++ plan.user.name := by
    simp only [List.mem_append, not_or]
    exact ⟨⟨by decide, hname.1⟩, by decide, hname.2⟩
  constructor
  · intro hclean
    exact ⟨hclean _ (by simp [passwdEntry]), hclean _ (by simp [passwdEntry])⟩
  · intro hclean
    simp only [passwdEntry, List.forall_mem_cons]
    exact ⟨hname, by decide, by decide, by decide, hclean.1, hhome, hclean.2, nofun⟩

theorem shadowFields_clean (hcrypt : PrintsCrypt openssl) (h : ReturnedUser openssl plan.user) :
    ∀ f ∈ shadowFields day plan.user, ':' ∉ f ∧ '\n' ∉ f := by
  obtain ⟨password, hpassword⟩ := h.hash
  have hhash := hcrypt.clean hpassword
  simp only [shadowFields, List.forall_mem_cons]
  exact ⟨⟨free_of_nameOk h.name (by decide), free_of_nameOk h.name (by decide)⟩, hhash,
    ⟨not_mem_decimal (by decide), not_mem_decimal (by decide)⟩, by decide, by decide, by decide,
    by decide, by decide, by decide, nofun⟩

/-- **The account databases are what the plan asks for exactly where the operator's texts are safe
for them.** -/
theorem accounts_faithful_iff (hcrypt : PrintsCrypt openssl) (hplan : Returned openssl plan)
    (hskeleton : Skeleton root tree) (happly : apply root day plan tree = .ok tree') :
    Faithful root day plan tree tree' ↔ Safe root plan.user tree := by
  have huser := hplan.user
  have haccount := isAccount_of_nameOk huser.name
  obtain ⟨hpasswd, hshadow, hgroup⟩ := contents_of_run happly (isName_of_nameOk huser.name)
  have hp := replaced_iff _ (passwdEntry plan.user) (by omega) hskeleton.passwd
    hskeleton.passwd_account rfl rfl haccount
  have hs := replaced_iff _ (shadowFields day plan.user) (by omega) hskeleton.shadow
    hskeleton.shadow_account rfl rfl haccount
  have hg := group_iff hskeleton.group hskeleton.group_account
    (free_of_nameOk huser.name (by decide)) (free_of_nameOk huser.name (by decide)) haccount
  rw [passwdText, passwdFields_eq huser] at hpasswd
  rw [shadowText] at hshadow
  rw [passwdEntry_clean huser.name] at hp
  constructor
  · intro h
    obtain ⟨⟨hreal, hshell⟩, hpname, hplines⟩ := hp.mp (hpasswd ▸ h.passwd)
    obtain ⟨-, hsname, hslines⟩ := hs.mp (hshadow ▸ h.shadow)
    exact ⟨hreal, hshell, hpname, hsname, hg.mp (hgroup ▸ h.group), hplines, hslines⟩
  · intro h
    refine ⟨?_, ?_, ?_⟩
    · rw [hpasswd]
      exact hp.mpr ⟨⟨h.realName, h.shell⟩, h.passwd_name, h.passwd_lines⟩
    · rw [hshadow]
      exact hs.mpr ⟨shadowFields_clean hcrypt huser, h.shadow_name, h.shadow_lines⟩
    · rw [hgroup]
      exact hg.mpr h.group_name

end Faithful

/-! ### Two users -/

theorem contents_staged : contents mountPoint passwdPath staged = stagedPasswd ∧
    contents mountPoint shadowPath staged = stagedShadow ∧
    contents mountPoint groupPath staged = stagedGroup := by
  decide +kernel

theorem skeleton_staged : Skeleton mountPoint staged := by
  obtain ⟨hpasswd, hshadow, hgroup⟩ := contents_staged
  refine ⟨⟨?_, ?_⟩, ⟨?_, ?_⟩, ⟨?_, ?_⟩, ?_, ?_, ?_⟩
  all_goals simp only [hpasswd, hshadow, hgroup]
  all_goals decide +kernel

theorem printsCrypt_saltedOne : PrintsCrypt saltedOne := by
  intro password out h
  obtain rfl := Except.ok.inj h
  have hall : hashOne.all isCryptChar = true := by decide
  exact ⟨hashOne, rfl, List.all_eq_true.mp hall⟩

def specFor (name : Text) : TargetOsSpec :=
  { headlessSpec with user := some ⟨some name, some "Pi".toList, none, none⟩ }

def planFor (name : Text) : InstallationPlan :=
  planOf (specFor name) (acceptAll.values (specFor name)) hashOne true

theorem nameOk_pi : NameOk "pi".toList := ⟨by decide, by decide, by decide⟩

/-- A user who is called like a group gets a second group of that name. -/
theorem group_name_twice :
    PrintsCrypt saltedOne ∧ Returned saltedOne (planFor "audio".toList) ∧
      Skeleton mountPoint staged ∧
      ∃ tree', apply mountPoint 19501 (planFor "audio".toList) staged = .ok tree' ∧
        ¬ Database 4 (rows (contents mountPoint groupPath tree')) := by
  refine ⟨printsCrypt_saltedOne, .inl ⟨specFor "audio".toList, stick, acceptReplies, ⟨[], []⟩, rfl⟩,
    skeleton_staged, ?_⟩
  have hok : (apply mountPoint 19501 (planFor "audio".toList) staged).isOk = true := by
    decide +kernel
  obtain ⟨tree', happly⟩ := exists_ok hok
  refine ⟨tree', happly, fun hdb => ?_⟩
  have hgroup := (contents_of_run happly (by decide)).2.2
  rw [hgroup, contents_staged.2.2] at hdb
  have htwice : ¬ (names (rows (groupText (planFor "audio".toList).user stagedGroup))).Nodup := by
    decide +kernel
  exact htwice hdb.nodup

theorem accounts_faithful_pi :
    ∃ tree', apply mountPoint 19501 (planFor "pi".toList) staged = .ok tree' ∧
      Faithful mountPoint 19501 (planFor "pi".toList) staged tree' := by
  have hok : (apply mountPoint 19501 (planFor "pi".toList) staged).isOk = true := by
    decide +kernel
  have hsafe : Safe mountPoint (planFor "pi".toList).user staged := by
    obtain ⟨hpasswd, hshadow, hgroup⟩ := contents_staged
    refine ⟨by decide, by decide, ?_, ?_, ?_, ?_, ?_⟩
    all_goals simp only [hpasswd, hshadow, hgroup]
    all_goals decide +kernel
  obtain ⟨tree', happly⟩ := exists_ok hok
  exact ⟨tree', happly, (accounts_faithful_iff printsCrypt_saltedOne
    (.inl ⟨specFor "pi".toList, stick, acceptReplies, ⟨[], []⟩, rfl⟩) skeleton_staged
    happly).mpr hsafe⟩

end Customize

end WriteonceOs.Installer
