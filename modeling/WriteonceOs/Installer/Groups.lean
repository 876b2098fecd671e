import WriteonceOs.Installer.Accounts

/-!
# Memberships after the customisation

What a reader of `/etc/group` finds: the name of each group, its number and its members, those that
are not empty.  The rewriter goes through the lines of the file, so a group that the user is to join
and that the file does not have is passed over, while the report says that it was updated.

* `groupEntry_line` — what one line becomes;
* `entries_regrouped` — the groups of the file, one by one;
* `joined_iff` — when the user is in every group that was asked for.
-/

namespace WriteonceOs.Installer

open WriteonceOs.Library
open Records (fields record splitN)

namespace Customize

/-! ### Reading the file -/

structure GroupEntry where
  name : Text
  gid : Text
  members : List Text
  deriving DecidableEq, Repr

/-- The members of a field; empty ones are skipped. -/
def membersOf (field : Text) : List Text := (field.splitOn ',').filter (· ≠ [])

def groupEntry (line : Text) : Option GroupEntry :=
  match fields ':' line with
  | [name, _, gid, members] => some ⟨name, gid, membersOf members⟩
  | _ => none

def groupEntries (text : Text) : List GroupEntry := (lines text).filterMap groupEntry

def groupNames (text : Text) : List Text := (groupEntries text).map (·.name)

/-- Lines of four fields, one of them the placeholder's. -/
structure GroupFile (text : Text) : Prop where
  arity : ∀ line ∈ lines text, (fields ':' line).length = 4
  plain : ∀ line ∈ lines text, '\r' ∉ line
  placeholder : placeholderName ∈ groupNames text

/-! ### What the file has to become -/

/-- The members that another group has to have. -/
def joined (user : ResolvedUser) (entry : GroupEntry) : List Text :=
  entry.members.filter (· ≠ placeholderName) ++
    if user.groups.contains entry.name && !entry.members.contains user.name then [user.name]
    else []

/-- The placeholder's group becomes the user's; another one keeps its name and number. -/
def Regrouped (user : ResolvedUser) (entry entry' : GroupEntry) : Prop :=
  if entry.name = placeholderName then
    entry'.name = user.name ∧ entry'.gid = decimal user.gid.toNat
  else entry' = ⟨entry.name, entry.gid, joined user entry⟩

/-- The user is listed, or the group is the user's own. -/
def IsMember (user : ResolvedUser) (group : Text) (text : Text) : Prop :=
  ∃ entry ∈ groupEntries text,
    entry.name = group ∧ (user.name ∈ entry.members ∨ entry.gid = decimal user.gid.toNat)

/-- **What the rewriter has to do**: the same groups, the placeholder's renamed, and the user in
every group that was asked for. -/
structure Joined (user : ResolvedUser) (text text' : Text) : Prop where
  entries : List.Forall₂ (Regrouped user) (groupEntries text) (groupEntries text')
  member : ∀ group ∈ user.groups, IsMember user group text'

/-! ### One line -/

section Line

variable {user : ResolvedUser} {line gname field m : Text} {ms : List Text}

theorem groupEntry_four {a b c d : Text} (h : fields ':' line = [a, b, c, d]) :
    groupEntry line = some ⟨a, c, membersOf d⟩ := by
  simp only [groupEntry, h]

theorem otherMembers_eq (field : Text) :
    otherMembers field = (membersOf field).filter (· ≠ placeholderName) := by
  rw [otherMembers, membersOf, List.filter_filter]
  refine List.filter_congr fun m _ => ?_
  simp [Bool.and_comm]

/-- Members are written between commas and read back. -/
theorem membersOf_intercalate (hset : ∀ m ∈ ms, m ≠ []) (hcomma : ∀ m ∈ ms, ',' ∉ m) :
    membersOf (List.intercalate [','] ms) = ms := by
  cases ms with
  | nil => rfl
  | cons m ms =>
    have hfields : (List.intercalate [','] (m :: ms)).splitOn ',' = m :: ms :=
      Records.fields_record (List.cons_ne_nil _ _) hcomma
    rw [membersOf, hfields, List.filter_eq_self]
    exact fun m hm => decide_eq_true (hset m hm)

theorem joined_eq (user : ResolvedUser) (entry : GroupEntry) :
    joined user entry = entry.members.filter (· ≠ placeholderName) ++
      if entry.name ∈ user.groups ∧ user.name ∉ entry.members then [user.name] else [] := by
  simp [joined]

/-- The new members of a group. -/
theorem newMembers_eq (h : user.name ≠ placeholderName) (c : Text) :
    newMembers user gname field = joined user ⟨gname, c, membersOf field⟩ := by
  have hmem : user.name ∈ otherMembers field ↔ user.name ∈ membersOf field := by
    rw [otherMembers_eq, List.mem_filter]
    exact and_iff_left (decide_eq_true h)
  simp only [newMembers, joined_eq, hmem, ← otherMembers_eq]
  split
  · rfl
  · exact (List.append_nil _).symm

theorem mem_newMembers (h : m ∈ newMembers user gname field) :
    m ∈ membersOf field ∨ m = user.name := by
  have hother : ∀ m ∈ otherMembers field, m ∈ membersOf field := by
    intro m hm
    rw [otherMembers_eq] at hm
    exact (List.mem_filter.mp hm).1
  simp only [newMembers] at h
  split at h
  · rcases List.mem_append.mp h with h | h
    · exact .inl (hother m h)
    · exact .inr (List.mem_singleton.mp h)
  · exact .inl (hother m h)

theorem mem_membersOf (h : m ∈ membersOf field) : m ≠ [] ∧ ',' ∉ m := by
  obtain ⟨hm, hset⟩ := List.mem_filter.mp h
  exact ⟨of_decide_eq_true hset, Records.free_of_mem_fields hm⟩

/-- The new members are read back. -/
theorem membersOf_newMembers (hname : NameOk user.name) :
    membersOf (List.intercalate [','] (newMembers user gname field)) =
      newMembers user gname field := by
  refine membersOf_intercalate (fun m hm => ?_) fun m hm => ?_
  · rcases mem_newMembers hm with hm | rfl
    · exact (mem_membersOf hm).1
    · exact hname.set
  · rcases mem_newMembers hm with hm | rfl
    · exact (mem_membersOf hm).2
    · exact free_of_nameOk hname (by decide)

/-- The line that is written for a line. -/
def newLine (user : ResolvedUser) (line : Text) : Text :=
  if isPlaceholderGroup line then record ':' (groupFields user) else groupLine user line

/-- **What one line becomes.** -/
theorem groupEntry_line (hname : NameOk user.name) (hnew : user.name ≠ placeholderName)
    (hline : (fields ':' line).length = 4) :
    ∃ entry entry', groupEntry line = some entry ∧ groupEntry (newLine user line) = some entry' ∧
      Regrouped user entry entry' := by
  obtain ⟨a, b, c, d, hcut, hd, -⟩ := group_fields hline
  obtain ⟨-, ha, hb, hc⟩ := Records.splitN_four hcut
  have hfields : fields ':' line = [a, b, c, d] := (Records.splitN_of_length hline).symm.trans hcut
  have hcolon : ':' ∉ user.name := free_of_nameOk hname (by decide)
  rw [newLine, isPlaceholderGroup_four hcut]
  by_cases hold : a = placeholderName
  · have hwritten : fields ':' (record ':' (groupFields user)) = groupFields user := by
      refine Records.fields_record (List.cons_ne_nil _ _) ?_
      simp only [groupFields, List.forall_mem_cons]
      exact ⟨hcolon, by decide, not_mem_decimal (by decide), by decide, List.forall_mem_nil _⟩
    rw [if_pos (decide_eq_true hold)]
    refine ⟨_, _, groupEntry_four hfields, groupEntry_four hwritten, ?_⟩
    rw [Regrouped, if_pos hold]
    exact ⟨rfl, rfl⟩
  · have hwritten : fields ':' (record ':'
        [a, b, c, List.intercalate [','] (newMembers user a d)]) =
        [a, b, c, List.intercalate [','] (newMembers user a d)] := by
      refine Records.fields_record (List.cons_ne_nil _ _) ?_
      simp only [List.forall_mem_cons]
      exact ⟨ha, hb, hc, not_mem_members (by decide) hd hcolon,
        List.forall_mem_nil _⟩
    rw [if_neg (by simpa using hold), groupLine_four hcut]
    refine ⟨_, _, groupEntry_four hfields, groupEntry_four hwritten, ?_⟩
    rw [Regrouped, if_neg hold, membersOf_newMembers hname, newMembers_eq hnew c]

variable {x : Char}

/-- Nothing but colons comes with the user's own line. -/
theorem not_mem_ownLine (hname : NameOk user.name) (hx : isNameChar x = false) (hcolon : x ≠ ':') :
    x ∉ record ':' (groupFields user) := by
  have hdigit : x.isDigit = false := by
    simp only [isNameChar, Bool.or_eq_false_iff] at hx
    exact hx.1.2
  have hletter : x ≠ 'x' := by
    rintro rfl
    exact absurd hx (by decide)
  refine not_mem_intercalate (by simpa using hcolon) ?_
  simp only [groupFields, List.forall_mem_cons]
  exact ⟨free_of_nameOk hname hx, by simpa using hletter, not_mem_decimal hdigit,
    List.not_mem_nil, List.forall_mem_nil _⟩

theorem not_mem_newLine (hname : NameOk user.name) (hx : isNameChar x = false) (hcolon : x ≠ ':')
    (hcomma : x ≠ ',') (hline : x ∉ line) : x ∉ newLine user line := by
  rw [newLine]
  split
  · exact not_mem_ownLine hname hx hcolon
  · exact not_mem_groupLine hcolon hcomma hline (free_of_nameOk hname hx)

end Line

/-! ### The file -/

section File

variable {user : ResolvedUser} {text raw : Text}

theorem mem_groupNames {name : Text} :
    name ∈ groupNames text ↔ ∃ entry ∈ groupEntries text, entry.name = name := List.mem_map

theorem GroupFile.any_placeholder (h : GroupFile raw) :
    (lines raw).any isPlaceholderGroup = true := by
  obtain ⟨entry, hentry, hold⟩ := mem_groupNames.mp h.placeholder
  obtain ⟨line, hline, hread⟩ := List.mem_filterMap.mp hentry
  obtain ⟨a, b, c, d, hcut, -, -⟩ := group_fields (h.arity line hline)
  have hfields := (Records.splitN_of_length (h.arity line hline)).symm.trans hcut
  rw [groupEntry_four hfields, Option.some.injEq] at hread
  refine List.any_eq_true.mpr ⟨line, hline, ?_⟩
  rw [isPlaceholderGroup_four hcut]
  exact decide_eq_true (by rw [← hold, ← hread])

/-- The lines of the new file. -/
theorem lines_groupText (h : GroupFile raw) (hname : NameOk user.name) :
    lines (groupText user raw) = (lines raw).map (newLine user) := by
  have hnewline : ∀ line ∈ (lines raw).map (newLine user), '\n' ∉ line := by
    intro line hline
    obtain ⟨old, hold, rfl⟩ := List.mem_map.mp hline
    exact not_mem_newLine hname (by decide) (by decide) (by decide) (mem_lines hold).1
  have hreturn : ∀ line ∈ (lines raw).map (newLine user), '\r' ∉ line := by
    intro line hline
    obtain ⟨old, hold, rfl⟩ := List.mem_map.mp hline
    exact not_mem_newLine hname (by decide) (by decide) (by decide) (h.plain old hold)
  rw [groupText, rewriteLines_eq, if_pos (.inr h.any_placeholder), List.append_nil]
  exact (lines_unlines hnewline).trans (map_chopReturn hreturn)

/-- **The groups of the new file**, one by one. -/
theorem entries_regrouped (h : GroupFile raw) (hname : NameOk user.name)
    (hnew : user.name ≠ placeholderName) :
    List.Forall₂ (Regrouped user) (groupEntries raw) (groupEntries (groupText user raw)) := by
  rw [groupEntries, groupEntries, lines_groupText h hname]
  have harity := h.arity
  generalize lines raw = ls at harity
  induction ls with
  | nil => exact .nil
  | cons line ls ih =>
    obtain ⟨hline, hls⟩ := List.forall_mem_cons.mp harity
    obtain ⟨entry, entry', hread, hread', hentry⟩ := groupEntry_line hname hnew hline
    rw [List.map_cons, List.filterMap_cons_some hread, List.filterMap_cons_some hread']
    exact .cons hentry (ih hls)

theorem exists_of_forall₂ {α β : Type} {R : α → β → Prop} {l : List α} {l' : List β}
    (h : List.Forall₂ R l l') : ∀ a ∈ l, ∃ b ∈ l', R a b := by
  induction h with
  | nil => exact fun _ ha => absurd ha List.not_mem_nil
  | cons hab _ ih =>
    intro a ha
    rcases List.mem_cons.mp ha with rfl | ha
    · exact ⟨_, List.mem_cons_self, hab⟩
    · obtain ⟨b, hb, hR⟩ := ih a ha
      exact ⟨b, List.mem_cons_of_mem _ hb, hR⟩

theorem Regrouped.name {entry entry' : GroupEntry} (h : Regrouped user entry entry') :
    entry'.name = if entry.name = placeholderName then user.name else entry.name := by
  rw [Regrouped] at h
  split at h
  case isTrue hold => rw [if_pos hold, h.1]
  case isFalse hold => rw [if_neg hold, h]

/-- Whoever asked for a group of the new file is in it. -/
theorem Regrouped.member {entry entry' : GroupEntry} (h : Regrouped user entry entry')
    (hnew : user.name ≠ placeholderName) (hasked : entry'.name ∈ user.groups) :
    user.name ∈ entry'.members ∨ entry'.gid = decimal user.gid.toNat := by
  rw [Regrouped] at h
  split at h
  case isTrue => exact .inr h.2
  case isFalse =>
    rw [h] at hasked ⊢
    refine .inl ?_
    rw [joined_eq]
    by_cases hmem : user.name ∈ entry.members
    · exact List.mem_append_left _ (List.mem_filter.mpr ⟨hmem, decide_eq_true hnew⟩)
    · refine List.mem_append_right _ ?_
      rw [if_pos ⟨hasked, hmem⟩]
      exact List.mem_singleton_self _

/-- The groups of the new file are the user's own and the other ones of the old file. -/
theorem mem_groupNames_new (h : GroupFile raw) (hname : NameOk user.name)
    (hnew : user.name ≠ placeholderName) (group : Text) :
    group ∈ groupNames (groupText user raw) ↔
      group = user.name ∨ (group ∈ groupNames raw ∧ group ≠ placeholderName) := by
  have hentries := entries_regrouped h hname hnew
  constructor
  · intro hgroup
    obtain ⟨entry', hentry', rfl⟩ := mem_groupNames.mp hgroup
    obtain ⟨entry, hentry, hR⟩ : ∃ entry ∈ groupEntries raw, Regrouped user entry entry' :=
      exists_of_forall₂ hentries.flip entry' hentry'
    rw [hR.name]
    split
    case isTrue => exact .inl rfl
    case isFalse hother => exact .inr ⟨mem_groupNames.mpr ⟨entry, hentry, rfl⟩, hother⟩
  · have hkept : ∀ entry ∈ groupEntries raw,
        (if entry.name = placeholderName then user.name else entry.name) ∈
          groupNames (groupText user raw) := by
      intro entry hentry
      obtain ⟨entry', hentry', hR⟩ := exists_of_forall₂ hentries entry hentry
      exact mem_groupNames.mpr ⟨entry', hentry', hR.name⟩
    rintro (rfl | ⟨hgroup, hother⟩)
    · obtain ⟨entry, hentry, hold⟩ := mem_groupNames.mp h.placeholder
      have hown := hkept entry hentry
      rwa [if_pos hold] at hown
    · obtain ⟨entry, hentry, rfl⟩ := mem_groupNames.mp hgroup
      have hown := hkept entry hentry
      rwa [if_neg hother] at hown

/-- Being in a group that was asked for is a matter of the group being there. -/
theorem isMember_iff (h : GroupFile raw) (hname : NameOk user.name)
    (hnew : user.name ≠ placeholderName) {group : Text} (hasked : group ∈ user.groups) :
    IsMember user group (groupText user raw) ↔ group ∈ groupNames (groupText user raw) := by
  constructor
  · rintro ⟨entry', hentry', rfl, -⟩
    exact mem_groupNames.mpr ⟨entry', hentry', rfl⟩
  · intro hgroup
    obtain ⟨entry', hentry', rfl⟩ := mem_groupNames.mp hgroup
    obtain ⟨entry, -, hR⟩ : ∃ entry ∈ groupEntries raw, Regrouped user entry entry' :=
      exists_of_forall₂ (entries_regrouped h hname hnew).flip entry' hentry'
    exact ⟨entry', hentry', rfl, hR.member hnew hasked⟩

/-- The text of the new file. -/
theorem contents_group {root : Text} {tree tree' : FileTree}
    (h : rewriteGroup root user tree = .ok tree') :
    contents root groupPath tree' = groupText user (contents root groupPath tree) := by
  obtain ⟨raw, hraw, htext⟩ := editFile_text h
  rw [contents_of_text hraw, contents_of_text htext]

/-- **The group file after the rewrite**: the groups are what they have to be, and the user is in
every group that was asked for when each of them is the user's own or another one of the file. -/
theorem joined_iff {root : Text} {tree tree' : FileTree}
    (hfile : GroupFile (contents root groupPath tree)) (hname : NameOk user.name)
    (hfree : user.name ∉ groupNames (contents root groupPath tree))
    (hok : rewriteGroup root user tree = .ok tree') :
    Joined user (contents root groupPath tree) (contents root groupPath tree') ↔
      ∀ group ∈ user.groups, group = user.name ∨
        (group ∈ groupNames (contents root groupPath tree) ∧ group ≠ placeholderName) := by
  have hnew : user.name ≠ placeholderName := fun heq => hfree (heq ▸ hfile.placeholder)
  rw [contents_group hok]
  constructor
  · intro h group hasked
    rw [← mem_groupNames_new hfile hname hnew, ← isMember_iff hfile hname hnew hasked]
    exact h.member group hasked
  · intro h
    refine ⟨entries_regrouped hfile hname hnew, fun group hasked => ?_⟩
    rw [isMember_iff hfile hname hnew hasked, mem_groupNames_new hfile hname hnew]
    exact h group hasked

end File

/-! ### A group that is not there -/

/-- A user who asks for these groups. -/
def piIn (groups : List Text) : ResolvedUser where
  name := "pi".toList
  realName := "Pi".toList
  passwordHash := hashOne
  shell := defaultShell
  groups := groups
  uid := 1000
  gid := 1000

theorem groupFile_staged : GroupFile (contents mountPoint groupPath staged) := by
  rw [contents_staged.2.2]
  exact ⟨by decide +kernel, by decide +kernel, by decide +kernel⟩

theorem free_staged (groups : List Text) :
    (piIn groups).name ∉ groupNames (contents mountPoint groupPath staged) := by
  rw [contents_staged.2.2]
  exact of_decide_eq_true rfl

/-- The user asks for a group that the file does not have, and is not in it afterwards. -/
theorem docker_not_joined :
    ¬ ∀ (root : Text) (user : ResolvedUser) (tree tree' : FileTree),
      GroupFile (contents root groupPath tree) → NameOk user.name →
      user.name ∉ groupNames (contents root groupPath tree) →
      rewriteGroup root user tree = .ok tree' →
      Joined user (contents root groupPath tree) (contents root groupPath tree') := by
  intro h
  have hok : (rewriteGroup mountPoint (piIn ["docker".toList]) staged).isOk = true := by
    decide +kernel
  obtain ⟨tree', hrewrite⟩ := exists_ok hok
  obtain ⟨entry, hentry, hdocker, -⟩ := (h mountPoint _ staged tree' groupFile_staged
    nameOk_pi (free_staged _) hrewrite).member _ (List.mem_singleton_self _)
  rw [contents_group hrewrite, contents_staged.2.2] at hentry
  have hnone : ∀ entry ∈ groupEntries (groupText (piIn ["docker".toList]) stagedGroup),
      entry.name ≠ "docker".toList := by
    decide +kernel
  exact hnone entry hentry hdocker

theorem joined_iff_audio : ∃ tree', rewriteGroup mountPoint (piIn ["audio".toList]) staged =
    .ok tree' ∧ Joined (piIn ["audio".toList]) (contents mountPoint groupPath staged)
      (contents mountPoint groupPath tree') := by
  have hok : (rewriteGroup mountPoint (piIn ["audio".toList]) staged).isOk = true := by
    decide +kernel
  obtain ⟨tree', hrewrite⟩ := exists_ok hok
  refine ⟨tree', hrewrite, (joined_iff groupFile_staged nameOk_pi (free_staged _)
    hrewrite).mpr fun group hgroup => .inr ?_⟩
  obtain rfl := List.mem_singleton.mp hgroup
  rw [contents_staged.2.2]
  decide +kernel

end Customize

end WriteonceOs.Installer
