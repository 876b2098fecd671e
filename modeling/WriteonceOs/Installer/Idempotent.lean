import WriteonceOs.Installer.Accounts

/-!
# The customisation run twice

A second run reads what the first one wrote.  Every rewriter knows what it has to replace by the
placeholder's name, so that it finds its own output again when the user has that name, and only
then.

* `rewriteLines_again`, `xinitrcText_again` — texts that are not changed a second time;
* `Settled` — a tree that no step changes, `apply_same`;
* `settled_of_apply` — a run for the placeholder's name leaves such a tree;
* `settles_iff` — when a second run leaves everything as it is.
-/

namespace WriteonceOs.Installer

open WriteonceOs.Library
open Paths (Place components)
open Records (record key splitN)
open WriteonceOs.Svc (isWhitespace)

namespace Customize

/-! ### Texts written twice -/

section Texts

variable {placeholder : Text → Bool} {own raw : Text} {other : Text → Text} {ls : List Text}

/-- **The loop over its own output**: the line that it wrote is replaced by itself. -/
theorem rewriteLines_again (hown : placeholder (chopReturn own) = true)
    (hother : ∀ l ∈ ls, placeholder l = false → chopReturn (other l) = other l ∧
      placeholder (other l) = false ∧ other (other l) = other l) :
    rewriteLines placeholder own other false
        ((rewriteLines placeholder own other false ls).map chopReturn) =
      rewriteLines placeholder own other false ls := by
  have hmem : own ∈ rewriteLines placeholder own other false ls := by
    rw [rewriteLines_eq]
    by_cases hany : ls.any placeholder = true
    · obtain ⟨l, hl, hp⟩ := List.any_eq_true.mp hany
      exact List.mem_append_left _ (List.mem_map.mpr ⟨l, hl, if_pos hp⟩)
    · rw [if_neg (by simpa using hany)]
      exact List.mem_append_right _ (List.mem_singleton_self own)
  have hline : ∀ l ∈ rewriteLines placeholder own other false ls,
      (if placeholder (chopReturn l) then own else other (chopReturn l)) = l := by
    intro l hl
    rw [rewriteLines_eq] at hl
    have hcases : l = own ∨ ∃ k ∈ ls, placeholder k = false ∧ l = other k := by
      rcases List.mem_append.mp hl with hl | hl
      · obtain ⟨k, hk, rfl⟩ := List.mem_map.mp hl
        split
        case isTrue => exact .inl rfl
        case isFalse hp => exact .inr ⟨k, hk, by simpa using hp, rfl⟩
      · split at hl
        · cases hl
        · exact .inl (List.mem_singleton.mp hl)
    rcases hcases with rfl | ⟨k, hk, hp, rfl⟩
    · exact if_pos hown
    · obtain ⟨hchop, hnot, hsame⟩ := hother k hk hp
      rw [hchop, if_neg (by simp [hnot]), hsame]
  rw [rewriteLines_eq, if_pos, List.append_nil, List.map_map]
  · exact (List.map_congr_left hline).trans (List.map_id _)
  · refine .inr (List.any_eq_true.mpr ⟨chopReturn own, ?_, hown⟩)
    exact List.mem_map_of_mem hmem

theorem newline_not_mem_rewriteLines (hown : '\n' ∉ own) (hother : ∀ l ∈ ls, '\n' ∉ other l)
    {l : Text} (hl : l ∈ rewriteLines placeholder own other false ls) : '\n' ∉ l := by
  rw [rewriteLines_eq] at hl
  rcases List.mem_append.mp hl with hl | hl
  · obtain ⟨k, hk, rfl⟩ := List.mem_map.mp hl
    split
    · exact hown
    · exact hother k hk
  · split at hl
    · cases hl
    · rwa [List.mem_singleton.mp hl]

/-- Lines of a text without carriage returns have none. -/
theorem return_not_mem_lines (h : '\r' ∉ raw) {l : Text} (hl : l ∈ lines raw) : '\r' ∉ l :=
  fun hmem => h ((mem_lines hl).2 _ hmem)

/-- **An account file written twice**, for the placeholder's own name. -/
theorem accountText_again {fs : List Text}
    (hfs : ∃ b rest, fs = placeholderName :: b :: rest) (hnewline : ∀ f ∈ fs, '\n' ∉ f)
    (hraw : '\r' ∉ raw) :
    let text (s : Text) := unlines (rewriteLines isPlaceholder (record ':' fs) id false (lines s))
    text (text raw) = text raw := by
  intro text
  have hown : '\n' ∉ record ':' fs := not_mem_intercalate (by decide) hnewline
  have hread : lines (text raw) = (rewriteLines isPlaceholder (record ':' fs) id false
      (lines raw)).map chopReturn :=
    lines_unlines fun l hl =>
      newline_not_mem_rewriteLines hown (fun l hl => (mem_lines hl).1) hl
  show unlines (rewriteLines _ _ _ _ (lines (text raw))) = _
  obtain ⟨b, rest, hfs⟩ := hfs
  rw [hread, rewriteLines_again]
  · rw [isPlaceholder, List.isPrefixOf_iff_prefix, prefix_chopReturn (by decide), hfs, record,
      List.intercalate_cons_cons]
    exact List.prefix_append _ _
  · intro l hl hp
    exact ⟨chopReturn_of_not_mem (return_not_mem_lines hraw hl), hp, rfl⟩

variable {user : ResolvedUser}

/-- The members are found again without the placeholder. -/
theorem otherMembers_again (hname : user.name = placeholderName) (gname members : Text) :
    otherMembers (List.intercalate [','] (newMembers user gname members)) =
      otherMembers members := by
  have hfree : ∀ m ∈ newMembers user gname members, ',' ∉ m := by
    intro m hm
    have hother : ∀ m ∈ otherMembers members, ',' ∉ m :=
      fun m hm => Records.free_of_mem_fields (List.mem_filter.mp hm).1
    unfold newMembers at hm
    simp only at hm
    split at hm
    · rcases List.mem_append.mp hm with hm | hm
      · exact hother m hm
      · rw [List.mem_singleton.mp hm, hname]
        decide
    · exact hother m hm
  have hfilter : (newMembers user gname members).filter (fun m => m ≠ [] ∧ m ≠ placeholderName) =
      otherMembers members := by
    have hself : (otherMembers members).filter (fun m => m ≠ [] ∧ m ≠ placeholderName) =
        otherMembers members := by
      rw [otherMembers, List.filter_filter]
      simp only [Bool.and_self]
    unfold newMembers
    simp only
    split
    · rw [List.filter_append, hself, hname]
      simp
    · exact hself
  by_cases hnil : newMembers user gname members = []
  · rw [hnil] at hfilter ⊢
    rw [← hfilter]
    decide
  · rw [otherMembers, List.splitOn_intercalate _ hfree hnil]
    exact hfilter

theorem newMembers_congr {gname m m' : Text} (h : otherMembers m = otherMembers m') :
    newMembers user gname m = newMembers user gname m' := by
  unfold newMembers
  simp only [h]

theorem groupLine_again (hname : user.name = placeholderName) (l : Text) :
    groupLine user (groupLine user l) = groupLine user l ∧
      isPlaceholderGroup (groupLine user l) = isPlaceholderGroup l := by
  rcases groupLine_cases user l with ⟨a, b, c, d, h⟩ | ⟨h, -⟩
  · obtain ⟨-, ha, hb, hc⟩ := Records.splitN_four h
    have hcut := Records.splitN_record ha hb hc
      (List.intercalate [','] (newMembers user a d))
    rw [groupLine_four h]
    refine ⟨?_, by rw [isPlaceholderGroup_four hcut, isPlaceholderGroup_four h]⟩
    have hmembers : newMembers user a (List.intercalate [','] (newMembers user a d)) =
        newMembers user a d := newMembers_congr (otherMembers_again hname a d)
    rw [groupLine_four hcut, hmembers]
  · rw [h]
    exact ⟨h, rfl⟩

/-- **The group file written twice**, for the placeholder's own name. -/
theorem groupText_again (hname : user.name = placeholderName) (hraw : '\r' ∉ raw) :
    groupText user (groupText user raw) = groupText user raw := by
  have hfields : ∀ f ∈ groupFields user, '\n' ∉ f ∧ '\r' ∉ f ∧ ':' ∉ f := by
    simp only [groupFields, hname, List.forall_mem_cons]
    exact ⟨by decide, by decide, ⟨not_mem_decimal (by decide), not_mem_decimal (by decide),
      not_mem_decimal (by decide)⟩, by decide, List.forall_mem_nil _⟩
  have hown : '\n' ∉ record ':' (groupFields user) :=
    not_mem_intercalate (by decide) fun f hf => (hfields f hf).1
  have hread : lines (groupText user raw) =
      (rewriteLines isPlaceholderGroup (record ':' (groupFields user)) (groupLine user) false
        (lines raw)).map chopReturn :=
    lines_unlines fun l hl => newline_not_mem_rewriteLines hown
      (fun l hl => not_mem_groupLine (by decide) (by decide) (mem_lines hl).1
        (by rw [hname]; decide)) hl
  show unlines (rewriteLines _ _ _ _ (lines (groupText user raw))) = _
  rw [hread, rewriteLines_again]
  · rfl
  · have hreturn : '\r' ∉ record ':' (groupFields user) :=
      not_mem_intercalate (by decide) fun f hf => (hfields f hf).2.1
    have hcolon (f : Text) (hf : f ∈ groupFields user) : ':' ∉ f := (hfields f hf).2.2
    have hcut := Records.splitN_record (hcolon user.name (by simp [groupFields]))
      (hcolon ['x'] (by simp [groupFields])) (hcolon (decimal user.gid.toNat)
      (by simp [groupFields])) []
    rw [chopReturn_of_not_mem hreturn]
    refine (isPlaceholderGroup_four hcut).trans ?_
    rw [hname]
    rfl
  · intro l hl hp
    obtain ⟨hsame, hgroup⟩ := groupLine_again hname l
    refine ⟨chopReturn_of_not_mem ?_, hgroup.trans hp, hsame⟩
    exact not_mem_groupLine (by decide) (by decide) (return_not_mem_lines hraw hl)
      (by rw [hname]; decide)

/-! ### The keyboard layout -/

theorem intercalate_newline {ls : List Text} (hne : ls ≠ []) :
    List.intercalate ['\n'] ls ++ ['\n'] = unlines ls := by
  induction ls with
  | nil => exact absurd rfl hne
  | cons l ls ih =>
    cases ls with
    | nil => simp
    | cons k ls =>
      rw [List.intercalate_cons_cons, List.append_assoc, List.append_assoc,
        ih (List.cons_ne_nil k ls), unlines_cons l]
      rfl

theorem setxkb_begins (keyboard : ResolvedKeyboard) : setxkbmapPrefix <+: setxkb keyboard := by
  unfold setxkb
  split
  · rw [List.append_assoc, List.append_assoc, List.append_assoc]
    exact List.prefix_append _ _
  · exact List.prefix_append _ _

/-- A line that begins with the command is recognised. -/
theorem isSetxkbmap_of_begins {line : Text} (h : setxkbmapPrefix <+: line) :
    isSetxkbmap line = true := by
  obtain ⟨rest, rfl⟩ := h
  have hhead : (setxkbmapPrefix ++ rest).dropWhile isWhitespace = setxkbmapPrefix ++ rest := by
    show List.dropWhile isWhitespace ('s' :: ("etxkbmap ".toList ++ rest)) = _
    rw [List.dropWhile_cons_of_neg (by decide)]
    rfl
  rw [isSetxkbmap, hhead]
  exact List.isPrefixOf_iff_prefix.mpr (List.prefix_append _ _)

/-- **The script written twice.** -/
theorem xinitrcText_again {keyboard : ResolvedKeyboard} (hsetxkb : '\n' ∉ setxkb keyboard)
    (hraw : '\r' ∉ raw) :
    xinitrcText keyboard (xinitrcText keyboard raw) = xinitrcText keyboard raw := by
  by_cases hnil : lines raw = []
  · unfold xinitrcText
    rw [hnil]
    rfl
  · let patch (l : Text) : Text := if isSetxkbmap l then setxkb keyboard else l
    have htext (s : Text) (hs : lines s ≠ []) :
        xinitrcText keyboard s = unlines ((lines s).map patch) :=
      intercalate_newline fun h => hs (List.map_eq_nil_iff.mp h)
    have hread : lines (xinitrcText keyboard raw) = ((lines raw).map patch).map chopReturn := by
      rw [htext raw hnil]
      refine lines_unlines fun l hl => ?_
      obtain ⟨k, hk, rfl⟩ := List.mem_map.mp hl
      show '\n' ∉ if isSetxkbmap k then setxkb keyboard else k
      split
      · exact hsetxkb
      · exact (mem_lines hk).1
    have hagain : (lines (xinitrcText keyboard raw)).map patch = (lines raw).map patch := by
      rw [hread, List.map_map, List.map_map]
      refine List.map_congr_left fun l hl => ?_
      show (if isSetxkbmap (chopReturn (patch l)) then _ else chopReturn (patch l)) = patch l
      by_cases hl' : isSetxkbmap l = true
      · have hpatch : patch l = setxkb keyboard := if_pos hl'
        have hprefix := (prefix_chopReturn (by decide)).mpr (setxkb_begins keyboard)
        rw [hpatch, if_pos (isSetxkbmap_of_begins hprefix)]
      · have hpatch : patch l = l := if_neg hl'
        rw [hpatch, chopReturn_of_not_mem (return_not_mem_lines hraw hl), if_neg hl']
    rw [htext (xinitrcText keyboard raw) (by rw [hread]; simpa using hnil), hagain,
      htext raw hnil]

end Texts

/-! ### Settled trees -/

section Settled

variable {root : Text} {day : ℕ} {plan : InstallationPlan} {tree tree' : FileTree}
  {path s : Text} {q : Place}

theorem fileAt_ne_nil (h : ∀ c ∈ components path, Paths.IsName c) (hne : components path ≠ []) :
    fileAt root path ≠ [] := by
  rw [fileAt_names h]
  simp [hne]

/-- A text that is there already is written. -/
theorem writeText_same (h : ∀ c ∈ components path, Paths.IsName c) (hne : components path ≠ [])
    (htext : tree.text (fileAt root path) = some s) : writeText root path s tree = some tree := by
  rw [writeText, find_fileAt h (FileTree.node_of_text htext)]
  exact FileTree.write_same (fileAt_ne_nil h hne) htext

/-- A file is edited that the change leaves as it is. -/
theorem editFile_same {e e' : Failure} {change : Text → Text}
    (h : ∀ c ∈ components path, Paths.IsName c) (hne : components path ≠ [])
    (htext : tree.text (fileAt root path) = some s) (hsame : change s = s) :
    editFile root path e e' change tree = .ok tree := by
  refine bind_eq_ok.mpr ⟨s, orFail_ok.mpr ?_, orFail_ok.mpr ?_⟩
  · rw [readText, find_fileAt h (FileTree.node_of_text htext)]
    exact htext
  · rw [hsame]
    exact writeText_same h hne htext

/-- What the steps for the network leave. -/
structure NetworkSettled (root : Text) (tree : FileTree) : Prop where
  enabled : tree.isDir (fileAt root enabledPath) = true
  stubs : ∀ unit ∈ networkUnits, tree.text (fileAt root (stubPath unit)) = some (stubText unit)
  target : tree.node (fileAt root defaultTargetPath) = none ∨
    tree.text (fileAt root defaultTargetPath) = some headlessText

/-- **A tree that a run does not change**, for the placeholder's name. -/
structure Settled (root : Text) (day : ℕ) (plan : InstallationPlan) (tree : FileTree) : Prop where
  passwd : ∃ s, tree.text (fileAt root passwdPath) = some s ∧ passwdText plan.user s = s
  shadow : ∃ s, tree.text (fileAt root shadowPath) = some s ∧ shadowText day plan.user s = s
  mode : (tree.node (fileAt root shadowPath)).map Node.mode = some 0o640
  group : ∃ s, tree.text (fileAt root groupPath) = some s ∧ groupText plan.user s = s
  home : tree.node (fileAt root skeletonPath) ≠ none
  owner : ∀ q n, fileAt root skeletonPath <+: q → tree.node q = some n →
    n.owner = (plan.user.uid, plan.user.gid)
  xinitrc : tree.node (fileAt root (xinitrcPath plan.user)) = none ∨
    ∃ s, tree.text (fileAt root (xinitrcPath plan.user)) = some s ∧
      xinitrcText plan.keyboard s = s
  vconsole : tree.text (fileAt root vconsolePath) = some (vconsoleText plan.keyboard)
  network : plan.network.enabledAtBoot = true → NetworkSettled root tree

theorem targetPath_placeholder (hname : plan.user.name = placeholderName) :
    targetPath plan.user = skeletonPath := by
  have hpath : "home/".toList ++ placeholderName = skeletonPath := by decide
  exact (congrArg ("home/".toList ++ ·) hname).trans hpath

theorem xinitrc_names (hname : plan.user.name = placeholderName) :
    ∀ c ∈ components (xinitrcPath plan.user), Paths.IsName c := by
  rw [components_xinitrc, targetPath_placeholder hname]
  decide

theorem networkUnits_names :
    ∀ unit ∈ networkUnits, (∀ c ∈ components (stubPath unit), Paths.IsName c) ∧
      components (stubPath unit) ≠ [] := by
  decide

theorem writeStubs_same {units : List Text} (hunits : ∀ unit ∈ units, unit ∈ networkUnits)
    (h : NetworkSettled root tree) : writeStubs root units tree = .ok tree := by
  induction units with
  | nil => rfl
  | cons unit units ih =>
    obtain ⟨hunit, hunits⟩ := List.forall_mem_cons.mp hunits
    obtain ⟨hnames, hne⟩ := networkUnits_names unit hunit
    exact bind_eq_ok.mpr ⟨tree, orFail_ok.mpr (writeText_same hnames hne (h.stubs unit hunit)),
      ih hunits⟩

theorem pathExists_of_none (h : tree.node (fileAt root path) = none) :
    tree.pathExists (base root) path = false := by
  unfold FileTree.pathExists
  cases hfind : tree.find (base root) path with
  | none => rfl
  | some p =>
    have hp : p = fileAt root path := FileTree.find_eq hfind
    simp [hp, h]

theorem retarget_same (h : NetworkSettled root tree) : retarget root tree = .ok tree := by
  unfold retarget
  split
  case isTrue => rfl
  case isFalse hexists =>
    rcases h.target with hnone | htext
    · exact absurd (pathExists_of_none hnone) hexists
    · exact orFail_ok.mpr (writeText_same (by decide) (by decide) htext)

theorem applyNetwork_same (h : NetworkSettled root tree) {network : ResolvedNetwork} :
    applyNetwork root network tree = .ok tree := by
  unfold applyNetwork
  split
  case isTrue => rfl
  case isFalse =>
    have hset : tree.node (fileAt root enabledPath) ≠ none := by
      intro hnone
      have hdir := h.enabled
      simp [FileTree.isDir, hnone] at hdir
    have hmake : tree.makeDirs (base root) enabledPath = some tree :=
      FileTree.makeDirsFrom_same (find_fileAt (by decide) hset) h.enabled
    exact bind_eq_ok.mpr ⟨tree, orFail_ok.mpr hmake, bind_eq_ok.mpr
      ⟨tree, writeStubs_same (fun _ hunit => hunit) h, retarget_same h⟩⟩

theorem pathExists_fileAt (h : ∀ c ∈ components path, Paths.IsName c)
    (hset : tree.node (fileAt root path) ≠ none) : tree.pathExists (base root) path = true := by
  rw [FileTree.pathExists, find_fileAt h hset]
  exact Option.isSome_iff_ne_none.mpr hset

theorem node_of_pathExists (h : ∀ c ∈ components path, Paths.IsName c)
    (hfalse : tree.pathExists (base root) path = false) : tree.node (fileAt root path) = none := by
  by_contra hset
  rw [pathExists_fileAt h hset] at hfalse
  cases hfalse

theorem renameHome_same (hname : plan.user.name = placeholderName)
    (h : Settled root day plan tree) : renameHome root plan.user tree = .ok tree := by
  have htarget := targetPath_placeholder hname
  refine bind_eq_ok.mpr ⟨tree, ?_, orFail_ok.mpr ?_⟩
  · unfold moveHome
    rw [pathExists_fileAt plain_skeleton.names h.home, if_neg (by simp), if_pos (by rw [htarget])]
  · rw [htarget, find_fileAt plain_skeleton.names h.home, Option.filter_some,
      if_pos (Option.isSome_iff_ne_none.mpr h.home)]
    exact congrArg some (FileTree.chown_same h.owner)

theorem patchXinitrc_same (hname : plan.user.name = placeholderName)
    (h : Settled root day plan tree) :
    patchXinitrc root plan.user plan.keyboard tree = .ok tree := by
  unfold patchXinitrc
  split
  case isTrue => rfl
  case isFalse hexists =>
    rcases h.xinitrc with hnone | ⟨s, htext, hsame⟩
    · exact absurd (pathExists_of_none hnone) hexists
    · refine editFile_same (xinitrc_names hname) ?_ htext hsame
      rw [components_xinitrc]
      simp

/-- **No step changes a settled tree.** -/
theorem apply_same (hname : plan.user.name = placeholderName) (h : Settled root day plan tree) :
    apply root day plan tree = .ok tree := by
  obtain ⟨passwd, hpasswd, hpasswd'⟩ := h.passwd
  obtain ⟨shadow, hshadow, hshadow'⟩ := h.shadow
  obtain ⟨group, hgroup, hgroup'⟩ := h.group
  have h₁ : rewritePasswd root plan.user tree = .ok tree :=
    editFile_same plain_passwd.names plain_passwd.ne_nil hpasswd hpasswd'
  have h₂ : rewriteShadow root day plan.user tree = .ok tree := by
    refine bind_eq_ok.mpr ⟨tree, editFile_same plain_shadow.names plain_shadow.ne_nil hshadow
      hshadow', ?_⟩
    unfold setMode
    rw [find_fileAt plain_shadow.names (FileTree.node_of_text hshadow)]
    exact congrArg Except.ok (FileTree.chmod_same h.mode)
  have h₃ : rewriteGroup root plan.user tree = .ok tree :=
    editFile_same plain_group.names plain_group.ne_nil hgroup hgroup'
  have h₆ : writeVconsoleConf root plan.keyboard tree = .ok tree :=
    orFail_ok.mpr (writeText_same (by decide) (by decide) h.vconsole)
  have h₇ : applyNetwork root plan.network tree = .ok tree := by
    cases hnetwork : plan.network.enabledAtBoot with
    | false => exact if_pos hnetwork
    | true => exact applyNetwork_same (h.network hnetwork)
  exact bind_eq_ok.mpr ⟨tree, h₁, bind_eq_ok.mpr ⟨tree, h₂, bind_eq_ok.mpr ⟨tree, h₃,
    bind_eq_ok.mpr ⟨tree, renameHome_same hname h, bind_eq_ok.mpr ⟨tree, patchXinitrc_same hname h,
    bind_eq_ok.mpr ⟨tree, h₆, h₇⟩⟩⟩⟩⟩⟩

end Settled

/-! ### The first run -/

section FirstRun

variable {root : Text} {day : ℕ} {plan : InstallationPlan} {tree tree' : FileTree}
  {network : ResolvedNetwork} {s : Text} {q : Place}

/-- **The steps for the network change nothing else**, of what is there or lies elsewhere. -/
theorem applyNetwork_node (h : applyNetwork root network tree = .ok tree')
    (hstubs : ∀ unit ∈ networkUnits, q ≠ fileAt root (stubPath unit))
    (htarget : q ≠ fileAt root defaultTargetPath)
    (hq : tree.node q ≠ none ∨ ¬ q <+: fileAt root enabledPath) :
    tree'.node q = tree.node q := by
  obtain ⟨-, rfl⟩ | ⟨-, made, stubs, hmade, hwrite, h⟩ := applyNetwork_cases h
  · rfl
  · rw [retarget_other h htarget, writeStubs_other hwrite hstubs]
    rcases hq with hset | hapart
    · exact FileTree.makeDirsFrom_node hmade hset
    · have hnames : ∀ c ∈ components enabledPath, Paths.IsName c := by decide
      rw [fileAt_names hnames] at hapart
      exact FileTree.makeDirsFrom_other hnames hmade hapart

theorem Run.node_of_home (run : Run root day plan tree tree') (hq : Untouched root plan.user q)
    (hapart : run.home.node q ≠ none ∨ ¬ q <+: fileAt root enabledPath) :
    tree'.node q = run.home.node q := by
  have hvconsole : run.vconsole.node q = run.home.node q := by
    rw [writeText_other (orFail_ok.mp run.writeVconsole) hq.vconsole,
      patchXinitrc_other run.patchXinitrc hq.xinitrc]
  rw [← hvconsole] at hapart ⊢
  exact applyNetwork_node run.applyNetwork hq.stubs hq.target hapart

/-- The files for the network lie in `etc`, and not in a home directory. -/
theorem etc_apart (h : fileAt root skeletonPath <+: q) :
    q ≠ fileAt root vconsolePath ∧ (∀ unit ∈ networkUnits, q ≠ fileAt root (stubPath unit)) ∧
      q ≠ fileAt root defaultTargetPath ∧ ¬ q <+: fileAt root enabledPath := by
  have hskeleton : fileAt root skeletonPath = base root ++ components skeletonPath :=
    fileAt_names plain_skeleton.names
  have happart (path : Text) (hnames : ∀ c ∈ components path, Paths.IsName c)
      (hetc : ¬ components skeletonPath <+: components path) : ¬ q <+: fileAt root path := by
    intro hprefix
    have hall := h.trans hprefix
    rw [hskeleton, fileAt_names hnames, List.prefix_append_right_inj] at hall
    exact hetc hall
  have hne (path : Text) (hnames : ∀ c ∈ components path, Paths.IsName c)
      (hetc : ¬ components skeletonPath <+: components path) : q ≠ fileAt root path := by
    rintro rfl
    exact happart path hnames hetc (List.prefix_refl _)
  have hunits : ∀ unit ∈ networkUnits,
      ¬ components skeletonPath <+: components (stubPath unit) := by decide
  exact ⟨hne _ (by decide) (by decide),
    fun unit hunit => hne _ (networkUnits_names unit hunit).1 (hunits unit hunit),
    hne _ (by decide) (by decide), happart _ (by decide) (by decide)⟩

section Placeholder

variable (run : Run root day plan tree tree') (hname : plan.user.name = placeholderName)

include hname

/-- For the placeholder's name, the home directory is made or stays where it is. -/
theorem moveHome_placeholder (h : moveHome root plan.user tree = .ok tree') :
    tree.makeDirs (base root) skeletonPath = some tree' ∨ tree' = tree := by
  have htarget := targetPath_placeholder hname
  rcases moveHome_cases h with h | ⟨-, rfl⟩ | h
  · exact .inl (htarget ▸ h)
  · exact .inr rfl
  · rw [htarget, FileTree.rename, if_pos rfl] at h
    exact .inr (Option.some.inj h).symm

include run

theorem Run.chown_placeholder :
    run.home = run.moved.chown (fileAt root skeletonPath) (plan.user.uid, plan.user.gid) := by
  rw [(chownRecursive_ok run.chown).2, targetPath_placeholder hname]

/-- What is there after the account files stays there until the owners change. -/
theorem Run.node_of_moved (hset : run.group.node q ≠ none) :
    run.moved.node q = run.group.node q := by
  rcases moveHome_placeholder hname run.moveHome with h | h
  · exact FileTree.makeDirsFrom_node h hset
  · rw [h]

theorem Run.text_of_home (hp : q ≠ fileAt root passwdPath) (hs : q ≠ fileAt root shadowPath)
    (hg : q ≠ fileAt root groupPath) : run.home.text q = tree.text q := by
  rw [run.chown_placeholder hname, FileTree.chown, FileTree.adjust_text,
    ← run.text_of_group hp hs hg]
  rcases moveHome_placeholder hname run.moveHome with h | h
  · exact FileTree.makeDirsFrom_text h
  · rw [h]

/-- The mode of the shadow file stays. -/
theorem Run.mode_shadow : (tree'.node (fileAt root shadowPath)).map Node.mode = some 0o640 := by
  obtain ⟨raw, -, htext⟩ := editFile_text run.editShadow
  have hedited := FileTree.node_of_text htext
  have hmode : (run.shadow.node (fileAt root shadowPath)).map Node.mode = some 0o640 := by
    rw [setMode_ok run.setMode]
    exact FileTree.chmod_mode hedited
  have hgroup : run.group.node (fileAt root shadowPath) =
      run.shadow.node (fileAt root shadowPath) :=
    editFile_other run.rewriteGroup (fileAt_ne plain_shadow.names plain_group.names (by decide))
  have hset : run.group.node (fileAt root shadowPath) ≠ none := by
    intro hnone
    rw [← hgroup, hnone] at hmode
    cases hmode
  have hapart : ¬ fileAt root skeletonPath <+: fileAt root shadowPath := by
    rw [fileAt_names plain_skeleton.names, fileAt_names plain_shadow.names,
      List.prefix_append_right_inj]
    decide
  have hhome : run.home.node (fileAt root shadowPath) =
      run.group.node (fileAt root shadowPath) := by
    rw [run.chown_placeholder hname, FileTree.chown_other hapart, run.node_of_moved hname hset]
  rw [run.node_of_home plain_shadow.untouched (.inl (hhome ▸ hset)), hhome, hgroup, hmode]

/-- **Everything in the home directory belongs to the user.** -/
theorem Run.owner_home {n : Node} (hq : fileAt root skeletonPath <+: q)
    (hn : tree'.node q = some n) : n.owner = (plan.user.uid, plan.user.gid) := by
  have howner {n : Node} (hn : run.home.node q = some n) :
      n.owner = (plan.user.uid, plan.user.gid) := by
    rw [run.chown_placeholder hname] at hn
    exact FileTree.chown_owner hq hn
  obtain ⟨hvconsole, hstubs, htarget, hapart⟩ := etc_apart hq
  have hafter : tree'.node q = run.xinitrc.node q := by
    rw [applyNetwork_node run.applyNetwork hstubs htarget (.inr hapart),
      writeText_other (orFail_ok.mp run.writeVconsole) hvconsole]
  rw [hafter] at hn
  by_cases hxinitrc : q = fileAt root (xinitrcPath plan.user)
  · obtain ⟨-, hsame⟩ | ⟨raw, htext, hwrite⟩ := patchXinitrc_cases run.patchXinitrc
    · rw [hsame] at hn
      exact howner hn
    · rw [← hxinitrc] at htext hwrite
      obtain ⟨m, hm⟩ := Option.ne_none_iff_exists'.mp (FileTree.node_of_text htext)
      rw [FileTree.write_node hwrite hm] at hn
      rw [← Option.some.inj hn]
      show m.owner = _
      exact howner hm
  · rw [patchXinitrc_other run.patchXinitrc hxinitrc] at hn
    exact howner hn

theorem Run.home_exists : tree'.node (fileAt root skeletonPath) ≠ none := by
  obtain ⟨p, hp, hhome⟩ := Option.map_eq_some_iff.mp (orFail_ok.mp run.chown)
  obtain ⟨hfind, hset⟩ := Option.filter_eq_some_iff.mp hp
  have heq : p = fileAt root (targetPath plan.user) := FileTree.find_eq hfind
  rw [heq, targetPath_placeholder hname] at hset
  have hnode : run.home.node (fileAt root skeletonPath) ≠ none := by
    obtain ⟨n, hn⟩ := Option.isSome_iff_exists.mp hset
    rw [run.chown_placeholder hname]
    show (run.moved.node _).map _ ≠ none
    rw [hn]
    exact nofun
  rw [run.node_of_home plain_skeleton.untouched (.inl hnode)]
  exact hnode

theorem Run.xinitrc_settled (hsetxkb : '\n' ∉ setxkb plan.keyboard)
    (hraw : ∀ s, tree.text (fileAt root (xinitrcPath plan.user)) = some s → '\r' ∉ s) :
    tree'.node (fileAt root (xinitrcPath plan.user)) = none ∨
      ∃ s, tree'.text (fileAt root (xinitrcPath plan.user)) = some s ∧
        xinitrcText plan.keyboard s = s := by
  have hnames := xinitrc_names hname
  have hbelow : fileAt root skeletonPath <+: fileAt root (xinitrcPath plan.user) := by
    rw [fileAt_xinitrc, targetPath_placeholder hname]
    exact List.prefix_append _ _
  obtain ⟨hvconsole, hstubs, htarget, hapart⟩ := etc_apart hbelow
  have hafter : tree'.node (fileAt root (xinitrcPath plan.user)) =
      run.xinitrc.node (fileAt root (xinitrcPath plan.user)) := by
    rw [applyNetwork_node run.applyNetwork hstubs htarget (.inr hapart),
      writeText_other (orFail_ok.mp run.writeVconsole) hvconsole]
  rw [hafter, FileTree.text_of_node hafter]
  obtain ⟨hexists, hsame⟩ | ⟨raw, htext, hwrite⟩ := patchXinitrc_cases run.patchXinitrc
  · refine .inl ?_
    rw [hsame]
    exact node_of_pathExists hnames hexists
  · rw [run.text_of_home hname (fun heq => plain_passwd.untouched.xinitrc heq.symm)
      (fun heq => plain_shadow.untouched.xinitrc heq.symm)
      (fun heq => plain_group.untouched.xinitrc heq.symm)] at htext
    exact .inr ⟨_, FileTree.write_text hwrite, xinitrcText_again hsetxkb (hraw raw htext)⟩

end Placeholder

/-- **Every stub is written**, each to a file of its own. -/
theorem writeStubs_text {units : List Text} (hunits : ∀ unit ∈ units, unit ∈ networkUnits)
    (hnodup : units.Nodup) (h : writeStubs root units tree = .ok tree') {unit : Text}
    (hunit : unit ∈ units) : tree'.text (fileAt root (stubPath unit)) = some (stubText unit) := by
  have happart : ∀ u ∈ networkUnits, ∀ v ∈ networkUnits,
      components (stubPath u) = components (stubPath v) → u = v := by decide
  induction units generalizing tree with
  | nil => cases hunit
  | cons u units ih =>
    obtain ⟨hu, hrest⟩ := List.forall_mem_cons.mp hunits
    obtain ⟨hnot, hnodup⟩ := List.nodup_cons.mp hnodup
    obtain ⟨t, hwrite, hlater⟩ := bind_eq_ok.mp h
    rcases List.mem_cons.mp hunit with rfl | hunit
    · have hother : ∀ v ∈ units, fileAt root (stubPath unit) ≠ fileAt root (stubPath v) := by
        intro v hv
        refine fileAt_ne (networkUnits_names unit hu).1 (networkUnits_names v (hrest v hv)).1 ?_
        exact fun heq => hnot (happart unit hu v (hrest v hv) heq ▸ hv)
      rw [FileTree.text_of_node (writeStubs_other hlater hother)]
      exact FileTree.write_text (writeText_some (orFail_ok.mp hwrite)).2
    · exact ih hrest hnodup hlater hunit

/-- What the last step leaves of the network. -/
theorem networkSettled_of_apply (h : applyNetwork root network tree = .ok tree')
    (hon : network.enabledAtBoot = true) : NetworkSettled root tree' := by
  obtain ⟨hoff, -⟩ | ⟨-, made, stubs, hmade, hwrite, h⟩ := applyNetwork_cases h
  · rw [hon] at hoff
    cases hoff
  · have hdir : made.isDir (fileAt root enabledPath) = true :=
      (FileTree.makeDirsFrom_walk hmade).2
    have hset : made.node (fileAt root enabledPath) ≠ none := by
      intro hnone
      simp [FileTree.isDir, hnone] at hdir
    have happart : ∀ unit ∈ networkUnits, components enabledPath ≠ components (stubPath unit) ∧
        components (stubPath unit) ≠ components defaultTargetPath := by decide
    refine ⟨?_, ?_, ?_⟩
    · unfold FileTree.isDir at hdir ⊢
      rw [retarget_other h (fileAt_ne (by decide) (by decide) (by decide)),
        writeStubs_other hwrite fun unit hunit => fileAt_ne (by decide)
          (networkUnits_names unit hunit).1 (happart unit hunit).1]
      exact hdir
    · intro unit hunit
      rw [FileTree.text_of_node (retarget_other h (fileAt_ne (networkUnits_names unit hunit).1
        (by decide) (happart unit hunit).2))]
      exact writeStubs_text (fun _ h => h) (by decide) hwrite hunit
    · unfold retarget at h
      split at h
      case isTrue hexists =>
        refine .inl ?_
        rw [← Except.ok.inj h]
        exact node_of_pathExists (by decide) hexists
      case isFalse => exact .inr (FileTree.write_text (writeText_some (orFail_ok.mp h)).2)

end FirstRun

/-! ### The second run -/

section SecondRun

variable {root : Text} {day : ℕ} {plan : InstallationPlan} {tree tree' : FileTree}

/-- What is used of the skeleton that the build ships: a home directory of the placeholder, and
texts whose lines end in newlines alone. -/
structure Shipped (root : Text) (tree : FileTree) : Prop where
  home : tree.isDir (fileAt root skeletonPath) = true
  passwd : '\r' ∉ contents root passwdPath tree
  shadow : '\r' ∉ contents root shadowPath tree
  group : '\r' ∉ contents root groupPath tree
  xinitrc : '\r' ∉ contents root (skeletonPath ++ "/.xinitrc".toList) tree

/-- All texts of a plan. -/
def texts (plan : InstallationPlan) : List Text :=
  [plan.user.name, plan.user.realName, plan.user.passwordHash, plan.user.shell,
    plan.keyboard.layout] ++ plan.user.groups ++ plan.keyboard.variant.toList

/-- Texts that fit into a field. -/
def PlainTexts (plan : InstallationPlan) : Prop := ∀ t ∈ texts plan, ':' ∉ t ∧ '\n' ∉ t

instance (plan : InstallationPlan) : Decidable (PlainTexts plan) :=
  inferInstanceAs (Decidable (∀ t ∈ texts plan, ':' ∉ t ∧ '\n' ∉ t))

/-- **The same plan again, on the same day**: the run succeeds and every file is what it was. -/
def Settles (root : Text) (day : ℕ) (plan : InstallationPlan) (tree : FileTree) : Prop :=
  ∃ again, apply root day plan tree = .ok again ∧ again.node = tree.node

theorem passwdFields_newline (h : PlainTexts plan) : ∀ f ∈ passwdFields plan.user, '\n' ∉ f := by
  have hname := (h plan.user.name (by simp [texts])).2
  have hhome : '\n' ∉ "/home/".toList ++ plan.user.name := by
    rw [List.mem_append, not_or]
    exact ⟨by decide, hname⟩
  have hdigits (n : ℕ) : '\n' ∉ decimal n := not_mem_decimal (by decide)
  simp only [passwdFields, List.forall_mem_cons]
  exact ⟨hname, by decide, hdigits _, hdigits _, (h plan.user.realName (by simp [texts])).2,
    hhome, (h plan.user.shell (by simp [texts])).2, List.forall_mem_nil _⟩

theorem shadowFields_newline (h : PlainTexts plan) :
    ∀ f ∈ shadowFields day plan.user, '\n' ∉ f := by
  have hdigits (n : ℕ) : '\n' ∉ decimal n := not_mem_decimal (by decide)
  simp only [shadowFields, List.forall_mem_cons]
  exact ⟨(h plan.user.name (by simp [texts])).2, (h plan.user.passwordHash (by simp [texts])).2,
    hdigits _, by decide, by decide, by decide, by decide, by decide, by decide,
    List.forall_mem_nil _⟩

theorem setxkb_newline (h : PlainTexts plan) : '\n' ∉ setxkb plan.keyboard := by
  have hlayout := (h plan.keyboard.layout (by simp [texts])).2
  unfold setxkb
  split
  case h_1 v hv =>
    have hvariant := (h v (by simp [texts, hv])).2
    simp only [List.mem_append, not_or]
    exact ⟨⟨⟨⟨by decide, by decide⟩, hlayout⟩, by decide⟩, hvariant⟩
  case h_2 =>
    rw [List.mem_append, not_or]
    exact ⟨by decide, hlayout⟩

/-- **A run for the placeholder's name leaves a settled tree.** -/
theorem settled_of_apply (hshipped : Shipped root tree) (htexts : PlainTexts plan)
    (h : apply root day plan tree = .ok tree') (hname : plan.user.name = placeholderName) :
    Settled root day plan tree' := by
  obtain ⟨run⟩ := apply_ok h
  have hhome : HomeIsFree root plan.user tree := .inr (by rw [hname]; decide)
  obtain ⟨passwd, hp, hp'⟩ := run.passwd_text hhome
  obtain ⟨shadow, hs, hs'⟩ := run.shadow_text hhome
  obtain ⟨group, hg, hg'⟩ := run.group_text hhome
  have hpasswd : ∃ b rest, passwdFields plan.user = placeholderName :: b :: rest :=
    ⟨['x'], (passwdFields plan.user).tail.tail, congrArg (· :: _) hname⟩
  have hshadow : ∃ b rest, shadowFields day plan.user = placeholderName :: b :: rest :=
    ⟨plan.user.passwordHash, (shadowFields day plan.user).tail.tail, congrArg (· :: _) hname⟩
  have hxinitrc : xinitrcPath plan.user = skeletonPath ++ "/.xinitrc".toList := by
    rw [xinitrcPath, targetPath_placeholder hname]
  refine ⟨⟨_, hp', ?_⟩, ⟨_, hs', ?_⟩, run.mode_shadow hname, ⟨_, hg', ?_⟩, run.home_exists hname,
    fun q n hq hn => run.owner_home hname hq hn, ?_, ?_, ?_⟩
  · exact accountText_again hpasswd (passwdFields_newline htexts)
      (contents_of_text hp ▸ hshipped.passwd)
  · exact accountText_again hshadow (shadowFields_newline htexts)
      (contents_of_text hs ▸ hshipped.shadow)
  · exact groupText_again hname (contents_of_text hg ▸ hshipped.group)
  · refine run.xinitrc_settled hname (setxkb_newline htexts) fun s htext => ?_
    rw [hxinitrc] at htext
    exact contents_of_text htext ▸ hshipped.xinitrc
  · have hwritten := FileTree.write_text (writeText_some (orFail_ok.mp run.writeVconsole)).2
    have happart : ∀ unit ∈ networkUnits,
        components vconsolePath ≠ components (stubPath unit) := by decide
    rw [← hwritten]
    exact FileTree.text_of_node (applyNetwork_node run.applyNetwork
      (fun unit hunit => fileAt_ne (by decide) (networkUnits_names unit hunit).1
        (happart unit hunit)) (fileAt_ne (by decide) (by decide) (by decide))
      (.inl (FileTree.node_of_text hwritten)))
  · exact networkSettled_of_apply run.applyNetwork

/-- **For another name the second run does not find the account**: it adds one more line. -/
theorem passwdText_grows {user : ResolvedUser} {raw : Text} (hne : user.name ≠ placeholderName)
    (hcolon : ':' ∉ user.name) (hnewline : ∀ f ∈ passwdFields user, '\n' ∉ f) :
    passwdText user (passwdText user raw) ≠ passwdText user raw := by
  have hown : '\n' ∉ record ':' (passwdFields user) := not_mem_intercalate (by decide) hnewline
  have hchop (l : Text) : isPlaceholder (chopReturn l) = isPlaceholder l := by
    rw [Bool.eq_iff_iff, isPlaceholder, isPlaceholder, List.isPrefixOf_iff_prefix,
      List.isPrefixOf_iff_prefix]
    exact prefix_chopReturn (by decide)
  have hnot : isPlaceholder (record ':' (passwdFields user)) = false := by
    rw [Bool.eq_false_iff]
    intro h
    have hkey : key ':' (record ':' (passwdFields user)) = user.name :=
      Records.key_record (List.cons_ne_nil _ _) hcolon
    exact hne (hkey.symm.trans (isPlaceholder_iff.mp h).2)
  have hread : lines (passwdText user raw) = (rewriteLines isPlaceholder
      (record ':' (passwdFields user)) id false (lines raw)).map chopReturn :=
    lines_unlines fun l hl =>
      newline_not_mem_rewriteLines hown (fun l hl => (mem_lines hl).1) hl
  have hnone : (lines (passwdText user raw)).any isPlaceholder = false := by
    rw [hread, List.any_map, List.any_eq_false]
    intro l hl
    show ¬ isPlaceholder (chopReturn l) = true
    rw [hchop]
    rw [rewriteLines_eq] at hl
    rcases List.mem_append.mp hl with hl | hl
    · obtain ⟨k, hk, rfl⟩ := List.mem_map.mp hl
      split
      · simp [hnot]
      · assumption
    · split at hl
      · cases hl
      · rw [List.mem_singleton.mp hl]
        simp [hnot]
  have htwice : passwdText user (passwdText user raw) =
      unlines (lines (passwdText user raw) ++ [record ':' (passwdFields user)]) := by
    show unlines (rewriteLines _ _ _ _ (lines (passwdText user raw))) = _
    rw [rewriteLines_eq, if_neg (by simp [hnone])]
    refine congrArg (fun ls => unlines (ls ++ [record ':' (passwdFields user)])) ?_
    refine (List.map_congr_left fun l hl => ?_).trans (List.map_id _)
    exact if_neg (List.any_eq_false.mp hnone l hl)
  intro heq
  have hlength := congrArg (fun t => (lines t).length) (htwice.symm.trans heq)
  rw [lines_unlines] at hlength
  · simp at hlength
  · intro l hl
    rcases List.mem_append.mp hl with hl | hl
    · exact (mem_lines hl).1
    · rwa [List.mem_singleton.mp hl]

/-- What a second run settles is the account with the placeholder's name. -/
theorem name_of_settles (hshipped : Shipped root tree) (htexts : PlainTexts plan)
    (h : apply root day plan tree = .ok tree') (hsettles : Settles root day plan tree') :
    plan.user.name = placeholderName := by
  by_contra hne
  obtain ⟨again, hagain, hnode⟩ := hsettles
  obtain ⟨run⟩ := apply_ok h
  obtain ⟨run'⟩ := apply_ok hagain
  have hnone : tree.text (fileAt root skeletonPath) = none := by
    have hdir := FileTree.isDir_iff.mp hshipped.home
    unfold FileTree.text
    rw [hdir]
  have hnone' : tree'.text (fileAt root skeletonPath) = none := by
    rw [run.text_of_moved plain_skeleton.untouched]
    refine moveHome_skeleton run.moveHome ?_
    rw [run.text_of_group (fileAt_ne plain_skeleton.names plain_passwd.names (by decide))
      (fileAt_ne plain_skeleton.names plain_shadow.names (by decide))
      (fileAt_ne plain_skeleton.names plain_group.names (by decide)), hnone]
  obtain ⟨raw, -, htext⟩ := run.passwd_text (.inl hnone)
  obtain ⟨raw', hraw', htext'⟩ := run'.passwd_text (.inl hnone')
  obtain rfl := Option.some.inj (hraw'.symm.trans htext)
  have hsame : again.text (fileAt root passwdPath) = tree'.text (fileAt root passwdPath) :=
    FileTree.text_of_node (congrFun hnode _)
  rw [htext, htext'] at hsame
  exact passwdText_grows hne (htexts _ (by simp [texts])).1 (passwdFields_newline htexts)
    (Option.some.inj hsame)

/-- **A second run leaves everything as it is exactly when the user has the placeholder's name.** -/
theorem settles_iff (hshipped : Shipped root tree) (htexts : PlainTexts plan)
    (h : apply root day plan tree = .ok tree') :
    Settles root day plan tree' ↔ plan.user.name = placeholderName := by
  constructor
  · exact name_of_settles hshipped htexts h
  · intro hname
    exact ⟨tree', apply_same hname (settled_of_apply hshipped htexts h hname), rfl⟩

end SecondRun

/-! ### Two users -/

theorem shipped_staged : Shipped mountPoint staged := by
  obtain ⟨hpasswd, hshadow, hgroup⟩ := contents_staged
  refine ⟨by decide +kernel, ?_, ?_, ?_, by decide +kernel⟩
  · rw [hpasswd]
    decide
  · rw [hshadow]
    decide
  · rw [hgroup]
    decide

/-- A user with a name of its own gets a second account. -/
theorem second_run_adds_account :
    Shipped mountPoint staged ∧ PlainTexts (planFor "pi".toList) ∧
      ∃ tree', apply mountPoint 19501 (planFor "pi".toList) staged = .ok tree' ∧
        ¬ Settles mountPoint 19501 (planFor "pi".toList) tree' := by
  have htexts : PlainTexts (planFor "pi".toList) := by decide +kernel
  have hok : (apply mountPoint 19501 (planFor "pi".toList) staged).isOk = true := by
    decide +kernel
  refine ⟨shipped_staged, htexts, ?_⟩
  obtain ⟨tree', happly⟩ := exists_ok hok
  refine ⟨tree', happly, fun hsettles => ?_⟩
  exact absurd (name_of_settles shipped_staged htexts happly hsettles) (by decide)

theorem settles_placeholder :
    ∃ tree', apply mountPoint 19501 (planFor placeholderName) staged = .ok tree' ∧
      Settles mountPoint 19501 (planFor placeholderName) tree' := by
  have hok : (apply mountPoint 19501 (planFor placeholderName) staged).isOk = true := by
    decide +kernel
  obtain ⟨tree', happly⟩ := exists_ok hok
  exact ⟨tree', happly, (settles_iff shipped_staged (by decide +kernel) happly).mpr rfl⟩

end Customize

end WriteonceOs.Installer
