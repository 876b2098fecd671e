import WriteonceOs.Boot.Init

/-!
# The parameters and the root file system

What the kernel is asked to mount as the real root, and what it is asked to execute there, against
the parameters of the command line.  The type, the access flags and the init path arrive; the mount
options are parsed and then dropped, and the mount is made without any.

* `mem_handOver` — the calls behind the mount;
* `switchAndExec_calls` — the mount in front of them;
* `root_mount_honours_iff` — when the parameters are honoured.
-/

namespace WriteonceOs.Boot

open WriteonceOs.Library

/-! ### What is asked for -/

/-- The call mounts something on `/sysroot`. -/
def Syscall.onSysroot : Syscall → Bool
  | .mount _ target _ _ _ => target == sysroot
  | _ => false

/-- The type of the root file system. -/
def documentedType (text : Text) : Text :=
  (lastValue "rootfstype=".toList text).getD "ext4".toList

/-- The mount options; a mount without data has none. -/
def documentedOptions (text : Text) : Text := (lastValue "rootflags=".toList text).getD []

def documentedInit (text : Text) : Text :=
  (lastValue "init=".toList text).getD "/sbin/writeonce-pid1".toList

/-- The calls between the mount and the `execve` that have to succeed. -/
def handOverCalls : List Syscall :=
  [.chdir sysroot, moveMount ".".toList "/".toList, .chroot ".".toList, .chdir "/".toList]

/-- The calls of a run do what the parameters say: the one mount on `/sysroot`, and the `execve`,
which is made unless a call before it fails. -/
structure Documented (text dev : Text) (kernel : Kernel) (calls : List Syscall) : Prop where
  mount : ∃ flags data,
    calls.filter Syscall.onSysroot =
      [.mount dev sysroot (some (documentedType text)) flags data] ∧
    (flags &&& msRdonly ≠ 0 ↔ lastAccess text = some "ro".toList) ∧ flags &&& msNoatime ≠ 0 ∧
    data.getD [] = documentedOptions text
  exec : ∀ path argv envp, .execve path argv envp ∈ calls →
    path = documentedInit text ∧ argv = [documentedInit text]
  last : (∀ call, call.onSysroot = true → kernel.Mounts call) →
    (∀ call ∈ handOverCalls, kernel call = none) →
    ∃ envp, calls.getLast? = some (.execve (documentedInit text) [documentedInit text] envp)

/-- A boot with a command line whose last `root=` is found, and no word for the recovery shell. -/
structure Resolves (m : Machine) (fuel : ℕ) (text dev : Text) : Prop where
  real : m.fake = false
  first : m.pid = 1
  normal : (words Svc.isWhitespace text).any isRecovery = false
  root : ∃ v said, lastValue "root=".toList text = some v ∧
    m.attempts.locateRoot fuel (parseRoot v) (rootwait text) = .returned (.ok dev) said
  -- the path of a file holds no NUL
  path : '\x00' ∉ dev

/-- Whatever the kernel answers behind the pseudo file systems, the calls are the documented ones;
and words that are no parameters make no difference. -/
structure Honours (m : Machine) (fuel : ℕ) (text dev : Text) : Prop where
  documented : ∀ kernel : Kernel, (∀ call ∈ pseudoMounts, kernel.Mounts call) →
    Documented text dev kernel (run m kernel fuel text).calls
  others : ∀ kernel text',
    (words Svc.isWhitespace text').filter isParameter =
      (words Svc.isWhitespace text).filter isParameter →
    run m kernel fuel text' = run m kernel fuel text

variable {m : Machine} {kernel : Kernel} {dirExists : Text → Bool} {fuel : ℕ}
  {text dev initPath : Text} {call : Syscall}

/-! ### The calls behind the mount -/

theorem mem_require {c : Syscall} {tolerated : Errno → Bool} {next : Ran}
    (h : call ∈ (require kernel c tolerated next).calls) : call = c ∨ call ∈ next.calls := by
  rw [require] at h
  split at h
  · exact List.mem_cons.mp h
  · split at h
    · exact List.mem_cons.mp h
    · exact Or.inl (List.mem_singleton.mp h)

theorem mem_moveMounts {ds : List Text} {next : Ran}
    (h : call ∈ (moveMounts dirExists ds next).calls) :
    (∃ d ∈ ds, call = moveMount d (sysroot ++ d)) ∨ call ∈ next.calls := by
  induction ds with
  | nil => exact Or.inr h
  | cons d ds ih =>
    have hrest : call ∈ (moveMounts dirExists ds next).calls →
        (∃ d' ∈ d :: ds, call = moveMount d' (sysroot ++ d')) ∨ call ∈ next.calls := by
      intro hmem
      rcases ih hmem with ⟨d', hd', rfl⟩ | hnext
      · exact Or.inl ⟨d', List.mem_cons_of_mem d hd', rfl⟩
      · exact Or.inr hnext
    rw [moveMounts] at h
    split at h
    · rcases List.mem_cons.mp h with rfl | h
      · exact Or.inl ⟨d, List.mem_cons_self, rfl⟩
      · exact hrest h
    · exact hrest h

theorem mem_exec (h : call ∈ (exec kernel initPath).calls) :
    call = .execve initPath [initPath] environment := by
  rw [exec] at h
  split at h
  · cases h
  · dsimp only at h
    split at h <;> exact List.mem_singleton.mp h

/-- **The calls behind the mount.** -/
theorem mem_handOver (h : call ∈ (handOver kernel dirExists initPath).calls) :
    (∃ d ∈ ["/proc".toList, "/sys".toList, "/dev".toList], call = moveMount d (sysroot ++ d)) ∨
      call ∈ handOverCalls ∨ call = .execve initPath [initPath] environment := by
  rcases mem_moveMounts h with hmove | h
  · exact Or.inl hmove
  refine Or.inr ?_
  rcases mem_require h with rfl | h
  · exact Or.inl (by simp [handOverCalls])
  rcases mem_require h with rfl | h
  · exact Or.inl (by simp [handOverCalls])
  rcases mem_require h with rfl | h
  · exact Or.inl (by simp [handOverCalls])
  rcases mem_require h with rfl | h
  · exact Or.inl (by simp [handOverCalls])
  · exact Or.inr (mem_exec h)

theorem handOver_not_onSysroot (h : call ∈ (handOver kernel dirExists initPath).calls) :
    call.onSysroot = false := by
  have hmoves : ∀ d ∈ ["/proc".toList, "/sys".toList, "/dev".toList],
      (moveMount d (sysroot ++ d)).onSysroot = false := by decide
  have hcalls : ∀ call ∈ handOverCalls, call.onSysroot = false := by decide
  rcases mem_handOver h with ⟨d, hd, rfl⟩ | hcall | rfl
  · exact hmoves d hd
  · exact hcalls call hcall
  · rfl

theorem moveMounts_calls (dirExists : Text → Bool) (ds : List Text) (next : Ran) :
    ∃ moves, (moveMounts dirExists ds next).calls = moves ++ next.calls := by
  induction ds with
  | nil => exact ⟨[], rfl⟩
  | cons d ds ih =>
    obtain ⟨moves, hmoves⟩ := ih
    rw [moveMounts]
    split
    · exact ⟨moveMount d (sysroot ++ d) :: moves, congrArg (_ :: ·) hmoves⟩
    · exact ⟨moves, hmoves⟩

theorem must_of_accepted (h : kernel call = none) (next : Ran) :
    must kernel call next = next.after call := by
  rw [must, require, h]

/-- When the calls on the way succeed, the last one is the `execve`, if the path is a C string. -/
theorem handOver_getLast (dirExists : Text → Bool) (initPath : Text)
    (h : ∀ call ∈ handOverCalls, kernel call = none) :
    (handOver kernel dirExists initPath).calls.getLast? =
      if '\x00' ∈ initPath then some (.chdir "/".toList)
      else some (.execve initPath [initPath] environment) := by
  have hmust : ∀ call ∈ handOverCalls, ∀ next, must kernel call next = next.after call :=
    fun call hcall => must_of_accepted (h call hcall)
  obtain ⟨moves, hmoves⟩ := moveMounts_calls dirExists
    ["/proc".toList, "/sys".toList, "/dev".toList]
    (((((exec kernel initPath).after (.chdir "/".toList)).after (.chroot ".".toList)).after
      (moveMount ".".toList "/".toList)).after (.chdir sysroot))
  rw [handOver, hmust _ (by simp [handOverCalls]), hmust _ (by simp [handOverCalls]),
    hmust _ (by simp [handOverCalls]), hmust _ (by simp [handOverCalls]), hmoves,
    List.getLast?_append]
  simp only [Ran.after, exec]
  split
  · rfl
  · split <;> rfl

/-! ### The mount -/

theorem mount_of_nul {source target fstype : Text} {flags : UInt64} {data : Option Text}
    {next : Ran} (h : '\x00' ∈ source ++ target ++ fstype ++ data.getD []) :
    (mount kernel source target fstype flags data next).calls = [] := by
  rw [mount, if_pos h]

/-- The call is made, and what follows it unless it fails. -/
theorem mount_calls (kernel : Kernel) {source target fstype : Text} (flags : UInt64)
    {data : Option Text} (next : Ran)
    (h : '\x00' ∉ source ++ target ++ fstype ++ data.getD []) :
    ∃ rest, (mount kernel source target fstype flags data next).calls =
        .mount source target (some fstype) flags data :: rest ∧ rest ⊆ next.calls ∧
      (kernel.Mounts (.mount source target (some fstype) flags data) → rest = next.calls) := by
  rw [mount, if_neg h]
  by_cases hmounts : kernel.Mounts (.mount source target (some fstype) flags data)
  · rw [require_of_mounts hmounts]
    exact ⟨next.calls, rfl, List.Subset.refl _, fun _ => rfl⟩
  · refine ⟨[], ?_, List.nil_subset _, fun h => absurd h hmounts⟩
    rw [require]
    split
    · rename_i hnone
      exact absurd (Or.inl hnone) hmounts
    · rename_i errno herrno
      have hne : ¬ (errno == ebusy) = true := by
        intro hbusy
        rw [beq_iff_eq.mp hbusy] at herrno
        exact hmounts (Or.inr herrno)
      rw [if_neg hne]
      rfl

/-! ### The parameters -/

/-- **The run mounts the device of the last `root=`** and hands over to the last `init=`. -/
theorem run_of_resolves (h : Resolves m fuel text dev)
    (hpseudo : ∀ call ∈ pseudoMounts, kernel.Mounts call) :
    (run m kernel fuel text).calls = pseudoMounts ++
      (switchAndExec kernel m.dirExists dev (documentedType text) (parse text).mountFlags
        (documentedInit text)).calls := by
  obtain ⟨v, said, hlast, hlocated⟩ := h.root
  have hspec : (parse text).rootSpec = some (parseRoot v) := by
    rw [parse_rootSpec_eq, hlast, Option.map_some]
  have hfind : findAndSwitch m kernel fuel (parse text) =
      switchAndExec kernel m.dirExists dev (documentedType text) (parse text).mountFlags
        (documentedInit text) := by
    rw [findAndSwitch_of_root hspec, rootwaitSecs_eq, hlocated, mountRoot, h.real,
      parse_rootfstype, parse_initPath]
    rfl
  rw [run_of_boots ⟨h.real, h.first, hpseudo⟩ h.normal, hfind]

theorem mountFlags_access (text : Text) :
    ((parse text).mountFlags &&& msRdonly ≠ 0 ↔ lastAccess text = some "ro".toList) ∧
      (parse text).mountFlags &&& msNoatime ≠ 0 := by
  rw [parse_mountFlags]
  by_cases h : lastAccess text = some "ro".toList
  · rw [if_pos h]
    exact ⟨iff_of_true (by decide) h, by decide⟩
  · rw [if_neg h]
    exact ⟨iff_of_false (by decide) h, by decide⟩

/-- The calls of a run whose texts are C strings, where no mount options are asked for. -/
theorem documented_of_texts (htype : '\x00' ∉ dev ++ sysroot ++ documentedType text)
    (hinit : '\x00' ∉ documentedInit text) (hoptions : documentedOptions text = []) :
    Documented text dev kernel (pseudoMounts ++
      (switchAndExec kernel dirExists dev (documentedType text) (parse text).mountFlags
        (documentedInit text)).calls) := by
  have htexts : '\x00' ∉ dev ++ sysroot ++ documentedType text ++
      (none : Option Text).getD [] := by
    rw [Option.getD_none, List.append_nil]
    exact htype
  obtain ⟨rest, hcalls, hsubset, hrest⟩ := mount_calls kernel (parse text).mountFlags
    (handOver kernel dirExists (documentedInit text)) htexts
  rw [switchAndExec, hcalls]
  refine ⟨⟨(parse text).mountFlags, none, ?_, (mountFlags_access text).1,
    (mountFlags_access text).2, hoptions.symm⟩, ?_, ?_⟩
  · have hpseudo : pseudoMounts.filter Syscall.onSysroot = [] := by decide
    have hempty : rest.filter Syscall.onSysroot = [] := by
      refine List.filter_eq_nil_iff.mpr fun call hcall => ?_
      rw [handOver_not_onSysroot (hsubset hcall)]
      exact Bool.false_ne_true
    rw [List.filter_append, hpseudo, List.nil_append, List.filter_cons_of_pos rfl, hempty]
  · intro path argv envp hmem
    rcases List.mem_append.mp hmem with hmem | hmem
    · simp [pseudoMounts] at hmem
    rcases List.mem_cons.mp hmem with heq | hmem
    · cases heq
    rcases mem_handOver (hsubset hmem) with ⟨d, -, heq⟩ | hcall | heq
    · cases heq
    · simp [handOverCalls, moveMount] at hcall
    · cases heq
      exact ⟨rfl, rfl⟩
  · intro hmounts hcalls
    have hlast := handOver_getLast dirExists (documentedInit text) hcalls
    rw [if_neg hinit] at hlast
    rw [hrest (hmounts _ rfl), List.getLast?_append, List.getLast?_cons, hlast]
    exact ⟨environment, rfl⟩

/-- **The parameters are honoured** exactly when no mount options are asked for, and, as it is on
a command line, the type and the init path are C strings. -/
theorem root_mount_honours_iff (h : Resolves m fuel text dev) :
    Honours m fuel text dev ↔ documentedOptions text = [] ∧
      '\x00' ∉ documentedType text ∧ '\x00' ∉ documentedInit text := by
  constructor
  · intro hhonours
    have hpseudo : ∀ call ∈ pseudoMounts, Kernel.Mounts (fun _ => none) call :=
      fun _ _ => Or.inl rfl
    obtain ⟨⟨flags, data, hfilter, -, -, hoptions⟩, -, hlast⟩ :=
      hhonours.documented (fun _ => none) hpseudo
    rw [run_of_resolves h hpseudo] at hfilter hlast
    have hpseudoFilter : pseudoMounts.filter Syscall.onSysroot = [] := by decide
    rw [List.filter_append, hpseudoFilter, List.nil_append] at hfilter
    have htype : '\x00' ∉ dev ++ sysroot ++ documentedType text ++
        (none : Option Text).getD [] := by
      intro hnul
      rw [switchAndExec, mount_of_nul hnul] at hfilter
      cases hfilter
    obtain ⟨rest, hcalls, -, hrest⟩ := mount_calls (fun _ => none) (parse text).mountFlags
      (handOver (fun _ => none) m.dirExists (documentedInit text)) htype
    rw [switchAndExec, hcalls] at hfilter hlast
    refine ⟨?_, ?_, ?_⟩
    · rw [List.filter_cons_of_pos rfl] at hfilter
      have hdata : none = data := (Syscall.mount.inj (List.cons.inj hfilter).1).2.2.2.2
      rw [← hoptions, ← hdata]
      rfl
    · intro hnul
      refine htype ?_
      rw [Option.getD_none, List.append_nil]
      exact List.mem_append_right _ hnul
    · intro hnul
      obtain ⟨envp, hexec⟩ := hlast (fun _ _ => Or.inl rfl) fun _ _ => rfl
      have hchdir := handOver_getLast m.dirExists (documentedInit text)
        (show ∀ call ∈ handOverCalls, (fun _ => none : Kernel) call = none from fun _ _ => rfl)
      rw [if_pos hnul] at hchdir
      rw [hrest (Or.inl rfl), List.getLast?_append, List.getLast?_cons, hchdir] at hexec
      cases hexec
  · intro hcond
    obtain ⟨hoptions, htype, hinit⟩ := hcond
    constructor
    · intro kernel hpseudo
      rw [run_of_resolves h hpseudo]
      refine documented_of_texts ?_ hinit hoptions
      intro hnul
      rcases List.mem_append.mp hnul with hnul | hnul
      · rcases List.mem_append.mp hnul with hnul | hnul
        · exact h.path hnul
        · exact absurd hnul (by decide)
      · exact htype hnul
    · intro kernel text' hwords
      rw [run, run, parse_congr hwords]

/-- A boot from a disk that is there, read-only, of type `ext4` and with the init of the image. -/
theorem root_mount_honours_iff_sda2 :
    Honours bootMachine 3 "root=/dev/sda2 ro rowdy quiet".toList "/dev/sda2".toList :=
  (root_mount_honours_iff ⟨rfl, rfl, by decide, ⟨"/dev/sda2".toList,
    [.waiting 30, .found 2 200], by decide, by decide +kernel⟩, by decide⟩).mpr (by decide)

/-- The options of the root mount never reach the kernel. -/
theorem rootflags_dropped :
    Resolves bootMachine 3 "root=/dev/sda2 rootflags=data=journal ro".toList
      "/dev/sda2".toList ∧
    ¬ Honours bootMachine 3 "root=/dev/sda2 rootflags=data=journal ro".toList
      "/dev/sda2".toList := by
  constructor
  · exact ⟨rfl, rfl, by decide, ⟨"/dev/sda2".toList, [.waiting 30, .found 2 200], by decide,
      by decide +kernel⟩, by decide⟩
  · intro h
    obtain ⟨⟨flags, data, hfilter, -, -, hoptions⟩, -, -⟩ :=
      h.documented (fun _ => none) fun _ _ => Or.inl rfl
    have hmount : (run bootMachine (fun _ => none) 3
        "root=/dev/sda2 rootflags=data=journal ro".toList).calls.filter Syscall.onSysroot =
          [.mount "/dev/sda2".toList sysroot (some "ext4".toList) 1025 none] := by decide +kernel
    rw [hmount] at hfilter
    have hdata : none = data := (Syscall.mount.inj (List.cons.inj hfilter).1).2.2.2.2
    rw [← hdata] at hoptions
    exact absurd hoptions (by decide)

end WriteonceOs.Boot
