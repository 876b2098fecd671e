import Mathlib.Data.List.Basic

/-!
# Credentials of a process

The user and group ids of a process and the calls that change them.  An effective user id of 0 may
set anything; everyone else may only move among the ids held already.  The id `2 ^ 32 - 1` stands
for one that a call leaves alone, and is refused where an id is needed.

* `setresuid_root`, `setresgid_root`, `setgroups_root` — the calls of a privileged process;
* `Settled.apply`, `Settled.applyAll` — three equal ids other than 0 are there to stay.
-/

namespace WriteonceOs.Library

/-- Real, effective and saved ids, and the supplementary groups. -/
structure Credentials where
  ruid : UInt32
  euid : UInt32
  suid : UInt32
  rgid : UInt32
  egid : UInt32
  sgid : UInt32
  groups : List UInt32
  deriving DecidableEq, Repr

namespace Credentials

/-- All three user ids, all three group ids. -/
def same (uid gid : UInt32) (groups : List UInt32) : Credentials :=
  ⟨uid, uid, uid, gid, gid, gid, groups⟩

/-- The argument `-1`. -/
def unchanged : UInt32 := 0xFFFFFFFF

def Privileged (c : Credentials) : Prop := c.euid = 0

instance (c : Credentials) : Decidable c.Privileged := inferInstanceAs (Decidable (c.euid = 0))

/-- The value of an id after a call was given `new` for it. -/
def update (old new : UInt32) : UInt32 := if new = unchanged then old else new

/-- Whether an unprivileged process that holds `held` may ask for `new`. -/
def Among (held : List UInt32) (new : UInt32) : Prop := new = unchanged ∨ new ∈ held

instance (held : List UInt32) (new : UInt32) : Decidable (Among held new) :=
  inferInstanceAs (Decidable (_ ∨ _))

inductive Call where
  | setuid (uid : UInt32)
  | setreuid (ruid euid : UInt32)
  | setresuid (ruid euid suid : UInt32)
  | setgid (gid : UInt32)
  | setregid (rgid egid : UInt32)
  | setresgid (rgid egid sgid : UInt32)
  | setgroups (groups : List UInt32)
  deriving DecidableEq, Repr

/-- The most supplementary groups that a process can have. -/
def ngroupsMax : ℕ := 65536

def setuid (c : Credentials) (uid : UInt32) : Option Credentials :=
  if uid = unchanged then none
  else if c.Privileged then some { c with ruid := uid, euid := uid, suid := uid }
  else if uid = c.ruid ∨ uid = c.suid then some { c with euid := uid }
  else none

def setreuid (c : Credentials) (ruid euid : UInt32) : Option Credentials :=
  if c.Privileged ∨ (Among [c.ruid, c.euid] ruid ∧ Among [c.ruid, c.euid, c.suid] euid) then
    let new := { c with ruid := update c.ruid ruid, euid := update c.euid euid }
    if ruid ≠ unchanged ∨ (euid ≠ unchanged ∧ euid ≠ c.ruid) then
      some { new with suid := new.euid }
    else some new
  else none

def setresuid (c : Credentials) (ruid euid suid : UInt32) : Option Credentials :=
  let held := [c.ruid, c.euid, c.suid]
  if c.Privileged ∨ (Among held ruid ∧ Among held euid ∧ Among held suid) then
    some { c with
      ruid := update c.ruid ruid, euid := update c.euid euid, suid := update c.suid suid }
  else none

def setgid (c : Credentials) (gid : UInt32) : Option Credentials :=
  if gid = unchanged then none
  else if c.Privileged then some { c with rgid := gid, egid := gid, sgid := gid }
  else if gid = c.rgid ∨ gid = c.sgid then some { c with egid := gid }
  else none

def setregid (c : Credentials) (rgid egid : UInt32) : Option Credentials :=
  if c.Privileged ∨ (Among [c.rgid, c.egid] rgid ∧ Among [c.rgid, c.egid, c.sgid] egid) then
    let new := { c with rgid := update c.rgid rgid, egid := update c.egid egid }
    if rgid ≠ unchanged ∨ (egid ≠ unchanged ∧ egid ≠ c.rgid) then
      some { new with sgid := new.egid }
    else some new
  else none

def setresgid (c : Credentials) (rgid egid sgid : UInt32) : Option Credentials :=
  let held := [c.rgid, c.egid, c.sgid]
  if c.Privileged ∨ (Among held rgid ∧ Among held egid ∧ Among held sgid) then
    some { c with
      rgid := update c.rgid rgid, egid := update c.egid egid, sgid := update c.sgid sgid }
  else none

def setgroups (c : Credentials) (groups : List UInt32) : Option Credentials :=
  if c.Privileged ∧ groups.length ≤ ngroupsMax ∧ unchanged ∉ groups then
    some { c with groups := groups }
  else none

/-- One call, with nothing if it is refused. -/
def apply (c : Credentials) : Call → Option Credentials
  | .setuid uid => c.setuid uid
  | .setreuid ruid euid => c.setreuid ruid euid
  | .setresuid ruid euid suid => c.setresuid ruid euid suid
  | .setgid gid => c.setgid gid
  | .setregid rgid egid => c.setregid rgid egid
  | .setresgid rgid egid sgid => c.setresgid rgid egid sgid
  | .setgroups groups => c.setgroups groups

/-- Calls one after the other; a refused one changes nothing. -/
def applyAll (c : Credentials) (calls : List Call) : Credentials :=
  calls.foldl (fun c call => (c.apply call).getD c) c

/-! ### A privileged process -/

variable {c c' : Credentials} {uid gid id : UInt32} {groups : List UInt32}

theorem setresuid_root (hc : c.Privileged) (hid : uid ≠ unchanged) :
    c.setresuid uid uid uid = some { c with ruid := uid, euid := uid, suid := uid } := by
  rw [setresuid, if_pos (Or.inl hc)]
  simp [update, hid]

theorem setresgid_root (hc : c.Privileged) (hid : gid ≠ unchanged) :
    c.setresgid gid gid gid = some { c with rgid := gid, egid := gid, sgid := gid } := by
  rw [setresgid, if_pos (Or.inl hc)]
  simp [update, hid]

/-- The id that stands for no change is granted to everyone, and changes nothing. -/
theorem setresuid_unchanged : c.setresuid unchanged unchanged unchanged = some c := by
  rw [setresuid, if_pos (Or.inr (by simp [Among]))]
  simp [update]

theorem setgroups_root (hc : c.Privileged) :
    c.setgroups [gid] = if gid = unchanged then none else some { c with groups := [gid] } := by
  by_cases hid : gid = unchanged
  · simp [setgroups, hid]
  · simp [setgroups, hc, hid, ngroupsMax, Ne.symm hid]

/-! ### No way back -/

theorem update_among_same (h : Among [uid, uid] id ∨ Among [uid, uid, uid] id) :
    update uid id = uid := by
  rw [update]
  split
  · rfl
  · next hne => simpa [Among, hne] using h

/-- Every id is `uid`, every group id `gid`. -/
def Settled (uid gid : UInt32) (groups : List UInt32) (c : Credentials) : Prop :=
  c = same uid gid groups

/-- **A call of a settled process** that is not root changes nothing. -/
theorem Settled.apply (h : Settled uid gid groups c) (hroot : uid ≠ 0) {call : Call}
    (hcall : c.apply call = some c') : c' = c := by
  subst h
  have hpriv : ¬ (same uid gid groups).Privileged := hroot
  cases call with
  | setuid id =>
    simp only [Credentials.apply, setuid, hpriv, if_false] at hcall
    simp only [same] at hcall ⊢
    grind
  | setgid id =>
    simp only [Credentials.apply, setgid, hpriv, if_false] at hcall
    simp only [same] at hcall ⊢
    grind
  | setreuid r e =>
    simp only [Credentials.apply, setreuid, hpriv, false_or] at hcall
    split at hcall
    · next hheld =>
      have hr : update uid r = uid := update_among_same (Or.inl hheld.1)
      have he : update uid e = uid := update_among_same (Or.inr hheld.2)
      simp only [same, hr, he, ite_self, Option.some.injEq] at hcall ⊢
      exact hcall.symm
    · cases hcall
  | setregid r e =>
    simp only [Credentials.apply, setregid, hpriv, false_or] at hcall
    split at hcall
    · next hheld =>
      have hr : update gid r = gid := update_among_same (Or.inl hheld.1)
      have he : update gid e = gid := update_among_same (Or.inr hheld.2)
      simp only [same, hr, he, ite_self, Option.some.injEq] at hcall ⊢
      exact hcall.symm
    · cases hcall
  | setresuid r e s =>
    simp only [Credentials.apply, setresuid, hpriv, false_or] at hcall
    split at hcall
    · next hheld =>
      have hr : update uid r = uid := update_among_same (Or.inr hheld.1)
      have he : update uid e = uid := update_among_same (Or.inr hheld.2.1)
      have hs : update uid s = uid := update_among_same (Or.inr hheld.2.2)
      simp only [same, hr, he, hs, Option.some.injEq] at hcall ⊢
      exact hcall.symm
    · cases hcall
  | setresgid r e s =>
    simp only [Credentials.apply, setresgid, hpriv, false_or] at hcall
    split at hcall
    · next hheld =>
      have hr : update gid r = gid := update_among_same (Or.inr hheld.1)
      have he : update gid e = gid := update_among_same (Or.inr hheld.2.1)
      have hs : update gid s = gid := update_among_same (Or.inr hheld.2.2)
      simp only [same, hr, he, hs, Option.some.injEq] at hcall ⊢
      exact hcall.symm
    · cases hcall
  | setgroups gs => simp [Credentials.apply, setgroups, hpriv] at hcall

/-- **There is no way back**: no sequence of calls changes a settled process that is not root. -/
theorem Settled.applyAll (h : Settled uid gid groups c) (hroot : uid ≠ 0) (calls : List Call) :
    c.applyAll calls = c := by
  rw [Credentials.applyAll]
  refine List.foldlRecOn (motive := fun c' => c' = c) calls _ rfl fun c' heq call _ => ?_
  subst heq
  cases hcall : c'.apply call with
  | none => rfl
  | some new => exact h.apply hroot hcall

end Credentials

end WriteonceOs.Library
