import Mathlib.Data.List.Basic

/-!
# Descriptor tables

The open descriptors of a process.  A new one takes the lowest free number, `dup2` onto another
number closes what was there and clears the flag of the copy, onto itself it changes nothing, and
`exec` closes what carries the flag.

* `free_eq_iff` — the number that a new descriptor gets;
* `get_openFile`, `get_close`, `get_dup2`, `get_exec` — what each operation leaves under a number.
-/

namespace WriteonceOs.Library

variable {φ : Type*}

/-- What a descriptor refers to, and whether `exec` closes it. -/
structure Descriptor (φ : Type*) where
  file : φ
  cloexec : Bool := false
  deriving DecidableEq, Repr

abbrev FdTable (φ : Type*) := List (Option (Descriptor φ))

namespace FdTable

/-- What is open under a number. -/
def get : FdTable φ → ℕ → Option (Descriptor φ)
  | [], _ => none
  | e :: _, 0 => e
  | _ :: t, fd + 1 => get t fd

def put (d : Option (Descriptor φ)) : FdTable φ → ℕ → FdTable φ
  | [], 0 => [d]
  | [], fd + 1 => none :: put d [] fd
  | _ :: t, 0 => d :: t
  | e :: t, fd + 1 => e :: put d t fd

/-- The lowest number that is free. -/
def free : FdTable φ → ℕ
  | [] => 0
  | none :: _ => 0
  | some _ :: t => free t + 1

/-- `open`, with the number of the new descriptor. -/
def openFile (t : FdTable φ) (file : φ) (cloexec : Bool) : ℕ × FdTable φ :=
  (free t, put (some ⟨file, cloexec⟩) t (free t))

def close (t : FdTable φ) (fd : ℕ) : FdTable φ := put none t fd

/-- `dup2`; a number that is not open is refused. -/
def dup2 (t : FdTable φ) (old new : ℕ) : FdTable φ :=
  match get t old with
  | none => t
  | some d => if old = new then t else put (some ⟨d.file, false⟩) t new

/-- What `exec` leaves of a descriptor. -/
def kept (d : Option (Descriptor φ)) : Option (Descriptor φ) := d.filter (fun d => !d.cloexec)

def exec (t : FdTable φ) : FdTable φ := t.map kept

@[simp] theorem get_nil (fd : ℕ) : get ([] : FdTable φ) fd = none := by cases fd <;> rfl

@[simp] theorem kept_none : kept (none : Option (Descriptor φ)) = none := rfl

@[simp] theorem kept_some (d : Descriptor φ) :
    kept (some d) = if d.cloexec then none else some d := by
  rcases hd : d.cloexec <;> simp [kept, Option.filter, hd]

variable (t : FdTable φ)

theorem get_put (d : Option (Descriptor φ)) (fd fd' : ℕ) :
    get (put d t fd) fd' = if fd' = fd then d else get t fd' := by
  induction t generalizing fd fd' with
  | nil =>
    induction fd generalizing fd' with
    | zero => cases fd' <;> simp [put, get]
    | succ fd ih => cases fd' <;> simp [put, get, ih]
  | cons e t ih => cases fd <;> cases fd' <;> simp [put, get, ih]

/-- **The number of a new descriptor**: free, with none free below it. -/
theorem free_eq_iff {t : FdTable φ} {fd : ℕ} :
    free t = fd ↔ get t fd = none ∧ ∀ fd' < fd, (get t fd').isSome := by
  induction t generalizing fd with
  | nil =>
    rw [free]
    cases fd with
    | zero => simp
    | succ fd =>
      refine iff_of_false (by omega) (fun h => ?_)
      exact absurd (h.2 0 (Nat.succ_pos fd)) (by simp)
  | cons e t ih =>
    cases e with
    | none =>
      rw [free]
      cases fd with
      | zero => simp [get]
      | succ fd =>
        refine iff_of_false (by omega) (fun h => ?_)
        exact absurd (h.2 0 (Nat.succ_pos fd)) (by simp [get])
    | some d =>
      rw [free]
      cases fd with
      | zero => simp [get]
      | succ fd =>
        rw [Nat.succ_inj, ih, get]
        refine and_congr_right fun _ => ⟨fun h fd' hlt => ?_, fun h fd' hlt => ?_⟩
        · cases fd' with
          | zero => rfl
          | succ fd' => exact h fd' (by omega)
        · exact h (fd' + 1) (by omega)

@[simp] theorem get_free : get t (free t) = none := (free_eq_iff.mp rfl).1

@[simp] theorem openFile_fst (file : φ) (c : Bool) : (openFile t file c).1 = free t := rfl

theorem get_openFile (file : φ) (c : Bool) (fd : ℕ) :
    get (openFile t file c).2 fd = if fd = free t then some ⟨file, c⟩ else get t fd := by
  rw [openFile, get_put]

theorem get_close (fd fd' : ℕ) :
    get (close t fd) fd' = if fd' = fd then none else get t fd' := by
  rw [close, get_put]

/-- **A copy under another number** loses the flag; under its own it is left as it is. -/
theorem get_dup2 (old new fd : ℕ) :
    get (dup2 t old new) fd =
      if fd = new ∧ old ≠ new then
        ((get t old).map fun d => ⟨d.file, false⟩).or (get t fd)
      else get t fd := by
  rw [dup2]
  cases hd : get t old with
  | none => simp
  | some d =>
    by_cases hon : old = new
    · simp [hon]
    · by_cases hfd : fd = new <;> simp [get_put, hon, hfd]

/-- A copy of a descriptor without the flag, under any number. -/
theorem get_dup2_plain {t : FdTable φ} {old : ℕ} {file : φ} (h : get t old = some ⟨file, false⟩)
    (new fd : ℕ) :
    get (dup2 t old new) fd = if fd = new then some ⟨file, false⟩ else get t fd := by
  rw [get_dup2, h]
  by_cases hfd : fd = new
  · by_cases hold : old = new
    · rw [if_neg (fun hc => hc.2 hold), if_pos hfd, hfd, ← hold, h]
    · rw [if_pos ⟨hfd, hold⟩, if_pos hfd]
      rfl
  · rw [if_neg (fun hc => hfd hc.1), if_neg hfd]

theorem get_exec (fd : ℕ) : get (exec t) fd = kept (get t fd) := by
  induction t generalizing fd with
  | nil => simp [exec]
  | cons e t ih =>
    cases fd with
    | zero => rfl
    | succ fd => exact ih fd

end FdTable

end WriteonceOs.Library
