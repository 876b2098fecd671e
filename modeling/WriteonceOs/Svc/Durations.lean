import WriteonceOs.Svc.StopGrace

/-!
# Duration strings and the clock

`parse_duration` strips a suffix, reads a `u64` and multiplies it by 60 or 3600, which wraps in a
release build; a `u64` may also carry a plus sign.  What is read is added to the clock in two
places, the deadline of a oneshot and the time of a restart, and an instant whose seconds leave an
`i64` is a panic.  The grace time of a stop is only ever compared with a time that has passed.

* `parseDuration_eq_some` — what is read, from which text;
* `readsExactly_iff` — when a text is read as the number it spells;
* `startUnitInternalChecked_iff`, `maybeScheduleRestartChecked_iff` — when an addition panics;
* `stopUnit_calls` — a stop adds nothing to the clock;
* `durations_exact_iff` — the two together.
-/

namespace WriteonceOs.Svc

open WriteonceOs.Library

/-! ### What a text spells -/

/-- What may stand behind the number. -/
inductive TimeUnit where
  | millis | secs | mins | hours | bare
  deriving DecidableEq, Repr

namespace TimeUnit

def suffix : TimeUnit → List Char
  | .millis => ['m', 's']
  | .secs => ['s']
  | .mins => ['m']
  | .hours => ['h']
  | .bare => []

/-- That many of the unit. -/
def exactly (n : ℕ) : TimeUnit → Duration
  | .millis => fromMillis n
  | .secs => fromSecs n
  | .mins => fromSecs (n * 60)
  | .hours => fromSecs (n * 3600)
  | .bare => fromSecs n

/-- What a release build makes of that many. -/
def wrapped (n : ℕ) : TimeUnit → Duration
  | .millis => fromMillis n
  | .secs => fromSecs n
  | .mins => fromSecs (wrappingMul n 60)
  | .hours => fromSecs (wrappingMul n 3600)
  | .bare => fromSecs n

/-- The number, and the seconds where it is multiplied, fit 64 bits. -/
def Fits (n : ℕ) : TimeUnit → Prop
  | .millis => n < 2 ^ 64
  | .secs => n < 2 ^ 64
  | .mins => n * 60 < 2 ^ 64
  | .hours => n * 3600 < 2 ^ 64
  | .bare => n < 2 ^ 64

instance (n : ℕ) (u : TimeUnit) : Decidable (u.Fits n) := by
  cases u <;> exact inferInstanceAs (Decidable (_ < _))

theorem Fits.lt {n : ℕ} {u : TimeUnit} (h : u.Fits n) : n < 2 ^ 64 := by
  cases u <;> simp only [Fits] at h <;> omega

theorem Fits.wrapped_eq {n : ℕ} {u : TimeUnit} (h : u.Fits n) : u.wrapped n = u.exactly n := by
  cases u with
  | mins => rw [wrapped, exactly, wrappingMul, Nat.mod_eq_of_lt h]
  | hours => rw [wrapped, exactly, wrappingMul, Nat.mod_eq_of_lt h]
  | _ => rfl

end TimeUnit

/-- The number that decimal digits stand for. -/
def digitsValue (digits : List Char) : ℕ := digits.foldl (fun n c => n * 10 + (c.toNat - 48)) 0

/-- The characters are the decimal digits of the number, without a sign. -/
def Digits (cs : List Char) (n : ℕ) : Prop := cs ≠ [] ∧ cs.all Char.isDigit ∧ digitsValue cs = n

/-- The characters are an unsigned decimal number with its suffix. -/
def Spells (cs : List Char) (n : ℕ) (u : TimeUnit) : Prop :=
  ∃ digits, Digits digits n ∧ cs = digits ++ u.suffix

/-- None unless the trimmed text is an unsigned decimal number with a suffix or none; then exactly
that long, or none when it does not fit. -/
def ReadsExactly (text : String) : Prop :=
  (∀ n u, Spells (trim text.toList) n u →
    parseDuration text = if u.Fits n then some (u.exactly n) else none) ∧
  ((∀ n u, ¬ Spells (trim text.toList) n u) → parseDuration text = none)

/-- The number fits 64 bits, but not the seconds it is multiplied to. -/
def Wraps (cs : List Char) : Prop := ∃ n u, Spells cs n u ∧ n < 2 ^ 64 ∧ ¬ u.Fits n

/-- The number carries a plus sign. -/
def Signed (cs : List Char) : Prop := ∃ rest n u, cs = '+' :: rest ∧ Spells rest n u ∧ n < 2 ^ 64

/-! ### What is read -/

theorem parseU64_eq_some {cs : List Char} {n : ℕ} :
    parseU64 cs = some n ↔
      n < 2 ^ 64 ∧ (Digits cs n ∨ ∃ rest, cs = '+' :: rest ∧ Digits rest n) := by
  have hdigits (ds : List Char) :
      (if ds.isEmpty || !ds.all Char.isDigit then none
        else
          let n := ds.foldl (fun n c => n * 10 + (c.toNat - 48)) 0
          if n < 2 ^ 64 then some n else none) = some n ↔ n < 2 ^ 64 ∧ Digits ds n := by
    change (if _ then none
      else if digitsValue ds < 2 ^ 64 then some (digitsValue ds) else none) = some n ↔ _
    by_cases hempty : ds = []
    · simp [hempty, Digits]
    by_cases hall : ds.all Char.isDigit
    · have hdecimal : Digits ds n ↔ digitsValue ds = n :=
        ⟨fun h => h.2.2, fun h => ⟨hempty, hall, h⟩⟩
      rw [hdecimal, if_neg (by simp [hempty, hall])]
      grind
    · simp [hall, Digits]
  unfold parseU64
  split
  · rename_i rest
    rw [hdigits rest]
    refine and_congr_right (fun _ => ?_)
    have hplus : ¬ Digits ('+' :: rest) n := by
      intro h
      simp [Digits, Char.isDigit] at h
    simp [hplus]
  · rename_i hsign
    rw [hdigits cs]
    refine and_congr_right (fun _ => ?_)
    constructor
    · exact Or.inl
    · intro h
      rcases h with h | ⟨rest, rfl, -⟩
      · exact h
      · exact absurd rfl (hsign rest)

/-- The letters of the suffixes are no part of a number. -/
def isNumeric (c : Char) : Bool := c != 'm' && c != 's' && c != 'h'

theorem Digits.isNumeric {cs : List Char} {n : ℕ} (h : Digits cs n) :
    ∀ c ∈ cs, isNumeric c = true := by
  intro c hc
  have hdigit := List.all_eq_true.mp h.2.1 c hc
  have hne : ∀ d : Char, d.isDigit = false → c ≠ d := by
    intro d hd heq
    rw [heq, hd] at hdigit
    cases hdigit
  simp [Svc.isNumeric, hne 'm' rfl, hne 's' rfl, hne 'h' rfl]

theorem numeric_of_parseU64 {cs : List Char} {n : ℕ} (h : parseU64 cs = some n) :
    ∀ c ∈ cs, isNumeric c = true := by
  obtain ⟨-, hdigits | ⟨rest, rfl, hdigits⟩⟩ := parseU64_eq_some.mp h
  · exact hdigits.isNumeric
  · intro c hc
    rcases List.mem_cons.mp hc with rfl | hc
    · rfl
    · exact hdigits.isNumeric c hc

/-- The number ends where the letters begin. -/
theorem takeWhile_numeric {cs : List Char} (h : ∀ c ∈ cs, isNumeric c = true) (u : TimeUnit) :
    (cs ++ u.suffix).takeWhile isNumeric = cs := by
  rw [List.takeWhile_append_of_pos h]
  cases u <;> simp [TimeUnit.suffix, isNumeric]

theorem TimeUnit.suffix_injective {u u' : TimeUnit} (h : u.suffix = u'.suffix) : u = u' := by
  cases u <;> cases u' <;> first | rfl | cases h

/-- Number and suffix are read off a text in one way only. -/
theorem number_unique {cs cs' : List Char} {u u' : TimeUnit}
    (h : ∀ c ∈ cs, isNumeric c = true) (h' : ∀ c ∈ cs', isNumeric c = true)
    (heq : cs ++ u.suffix = cs' ++ u'.suffix) : cs = cs' ∧ u = u' := by
  have hcs : cs = cs' := by
    rw [← takeWhile_numeric h u, heq, takeWhile_numeric h' u']
  rw [hcs, List.append_cancel_left_eq] at heq
  exact ⟨hcs, TimeUnit.suffix_injective heq⟩

theorem stripSuffix_append (suffix cs : List Char) :
    stripSuffix suffix (cs ++ suffix) = some cs := by
  have hsuffix : suffix.isSuffixOf (cs ++ suffix) = true :=
    List.isSuffixOf_iff_suffix.mpr (List.suffix_append cs suffix)
  rw [stripSuffix, if_pos hsuffix]
  simp

/-- Another suffix is not found behind a number. -/
theorem stripSuffix_numeric {cs : List Char} {u w : TimeUnit}
    (h : ∀ c ∈ cs, isNumeric c = true) (hsuffix : ¬ w.suffix <:+ u.suffix) :
    stripSuffix w.suffix (cs ++ u.suffix) = none := by
  have hletter : ∃ letter rest, w.suffix = letter :: rest ∧ isNumeric letter = false := by
    cases w with
    | millis => exact ⟨'m', ['s'], rfl, rfl⟩
    | secs => exact ⟨'s', [], rfl, rfl⟩
    | mins => exact ⟨'m', [], rfl, rfl⟩
    | hours => exact ⟨'h', [], rfl, rfl⟩
    | bare => exact absurd (List.nil_suffix) hsuffix
  obtain ⟨letter, rest, hw, hletter⟩ := hletter
  rw [Option.eq_none_iff_forall_ne_some]
  intro name hname
  have heq := stripSuffix_eq_some hname
  -- the letter that begins the suffix stands in the number or behind it
  rcases List.append_eq_append_iff.mp heq with ⟨front, rfl, hfront⟩ | ⟨back, hback, hrest⟩
  · exact hsuffix ⟨front, hfront.symm⟩
  · cases back with
    | nil => exact hsuffix ⟨[], by simpa using hrest⟩
    | cons c back =>
      rw [hw, List.cons_append, List.cons.injEq] at hrest
      have hc := h c (by rw [hback]; simp)
      rw [← hrest.1, hletter] at hc
      cases hc

/-- The suffixes in the order they are tried in. -/
theorem parseDuration_eq (text : String) :
    parseDuration text =
      match stripSuffix TimeUnit.millis.suffix (trim text.toList) with
      | some n => (parseU64 n).map (TimeUnit.wrapped · .millis)
      | none =>
        match stripSuffix TimeUnit.hours.suffix (trim text.toList) with
        | some n => (parseU64 n).map (TimeUnit.wrapped · .hours)
        | none =>
          match stripSuffix TimeUnit.mins.suffix (trim text.toList) with
          | some n => (parseU64 n).map (TimeUnit.wrapped · .mins)
          | none =>
            match stripSuffix TimeUnit.secs.suffix (trim text.toList) with
            | some n => (parseU64 n).map (TimeUnit.wrapped · .secs)
            | none => (parseU64 (trim text.toList)).map (TimeUnit.wrapped · .bare) := rfl

theorem number_of_parseDuration {text : String} {d : Duration}
    (h : parseDuration text = some d) :
    ∃ u cs n, trim text.toList = cs ++ TimeUnit.suffix u ∧ parseU64 cs = some n ∧
      d = u.wrapped n := by
  rw [parseDuration_eq] at h
  split at h
  · rename_i cs hcs
    obtain ⟨n, hn, rfl⟩ := Option.map_eq_some_iff.mp h
    exact ⟨.millis, cs, n, stripSuffix_eq_some hcs, hn, rfl⟩
  split at h
  · rename_i cs hcs
    obtain ⟨n, hn, rfl⟩ := Option.map_eq_some_iff.mp h
    exact ⟨.hours, cs, n, stripSuffix_eq_some hcs, hn, rfl⟩
  split at h
  · rename_i cs hcs
    obtain ⟨n, hn, rfl⟩ := Option.map_eq_some_iff.mp h
    exact ⟨.mins, cs, n, stripSuffix_eq_some hcs, hn, rfl⟩
  split at h
  · rename_i cs hcs
    obtain ⟨n, hn, rfl⟩ := Option.map_eq_some_iff.mp h
    exact ⟨.secs, cs, n, stripSuffix_eq_some hcs, hn, rfl⟩
  · obtain ⟨n, hn, rfl⟩ := Option.map_eq_some_iff.mp h
    exact ⟨.bare, _, n, (List.append_nil _).symm, hn, rfl⟩

theorem parseDuration_of_number {text : String} {u : TimeUnit} {cs : List Char} {n : ℕ}
    (hcs : trim text.toList = cs ++ u.suffix) (hn : parseU64 cs = some n) :
    parseDuration text = some (u.wrapped n) := by
  have hskip : ∀ w : TimeUnit, ¬ w.suffix <:+ u.suffix →
      stripSuffix w.suffix (trim text.toList) = none :=
    fun w hw => hcs ▸ stripSuffix_numeric (numeric_of_parseU64 hn) hw
  have hfound : stripSuffix u.suffix (trim text.toList) = some cs :=
    hcs ▸ stripSuffix_append u.suffix cs
  rw [parseDuration_eq]
  cases u with
  | millis =>
    rw [hfound]
    exact congrArg (Option.map _) hn
  | hours =>
    rw [hskip .millis (by decide), hfound]
    exact congrArg (Option.map _) hn
  | mins =>
    rw [hskip .millis (by decide), hskip .hours (by decide), hfound]
    exact congrArg (Option.map _) hn
  | secs =>
    rw [hskip .millis (by decide), hskip .hours (by decide), hskip .mins (by decide), hfound]
    exact congrArg (Option.map _) hn
  | bare =>
    rw [hskip .millis (by decide), hskip .hours (by decide), hskip .mins (by decide),
      hskip .secs (by decide), hcs]
    exact congrArg (Option.map _) ((congrArg parseU64 (List.append_nil cs)).trans hn)

/-- **What is read.**  A number that `u64` parsing accepts, with the suffix behind it. -/
theorem parseDuration_eq_some {text : String} {d : Duration} :
    parseDuration text = some d ↔ ∃ u cs n, trim text.toList = cs ++ TimeUnit.suffix u ∧
      parseU64 cs = some n ∧ d = u.wrapped n := by
  constructor
  · exact number_of_parseDuration
  · intro h
    obtain ⟨u, cs, n, hcs, hn, rfl⟩ := h
    exact parseDuration_of_number hcs hn

/-! ### Exactly what is spelt -/

theorem spells_of_parse {cs digits : List Char} {u : TimeUnit} {n : ℕ}
    (hcs : cs = digits ++ u.suffix) (hn : parseU64 digits = some n) :
    n < 2 ^ 64 ∧ (Spells cs n u ∨ Signed cs) := by
  obtain ⟨hlt, hdigits | ⟨rest, rfl, hdigits⟩⟩ := parseU64_eq_some.mp hn
  · exact ⟨hlt, Or.inl ⟨digits, hdigits, hcs⟩⟩
  · exact ⟨hlt, Or.inr ⟨rest ++ u.suffix, n, u, hcs, ⟨rest, hdigits, rfl⟩, hlt⟩⟩

/-- What is spelt is read, wrapped where it does not fit. -/
theorem parseDuration_of_spells {text : String} {n : ℕ} {u : TimeUnit}
    (h : Spells (trim text.toList) n u) :
    parseDuration text = if n < 2 ^ 64 then some (u.wrapped n) else none := by
  obtain ⟨digits, hdigits, hcs⟩ := h
  split
  · rename_i hlt
    exact parseDuration_eq_some.mpr
      ⟨u, digits, n, hcs, parseU64_eq_some.mpr ⟨hlt, Or.inl hdigits⟩, rfl⟩
  · rename_i hlt
    rw [Option.eq_none_iff_forall_ne_some]
    intro d hd
    obtain ⟨u', digits', n', hcs', hn', -⟩ := parseDuration_eq_some.mp hd
    obtain ⟨rfl, rfl⟩ := number_unique hdigits.isNumeric (numeric_of_parseU64 hn')
      (hcs.symm.trans hcs')
    obtain ⟨hlt', hdigits' | ⟨rest, rfl, -⟩⟩ := parseU64_eq_some.mp hn'
    · rw [← hdigits.2.2, hdigits'.2.2] at hlt
      exact hlt hlt'
    · simp [Digits, Char.isDigit] at hdigits

/-- A signed number is read too. -/
theorem parseDuration_of_signed {text : String} (h : Signed (trim text.toList)) :
    parseDuration text ≠ none := by
  obtain ⟨rest, n, u, hcs, ⟨digits, hdigits, rfl⟩, hlt⟩ := h
  have hread : parseDuration text = some (u.wrapped n) :=
    parseDuration_eq_some.mpr ⟨u, '+' :: digits, n, hcs,
      parseU64_eq_some.mpr ⟨hlt, Or.inr ⟨digits, rfl, hdigits⟩⟩, rfl⟩
  simp [hread]

theorem Signed.not_spells {cs : List Char} (h : Signed cs) (n : ℕ) (u : TimeUnit) :
    ¬ Spells cs n u := by
  intro hspells
  obtain ⟨rest, -, -, rfl, -⟩ := h
  obtain ⟨digits, ⟨hne, hall, -⟩, hcs⟩ := hspells
  cases digits with
  | nil => exact hne rfl
  | cons c digits =>
    rw [List.cons_append, List.cons.injEq] at hcs
    rw [← hcs.1] at hall
    simp [Char.isDigit] at hall

/-- **A text is read as the number it spells** exactly when the seconds it is multiplied to fit
64 bits, where the number itself does, and it carries no plus sign. -/
theorem readsExactly_iff (text : String) :
    ReadsExactly text ↔ ¬ Wraps (trim text.toList) ∧ ¬ Signed (trim text.toList) := by
  constructor
  · intro h
    obtain ⟨hspelt, hother⟩ := h
    constructor
    · intro hwraps
      obtain ⟨n, u, hspells, hlt, hfits⟩ := hwraps
      have hread := hspelt n u hspells
      rw [parseDuration_of_spells hspells, if_pos hlt, if_neg hfits] at hread
      cases hread
    · intro hsigned
      exact parseDuration_of_signed hsigned (hother hsigned.not_spells)
  · intro h
    obtain ⟨hwraps, hsigned⟩ := h
    constructor
    · intro n u hspells
      rw [parseDuration_of_spells hspells]
      by_cases hfits : u.Fits n
      · rw [if_pos hfits.lt, if_pos hfits, hfits.wrapped_eq]
      · have hlt : ¬ n < 2 ^ 64 := fun hlt => hwraps ⟨n, u, hspells, hlt, hfits⟩
        rw [if_neg hlt, if_neg hfits]
    · intro hno
      rw [Option.eq_none_iff_forall_ne_some]
      intro d hd
      obtain ⟨u, digits, n, hcs, hn, -⟩ := parseDuration_eq_some.mp hd
      rcases (spells_of_parse hcs hn).2 with hspells | hplus
      · exact hno n u hspells
      · exact hsigned hplus

/-! ### The clock -/

/-- A sum, none where it panics. -/
def checkedSum (i : Instant × Duration) : Option Instant := addDuration i.1 i.2

theorem checkedSum_cases (i : Instant × Duration) :
    checkedSum i = none ∨ checkedSum i = some (clockSum i) := by
  by_cases hle : fromSecs (2 ^ 63) ≤ i.1 + i.2
  · exact .inl (addDuration_of_le hle)
  · exact .inr (addDuration_of_lt hle)

theorem checkedSum_ne_none_iff (i : Instant × Duration) :
    checkedSum i ≠ none ↔ ¬ fromSecs (2 ^ 63) ≤ i.1 + i.2 := by
  constructor
  · exact fun h hle => h (addDuration_of_le hle)
  · intro h
    rw [checkedSum, addDuration_of_lt h]
    exact Option.some_ne_none _

namespace SupervisorState

variable (alloc : PidAllocator) (s : SupervisorState)

/-! The operations of the state machine with these sums: none where one of them panics. -/

def startUnitInternalChecked (id : UnitId) (ans : StartAnswer) : Option SupervisorState :=
  (s.startUnitInternalClocked alloc id ans).checked checkedSum

def maybeScheduleRestartChecked (id : UnitId) (exitedClean signaled : Bool) :
    Option SupervisorState :=
  (s.maybeScheduleRestartClocked id exitedClean signaled).checked checkedSum

def stopUnitChecked (anchor : String) (ans : StopAnswer) :
    Option (Except SupervisorState (SupervisorState × Except RequestError Unit)) :=
  (s.stopUnitClocked anchor ans).checked checkedSum

/-! ### When an addition panics -/

/-- The start spawns a oneshot whose deadline leaves the clock. -/
def DeadlineOverflows (id : UnitId) (ans : StartAnswer) : Prop :=
  ∃ service, s.failedDep id = none ∧ (s.registry.get id).file.service = some service ∧
    service.kind = .oneshot ∧ ans.spawn = .ok () ∧
    fromSecs (2 ^ 63) ≤ s.clock + startTimeout service

/-- The exit asks for a restart within the start limit, at a time that leaves the clock. -/
def RestartOverflows (id : UnitId) (exitedClean signaled : Bool) : Prop :=
  ∃ service, (s.registry.get id).file.service = some service ∧
    wantRestart service exitedClean signaled = true ∧
    ¬ (0 < service.startLimitBurst ∧
      service.startLimitBurst ≤ (s.recentRestarts service id).length) ∧
    fromSecs (2 ^ 63) ≤ s.clock + restartDelay service

/-- A start attempt adds the start timeout when it waits for a oneshot. -/
theorem startUnitInternal_calls {id : UnitId} {ans : StartAnswer} {i : Instant × Duration} :
    i ∈ (s.startUnitInternalClocked alloc id ans).calls clockSum ↔
      ∃ service, s.failedDep id = none ∧ (s.registry.get id).file.service = some service ∧
        service.kind = .oneshot ∧ ans.spawn = .ok () ∧ i = (s.clock, startTimeout service) := by
  unfold startUnitInternalClocked
  cases s.failedDep id with
  | some dep => simp
  | none =>
    cases (s.registry.get id).file.service with
    | none => simp
    | some service =>
      cases ans.spawn with
      | error e => simp
      | ok _ =>
        dsimp only
        cases hkind : service.kind with
        | oneshot => simp [finishOneshotClocked, hkind]
        | simple => simp [hkind]
        | forking => simp [hkind]
        | notify => simp [hkind]

theorem startUnitInternalChecked_iff {id : UnitId} {ans : StartAnswer} :
    s.startUnitInternalChecked alloc id ans ≠ none ↔ ¬ s.DeadlineOverflows id ans := by
  rw [startUnitInternalChecked, Calling.checked_ne_none_iff checkedSum_cases]
  simp only [startUnitInternal_calls, checkedSum_ne_none_iff]
  constructor
  · intro h hover
    obtain ⟨service, hdep, hservice, hkind, hspawn, hle⟩ := hover
    exact h _ ⟨service, hdep, hservice, hkind, hspawn, rfl⟩ hle
  · intro h i hi hle
    obtain ⟨service, hdep, hservice, hkind, hspawn, rfl⟩ := hi
    exact h ⟨service, hdep, hservice, hkind, hspawn, hle⟩

/-- A start attempt whose deadline fits is the one of the state machine. -/
theorem startUnitInternalChecked_eq {id : UnitId} {ans : StartAnswer}
    (h : ¬ s.DeadlineOverflows id ans) :
    s.startUnitInternalChecked alloc id ans = some (s.startUnitInternal alloc id ans) :=
  Calling.checked_eq_value checkedSum_cases ((s.startUnitInternalChecked_iff alloc).mpr h)

/-- An exit adds the restart delay when it schedules a restart. -/
theorem maybeScheduleRestart_calls {id : UnitId} {exitedClean signaled : Bool}
    {i : Instant × Duration} :
    i ∈ (s.maybeScheduleRestartClocked id exitedClean signaled).calls clockSum ↔
      ∃ service, (s.registry.get id).file.service = some service ∧
        wantRestart service exitedClean signaled = true ∧
        ¬ (0 < service.startLimitBurst ∧
          service.startLimitBurst ≤ (s.recentRestarts service id).length) ∧
        i = (s.clock, restartDelay service) := by
  unfold maybeScheduleRestartClocked
  cases (s.registry.get id).file.service with
  | none => simp
  | some service =>
    dsimp only
    by_cases hwant : wantRestart service exitedClean signaled = true
    · rw [if_pos hwant]
      by_cases hlimit : 0 < service.startLimitBurst ∧
          service.startLimitBurst ≤ (s.recentRestarts service id).length
      · simp [hlimit]
      · rw [if_neg hlimit]
        constructor
        · intro hi
          exact ⟨service, rfl, hwant, hlimit, by simpa using hi⟩
        · intro h
          obtain ⟨service', hservice, -, -, rfl⟩ := h
          cases hservice
          simp
    · simp [hwant]

theorem maybeScheduleRestartChecked_iff {id : UnitId} {exitedClean signaled : Bool} :
    s.maybeScheduleRestartChecked id exitedClean signaled ≠ none ↔
      ¬ s.RestartOverflows id exitedClean signaled := by
  rw [maybeScheduleRestartChecked, Calling.checked_ne_none_iff checkedSum_cases]
  simp only [maybeScheduleRestart_calls, checkedSum_ne_none_iff]
  constructor
  · intro h hover
    obtain ⟨service, hservice, hwant, hlimit, hle⟩ := hover
    exact h _ ⟨service, hservice, hwant, hlimit, rfl⟩ hle
  · intro h i hi hle
    obtain ⟨service, hservice, hwant, hlimit, rfl⟩ := hi
    exact h ⟨service, hservice, hwant, hlimit, hle⟩

/-- An exit whose restart time fits is handled as in the state machine. -/
theorem maybeScheduleRestartChecked_eq {id : UnitId} {exitedClean signaled : Bool}
    (h : ¬ s.RestartOverflows id exitedClean signaled) :
    s.maybeScheduleRestartChecked id exitedClean signaled =
      some (s.maybeScheduleRestart id exitedClean signaled) :=
  Calling.checked_eq_value checkedSum_cases (s.maybeScheduleRestartChecked_iff.mpr h)

/-! ### Stops -/

variable {s}

/-- During a stop no restart is scheduled, so nothing is added to the clock. -/
theorem reapChild_calls (hflag : s.shuttingDown = true) (r : Reap) :
    (s.reapChildClocked r).calls clockSum = [] := by
  unfold reapChildClocked onChildExitClocked
  cases ((s.advance r.dt).emit (.reaped r.pid)).byPid.lookup r.pid with
  | none => rfl
  | some id => simp [hflag]

theorem drainReap_calls (acc : List Pid × SupervisorState) (r : Reap)
    (hflag : acc.2.shuttingDown = true) :
    (drainReapClocked acc r).calls clockSum = [] ∧
      ((drainReapClocked acc r).value clockSum).2.shuttingDown = true := by
  constructor
  · simp [drainReapClocked, reapChild_calls hflag]
  · simpa [drainReapClocked, reap_shuttingDown] using hflag

theorem killAll_shuttingDown (pids : List Pid) (s : SupervisorState) :
    (s.killAll pids).shuttingDown = s.shuttingDown :=
  foldl_frame SupervisorState.shuttingDown (fun t _ => emit_shuttingDown t _) s pids

theorem drain_calls (killOrder : HashOrder Pid) (grace : Duration) (start : Instant)
    (rounds : List DrainRound) (escalated : Bool) (expected : List Pid) (s : SupervisorState)
    (hflag : s.shuttingDown = true) :
    (drainClocked killOrder grace start rounds escalated expected s).calls clockSum = [] := by
  induction rounds generalizing escalated expected s with
  | nil =>
    cases expected with
    | nil => rfl
    | cons pid expected => rfl
  | cons round rounds ih =>
    cases expected with
    | nil => rfl
    | cons pid expected =>
      rw [drainClocked, Calling.calls_bind]
      generalize hs' : (if !escalated && decide (grace < (s.advance round.dt).clock - start) then
        (s.advance round.dt).killAll (killOrder.enum (pid :: expected))
        else s.advance round.dt) = s'
      have hflag' : s'.shuttingDown = true := by
        rw [← hs']
        split
        · rw [killAll_shuttingDown]
          exact hflag
        · exact hflag
      obtain ⟨hreaps, hnext⟩ := Calling.calls_foldlM clockSum
        (I := fun acc => acc.2.shuttingDown = true) drainReap_calls round.reaped
        (c := (pid :: expected, s')) hflag'
      rw [hreaps]
      exact ih _ _ _ hnext

variable (s)

/-- **A stop adds nothing to the clock.** -/
theorem stopUnit_calls (anchor : String) (ans : StopAnswer) :
    (s.stopUnitClocked anchor ans).calls clockSum = [] := by
  unfold stopUnitClocked
  cases s.registry.buildStopTransaction ans.ords anchor with
  | error e => rfl
  | ok plan =>
    dsimp only
    rw [Calling.calls_bind, drain_calls _ _ _ _ _ _ _ (termUnits_frame plan _).1]
    rfl

theorem stopUnitChecked_ne_none (anchor : String) (ans : StopAnswer) :
    s.stopUnitChecked anchor ans ≠ none := by
  rw [stopUnitChecked, Calling.checked_ne_none_iff checkedSum_cases, stopUnit_calls]
  exact fun i hi => absurd hi List.not_mem_nil

theorem stopUnitChecked_eq (anchor : String) (ans : StopAnswer) :
    s.stopUnitChecked anchor ans = some (s.stopUnit anchor ans) :=
  Calling.checked_eq_value checkedSum_cases (s.stopUnitChecked_ne_none anchor ans)

end SupervisorState

/-! ### Both -/

/-- **Duration strings are read exactly and their uses do not panic** exactly when the number
carries no plus sign and does not wrap, the deadline of a oneshot that is spawned fits the clock,
and so does the time of a restart that is scheduled. -/
theorem durations_exact_iff (alloc : PidAllocator) (text : String) (s : SupervisorState)
    (id : UnitId) (ans : StartAnswer) (exitedClean signaled : Bool) (anchor : String)
    (stop : StopAnswer) :
    (ReadsExactly text ∧ s.startUnitInternalChecked alloc id ans ≠ none ∧
      s.maybeScheduleRestartChecked id exitedClean signaled ≠ none ∧
      s.stopUnitChecked anchor stop ≠ none) ↔
    ((¬ Wraps (trim text.toList) ∧ ¬ Signed (trim text.toList)) ∧ ¬ s.DeadlineOverflows id ans ∧
      ¬ s.RestartOverflows id exitedClean signaled) := by
  have hstop := s.stopUnitChecked_ne_none anchor stop
  rw [readsExactly_iff, s.startUnitInternalChecked_iff alloc, s.maybeScheduleRestartChecked_iff]
  simp only [hstop, and_true, ne_eq, not_false_eq_true]

/-- A service that is to be restarted after 2^63 seconds. -/
def patientUnits : List LoadedUnit :=
  [⟨"late.service",
      { service := some { execStart := "/bin/late", restart := .always
                          restartSec := "9223372036854775808s" } }⟩]

/-- A number of minutes wraps to 44 seconds, and a delay that is read panics. -/
theorem minutes_wrap_and_restart_panics :
    (¬ ∀ text, ReadsExactly text) ∧
      ¬ ∀ (s : SupervisorState) (id : UnitId) (exitedClean signaled : Bool),
        s.maybeScheduleRestartChecked id exitedClean signaled ≠ none := by
  constructor
  · intro hall
    have hread := (hall "307445734561825861m").1 307445734561825861 .mins
      ⟨"307445734561825861".toList, ⟨by decide +kernel, by decide +kernel, by decide +kernel⟩,
        by decide +kernel⟩
    have hparse : parseDuration "307445734561825861m" = some (fromSecs 44) := by decide +kernel
    rw [hparse, if_neg (by decide)] at hread
    cases hread
  · intro hall
    refine hall (.new (builtRegistry patientUnits []) false) 0 false false ?_
    decide +kernel

end WriteonceOs.Svc
