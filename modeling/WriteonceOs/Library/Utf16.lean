import Mathlib.Data.List.Basic

/-!
# UTF-16

A character up to U+FFFF is one unit, the others are a pair of surrogates.

* `encode`, `decode`;
* `decode_encode_append` — the round trip of a text that is followed by something else;
* `mem_of_mem_encode` — the units below the surrogates are characters of the text.
-/

namespace WriteonceOs.Library.Utf16

/-- The units of a character. -/
def encodeChar (c : Char) : List UInt16 :=
  if c.toNat < 0x10000 then [UInt16.ofNat c.toNat]
  else
    [UInt16.ofNat (0xD800 + (c.toNat - 0x10000) / 0x400),
      UInt16.ofNat (0xDC00 + (c.toNat - 0x10000) % 0x400)]

def encode (cs : List Char) : List UInt16 := cs.flatMap encodeChar

def isLead (u : UInt16) : Bool := 0xD800 ≤ u.toNat && u.toNat < 0xDC00

def isTrail (u : UInt16) : Bool := 0xDC00 ≤ u.toNat && u.toNat < 0xE000

/-- The character of a pair. -/
def ofPair (lead trail : UInt16) : Char :=
  Char.ofNat (0x10000 + (lead.toNat - 0xD800) * 0x400 + (trail.toNat - 0xDC00))

/-- The text of the units; a surrogate without its partner has none. -/
def decode : List UInt16 → Option (List Char)
  | [] => some []
  | [u] => if isLead u || isTrail u then none else some [Char.ofNat u.toNat]
  | u :: v :: us =>
    if isLead u then
      if isTrail v then (decode us).map (ofPair u v :: ·) else none
    else if isTrail u then none
    else (decode (v :: us)).map (Char.ofNat u.toNat :: ·)

/-- No character is a surrogate. -/
theorem char_cases (c : Char) :
    c.toNat < 0xD800 ∨ 0xDFFF < c.toNat ∧ c.toNat < 0x110000 := by
  have hvalid := c.valid
  simpa [UInt32.isValidChar, Nat.isValidChar] using hvalid

theorem toNat_ofNat_unit {n : ℕ} (h : n < 0x10000) : (UInt16.ofNat n).toNat = n := by
  rw [UInt16.toNat_ofNat']
  exact Nat.mod_eq_of_lt h

/-- A unit that is no surrogate stands for itself. -/
theorem decode_cons_plain {u : UInt16} (hlead : isLead u = false) (htrail : isTrail u = false)
    (us : List UInt16) : decode (u :: us) = (decode us).map (Char.ofNat u.toNat :: ·) := by
  cases us with
  | nil => simp [decode, hlead, htrail]
  | cons v us => rw [decode, hlead, htrail]; rfl

theorem decode_encodeChar_append (c : Char) (us : List UInt16) :
    decode (encodeChar c ++ us) = (decode us).map (c :: ·) := by
  have hvalid := char_cases c
  unfold encodeChar
  split
  case isTrue hsmall =>
    have hunit := toNat_ofNat_unit hsmall
    rw [List.singleton_append, decode_cons_plain, hunit, Char.ofNat_toNat]
    · simp only [isLead, hunit, Bool.and_eq_false_iff, decide_eq_false_iff_not]
      omega
    · simp only [isTrail, hunit, Bool.and_eq_false_iff, decide_eq_false_iff_not]
      omega
  case isFalse hlarge =>
    have hlead := toNat_ofNat_unit (n := 0xD800 + (c.toNat - 0x10000) / 0x400) (by omega)
    have htrail := toNat_ofNat_unit (n := 0xDC00 + (c.toNat - 0x10000) % 0x400) (by omega)
    have hpair : ofPair (UInt16.ofNat (0xD800 + (c.toNat - 0x10000) / 0x400))
        (UInt16.ofNat (0xDC00 + (c.toNat - 0x10000) % 0x400)) = c := by
      rw [ofPair, hlead, htrail]
      have hcode : 0x10000 + (0xD800 + (c.toNat - 0x10000) / 0x400 - 0xD800) * 0x400 +
          (0xDC00 + (c.toNat - 0x10000) % 0x400 - 0xDC00) = c.toNat := by omega
      rw [hcode, Char.ofNat_toNat]
    rw [List.cons_append, List.singleton_append, decode, if_pos, if_pos, hpair]
    · simp only [isTrail, htrail, Bool.and_eq_true, decide_eq_true_eq]
      omega
    · simp only [isLead, hlead, Bool.and_eq_true, decide_eq_true_eq]
      omega

/-- **The round trip**, with what follows the text. -/
theorem decode_encode_append (cs : List Char) (us : List UInt16) :
    decode (encode cs ++ us) = (decode us).map (cs ++ ·) := by
  induction cs with
  | nil => simp [encode]
  | cons c cs ih =>
    rw [encode, List.flatMap_cons, List.append_assoc, decode_encodeChar_append, ← encode, ih,
      Option.map_map]
    rfl

/-- A unit below the surrogates comes from its own character. -/
theorem mem_of_mem_encode {n : ℕ} (hn : n < 0xD800) {cs : List Char}
    (h : UInt16.ofNat n ∈ encode cs) : Char.ofNat n ∈ cs := by
  have hunit := toNat_ofNat_unit (show n < 0x10000 by omega)
  obtain ⟨c, hc, hmem⟩ := List.mem_flatMap.mp h
  have hvalid := char_cases c
  unfold encodeChar at hmem
  split at hmem
  case isTrue hsmall =>
    have hcode := congrArg UInt16.toNat (List.mem_singleton.mp hmem)
    rw [hunit, toNat_ofNat_unit hsmall] at hcode
    rwa [hcode, Char.ofNat_toNat]
  case isFalse hlarge =>
    exfalso
    rcases List.mem_cons.mp hmem with hmem | hmem
    · have hcode := congrArg UInt16.toNat hmem
      rw [hunit, toNat_ofNat_unit (by omega)] at hcode
      omega
    · have hcode := congrArg UInt16.toNat (List.mem_singleton.mp hmem)
      rw [hunit, toNat_ofNat_unit (by omega)] at hcode
      omega

end WriteonceOs.Library.Utf16
