import Mathlib.Data.String.Basic

/-!
# Decimal numerals

* `decimal_injective` — different numbers have different numerals;
* `foldl_decimal` — the value of a numeral, digit by digit;
* `append_left_cancel` — strings after a common beginning.
-/

namespace WriteonceOs.Library

/-- The decimal numeral of a number. -/
def decimal (n : ℕ) : List Char := Nat.toDigits 10 n

theorem toList_toString (n : ℕ) : (toString n).toList = decimal n := Nat.toList_repr

theorem decimal_injective {m n : ℕ} (h : decimal m = decimal n) : m = n := by
  have hm : Nat.ofDigitChars 10 (decimal m) 0 = m := Nat.ofDigitChars_ten_toDigits
  have hn : Nat.ofDigitChars 10 (decimal n) 0 = n := Nat.ofDigitChars_ten_toDigits
  rw [← hm, ← hn, h]

theorem decimal_digits {n : ℕ} {c : Char} (h : c ∈ decimal n) : c.isDigit = true :=
  Nat.isDigit_of_mem_toDigits (by decide) (by decide) h

theorem not_mem_decimal {n : ℕ} {c : Char} (h : c.isDigit = false) : c ∉ decimal n := by
  intro hmem
  rw [decimal_digits hmem] at h
  cases h

theorem decimal_ne_nil (n : ℕ) : decimal n ≠ [] := Nat.toDigits_ne_nil

/-- **The value of a numeral.** -/
theorem foldl_decimal (n : ℕ) :
    (decimal n).foldl (fun v c => v * 10 + (c.toNat - 48)) 0 = n := by
  have h : Nat.ofDigitChars 10 (decimal n) 0 = n := Nat.ofDigitChars_ten_toDigits
  rw [Nat.ofDigitChars_eq_foldl] at h
  simp only [Nat.mul_comm 10] at h
  exact h

/-- The digits of a numeral in any base. -/
theorem mem_toDigits {b n : ℕ} (hb : 1 < b) {c : Char} (h : c ∈ Nat.toDigits b n) :
    ∃ d, c = Nat.digitChar d := by
  induction n using Nat.strongRecOn with
  | ind n ih =>
    by_cases hn : n < b
    · rw [Nat.toDigits_of_lt_base hn] at h
      exact ⟨n, List.mem_singleton.mp h⟩
    · rw [Nat.toDigits_of_base_le hb (Nat.not_lt.mp hn), List.mem_append] at h
      rcases h with h | h
      · exact ih (n / b) (Nat.div_lt_self (by omega) hb) h
      · exact ⟨n % b, List.mem_singleton.mp h⟩

theorem append_left_cancel {p a b : String} (h : p ++ a = p ++ b) : a = b := by
  have hlist := congrArg String.toList h
  rw [String.toList_append, String.toList_append] at hlist
  exact String.toList_inj.mp (List.append_cancel_left hlist)

theorem toString_injective {m n : ℕ} (h : toString m = toString n) : m = n := by
  have hlist := congrArg String.toList h
  rw [toList_toString, toList_toString] at hlist
  exact decimal_injective hlist

end WriteonceOs.Library
