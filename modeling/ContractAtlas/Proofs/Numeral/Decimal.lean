import ContractAtlas.Numeral.Integer
import Mathlib.Algebra.Group.Nat.Defs

/-!
# Decimal numerals

The digits that a natural number is written with are read as this number.  Digits of every
script are read, but only the ASCII ones are written, and these have the values they are
commonly given.  What limits the reading is the number of digits.
-/

namespace ContractAtlas

namespace Text

theorem digitValue?_of_isDigit {c : Char} (hdigit : c.isDigit = true) :
    digitValue? c = some (c.toNat - '0'.toNat) := by
  have hbounds : 48 ≤ c.toNat ∧ c.toNat < 58 := by
    simp only [Char.isDigit, Bool.and_eq_true, decide_eq_true_eq, UInt32.le_iff_toNat_le] at hdigit
    exact ⟨hdigit.1, Nat.lt_succ_of_le hdigit.2⟩
  simp [digitValue?, zeroDigits, hbounds]

/-- ASCII digits denote the number they denote in any decimal numeral. -/
theorem digitsValue?_of_isDigit {digits : List Char} (hdigits : ∀ c ∈ digits, c.isDigit = true) :
    digitsValue? digits = some (Nat.ofDigitChars 10 digits 0) := by
  suffices hfold : ∀ value, digits.foldlM (fun value c =>
      (digitValue? c).map (value * 10 + ·)) value = some (Nat.ofDigitChars 10 digits value) from
    hfold 0
  induction digits with
  | nil => exact fun value => rfl
  | cons c rest ih =>
      intro value
      rw [List.forall_mem_cons] at hdigits
      rw [List.foldlM_cons, digitValue?_of_isDigit hdigits.1, Nat.ofDigitChars_cons, Nat.mul_comm]
      exact ih hdigits.2 _

theorem digitsValue?_toDigits (n : Nat) : digitsValue? (Nat.toDigits 10 n) = some n := by
  rw [digitsValue?_of_isDigit, Nat.ofDigitChars_ten_toDigits]
  exact fun c hc => Nat.isDigit_of_mem_toDigits (by decide) (by decide) hc

end Text

namespace Numeral

/-- A number that is written within the limit of digits is read again. -/
theorem ofDigits_toDigits {n : Nat} (hn : n < 10 ^ digitLimit) :
    ofDigits (Nat.toDigits 10 n) = .ok n := by
  have hlength : ¬ digitLimit < (Nat.toDigits 10 n).length :=
    Nat.not_lt.mpr ((Nat.length_toDigits_le_iff (by decide) (by decide)).mpr hn)
  have hne : ¬ (Nat.toDigits 10 n).isEmpty = true := by simp [Nat.toDigits_ne_nil]
  rw [ofDigits, if_neg hne, Text.digitsValue?_toDigits]
  exact if_neg hlength

section Read

variable {digits : List Char} (hdigits : ∀ c ∈ digits, c.isDigit = true)

include hdigits

theorem ne_of_mem_digits {c other : Char} (hc : c ∈ digits) (hother : other.isDigit = false) :
    c ≠ other := by
  rintro rfl
  rw [hdigits c hc] at hother
  contradiction

/-- No digit is a space. -/
theorem trimSpaces_digits : Text.trimSpaces digits = digits := by
  have hspace : ∀ c : Char, c.isDigit = true → Text.isSpace c = false := by
    intro c hc
    have hbounds : 48 ≤ c.toNat ∧ c.toNat ≤ 57 := by
      simpa [Char.isDigit, UInt32.le_iff_toNat_le] using hc
    have hascii : c.toNat < 128 := by omega
    simp only [Text.isSpace, Text.isBlank, hascii, if_true]
    simp
    omega
  have hkept : ∀ chars : List Char, (∀ c ∈ chars, c.isDigit = true) →
      chars.dropWhile Text.isSpace = chars := by
    intro chars hchars
    cases chars with
    | nil => rfl
    | cons c rest =>
        rw [List.dropWhile_cons, hspace c (hchars c List.mem_cons_self)]
        rfl
  rw [Text.trimSpaces, hkept digits hdigits,
    hkept _ fun c hc => hdigits c (List.mem_reverse.mp hc), List.reverse_reverse]

/-- ASCII digits are read as the number they denote, unless they are too many. -/
theorem read_digits (hne : digits ≠ []) :
    read digits = if digitLimit < digits.length then .error (.tooLong digits.length)
      else .ok (Nat.ofDigitChars 10 digits 0 : Int) := by
  have hsign : splitSign digits = (false, digits) := by
    cases digits with
    | nil => rfl
    | cons c rest =>
        have hminus : c ≠ '-' := ne_of_mem_digits hdigits List.mem_cons_self (by decide)
        have hplus : c ≠ '+' := ne_of_mem_digits hdigits List.mem_cons_self (by decide)
        simp [splitSign, hminus, hplus]
  have hgroups : ungroup? digits = some digits := by
    have hfree : ∀ c ∈ digits, (c == '_') = false := fun c hc => by
      simpa using ne_of_mem_digits hdigits hc (by decide)
    rw [ungroup?, List.splitOn_eq_splitOnP, List.splitOnP_eq_singleton hfree]
    simp [hne]
  have hempty : digits.isEmpty = false := by simpa using hne
  simp only [read, trimSpaces_digits hdigits, hsign, hgroups, ofDigits, hempty,
    Text.digitsValue?_of_isDigit hdigits]
  by_cases hlimit : digitLimit < digits.length
  · simp only [hlimit, if_true]
    rfl
  · simp only [hlimit, if_false]
    rfl

end Read

end Numeral

end ContractAtlas
