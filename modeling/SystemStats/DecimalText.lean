import SystemStats.TextLines
import Mathlib.Algebra.Order.Ring.Int
import Mathlib.Tactic.Linarith
import Mathlib.Tactic.NormNum

/-!
# Printed and read integers

`decimal` prints a natural number without leading zeros. `readInteger` is the
part of the C conversions that `strtol`, `sscanf` and `std::num_get` share: an
optional sign and the longest run of digits. What a conversion does with a
magnitude that does not fit its type is left to the callers.
-/

namespace DecimalText
open TextLines

def decimal (n : ℕ) : Text := Nat.toDigits 10 n

def decimalInt : ℤ → Text
  | .ofNat n => decimal n
  | .negSucc n => '-' :: decimal (n + 1)

def value (digits : Text) : ℕ := Nat.ofDigitChars 10 digits 0

theorem isDigit_of_mem_decimal {n : ℕ} {c : Char} (h : c ∈ decimal n) : c.isDigit = true :=
  Nat.isDigit_of_mem_toDigits (by decide) (by decide) h

theorem decimal_ne_nil (n : ℕ) : decimal n ≠ [] := Nat.toDigits_ne_nil

theorem value_decimal (n : ℕ) : value (decimal n) = n := Nat.ofDigitChars_ten_toDigits

theorem decimal_length_le {n k : ℕ} (hk : 0 < k) (h : n < 10 ^ k) : (decimal n).length ≤ k :=
  (Nat.length_toDigits_le_iff (by decide) hk).mpr h

theorem decimal_eq_cons (n : ℕ) : ∃ c cs, decimal n = c :: cs ∧ c.isDigit = true := by
  obtain ⟨c, cs, hcs⟩ := List.exists_cons_of_ne_nil (decimal_ne_nil n)
  exact ⟨c, cs, hcs, isDigit_of_mem_decimal (n := n) (by simp [hcs])⟩

theorem not_mem_decimal {n : ℕ} {c : Char} (hc : c.isDigit = false) : c ∉ decimal n := by
  intro h
  simp [isDigit_of_mem_decimal h] at hc

theorem not_mem_decimalInt {i : ℤ} {c : Char} (hc : c.isDigit = false) (hm : c ≠ '-') :
    c ∉ decimalInt i := by
  cases i with
  | ofNat n => exact not_mem_decimal hc
  | negSucc n => simp [decimalInt, hm, not_mem_decimal hc]

theorem decimalInt_length_le {i : ℤ} {k : ℕ} (hneg : -10 ^ k < i) (hpos : i < 10 ^ (k + 1))
    (hk : 0 < k) : (decimalInt i).length ≤ k + 1 := by
  cases i with
  | ofNat n =>
    rw [Int.ofNat_eq_natCast] at hpos
    exact decimal_length_le (Nat.succ_pos k) (by exact_mod_cast hpos)
  | negSucc n =>
    have hn : n + 1 < 10 ^ k := by
      have h : ((n + 1 : ℕ) : ℤ) < ((10 ^ k : ℕ) : ℤ) := by
        rw [Int.negSucc_eq] at hneg
        push_cast
        linarith
      exact_mod_cast h
    simpa [decimalInt] using decimal_length_le hk hn

def readSign : Text → Bool × Text
  | '-' :: t => (true, t)
  | '+' :: t => (false, t)
  | t => (false, t)

def readInteger (t : Text) : Option (Bool × ℕ × Text) :=
  let (negative, body) := readSign t
  let digits := body.takeWhile Char.isDigit
  if digits = [] then none
  else some (negative, value digits, body.dropWhile Char.isDigit)

theorem readSign_of_isDigit {c : Char} (hc : c.isDigit = true) (t : Text) :
    readSign (c :: t) = (false, c :: t) := by
  unfold readSign
  split
  · simp_all [Char.isDigit]
  · simp_all [Char.isDigit]
  · rfl

theorem readInteger_digits (sign : Text) (negative : Bool) (n : ℕ) {rest : Text}
    (hs : readSign (sign ++ (decimal n ++ rest)) = (negative, decimal n ++ rest))
    (hr : Stops Char.isDigit rest) :
    readInteger (sign ++ (decimal n ++ rest)) = some (negative, n, rest) := by
  have hd : ∀ c ∈ decimal n, c.isDigit = true := fun c => isDigit_of_mem_decimal
  simp only [readInteger, hs]
  rw [hr.takeWhile_append hd, hr.dropWhile_append hd, if_neg (decimal_ne_nil n), value_decimal]

theorem readInteger_decimal (n : ℕ) {rest : Text} (hr : Stops Char.isDigit rest) :
    readInteger (decimal n ++ rest) = some (false, n, rest) := by
  refine readInteger_digits [] false n ?_ hr
  obtain ⟨c, cs, hcs, hc⟩ := decimal_eq_cons n
  simp [hcs, readSign_of_isDigit hc]

theorem readInteger_decimalInt (i : ℤ) {rest : Text} (hr : Stops Char.isDigit rest) :
    readInteger (decimalInt i ++ rest) = some (decide (i < 0), i.natAbs, rest) := by
  cases i with
  | ofNat n =>
    have hn : ¬ (n : ℤ) < 0 := not_lt.mpr (Int.natCast_nonneg n)
    simpa [decimalInt, hn] using readInteger_decimal n hr
  | negSucc n =>
    have h := readInteger_digits ['-'] true (n + 1) rfl hr
    simpa [decimalInt, Int.negSucc_lt_zero] using h

theorem decimalInt_stops_space (i : ℤ) (rest : Text) : Stops isSpace (decimalInt i ++ rest) := by
  cases i with
  | ofNat n =>
    obtain ⟨c, cs, hcs, hc⟩ := decimal_eq_cons n
    simpa [Stops, decimalInt, hcs] using isSpace_of_isDigit hc
  | negSucc n => simp [Stops, decimalInt, isSpace]

end DecimalText
