import SystemStats.CpuStats

/-!
# The boundary of the cache size

`ReadCPUCacheSize` accumulates the leading digits of a line in 32 signed bits.
Neither the multiplication nor the addition overflows before the value of the
digits read so far does, and that value only grows.
-/

namespace SystemStats.CacheSize
open TextLines DecimalText FormattedInput CpuStats

/-- The value of the longest run of digits that starts the first line. -/
def leadingValue (content : Text) : ℕ :=
  value ((content.takeWhile (· != '\n')).takeWhile Char.isDigit)

theorem le_ofDigitChars (digits : Text) (v : ℕ) : v ≤ Nat.ofDigitChars 10 digits v := by
  rw [Nat.ofDigitChars_eq_ofDigitChars_zero]
  have hpow : 1 * v ≤ 10 ^ digits.length * v :=
    Nat.mul_le_mul_right v (Nat.pow_pos (by decide))
  omega

theorem int32_natCast (v : ℕ) : int32 v = if v ≤ 2 ^ 31 - 1 then some (v : ℤ) else none := by
  rw [int32]
  refine if_congr ?_ rfl rfl
  omega

theorem int32_accumulate (v d : ℕ) :
    (int32 ((v : ℤ) * 10)).bind (fun tens => int32 (tens + d)) =
      int32 ((10 * v + d : ℕ) : ℤ) := by
  have htens : (v : ℤ) * 10 = ((10 * v : ℕ) : ℤ) := by
    push_cast
    exact mul_comm _ _
  rw [htens, int32_natCast]
  by_cases hten : 10 * v ≤ 2 ^ 31 - 1
  · rw [if_pos hten, Option.bind_some, ← Nat.cast_add]
  · have hsum : ¬ 10 * v + d ≤ 2 ^ 31 - 1 := by omega
    rw [if_neg hten, Option.bind_none, int32_natCast, if_neg hsum]

theorem readDigits_cons {c : Char} (hc : c.isDigit = true) (cs : Text) (v : ℕ) :
    readDigits v (c :: cs) =
      (int32 ((10 * v + (c.toNat - '0'.toNat) : ℕ) : ℤ)).bind (readDigits · cs) := by
  rw [← int32_accumulate, Option.bind_assoc, readDigits, if_pos hc]
  rfl

theorem readDigits_eq (cs : Text) {v : ℕ} (hv : v ≤ 2 ^ 31 - 1) :
    readDigits v cs = int32 (Nat.ofDigitChars 10 (cs.takeWhile Char.isDigit) v : ℕ) := by
  induction cs generalizing v with
  | nil => rw [readDigits, List.takeWhile_nil, Nat.ofDigitChars_nil, int32_natCast, if_pos hv]
  | cons c cs ih =>
    by_cases hc : c.isDigit = true
    · set next := 10 * v + (c.toNat - '0'.toNat) with hnext
      rw [readDigits_cons hc, List.takeWhile_cons_of_pos hc, Nat.ofDigitChars_cons, ← hnext,
        int32_natCast next]
      by_cases hfits : next ≤ 2 ^ 31 - 1
      · rw [if_pos hfits, Option.bind_some, ih hfits]
      · have hle := le_ofDigitChars (cs.takeWhile Char.isDigit) next
        have hover : ¬ Nat.ofDigitChars 10 (cs.takeWhile Char.isDigit) next ≤ 2 ^ 31 - 1 := by omega
        rw [if_neg hfits, Option.bind_none, int32_natCast, if_neg hover]
    · rw [List.takeWhile_cons_of_neg hc, Nat.ofDigitChars_nil, readDigits, if_neg hc,
        int32_natCast, if_pos hv]

theorem readCPUCacheSize_eq (content : Text) :
    readCPUCacheSize (some content) = int32 (leadingValue content : ℕ) := by
  cases content with
  | nil => rfl
  | cons c cs => exact readDigits_eq _ (Nat.zero_le _)

theorem leadingValue_decimal (n : ℕ) (rest : Text) :
    leadingValue (decimal n ++ 'K' :: rest) = n := by
  have hline : ∀ c ∈ decimal n, (c != '\n') = true := by
    intro c hc
    have hne : c ≠ '\n' := by
      intro h
      subst h
      exact not_mem_decimal (by decide) hc
    simpa using hne
  have hdigits : ∀ c ∈ decimal n, c.isDigit = true := fun c => isDigit_of_mem_decimal
  rw [leadingValue, List.takeWhile_append_of_pos hline, List.takeWhile_append_of_pos hdigits,
    List.takeWhile_cons_of_pos (by decide), List.takeWhile_cons_of_neg (by decide),
    List.append_nil, value_decimal]

theorem readCPUCacheSize_boundary :
    (∀ content, readCPUCacheSize (some content) =
      if leadingValue content ≤ 2 ^ 31 - 1 then some (leadingValue content : ℤ) else none) ∧
    (∀ n rest, readCPUCacheSize (some (decimal n ++ 'K' :: rest)) =
      if n ≤ 2 ^ 31 - 1 then some (n : ℤ) else none) := by
  have hread : ∀ content, readCPUCacheSize (some content) =
      if leadingValue content ≤ 2 ^ 31 - 1 then some (leadingValue content : ℤ) else none :=
    fun content => (readCPUCacheSize_eq content).trans (int32_natCast _)
  refine ⟨hread, fun n rest => ?_⟩
  rw [hread, leadingValue_decimal]

end SystemStats.CacheSize
