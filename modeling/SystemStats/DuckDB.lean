import SystemStats.DecimalText

/-!
# The host library

What the extension calls in DuckDB is a parameter: functions together with the
documented facts the extension relies on. `none` is a thrown exception or a
failed cast. `reference` is one instance, used to run the models.
-/

namespace SystemStats
open TextLines DecimalText

structure DuckDB where
  /-- `StringUtil::Lower` -/
  lower : Text → Text
  lower_ascii : ∀ s, lower s = s.map Char.toLower
  /-- `NumericCast<uint64_t>` of a value of any integer type -/
  numericCast : ℤ → Option UInt64
  numericCast_fits : ∀ v : UInt64, numericCast v.toNat = some v
  /-- `TrySimpleIntegerCast<int32_t>` -/
  trySimpleIntegerCast : Text → Option ℤ
  trySimpleIntegerCast_range : ∀ s v, trySimpleIntegerCast s = some v → -2 ^ 31 ≤ v ∧ v < 2 ^ 31
  /-- `StringUtil::Format` with text arguments -/
  format : Text → List Text → Text
  /-- `Value::StringIsValid`: the text is UTF-8, or `Value(string)` throws -/
  stringIsValid : Text → Bool

namespace DuckDB

def castUInt64 (v : ℤ) : Option UInt64 :=
  if 0 ≤ v ∧ v < 2 ^ 64 then some (UInt64.ofNat v.toNat) else none

theorem castUInt64_fits (v : UInt64) : castUInt64 v.toNat = some v := by
  have hv : 0 ≤ (v.toNat : ℤ) ∧ (v.toNat : ℤ) < 2 ^ 64 :=
    ⟨Int.natCast_nonneg _, by exact_mod_cast v.toNat_lt⟩
  rw [castUInt64, if_pos hv, Int.toNat_natCast, UInt64.ofNat_toNat]

def castInt32 (s : Text) : Option ℤ :=
  match readInteger s with
  | some (negative, n, []) =>
    let v : ℤ := if negative then -n else n
    if -2 ^ 31 ≤ v ∧ v < 2 ^ 31 then some v else none
  | _ => none

theorem castInt32_range (s : Text) (v : ℤ) (h : castInt32 s = some v) :
    -2 ^ 31 ≤ v ∧ v < 2 ^ 31 := by
  unfold castInt32 at h
  split at h
  · dsimp only at h
    split_ifs at h with hneg hrange
    all_goals
      obtain rfl := Option.some.inj h
      assumption
  · cases h

def formatText : Text → List Text → Text
  | '%' :: 's' :: t, a :: as => a ++ formatText t as
  | c :: t, as => c :: formatText t as
  | [], _ => []

/-- The continuation bytes that a UTF-8 text still owes, and the range of the next one. -/
structure Utf8 where
  pending : ℕ := 0
  lo : ℕ := 0x80
  hi : ℕ := 0xBF

def Utf8.step (s : Utf8) (c : Char) : Option Utf8 :=
  let b := c.toNat
  if s.pending ≠ 0 then
    if s.lo ≤ b ∧ b ≤ s.hi then some { pending := s.pending - 1 } else none
  else if b < 0x80 then some {}
  else if 0xC2 ≤ b ∧ b ≤ 0xDF then some { pending := 1 }
  else if b = 0xE0 then some { pending := 2, lo := 0xA0 }
  else if b = 0xED then some { pending := 2, hi := 0x9F }
  else if 0xE1 ≤ b ∧ b ≤ 0xEF then some { pending := 2 }
  else if b = 0xF0 then some { pending := 3, lo := 0x90 }
  else if b = 0xF4 then some { pending := 3, hi := 0x8F }
  else if 0xF1 ≤ b ∧ b ≤ 0xF3 then some { pending := 3 }
  else none

def isUtf8 (s : Text) : Bool := (s.foldlM Utf8.step {}).any (·.pending == 0)

example : isUtf8 "/mnt/\xFF".toList = false := by decide

def reference : DuckDB where
  lower := List.map Char.toLower
  lower_ascii _ := rfl
  numericCast := castUInt64
  numericCast_fits := castUInt64_fits
  trySimpleIntegerCast := castInt32
  trySimpleIntegerCast_range := castInt32_range
  format := formatText
  stringIsValid := isUtf8

end DuckDB

end SystemStats
