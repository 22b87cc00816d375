import SystemStats.DuckDB
import Mathlib.Tactic.NormNum

/-!
# Memory units

`convertBytes` divides by the size of a unit, rounding down, and `parseUnit`
reads a unit name in any letter case. Two parts of a size lose less than one
unit each, and division by `1000` or `1024` one step at a time is division by
the larger unit at once.
-/

namespace SystemStats.MemoryUnitUtil
open TextLines

inductive MemoryUnit
  | bytes
  | kb
  | kib
  | mb
  | mib
  | gb
  | gib
  | tb
  | tib
  deriving DecidableEq, Repr

def convertBytes (bytes : UInt64) : MemoryUnit → UInt64
  | .bytes => bytes
  | .kb => bytes / 1000
  | .kib => bytes / 1024
  | .mb => bytes / (1000 * 1000)
  | .mib => bytes / (1024 * 1024)
  | .gb => bytes / (1000 * 1000 * 1000)
  | .gib => bytes / (1024 * 1024 * 1024)
  | .tb => bytes / (1000 * 1000 * 1000 * 1000)
  | .tib => bytes / (1024 * 1024 * 1024 * 1024)

def parseUnit (D : DuckDB) (unitStr : Text) : Except Text MemoryUnit :=
  let lowerUnit := D.lower unitStr
  if lowerUnit = "bytes".toList ∨ lowerUnit = "b".toList then .ok .bytes
  else if lowerUnit = "kb".toList then .ok .kb
  else if lowerUnit = "kib".toList then .ok .kib
  else if lowerUnit = "mb".toList then .ok .mb
  else if lowerUnit = "mib".toList then .ok .mib
  else if lowerUnit = "gb".toList then .ok .gb
  else if lowerUnit = "gib".toList then .ok .gib
  else if lowerUnit = "tb".toList then .ok .tb
  else if lowerUnit = "tib".toList then .ok .tib
  else .error (D.format
    "Invalid unit '%s'. Supported units: bytes, KB, KiB, MB, MiB, GB, GiB, TB, TiB".toList
    [unitStr])

namespace MemoryUnit

def size : MemoryUnit → ℕ
  | bytes => 1
  | kb => 1000
  | kib => 1024
  | mb => 1000 ^ 2
  | mib => 1024 ^ 2
  | gb => 1000 ^ 3
  | gib => 1024 ^ 3
  | tb => 1000 ^ 4
  | tib => 1024 ^ 4

def name : MemoryUnit → Text
  | bytes => "bytes".toList
  | kb => "KB".toList
  | kib => "KiB".toList
  | mb => "MB".toList
  | mib => "MiB".toList
  | gb => "GB".toList
  | gib => "GiB".toList
  | tb => "TB".toList
  | tib => "TiB".toList

def Named (unit : MemoryUnit) (s : Text) : Prop := s.map Char.toLower = unit.name.map Char.toLower

instance (unit : MemoryUnit) (s : Text) : Decidable (unit.Named s) :=
  inferInstanceAs (Decidable (_ = _))

theorem size_pos (unit : MemoryUnit) : 0 < unit.size := by
  cases unit <;> decide

def decimalFamily : List MemoryUnit := [bytes, kb, mb, gb, tb]

def binaryFamily : List MemoryUnit := [bytes, kib, mib, gib, tib]

theorem size_decimalFamily {k : ℕ} {unit : MemoryUnit} (h : decimalFamily[k]? = some unit) :
    unit.size = 1000 ^ k := by
  match k, h with
  | 0, h | 1, h | 2, h | 3, h | 4, h =>
    obtain rfl := Option.some.inj h
    rfl

theorem size_binaryFamily {k : ℕ} {unit : MemoryUnit} (h : binaryFamily[k]? = some unit) :
    unit.size = 1024 ^ k := by
  match k, h with
  | 0, h | 1, h | 2, h | 3, h | 4, h =>
    obtain rfl := Option.some.inj h
    rfl

end MemoryUnit

theorem convertBytes_toNat (bytes : UInt64) (unit : MemoryUnit) :
    (convertBytes bytes unit).toNat = bytes.toNat / unit.size := by
  cases unit with
  | bytes => exact (Nat.div_one _).symm
  | _ => exact UInt64.toNat_div _ _

theorem convertBytes_add {a b t : UInt64} (h : a.toNat + b.toNat = t.toNat) (unit : MemoryUnit) :
    (convertBytes a unit).toNat + (convertBytes b unit).toNat ≤ (convertBytes t unit).toNat ∧
      (convertBytes t unit).toNat ≤
        (convertBytes a unit).toNat + (convertBytes b unit).toNat + 1 := by
  simp only [convertBytes_toNat, ← h]
  rw [Nat.add_div unit.size_pos]
  split_ifs <;> omega

theorem convertBytes_iterate (unit : MemoryUnit) (k : ℕ) (bytes : UInt64) :
    ((convertBytes · unit)^[k] bytes).toNat = bytes.toNat / unit.size ^ k := by
  induction k with
  | zero => simp
  | succ k ih => rw [Function.iterate_succ_apply', convertBytes_toNat, ih, Nat.div_div_eq_div_mul,
      pow_succ]

theorem convertBytes_decimalFamily {k : ℕ} {unit : MemoryUnit}
    (h : MemoryUnit.decimalFamily[k]? = some unit) (bytes : UInt64) :
    (convertBytes · .kb)^[k] bytes = convertBytes bytes unit := by
  rw [← UInt64.toNat_inj, convertBytes_iterate, convertBytes_toNat, MemoryUnit.size_decimalFamily h]
  rfl

theorem convertBytes_binaryFamily {k : ℕ} {unit : MemoryUnit}
    (h : MemoryUnit.binaryFamily[k]? = some unit) (bytes : UInt64) :
    (convertBytes · .kib)^[k] bytes = convertBytes bytes unit := by
  rw [← UInt64.toNat_inj, convertBytes_iterate, convertBytes_toNat, MemoryUnit.size_binaryFamily h]
  rfl

variable (D : DuckDB)

theorem parseUnit_of_named {unit : MemoryUnit} {s : Text} (h : unit.Named s) :
    parseUnit D s = .ok unit := by
  rw [parseUnit, D.lower_ascii, h]
  cases unit <;> rfl

theorem parseUnit_error {s : Text} (hname : ∀ unit : MemoryUnit, ¬ unit.Named s)
    (hb : s.map Char.toLower ≠ ['b']) :
    parseUnit D s = .error (D.format
      "Invalid unit '%s'. Supported units: bytes, KB, KiB, MB, MiB, GB, GiB, TB, TiB".toList
      [s]) := by
  rw [parseUnit, D.lower_ascii]
  have hbytes : ¬ (s.map Char.toLower = "bytes".toList ∨ s.map Char.toLower = "b".toList) :=
    not_or.mpr ⟨hname .bytes, hb⟩
  have hkb : s.map Char.toLower ≠ "kb".toList := hname .kb
  have hkib : s.map Char.toLower ≠ "kib".toList := hname .kib
  have hmb : s.map Char.toLower ≠ "mb".toList := hname .mb
  have hmib : s.map Char.toLower ≠ "mib".toList := hname .mib
  have hgb : s.map Char.toLower ≠ "gb".toList := hname .gb
  have hgib : s.map Char.toLower ≠ "gib".toList := hname .gib
  have htb : s.map Char.toLower ≠ "tb".toList := hname .tb
  have htib : s.map Char.toLower ≠ "tib".toList := hname .tib
  rw [if_neg hbytes, if_neg hkb, if_neg hkib, if_neg hmb, if_neg hmib, if_neg hgb, if_neg hgib,
    if_neg htb, if_neg htib]

end SystemStats.MemoryUnitUtil
