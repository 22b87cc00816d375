import SystemStats.LineScan
import SystemStats.MemoryStats
import Mathlib.Tactic.Linarith

/-!
# The closed form of the meminfo scan

The five keys are distinct as prefixes, so a line carries at most one of them
and the counter counts the lines that carry a key. The scan therefore consumes
the lines up to the fifth such line, and each field holds the value of the
last consumed line with its key. Both results about the reported sizes are
read off this form.
-/

namespace SystemStats.MeminfoScan
open TextLines DecimalText FormattedInput LineScan MemoryStats

inductive MemKey
  | memTotal
  | memFree
  | cached
  | swapTotal
  | swapFree
  deriving DecidableEq, Repr

namespace MemKey

def label : MemKey → String
  | .memTotal => "MemTotal:"
  | .memFree => "MemFree:"
  | .cached => "Cached:"
  | .swapTotal => "SwapTotal:"
  | .swapFree => "SwapFree:"

def all : List MemKey := [.memTotal, .memFree, .cached, .swapTotal, .swapFree]

theorem mem_all (key : MemKey) : key ∈ all := by cases key <;> decide

def read (info : MemoryInfo) : MemKey → UInt64
  | .memTotal => info.total_memory
  | .memFree => info.free_memory
  | .cached => info.cached_memory
  | .swapTotal => info.total_swap
  | .swapFree => info.free_swap

def write (value : UInt64) (info : MemoryInfo) : MemKey → MemoryInfo
  | .memTotal => { info with total_memory := value }
  | .memFree => { info with free_memory := value }
  | .cached => { info with cached_memory := value }
  | .swapTotal => { info with total_swap := value }
  | .swapFree => { info with free_swap := value }

def starts (key : MemKey) (line : Text) : Bool := key.label.toList.isPrefixOf line

@[simp] theorem read_write_self (value : UInt64) (info : MemoryInfo) (key : MemKey) :
    key.read (key.write value info) = value := by
  cases key <;> rfl

theorem read_write_of_ne (value : UInt64) (info : MemoryInfo) {key other : MemKey}
    (h : key ≠ other) : key.read (other.write value info) = key.read info := by
  cases key <;> cases other <;> first | rfl | exact absurd rfl h

@[simp] theorem read_setUsed (info : MemoryInfo) (key : MemKey) :
    key.read info.setUsed = key.read info := by
  cases key <;> rfl

theorem starts_iff {key : MemKey} {line : Text} :
    key.starts line = true ↔ key.label.toList <+: line :=
  List.isPrefixOf_iff_prefix

theorem label_prefix_unique {key other : MemKey}
    (h : key.label.toList <+: other.label.toList) : key = other := by
  revert h
  cases key <;> cases other <;> decide

theorem eq_of_starts {key other : MemKey} {line : Text} (hk : key.starts line = true)
    (ho : other.starts line = true) : key = other := by
  rcases List.prefix_or_prefix_of_prefix (starts_iff.mp hk) (starts_iff.mp ho) with h | h
  · exact label_prefix_unique h
  · exact (label_prefix_unique h).symm

end MemKey

def isReading (line : Text) : Bool := MemKey.all.any (fun key => key.starts line)

theorem isReading_of_starts {key : MemKey} {line : Text} (h : key.starts line = true) :
    isReading line = true :=
  List.any_eq_true.mpr ⟨key, key.mem_all, h⟩

theorem starts_of_isReading_false {line : Text} (h : isReading line = false) (key : MemKey) :
    key.starts line = false := by
  by_contra hk
  have hs : key.starts line = true := by simpa using hk
  simp [isReading_of_starts hs] at h

theorem find_label_iff {key : MemKey} {line : Text} :
    find key.label line = some 0 ↔ key.starts line = true := by
  rw [find_eq_zero_iff, MemKey.starts_iff]

theorem parseLine_of_starts {key : MemKey} {line : Text} (h : key.starts line = true)
    (info : MemoryInfo) (n : ℕ) :
    parseLine line info n = (key.write (parseBytesValue line) info, n + 1) := by
  have hfind (other : MemKey) : find other.label line = some 0 ↔ other = key := by
    rw [find_label_iff]
    exact ⟨fun ho => MemKey.eq_of_starts ho h, fun he => he ▸ h⟩
  have h1 := hfind .memTotal
  have h2 := hfind .memFree
  have h3 := hfind .cached
  have h4 := hfind .swapTotal
  have h5 := hfind .swapFree
  simp only [MemKey.label] at h1 h2 h3 h4 h5
  simp only [parseLine, h1, h2, h3, h4, h5]
  cases key <;> simp [MemKey.write]

theorem parseLine_of_not_reading {line : Text} (h : isReading line = false) (info : MemoryInfo)
    (n : ℕ) : parseLine line info n = (info, n) := by
  have hfind (key : MemKey) : ¬ find key.label line = some 0 := by
    rw [find_label_iff, starts_of_isReading_false h key]
    simp
  have h1 := hfind .memTotal
  have h2 := hfind .memFree
  have h3 := hfind .cached
  have h4 := hfind .swapTotal
  have h5 := hfind .swapFree
  simp only [MemKey.label] at h1 h2 h3 h4 h5
  simp only [parseLine, h1, h2, h3, h4, h5, ↓reduceIte]

def applyLine (info : MemoryInfo) (line : Text) : MemoryInfo := (parseLine line info 0).1

theorem parseLine_eq (line : Text) (info : MemoryInfo) (n : ℕ) :
    parseLine line info n = (applyLine info line, if isReading line then n + 1 else n) := by
  cases h : isReading line with
  | false => simp [applyLine, parseLine_of_not_reading h]
  | true =>
    obtain ⟨key, -, hk⟩ := List.any_eq_true.mp h
    simp [applyLine, parseLine_of_starts hk]

theorem read_applyLine_of_starts {key : MemKey} {line : Text} (info : MemoryInfo)
    (h : key.starts line = true) : key.read (applyLine info line) = parseBytesValue line := by
  rw [applyLine, parseLine_of_starts h, MemKey.read_write_self]

theorem read_applyLine_of_not_starts {key : MemKey} {line : Text} (info : MemoryInfo)
    (h : key.starts line = false) : key.read (applyLine info line) = key.read info := by
  cases hr : isReading line with
  | false => rw [applyLine, parseLine_of_not_reading hr]
  | true =>
    obtain ⟨other, -, ho⟩ := List.any_eq_true.mp hr
    have hne : key ≠ other := by
      intro hx
      subst hx
      simp [ho] at h
    rw [applyLine, parseLine_of_starts ho, MemKey.read_write_of_ne _ _ hne]

theorem parseLoop_eq (ls : List Text) (info : MemoryInfo) {n : ℕ} (hn : n ≤ 5) :
    parseLoop ls info n = (readUntil isReading (5 - n) ls).foldl applyLine info := by
  induction ls generalizing info n with
  | nil => cases h : 5 - n <;> rfl
  | cons line rest ih =>
    rcases Nat.eq_or_lt_of_le hn with rfl | hlt
    · rfl
    · obtain ⟨m, hm⟩ : ∃ m, 5 - n = m + 1 := ⟨4 - n, by omega⟩
      rw [parseLoop, if_pos hlt, parseLine_eq, hm, readUntil, List.foldl_cons]
      cases hr : isReading line with
      | true =>
        simp only [↓reduceIte]
        rw [ih _ (by omega), show 5 - (n + 1) = m by omega]
      | false =>
        simp only [Bool.false_eq_true, ↓reduceIte]
        rw [ih _ hn, hm]

def lastValue (key : MemKey) (ls : List Text) : UInt64 :=
  ((ls.filter key.starts).getLast?).elim 0 parseBytesValue

/-- The part of the file up to the fifth line that carries one of the keys. -/
def consumed (content : Text) : List Text := readUntil isReading 5 (lines content)

theorem read_foldl (key : MemKey) (ls : List Text) :
    key.read (ls.foldl applyLine {}) = lastValue key ls := by
  have h := foldl_last (fun info => key.read info) (q := key.starts)
    (fun info _ => read_applyLine_of_starts info) (fun info _ => read_applyLine_of_not_starts info)
    ls {}
  rw [h, lastValue]
  cases key <;> rfl

theorem read_getMemoryInfoLinux (key : MemKey) (content : Text) :
    key.read (getMemoryInfoLinux (some content)) = lastValue key (consumed content) := by
  rw [getMemoryInfoLinux, MemKey.read_setUsed, parseLoop_eq _ _ (Nat.zero_le 5), read_foldl]
  rfl

theorem lastValue_consumed {content : Text} (h : (lines content).countP isReading ≤ 5)
    (key : MemKey) : lastValue key (consumed content) = lastValue key (lines content) := by
  rw [lastValue, consumed, filter_readUntil (fun _ => isReading_of_starts) h, lastValue]

theorem lastValue_eq_zero {key : MemKey} {ls : List Text} (h : ∀ l ∈ ls, key.starts l = false) :
    lastValue key ls = 0 := by
  have hnone : ls.filter key.starts = [] := List.filter_eq_nil_iff.mpr (by simpa using h)
  simp [lastValue, hnone]

theorem sub_le_self_iff (a b : UInt64) : a - b ≤ a ↔ b ≤ a := by
  have ha := a.toNat_lt
  have hb := b.toNat_lt
  rw [UInt64.le_iff_toNat_le, UInt64.le_iff_toNat_le, UInt64.toNat_sub]
  omega

/-- Both differences stay below their totals exactly when the consumed lines
report no more free memory than memory and no more free swap than swap. -/
theorem accounted_iff (content : Text) :
    (getMemoryInfoLinux (some content)).Accounted ↔
      lastValue .memFree (consumed content) ≤ lastValue .memTotal (consumed content) ∧
      lastValue .swapFree (consumed content) ≤ lastValue .swapTotal (consumed content) := by
  simp only [← read_getMemoryInfoLinux]
  exact and_congr (sub_le_self_iff _ _) (sub_le_self_iff _ _)

theorem not_accounted_without_memTotal :
    ¬ (getMemoryInfoLinux (some "MemFree: 5 kB\n".toList)).Accounted := by
  decide

end SystemStats.MeminfoScan
