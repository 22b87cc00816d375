import SystemStats.CpuStats
import SystemStats.ListCounts
import Mathlib.Tactic.FinCases

/-!
# The CPU counts

Three keys of `/proc/cpuinfo` move three counters: `cpu MHz` the logical count,
`processor` the count that may replace both in the end, and `physical id` a
running maximum of `id + 1`. The closed form of the scan shows when that maximum
is the number of distinct ids and when the counts are ordered.
-/

namespace SystemStats.CpuCounts
open TextLines FormattedInput ListCounts CpuStats

def hasKey (name : String) (line : Text) : Bool :=
  (keyValue line).any (fun kv => isKey name kv.1)

def physicalId (D : DuckDB) (line : Text) : Option ℤ :=
  (keyValue line).bind (fun (key, value) =>
    if isKey "physical id" key then D.trySimpleIntegerCast value else none)

def mhzLines (content : Text) : ℕ := (lines content).countP (hasKey "cpu MHz")

def processorLines (content : Text) : ℕ := (lines content).countP (hasKey "processor")

def physicalIds (D : DuckDB) (content : Text) : List ℤ := (lines content).filterMap (physicalId D)

variable {D : DuckDB}

structure Counters where
  logical : ℤ
  physical : ℤ
  processors : ℤ
  deriving DecidableEq, Repr

def counters (s : CpuScan) : Counters :=
  ⟨s.info.logical_cpus, s.info.physical_cpus, s.processor_count⟩

def Counters.after (D : DuckDB) (c : Counters) (line : Text) : Counters where
  logical := c.logical + if hasKey "cpu MHz" line then 1 else 0
  physical := (physicalId D line).elim c.physical (fun i => max c.physical (i + 1))
  processors := c.processors + if hasKey "processor" line then 1 else 0

def Counters.Fits (D : DuckDB) (c : Counters) (line : Text) : Prop :=
  (c.after D line).logical < 2 ^ 31 ∧ (c.after D line).processors < 2 ^ 31 ∧
    physicalId D line ≠ some (2 ^ 31 - 1)

instance (c : Counters) (line : Text) : Decidable (c.Fits D line) :=
  inferInstanceAs (Decidable (_ ∧ _ ∧ _))

structure Counters.Bounded (c : Counters) : Prop where
  logical : 0 ≤ c.logical ∧ c.logical < 2 ^ 31
  processors : 0 ≤ c.processors ∧ c.processors < 2 ^ 31

theorem isKey_eq {name other : String} {key : Text} (h : isKey name key = true) :
    isKey other key = decide (name = other) := by
  rw [isKey, beq_iff_eq] at h
  subst h
  rw [isKey, Bool.beq_eq_decide_eq, decide_eq_decide, String.toList_inj]

theorem int32_succ_id {value : Text} {i : ℤ} (h : D.trySimpleIntegerCast value = some i) :
    int32 (i + 1) = if i = 2 ^ 31 - 1 then none else some (i + 1) := by
  have hrange := D.trySimpleIntegerCast_range value i h
  rw [int32]
  split_ifs <;> first | rfl | omega

def Counts (D : DuckDB) (s : CpuScan) (line : Text) : Prop :=
  (scanLine D s line).map counters =
    if (counters s).Fits D line then some ((counters s).after D line) else none

theorem counts_of_increment {s : CpuScan} {line : Text} {v : ℤ} (hv : 0 ≤ v) {f : ℤ → CpuScan}
    (hscan : scanLine D s line = (int32 (v + 1)).map f)
    (hafter : (counters s).after D line = counters (f (v + 1)))
    (hfits : (counters s).Fits D line ↔ v + 1 < 2 ^ 31) : Counts D s line := by
  rw [Counts, hscan, int32_succ_of_nonneg hv, hafter]
  by_cases hlt : v + 1 < 2 ^ 31
  · rw [if_pos hlt, if_pos (hfits.mpr hlt)]
    rfl
  · rw [if_neg hlt, if_neg (hfits.not.mpr hlt)]
    rfl

section Keys

variable {s : CpuScan} (hs : (counters s).Bounded) {line key value : Text}

include hs

theorem counts_mhz (hkv : keyValue line = some (key, value)) (h : isKey "cpu MHz" key = true) :
    Counts D s line := by
  have hkey : ∀ other, isKey other key = decide ("cpu MHz" = other) := fun _ => isKey_eq h
  have hid : physicalId D line = none := by simp [physicalId, hkv, hkey]
  have hafter : (counters s).after D line =
      { counters s with logical := (counters s).logical + 1 } := by
    simp [Counters.after, hasKey, hid, hkv, hkey]
  refine counts_of_increment hs.logical.1 (f := fun n => { s with info.logical_cpus := n }) ?_
    hafter ?_
  · simp [scanLine, hkv, hkey, counters]
  · rw [Counters.Fits, hafter, hid]
    exact ⟨And.left, fun hlt => ⟨hlt, hs.processors.2, nofun⟩⟩

theorem counts_processor (hkv : keyValue line = some (key, value))
    (h : isKey "processor" key = true) : Counts D s line := by
  have hkey : ∀ other, isKey other key = decide ("processor" = other) := fun _ => isKey_eq h
  have hid : physicalId D line = none := by simp [physicalId, hkv, hkey]
  have hafter : (counters s).after D line =
      { counters s with processors := (counters s).processors + 1 } := by
    simp [Counters.after, hasKey, hid, hkv, hkey]
  refine counts_of_increment hs.processors.1 (f := fun n => { s with processor_count := n }) ?_
    hafter ?_
  · simp [scanLine, hkv, hkey, counters]
  · rw [Counters.Fits, hafter, hid]
    exact ⟨fun hfits => hfits.2.1, fun hlt => ⟨hs.logical.2, hlt, nofun⟩⟩

theorem counts_physicalId (hkv : keyValue line = some (key, value))
    (h : isKey "physical id" key = true) {i : ℤ} (hcast : D.trySimpleIntegerCast value = some i) :
    Counts D s line := by
  have hkey : ∀ other, isKey other key = decide ("physical id" = other) := fun _ => isKey_eq h
  have hid : physicalId D line = some i := by simp [physicalId, hkv, hkey, hcast]
  have hafter : (counters s).after D line =
      { counters s with physical := max (counters s).physical (i + 1) } := by
    simp [Counters.after, hasKey, hid, hkv, hkey]
  have hfits : (counters s).Fits D line ↔ i ≠ 2 ^ 31 - 1 := by
    rw [Counters.Fits, hafter, hid, Ne, Option.some_inj]
    exact ⟨fun hfits => hfits.2.2, fun hne => ⟨hs.logical.2, hs.processors.2, hne⟩⟩
  have hscan : scanLine D s line = (int32 (i + 1)).map (fun n =>
      if n > s.info.physical_cpus then { s with info.physical_cpus := n } else s) := by
    simp [scanLine, hkv, hkey, hcast]
  rw [Counts, hscan, int32_succ_id hcast, hafter]
  by_cases hmax : i = 2 ^ 31 - 1
  · rw [if_pos hmax, if_neg (hfits.not.mpr (not_not.mpr hmax))]
    rfl
  · rw [if_neg hmax, if_pos (hfits.mpr hmax)]
    simp only [Option.map_some, counters]
    split_ifs with hgt
    · rw [max_eq_right (le_of_lt hgt)]
    · rw [max_eq_left (not_lt.mp hgt)]

theorem counts_other (hmhz : hasKey "cpu MHz" line = false)
    (hproc : hasKey "processor" line = false) (hid : physicalId D line = none) :
    Counts D s line := by
  have hafter : (counters s).after D line = counters s := by
    simp [Counters.after, hmhz, hproc, hid]
  have hfits : (counters s).Fits D line := by
    rw [Counters.Fits, hafter, hid]
    exact ⟨hs.logical.2, hs.processors.2, nofun⟩
  rw [Counts, if_pos hfits, hafter]
  cases hkv : keyValue line with
  | none => simp only [scanLine, hkv, Option.map_some]
  | some kv =>
    obtain ⟨key, value⟩ := kv
    simp only [hasKey, physicalId, hkv, Option.any_some, Option.bind_some] at hmhz hproc hid
    -- Every other branch leaves the three counters as they are.
    by_cases hphysical : isKey "physical id" key = true
    · rw [if_pos hphysical] at hid
      simp only [scanLine, hkv, hmhz, hphysical, hid, Bool.false_eq_true, ↓reduceIte,
        apply_ite (Option.map counters), Option.map_some, counters, ite_self]
    · simp only [scanLine, hkv, hmhz, hproc, hphysical, Bool.false_eq_true, ↓reduceIte,
        apply_ite (Option.map counters), apply_ite counters, Option.map_some]
      simp only [counters, ite_self]

theorem scanLine_counts (line : Text) : Counts D s line := by
  cases hkv : keyValue line with
  | none =>
    have hno : ∀ name, hasKey name line = false := fun name => by simp [hasKey, hkv]
    exact counts_other hs (hno _) (hno _) (by simp [physicalId, hkv])
  | some kv =>
    obtain ⟨key, value⟩ := kv
    by_cases hmhz : isKey "cpu MHz" key = true
    · exact counts_mhz hs hkv hmhz
    by_cases hproc : isKey "processor" key = true
    · exact counts_processor hs hkv hproc
    cases hid : physicalId D line with
    | none => exact counts_other hs (by simp [hasKey, hkv, hmhz]) (by simp [hasKey, hkv, hproc]) hid
    | some i =>
      simp only [physicalId, hkv, Option.bind_some] at hid
      split_ifs at hid with hphys
      exact counts_physicalId hs hkv hphys hid

end Keys

structure Counters.FitsAll (D : DuckDB) (c : Counters) (ls : List Text) : Prop where
  logical : c.logical + ls.countP (hasKey "cpu MHz") < 2 ^ 31
  processors : c.processors + ls.countP (hasKey "processor") < 2 ^ 31
  ids : (2 ^ 31 - 1 : ℤ) ∉ ls.filterMap (physicalId D)

def Counters.afterAll (D : DuckDB) (c : Counters) (ls : List Text) : Counters where
  logical := c.logical + ls.countP (hasKey "cpu MHz")
  physical := boundFrom c.physical (ls.filterMap (physicalId D))
  processors := c.processors + ls.countP (hasKey "processor")

theorem Counters.afterAll_cons (c : Counters) (line : Text) (ls : List Text) :
    c.afterAll D (line :: ls) = (c.after D line).afterAll D ls := by
  simp only [afterAll, after, List.countP_cons, Counters.mk.injEq]
  refine ⟨?_, ?_, ?_⟩
  · split_ifs <;> omega
  · cases hid : physicalId D line with
    | none => rw [List.filterMap_cons_none hid, Option.elim_none]
    | some i => rw [List.filterMap_cons_some hid]; rfl
  · split_ifs <;> omega

theorem Counters.fitsAll_cons {c : Counters} {line : Text} {ls : List Text} :
    c.FitsAll D (line :: ls) ↔ c.Fits D line ∧ (c.after D line).FitsAll D ls := by
  have hall := c.afterAll_cons (D := D) line ls
  simp only [afterAll, Counters.mk.injEq] at hall
  obtain ⟨hlog, _, hpro⟩ := hall
  have hids : (2 ^ 31 - 1 : ℤ) ∉ (line :: ls).filterMap (physicalId D) ↔
      physicalId D line ≠ some (2 ^ 31 - 1) ∧ (2 ^ 31 - 1 : ℤ) ∉ ls.filterMap (physicalId D) := by
    rw [List.mem_filterMap, List.mem_filterMap, List.exists_mem_cons_iff, not_or]
  constructor
  · intro hx
    obtain ⟨h1, h2, h3⟩ := hx
    rw [hlog] at h1
    rw [hpro] at h2
    obtain ⟨hid, hrest⟩ := hids.mp h3
    exact ⟨⟨by omega, by omega, hid⟩, ⟨h1, h2, hrest⟩⟩
  · intro hx
    obtain ⟨⟨_, _, hid⟩, h1, h2, h3⟩ := hx
    exact ⟨hlog ▸ h1, hpro ▸ h2, hids.mpr ⟨hid, h3⟩⟩

theorem Counters.Bounded.after {c : Counters} (hc : c.Bounded) {line : Text}
    (h : c.Fits D line) : (c.after D line).Bounded := by
  refine ⟨⟨?_, h.1⟩, ?_, h.2.1⟩
  · have := hc.logical.1
    simp only [Counters.after]
    split_ifs <;> omega
  · have := hc.processors.1
    simp only [Counters.after]
    split_ifs <;> omega

theorem scanLines_counters {s : CpuScan} (hs : (counters s).Bounded) {ls : List Text}
    {c : Counters} :
    (scanLines D s ls).map counters = some c ↔
      (counters s).FitsAll D ls ∧ (counters s).afterAll D ls = c := by
  induction ls generalizing s with
  | nil =>
    have hfits : (counters s).FitsAll D [] := by
      refine ⟨?_, ?_, List.not_mem_nil⟩
      · simpa using hs.logical.2
      · simpa using hs.processors.2
    have hafter : (counters s).afterAll D [] = counters s := by simp [Counters.afterAll, boundFrom]
    rw [hafter, scanLines, Option.map_some, Option.some_inj, and_iff_right hfits]
  | cons line ls ih =>
    have hstep : Counts D s line := scanLine_counts hs line
    rw [Counts] at hstep
    rw [Counters.fitsAll_cons, Counters.afterAll_cons, scanLines]
    cases hrun : scanLine D s line with
    | none =>
      have hfits : ¬ (counters s).Fits D line := by
        intro hfits
        rw [hrun, if_pos hfits] at hstep
        cases hstep
      simp [hfits]
    | some s' =>
      have hfits : (counters s).Fits D line := by
        by_contra hfits
        rw [hrun, if_neg hfits] at hstep
        cases hstep
      rw [hrun, if_pos hfits, Option.map_some, Option.some_inj] at hstep
      have hs' : (counters s').Bounded := hstep ▸ hs.after hfits
      rw [Option.bind_some, ih hs', hstep, and_iff_right hfits]

theorem scanLines_of_zero {info : CPUInfo} (hzero : counters { info } = ⟨0, 0, 0⟩)
    {ls : List Text} {c : Counters} :
    (scanLines D { info } ls).map counters = some c ↔
      (⟨0, 0, 0⟩ : Counters).FitsAll D ls ∧ (⟨0, 0, 0⟩ : Counters).afterAll D ls = c := by
  have hbounded : (counters { info }).Bounded := by
    rw [hzero]
    exact ⟨by norm_num, by norm_num⟩
  rw [scanLines_counters hbounded, hzero]

structure InRange (D : DuckDB) (cache : CacheFiles) (content : Text) : Prop where
  caches : ∀ i, readCPUCacheSize (cache i) ≠ none
  logical : mhzLines content < 2 ^ 31
  processors : processorLines content < 2 ^ 31
  ids : (2 ^ 31 - 1 : ℤ) ∉ physicalIds D content

def logicalCount (content : Text) : ℕ :=
  if mhzLines content = 0 then processorLines content else mhzLines content

def physicalCount (D : DuckDB) (content : Text) : ℤ :=
  if mhzLines content = 0 ∧ 0 < processorLines content then processorLines content
  else boundFrom 0 (physicalIds D content)

def reported (info : CPUInfo) : ℤ × ℤ := (info.logical_cpus, info.physical_cpus)

def Counters.reported (c : Counters) : ℤ × ℤ :=
  if c.processors > 0 ∧ c.logical = 0 then (c.processors, c.processors) else (c.logical, c.physical)

theorem reported_fallback (s : CpuScan) :
    CpuCounts.reported (fallback D s) = (counters s).reported := by
  rw [fallback, Counters.reported]
  by_cases h : (counters s).processors > 0 ∧ (counters s).logical = 0
  · have h' : s.processor_count > 0 ∧ s.info.logical_cpus = 0 := h
    rw [if_pos h, if_pos h']
    dsimp only
    split_ifs <;> rfl
  · have h' : ¬ (s.processor_count > 0 ∧ s.info.logical_cpus = 0) := h
    rw [if_neg h, if_neg h']
    rfl

theorem afterAll_lines (content : Text) : (⟨0, 0, 0⟩ : Counters).afterAll D (lines content) =
    ⟨mhzLines content, boundFrom 0 (physicalIds D content), processorLines content⟩ := by
  simp [Counters.afterAll, mhzLines, processorLines, physicalIds]

theorem reported_afterAll (content : Text) :
    ((⟨0, 0, 0⟩ : Counters).afterAll D (lines content)).reported =
      ((logicalCount content : ℤ), physicalCount D content) := by
  rw [afterAll_lines, Counters.reported, logicalCount, physicalCount]
  by_cases hmhz : mhzLines content = 0
  · by_cases hproc : 0 < processorLines content
    · simp [hmhz, hproc]
    · have hzero : processorLines content = 0 := by omega
      simp [hmhz, hzero]
  · simp [hmhz]

def CountersFit (D : DuckDB) (content : Text) : Prop :=
  mhzLines content < 2 ^ 31 ∧ processorLines content < 2 ^ 31 ∧
    (2 ^ 31 - 1 : ℤ) ∉ physicalIds D content

instance (content : Text) : Decidable (CountersFit D content) :=
  inferInstanceAs (Decidable (_ ∧ _ ∧ _))

theorem fitsAll_lines_iff (content : Text) :
    (⟨0, 0, 0⟩ : Counters).FitsAll D (lines content) ↔ CountersFit D content := by
  constructor
  · intro hx
    obtain ⟨h1, h2, h3⟩ := hx
    simp only [zero_add] at h1 h2
    exact ⟨by exact_mod_cast h1, by exact_mod_cast h2, h3⟩
  · intro hx
    obtain ⟨h1, h2, h3⟩ := hx
    refine ⟨?_, ?_, h3⟩ <;> simp only [zero_add]
    · exact_mod_cast h1
    · exact_mod_cast h2

theorem scanLines_reported (info : CPUInfo) (hzero : counters { info } = ⟨0, 0, 0⟩)
    (content : Text) (q : ℤ × ℤ) :
    ((scanLines D { info } (lines content)).map (fallback D)).map reported = some q ↔
      CountersFit D content ∧ ((logicalCount content : ℤ), physicalCount D content) = q := by
  rw [Option.map_map, Option.map_eq_some_iff, ← fitsAll_lines_iff]
  constructor
  · intro hx
    obtain ⟨s, hrun, rfl⟩ := hx
    have hcounters : (scanLines D { info } (lines content)).map counters = some (counters s) := by
      rw [hrun, Option.map_some]
    obtain ⟨hall, hafter⟩ := (scanLines_of_zero hzero).mp hcounters
    refine ⟨hall, ?_⟩
    rw [← reported_afterAll, hafter]
    exact (reported_fallback s).symm
  · intro hx
    obtain ⟨hall, rfl⟩ := hx
    obtain ⟨s, hrun, hafter⟩ := Option.map_eq_some_iff.mp
      ((scanLines_of_zero hzero).mpr ⟨hall, rfl⟩)
    refine ⟨s, hrun, ?_⟩
    rw [Function.comp_apply, reported_fallback, hafter, reported_afterAll]

theorem getCPUInfoLinux_reported (uname : Option Text) (bigEndian : Bool) (cache : CacheFiles)
    (content : Text) (q : ℤ × ℤ) :
    (getCPUInfoLinux D uname bigEndian cache (some content)).map reported = some q ↔
      InRange D cache content ∧ ((logicalCount content : ℤ), physicalCount D content) = q := by
  by_cases hcaches : ∀ i, readCPUCacheSize (cache i) ≠ none
  · choose kb hkb using fun i => Option.ne_none_iff_exists'.mp (hcaches i)
    simp only [getCPUInfoLinux, hkb, Option.bind_eq_bind, Option.bind_some]
    rw [scanLines_reported _ rfl]
    refine and_congr_left' ⟨?_, ?_⟩
    · intro hx
      obtain ⟨h1, h2, h3⟩ := hx
      exact ⟨hcaches, h1, h2, h3⟩
    · intro hx
      obtain ⟨_, h1, h2, h3⟩ := hx
      exact ⟨h1, h2, h3⟩
  · have hrun : getCPUInfoLinux D uname bigEndian cache (some content) = none := by
      obtain ⟨i, hi⟩ := not_forall_not.mp hcaches
      fin_cases i <;> simp_all [getCPUInfoLinux]
    rw [hrun]
    exact iff_of_false nofun fun h => hcaches h.1.caches

def Returns (D : DuckDB) (uname : Option Text) (bigEndian : Bool) (cache : CacheFiles)
    (content : Text) (P : ℤ → ℤ → Prop) : Prop :=
  ∃ info, getCPUInfoLinux D uname bigEndian cache (some content) = some info ∧
    P info.logical_cpus info.physical_cpus

theorem returns_iff {uname : Option Text} {bigEndian : Bool} {cache : CacheFiles} {content : Text}
    {P : ℤ → ℤ → Prop} : Returns D uname bigEndian cache content P ↔
      InRange D cache content ∧ P (logicalCount content) (physicalCount D content) := by
  constructor
  · intro hx
    obtain ⟨info, hrun, hP⟩ := hx
    have hmap : (getCPUInfoLinux D uname bigEndian cache (some content)).map reported =
        some (reported info) := by rw [hrun, Option.map_some]
    obtain ⟨hrange, hq⟩ := (getCPUInfoLinux_reported ..).mp hmap
    obtain ⟨h1, h2⟩ := Prod.mk.inj hq
    exact ⟨hrange, by rwa [h1, h2]⟩
  · intro hx
    obtain ⟨hrange, hP⟩ := hx
    obtain ⟨info, hrun, hq⟩ := Option.map_eq_some_iff.mp
      ((getCPUInfoLinux_reported uname bigEndian cache content _).mpr ⟨hrange, rfl⟩)
    obtain ⟨h1, h2⟩ := Prod.mk.inj hq
    exact ⟨info, hrun, by rwa [h1, h2]⟩

def NoGap (ids : List ℤ) : Prop := ∀ i ∈ ids, ∀ j, 0 ≤ j → j < i → j ∈ ids

/-- The physical count is the number of distinct ids exactly when the ids start
at `0` without a gap, or the fallback replaces it and there is one `processor`
line for each id. -/
theorem physicalCpus_eq_distinct_iff (D : DuckDB) (uname : Option Text) (bigEndian : Bool)
    (cache : CacheFiles) (content : Text) :
    Returns D uname bigEndian cache content
        (fun _ physical => physical = (naturals (physicalIds D content)).length) ↔
      InRange D cache content ∧
        if mhzLines content = 0 ∧ 0 < processorLines content then
          processorLines content = (naturals (physicalIds D content)).length
        else NoGap (physicalIds D content) := by
  rw [returns_iff, physicalCount]
  refine and_congr_right fun _ => ?_
  split_ifs with hfallback
  · exact Int.natCast_inj
  · exact boundFrom_eq_length_iff _

def twoSockets : Text :=
  ["processor : 0\nphysical id : 0\ncpu MHz : 2\n",
    "processor : 1\nphysical id : 2\ncpu MHz : 2\n"].flatMap String.toList

theorem twoSockets_not_distinct :
    (∃ i ∈ physicalIds .reference twoSockets, 0 ≤ i) ∧
      ¬ Returns .reference none false (fun _ => none) twoSockets
        (fun _ physical => physical = (naturals (physicalIds .reference twoSockets)).length) := by
  have hids : physicalIds .reference twoSockets = [0, 2] := by decide +kernel
  have hcount : physicalCount .reference twoSockets = 3 := by decide +kernel
  rw [returns_iff, hids, hcount]
  exact ⟨⟨0, by decide, le_rfl⟩, fun h => absurd h.2 (by decide)⟩

theorem counts_ordered_iff (D : DuckDB) (uname : Option Text) (bigEndian : Bool)
    (cache : CacheFiles) {content : Text} (hproc : 0 < processorLines content) :
    Returns D uname bigEndian cache content
        (fun logical physical => 1 ≤ physical ∧ physical ≤ logical) ↔
      InRange D cache content ∧ (mhzLines content = 0 ∨
        (∃ i ∈ physicalIds D content, 0 ≤ i) ∧
          ∀ i ∈ physicalIds D content, i < mhzLines content) := by
  rw [returns_iff, physicalCount, logicalCount]
  refine and_congr_right fun _ => ?_
  by_cases hmhz : mhzLines content = 0
  · simp only [hmhz, hproc, and_self, ↓reduceIte, true_or, le_refl, and_true, iff_true]
    exact_mod_cast hproc
  · have hcount : (0 : ℤ) ≤ mhzLines content := Int.natCast_nonneg _
    rw [if_neg (fun h => hmhz h.1), if_neg hmhz, or_iff_right hmhz, boundFrom_le_iff,
      and_iff_right hcount]
    exact and_congr_left' boundFrom_pos_iff

theorem counts_ordered_arm :
    Returns .reference none false (fun _ => none) "processor : 0\nBogoMIPS : 50\n".toList
      (fun logical physical => 1 ≤ physical ∧ physical ≤ logical) := by
  refine (counts_ordered_iff .reference none false (fun _ => none)
    (show 0 < processorLines "processor : 0\nBogoMIPS : 50\n".toList by decide +kernel)).mpr ?_
  refine ⟨⟨fun _ => nofun, ?_, ?_, ?_⟩, Or.inl ?_⟩ <;> decide +kernel

theorem virtualMachine_no_physical :
    0 < processorLines "processor : 0\ncpu MHz : 2\n".toList ∧
      ¬ Returns .reference none false (fun _ => none) "processor : 0\ncpu MHz : 2\n".toList
        (fun logical physical => 1 ≤ physical ∧ physical ≤ logical) := by
  have hcount : physicalCount .reference "processor : 0\ncpu MHz : 2\n".toList = 0 := by
    decide +kernel
  rw [returns_iff, hcount]
  exact ⟨by decide +kernel, fun h => absurd h.2.1 (by decide)⟩

/-- What is set when the scan starts, which is all where the file cannot be opened;
`none` when a cache size overflows. -/
def startInfo (D : DuckDB) (uname : Option Text) (bigEndian : Bool) (cache : CacheFiles) :
    Option CPUInfo := getCPUInfoLinux D uname bigEndian cache none

theorem getCPUInfoLinux_eq (uname : Option Text) (bigEndian : Bool) (cache : CacheFiles)
    (content : Text) :
    getCPUInfoLinux D uname bigEndian cache (some content) =
      (startInfo D uname bigEndian cache).bind
        (fun info => (scanLines D { info } (lines content)).map (fallback D)) := by
  simp only [startInfo, getCPUInfoLinux, Option.bind_eq_bind, Option.bind_assoc]
  rfl

section Start

variable {uname : Option Text} {bigEndian : Bool} {cache : CacheFiles} {info : CPUInfo}
  (hstart : startInfo D uname bigEndian cache = some info)

include hstart

theorem startInfo_unset :
    info.model_name = [] ∧ info.logical_cpus = 0 ∧ info.physical_cpus = 0 := by
  simp only [startInfo, getCPUInfoLinux, Option.bind_eq_bind, Option.bind_eq_some_iff] at hstart
  obtain ⟨l1d, -, l1i, -, l2, -, l3, -, hinfo⟩ := hstart
  obtain rfl := Option.some.inj hinfo
  exact ⟨rfl, rfl, rfl⟩

theorem startInfo_counters : counters { info } = ⟨0, 0, 0⟩ := by
  obtain ⟨-, hlogical, hphysical⟩ := startInfo_unset hstart
  simp [counters, hlogical, hphysical]

end Start

def CountsStayInRange (D : DuckDB) (info : CPUInfo) (content : Text) : Prop :=
  ∀ n, ∃ s, scanLines D { info } ((lines content).take n) = some s ∧
    0 ≤ s.info.physical_cpus ∧ 0 ≤ s.info.logical_cpus

theorem fitsAll_of_length {ls : List Text} (hlength : ls.length < 2 ^ 31)
    (hids : (2 ^ 31 - 1 : ℤ) ∉ ls.filterMap (physicalId D)) :
    (⟨0, 0, 0⟩ : Counters).FitsAll D ls := by
  have hcount (p : Text → Bool) : 0 + ((ls.countP p : ℕ) : ℤ) < 2 ^ 31 := by
    have hle : ls.countP p ≤ ls.length := List.countP_le_length
    omega
  exact ⟨hcount _, hcount _, hids⟩

theorem afterAll_nonneg (ls : List Text) :
    0 ≤ ((⟨0, 0, 0⟩ : Counters).afterAll D ls).physical ∧
      0 ≤ ((⟨0, 0, 0⟩ : Counters).afterAll D ls).logical := by
  refine ⟨le_boundFrom 0 _, ?_⟩
  rw [Counters.afterAll, zero_add]
  exact Int.natCast_nonneg _

theorem countsStayInRange_iff (D : DuckDB) {uname : Option Text} {bigEndian : Bool}
    {cache : CacheFiles} {info : CPUInfo} (hstart : startInfo D uname bigEndian cache = some info)
    {content : Text} (hlines : (lines content).length < 2 ^ 31) :
    CountsStayInRange D info content ↔ (2 ^ 31 - 1 : ℤ) ∉ physicalIds D content := by
  have hzero := startInfo_counters hstart
  apply Iff.intro
  · intro h
    obtain ⟨s, hrun, -⟩ := h (lines content).length
    rw [List.take_length] at hrun
    have hmap : (scanLines D { info } (lines content)).map counters = some (counters s) := by
      rw [hrun, Option.map_some]
    exact ((scanLines_of_zero hzero).mp hmap).1.ids
  · intro hids n
    set ls := (lines content).take n with hls
    have hlength : ls.length < 2 ^ 31 := by
      rw [hls, List.length_take]
      omega
    have htake : (2 ^ 31 - 1 : ℤ) ∉ ls.filterMap (physicalId D) := fun hmem =>
      hids (((List.take_sublist n (lines content)).filterMap (physicalId D)).subset hmem)
    obtain ⟨s, hrun, hafter⟩ := Option.map_eq_some_iff.mp
      ((scanLines_of_zero hzero).mpr ⟨fitsAll_of_length hlength htake, rfl⟩)
    obtain ⟨hphysical, hlogical⟩ := afterAll_nonneg (D := D) ls
    rw [← hafter] at hphysical hlogical
    exact ⟨s, hrun, hphysical, hlogical⟩

theorem oneSocket_inRange :
    CountsStayInRange .reference { byte_order := getByteOrder false }
      "processor : 0\nphysical id : 0\n".toList := by
  have hstart : startInfo .reference none false (fun _ => none) =
      some { byte_order := getByteOrder false } := rfl
  refine (countsStayInRange_iff .reference hstart (by decide +kernel)).mpr ?_
  decide +kernel

def maximalId : Text := "physical id : 2147483647\n".toList

/-- The cast succeeds with `2 ^ 31 - 1`, and `phys_id + 1` overflows. -/
theorem maximalId_overflows :
    (lines maximalId).length < 2 ^ 31 ∧
      ¬ CountsStayInRange .reference { byte_order := getByteOrder false } maximalId := by
  have hrun : scanLines .reference { info := { byte_order := getByteOrder false } }
      ((lines maximalId).take 1) = none := by decide +kernel
  refine ⟨by decide +kernel, fun h => ?_⟩
  obtain ⟨s, hs, -⟩ := h 1
  rw [hrun] at hs
  cases hs

end SystemStats.CpuCounts
