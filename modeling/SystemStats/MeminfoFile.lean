import SystemStats.MeminfoScan
import Mathlib.Data.List.Nodup
import Mathlib.Data.List.Perm.Subperm

/-!
# Reading back a well-formed meminfo file

A `MeminfoFile` is what a kernel prints: at most one line for each of the five
keys, in any order, among lines that carry none of them. Its readings are
recovered exactly, the scan that stops at the fifth key agrees with the scan
of the whole file, and the order of the lines does not matter.
-/

namespace SystemStats.MeminfoFile
open TextLines DecimalText FormattedInput LineScan MemoryStats MeminfoScan

inductive Line
  | reading (key : MemKey) (pad kb : ℕ)
  | other (text : Text)
  deriving DecidableEq

namespace Line

def text : Line → Text
  | .reading key pad kb =>
    key.label.toList ++ (List.replicate (pad + 1) ' ' ++ (decimal kb ++ " kB".toList))
  | .other text => text

def key? : Line → Option MemKey
  | .reading key _ _ => some key
  | .other _ => none

def Valid : Line → Prop
  | .reading _ _ kb => kb < 2 ^ 54
  | .other text => '\n' ∉ text ∧ ∀ key : MemKey, ¬ key.label.toList <+: text

instance (l : Line) : Decidable l.Valid :=
  match l with
  | .reading _ _ kb => inferInstanceAs (Decidable (kb < 2 ^ 54))
  | .other text => decidable_of_iff
      ('\n' ∉ text ∧ ∀ key ∈ MemKey.all, ¬ key.label.toList <+: text)
      (and_congr_right fun _ => ⟨fun h key => h key key.mem_all, fun h key _ => h key⟩)

theorem label_not_space (key : MemKey) : ∀ c ∈ key.label.toList, isSpace c = false := by
  have hall : key.label.toList.all (fun c => !isSpace c) = true := by
    cases key <;> decide
  simpa only [List.all_eq_true, Bool.not_eq_true'] using hall

theorem label_ne_nil (key : MemKey) : key.label.toList ≠ [] := by
  cases key <;> decide

theorem newline_not_mem_text {l : Line} (h : l.Valid) : '\n' ∉ l.text := by
  cases l with
  | reading key pad kb =>
    have hlabel : '\n' ∉ key.label.toList := fun hc => by
      simpa [isSpace] using label_not_space key _ hc
    have hdigits : '\n' ∉ decimal kb := not_mem_decimal (by decide)
    simp [text, hlabel, hdigits]
  | other t => exact h.1

theorem starts_text {l : Line} (h : l.Valid) (key : MemKey) :
    key.starts l.text = decide (l.key? = some key) := by
  cases l with
  | reading other pad kb =>
    have ho : other.starts (text (.reading other pad kb)) = true :=
      MemKey.starts_iff.mpr (List.prefix_append _ _)
    by_cases hk : other = key
    · simp [key?, ← hk, ho]
    · have hn : ¬ key.starts (text (.reading other pad kb)) = true :=
        fun hs => hk (MemKey.eq_of_starts ho hs)
      simpa [key?, hk] using hn
  | other t =>
    have hn : ¬ key.starts t = true := fun hs => h.2 key (MemKey.starts_iff.mp hs)
    simpa [key?, text] using hn

theorem isReading_text {l : Line} (h : l.Valid) : isReading l.text = l.key?.isSome := by
  cases hk : l.key? with
  | none => simp [isReading, starts_text h, hk]
  | some key =>
    have hs : key.starts l.text = true := by simp [starts_text h, hk]
    exact isReading_of_starts hs

theorem parseBytesValue_reading (key : MemKey) (pad : ℕ) {kb : ℕ} (h : kb < 2 ^ 54) :
    (parseBytesValue (text (.reading key pad kb))).toNat = 1024 * kb := by
  have hspaces : Stops (fun c => !isSpace c)
      (List.replicate (pad + 1) ' ' ++ (decimal kb ++ " kB".toList)) := by
    simp [Stops, List.replicate_succ, isSpace]
  have hblank : Stops Char.isDigit " kB".toList := by simp [Stops]
  have hword := extractWord_append (label_ne_nil key) (label_not_space key) hspaces
  have hvalue := extractUInt64_decimal 0 (pad + 1) (by omega : kb < 2 ^ 64) hblank
  have hunit : extractWord " kB".toList = some ("kB".toList, []) := by decide
  have hmul : (UInt64.ofNat kb * 1024).toNat = 1024 * kb := by
    rw [UInt64.toNat_mul, UInt64.toNat_ofNat']
    simp only [UInt64.reduceToNat]
    omega
  simp only [parseBytesValue, text, hword, hvalue, hunit, hmul]

end Line

end SystemStats.MeminfoFile

namespace SystemStats
open TextLines LineScan MemoryStats MeminfoScan MeminfoFile

structure MeminfoFile where
  body : List MeminfoFile.Line
  valid : ∀ l ∈ body, l.Valid
  keys_nodup : (body.filterMap Line.key?).Nodup

namespace MeminfoFile

def content (file : MeminfoFile) : Text := unlines (file.body.map Line.text)

theorem lines_content (file : MeminfoFile) : lines file.content = file.body.map Line.text := by
  refine lines_unlines ?_
  intro t ht
  obtain ⟨l, hl, rfl⟩ := List.mem_map.mp ht
  exact Line.newline_not_mem_text (file.valid l hl)

theorem countP_isReading_le (file : MeminfoFile) : (lines file.content).countP isReading ≤ 5 := by
  have hcount : (lines file.content).countP isReading =
      (file.body.filterMap Line.key?).length := by
    rw [lines_content, List.countP_map, List.length_filterMap_eq_countP]
    exact List.countP_congr fun l hl => by simp [Line.isReading_text (file.valid l hl)]
  rw [hcount]
  have hsub : file.body.filterMap Line.key? ⊆ MemKey.all := fun key _ => key.mem_all
  exact (List.Nodup.subperm file.keys_nodup hsub).length_le

theorem countP_starts_le (file : MeminfoFile) (key : MemKey) :
    (lines file.content).countP key.starts ≤ 1 := by
  have hcount : (lines file.content).countP key.starts =
      (file.body.filterMap Line.key?).count key := by
    rw [lines_content, List.countP_map, List.count_filterMap]
    refine List.countP_congr fun l hl => ?_
    simp [Line.starts_text (file.valid l hl)]
  rw [hcount]
  exact List.nodup_iff_count_le_one.mp file.keys_nodup key

def scanAll (content : Text) : MemoryInfo := ((lines content).foldl applyLine {}).setUsed

theorem setUsed_congr {a b : MemoryInfo} (h : ∀ key : MemKey, key.read a = key.read b) :
    a.setUsed = b.setUsed := by
  have h1 := h .memTotal
  have h2 := h .memFree
  have h3 := h .cached
  have h4 := h .swapTotal
  have h5 := h .swapFree
  simp only [MemKey.read] at h1 h2 h3 h4 h5
  simp only [MemoryInfo.setUsed, h1, h2, h3, h4, h5]

theorem getMemoryInfoLinux_congr {content content' : Text}
    (h : ∀ key, lastValue key (consumed content) = lastValue key (consumed content')) :
    getMemoryInfoLinux (some content) = getMemoryInfoLinux (some content') := by
  refine setUsed_congr fun key => ?_
  have hkey := h key
  rw [← read_getMemoryInfoLinux, ← read_getMemoryInfoLinux] at hkey
  simpa [getMemoryInfoLinux] using hkey

theorem lastValue_reading (file : MeminfoFile) {key : MemKey} {pad kb : ℕ}
    (h : .reading key pad kb ∈ file.body) :
    (lastValue key (consumed file.content)).toNat = 1024 * kb := by
  have hvalid := file.valid _ h
  have hmem : Line.text (.reading key pad kb) ∈ lines file.content := by
    rw [lines_content]
    exact List.mem_map_of_mem h
  rw [lastValue_consumed file.countP_isReading_le, lastValue,
    getLast?_filter_of_unique (file.countP_starts_le key) hmem
      (by simp [Line.starts_text hvalid, Line.key?])]
  exact Line.parseBytesValue_reading key pad hvalid

theorem lastValue_absent (file : MeminfoFile) {key : MemKey}
    (h : ∀ pad kb, .reading key pad kb ∉ file.body) :
    lastValue key (consumed file.content) = 0 := by
  rw [lastValue_consumed file.countP_isReading_le]
  refine lastValue_eq_zero fun t ht => ?_
  rw [lines_content] at ht
  obtain ⟨l, hl, rfl⟩ := List.mem_map.mp ht
  rw [Line.starts_text (file.valid l hl)]
  cases l with
  | reading other pad kb =>
    have hne : other ≠ key := fun he => h pad kb (he ▸ hl)
    simpa [Line.key?] using hne
  | other t => rfl

theorem lastValue_perm {file file' : MeminfoFile} (h : file.body.Perm file'.body)
    (key : MemKey) :
    lastValue key (consumed file.content) = lastValue key (consumed file'.content) := by
  by_cases hex : ∃ pad kb, Line.reading key pad kb ∈ file.body
  · obtain ⟨pad, kb, hl⟩ := hex
    refine UInt64.toNat_inj.mp ?_
    rw [file.lastValue_reading hl, file'.lastValue_reading (h.mem_iff.mp hl)]
  · push Not at hex
    rw [file.lastValue_absent hex,
      file'.lastValue_absent (fun pad kb hl => hex pad kb (h.mem_iff.mpr hl))]

theorem getMemoryInfoLinux_eq_scanAll (file : MeminfoFile) :
    getMemoryInfoLinux (some file.content) = scanAll file.content := by
  refine setUsed_congr fun key => ?_
  have hread := read_getMemoryInfoLinux key file.content
  rw [getMemoryInfoLinux, MemKey.read_setUsed] at hread
  rw [hread, read_foldl, lastValue_consumed file.countP_isReading_le]

/-- Every present key is read back, every absent one is zero, and neither the
early exit nor the order of the lines shows in the result. -/
theorem getMemoryInfoLinux_round_trip (file : MeminfoFile) :
    (∀ key pad kb, Line.reading key pad kb ∈ file.body →
      (key.read (getMemoryInfoLinux (some file.content))).toNat = 1024 * kb) ∧
    (∀ key : MemKey, (∀ pad kb, Line.reading key pad kb ∉ file.body) →
      key.read (getMemoryInfoLinux (some file.content)) = 0) ∧
    getMemoryInfoLinux (some file.content) = scanAll file.content ∧
    ∀ file' : MeminfoFile, file.body.Perm file'.body →
      getMemoryInfoLinux (some file'.content) = getMemoryInfoLinux (some file.content) := by
  refine ⟨fun key pad kb h => ?_, fun key h => ?_, file.getMemoryInfoLinux_eq_scanAll,
    fun file' h => getMemoryInfoLinux_congr fun key => (lastValue_perm h key).symm⟩
  · rw [read_getMemoryInfoLinux, file.lastValue_reading h]
  · rw [read_getMemoryInfoLinux, file.lastValue_absent h]

def scrambled : MeminfoFile where
  body := [.other "MemAvailable:    9000 kB".toList,
    .reading .swapFree 6 40,
    .other "SwapCached:            5 kB".toList,
    .reading .cached 9 300,
    .reading .memTotal 7 16000,
    .other "Active(anon):    MemFree: 1 kB".toList,
    .reading .swapTotal 0 100,
    .other [],
    .reading .memFree 1 2000,
    .other "Cached pages".toList]
  valid := by decide
  keys_nodup := by decide

def sorted : MeminfoFile where
  body := [.reading .memTotal 7 16000,
    .reading .memFree 1 2000,
    .other "MemAvailable:    9000 kB".toList,
    .reading .cached 9 300,
    .other "SwapCached:            5 kB".toList,
    .other "Active(anon):    MemFree: 1 kB".toList,
    .reading .swapTotal 0 100,
    .reading .swapFree 6 40,
    .other "Cached pages".toList,
    .other []]
  valid := by decide
  keys_nodup := by decide

theorem scrambled_read_back :
    let info := getMemoryInfoLinux (some scrambled.content)
    (info.total_memory.toNat = 1024 * 16000 ∧ info.free_memory.toNat = 1024 * 2000 ∧
      info.cached_memory.toNat = 1024 * 300 ∧ info.total_swap.toNat = 1024 * 100 ∧
      info.free_swap.toNat = 1024 * 40) ∧
    info = scanAll scrambled.content ∧ getMemoryInfoLinux (some sorted.content) = info := by
  obtain ⟨hread, -, hscan, hperm⟩ := getMemoryInfoLinux_round_trip scrambled
  refine ⟨⟨?_, ?_, ?_, ?_, ?_⟩, hscan, hperm sorted (by decide)⟩
  · exact hread .memTotal 7 16000 (by decide)
  · exact hread .memFree 1 2000 (by decide)
  · exact hread .cached 9 300 (by decide)
  · exact hread .swapTotal 0 100 (by decide)
  · exact hread .swapFree 6 40 (by decide)

end MeminfoFile

end SystemStats
