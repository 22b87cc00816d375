import SystemStats.CacheSize
import SystemStats.CpuCounts
import SystemStats.LineScan

/-!
# The closed form of the scan

Every field of the result is a function of the values that the file gives to
eight keys: `model name` keeps the last value, the four ARM keys the first that
is not empty, and three keys are counted. What other lines say, and for the
counts also the order of the lines, makes no difference. There is a result
exactly when no cache size overflows.
-/

namespace SystemStats.CpuFields
open TextLines FormattedInput StringUtils LineScan ListCounts CpuStats CacheSize CpuCounts

def valueOf (name : String) (line : Text) : Option Text :=
  (keyValue line).bind (fun (key, value) => if isKey name key then some value else none)

def valuesOf (name : String) (ls : List Text) : List Text := ls.filterMap (valueOf name)

def lastValue (name : String) (ls : List Text) : Text := (valuesOf name ls).getLast?.getD []

def firstValue (name : String) (ls : List Text) : Text :=
  ((valuesOf name ls).find? (· ≠ [])).getD []

def armName (D : DuckDB) (ls : List Text) : Text :=
  D.format "ARM v%s (impl: %s, part: %s, variant: %s)".toList
    [firstValue "CPU architecture" ls, firstValue "CPU implementer" ls, firstValue "CPU part" ls,
      firstValue "CPU variant" ls]

def modelName (D : DuckDB) (content : Text) : Text :=
  if lastValue "model name" (lines content) ≠ [] then lastValue "model name" (lines content)
  else if mhzLines content = 0 ∧ 0 < processorLines content ∧
      firstValue "CPU implementer" (lines content) ≠ [] then armName D (lines content)
  else []

def countedKeys : List String :=
  ["model name", "cpu MHz", "physical id", "processor", "CPU implementer", "CPU architecture",
    "CPU variant", "CPU part"]

def relevant (line : Text) : Bool := countedKeys.any (fun name => hasKey name line)

theorem findText_singleton {c : Char} {t : Text} (h : c ∉ t) : findText [c] t = none := by
  induction t with
  | nil => rfl
  | cons a t ih =>
    obtain ⟨ha, ht⟩ := not_or.mp (List.mem_cons.not.mp h)
    have hno : ¬ [c].isPrefixOf (a :: t) = true := by simpa [List.isPrefixOf] using ha
    rw [findText, if_neg hno, ih ht, Option.map_none]

theorem keyValue_of_not_mem {line : Text} (h : ':' ∉ line) : keyValue line = none := by
  have hfind : find ":" line = none := findText_singleton h
  rw [keyValue, hfind, Option.map_none]

theorem keyValue_append {key : Text} (h : ':' ∉ key) (value : Text) :
    keyValue (key ++ ':' :: value) = some (trimString key, trimString value) := by
  have hprefix : [':'] <+: ':' :: value := ⟨value, rfl⟩
  have hfind : find ":" (key ++ ':' :: value) = some key.length := findText_append h hprefix
  rw [keyValue, hfind, Option.map_some, List.take_left, ← List.drop_drop, List.drop_left,
    List.drop_one, List.tail_cons]

@[ext]
structure Texts where
  base : CPUInfo
  model_name : Text
  cpu_implementer : Text
  cpu_architecture : Text
  cpu_variant : Text
  cpu_part : Text

def texts (s : CpuScan) : Texts where
  base := { s.info with model_name := [], logical_cpus := 0, physical_cpus := 0 }
  model_name := s.info.model_name
  cpu_implementer := s.cpu_implementer
  cpu_architecture := s.cpu_architecture
  cpu_variant := s.cpu_variant
  cpu_part := s.cpu_part

def setOnce (old : Text) (value : Option Text) : Text := if old = [] then value.getD [] else old

def Texts.after (t : Texts) (line : Text) : Texts where
  base := t.base
  model_name := (valueOf "model name" line).getD t.model_name
  cpu_implementer := setOnce t.cpu_implementer (valueOf "CPU implementer" line)
  cpu_architecture := setOnce t.cpu_architecture (valueOf "CPU architecture" line)
  cpu_variant := setOnce t.cpu_variant (valueOf "CPU variant" line)
  cpu_part := setOnce t.cpu_part (valueOf "CPU part" line)

variable {D : DuckDB}

theorem setOnce_none (old : Text) : setOnce old none = old := by
  rw [setOnce]
  split_ifs with h
  · exact h.symm
  · rfl

theorem setOnce_ite (old value : Text) (p : Prop) [Decidable p] :
    setOnce old (if p then some value else none) = if p then setOnce old (some value) else old := by
  split_ifs
  · rfl
  · exact setOnce_none old

theorem valueOf_of_isKey {name : String} {line key value : Text}
    (hkv : keyValue line = some (key, value)) (h : isKey name key = true) (other : String) :
    valueOf other line = if name = other then some value else none := by
  simp [valueOf, hkv, isKey_eq h]

def textKeys : List String :=
  ["model name", "CPU implementer", "CPU architecture", "CPU variant", "CPU part"]

theorem Texts.after_of_no_value {t : Texts} {line : Text}
    (h : ∀ name ∈ textKeys, valueOf name line = none) : t.after line = t := by
  simp only [textKeys, List.forall_mem_cons, List.not_mem_nil, IsEmpty.forall_iff, implies_true,
    and_true] at h
  obtain ⟨hname, himplementer, harchitecture, hvariant, hpart⟩ := h
  simp [Texts.after, hname, himplementer, harchitecture, hvariant, hpart, setOnce_none]

theorem Texts.after_of_isKey {t : Texts} {name : String} {line key value : Text}
    (hkv : keyValue line = some (key, value)) (h : isKey name key = true)
    (hname : name ∉ textKeys) : t.after line = t := by
  apply after_of_no_value
  intro other hother
  have hne : name ≠ other := fun heq => hname (heq ▸ hother)
  rw [valueOf_of_isKey hkv h, if_neg hne]

theorem Texts.after_of_key {t : Texts} {name : String} {line key value : Text}
    (hkv : keyValue line = some (key, value)) (h : isKey name key = true) :
    t.after line =
      { base := t.base
        model_name := if name = "model name" then value else t.model_name
        cpu_implementer := if name = "CPU implementer" then
          setOnce t.cpu_implementer (some value) else t.cpu_implementer
        cpu_architecture := if name = "CPU architecture" then
          setOnce t.cpu_architecture (some value) else t.cpu_architecture
        cpu_variant := if name = "CPU variant" then
          setOnce t.cpu_variant (some value) else t.cpu_variant
        cpu_part := if name = "CPU part" then
          setOnce t.cpu_part (some value) else t.cpu_part } := by
  simp only [after, valueOf_of_isKey hkv h, setOnce_ite, apply_ite (Option.getD · t.model_name),
    Option.getD_some, Option.getD_none]

theorem scanLine_texts {s s' : CpuScan} {line : Text} (h : scanLine D s line = some s') :
    texts s' = (texts s).after line := by
  cases hkv : keyValue line with
  | none =>
    simp only [scanLine, hkv, Option.some_inj] at h
    subst h
    exact (Texts.after_of_no_value fun name _ => by simp [valueOf, hkv]).symm
  | some kv =>
    obtain ⟨key, value⟩ := kv
    rw [scanLine, hkv] at h
    dsimp only at h
    by_cases hname : isKey "model name" key = true
    · rw [if_pos hname] at h
      obtain rfl := Option.some.inj h
      rw [Texts.after_of_key hkv hname]
      rfl
    rw [if_neg hname] at h
    by_cases hmodel : (isKey "model" key && !s.model_found) = true
    · rw [if_pos hmodel] at h
      obtain rfl := Option.some.inj h
      rw [Bool.and_eq_true] at hmodel
      exact (Texts.after_of_isKey hkv hmodel.1 (by decide)).symm
    rw [if_neg hmodel] at h
    by_cases hmhz : isKey "cpu MHz" key = true
    · rw [if_pos hmhz] at h
      obtain ⟨n, -, rfl⟩ := Option.map_eq_some_iff.mp h
      exact (Texts.after_of_isKey hkv hmhz (by decide)).symm
    rw [if_neg hmhz] at h
    by_cases hid : isKey "physical id" key = true
    · rw [if_pos hid] at h
      rw [Texts.after_of_isKey hkv hid (by decide)]
      cases hcast : D.trySimpleIntegerCast value with
      | none =>
        rw [hcast] at h
        rw [Option.some.inj h]
      | some physId =>
        rw [hcast] at h
        obtain ⟨n, -, rfl⟩ := Option.map_eq_some_iff.mp h
        split_ifs <;> rfl
    rw [if_neg hid] at h
    by_cases hproc : isKey "processor" key = true
    · rw [if_pos hproc] at h
      obtain ⟨n, -, rfl⟩ := Option.map_eq_some_iff.mp h
      exact (Texts.after_of_isKey hkv hproc (by decide)).symm
    rw [if_neg hproc] at h
    by_cases himp : isKey "CPU implementer" key = true
    · rw [if_pos himp] at h
      obtain rfl := Option.some.inj h
      simp only [Texts.after_of_key hkv himp, String.reduceEq, ↓reduceIte]
      split_ifs with hset <;> simp [texts, setOnce, hset]
    rw [if_neg himp] at h
    by_cases harch : isKey "CPU architecture" key = true
    · rw [if_pos harch] at h
      obtain rfl := Option.some.inj h
      simp only [Texts.after_of_key hkv harch, String.reduceEq, ↓reduceIte]
      split_ifs with hset <;> simp [texts, setOnce, hset]
    rw [if_neg harch] at h
    by_cases hvar : isKey "CPU variant" key = true
    · rw [if_pos hvar] at h
      obtain rfl := Option.some.inj h
      simp only [Texts.after_of_key hkv hvar, String.reduceEq, ↓reduceIte]
      split_ifs with hset <;> simp [texts, setOnce, hset]
    rw [if_neg hvar] at h
    by_cases hpart : isKey "CPU part" key = true
    · rw [if_pos hpart] at h
      obtain rfl := Option.some.inj h
      simp only [Texts.after_of_key hkv hpart, String.reduceEq, ↓reduceIte]
      split_ifs with hset <;> simp [texts, setOnce, hset]
    rw [if_neg hpart] at h
    obtain rfl := Option.some.inj h
    refine (Texts.after_of_no_value ?_).symm
    simp [textKeys, valueOf, hkv, hname, himp, harch, hvar, hpart]

theorem scanLines_texts {s s' : CpuScan} {ls : List Text} (h : scanLines D s ls = some s') :
    texts s' = ls.foldl Texts.after (texts s) := by
  induction ls generalizing s with
  | nil =>
    obtain rfl := Option.some.inj h
    rfl
  | cons line ls ih =>
    obtain ⟨s₁, hline, hrest⟩ := Option.bind_eq_some_iff.mp h
    rw [ih hrest, scanLine_texts hline, List.foldl_cons]

theorem foldl_base (ls : List Text) (t : Texts) : (ls.foldl Texts.after t).base = t.base := by
  induction ls generalizing t with
  | nil => rfl
  | cons line ls ih =>
    rw [List.foldl_cons, ih]
    rfl

theorem foldl_texts (ls : List Text) (base : CPUInfo) :
    ls.foldl Texts.after ⟨base, [], [], [], [], []⟩ =
      { base
        model_name := lastValue "model name" ls
        cpu_implementer := firstValue "CPU implementer" ls
        cpu_architecture := firstValue "CPU architecture" ls
        cpu_variant := firstValue "CPU variant" ls
        cpu_part := firstValue "CPU part" ls } := by
  set t : Texts := ⟨base, [], [], [], [], []⟩ with ht
  have hname : (ls.foldl Texts.after t).model_name = lastValue "model name" ls :=
    foldl_latest Texts.model_name (fun _ _ => rfl) ls t
  have himplementer : (ls.foldl Texts.after t).cpu_implementer = firstValue "CPU implementer" ls :=
    foldl_first Texts.cpu_implementer [] (fun _ _ => rfl) ls t
  have harchitecture :
      (ls.foldl Texts.after t).cpu_architecture = firstValue "CPU architecture" ls :=
    foldl_first Texts.cpu_architecture [] (fun _ _ => rfl) ls t
  have hvariant : (ls.foldl Texts.after t).cpu_variant = firstValue "CPU variant" ls :=
    foldl_first Texts.cpu_variant [] (fun _ _ => rfl) ls t
  have hpart : (ls.foldl Texts.after t).cpu_part = firstValue "CPU part" ls :=
    foldl_first Texts.cpu_part [] (fun _ _ => rfl) ls t
  exact Texts.ext (foldl_base ls t) hname himplementer harchitecture hvariant hpart

def finished (D : DuckDB) (content : Text) (info : CPUInfo) : CPUInfo :=
  { info with
    model_name := modelName D content
    logical_cpus := logicalCount content
    physical_cpus := physicalCount D content }

theorem fallback_finished {info : CPUInfo} {s : CpuScan} {content : Text}
    (htexts : texts s = (lines content).foldl Texts.after
      ⟨{ info with model_name := [], logical_cpus := 0, physical_cpus := 0 }, [], [], [], [], []⟩)
    (hcounters : counters s = ⟨mhzLines content, boundFrom 0 (physicalIds D content),
      processorLines content⟩) : fallback D s = finished D content info := by
  rw [foldl_texts] at htexts
  have hinfo : s.info = { (texts s).base with
      model_name := (texts s).model_name
      logical_cpus := (counters s).logical
      physical_cpus := (counters s).physical } := rfl
  have hprocessors : s.processor_count = (counters s).processors := rfl
  have himplementer : s.cpu_implementer = (texts s).cpu_implementer := rfl
  have harchitecture : s.cpu_architecture = (texts s).cpu_architecture := rfl
  have hvariant : s.cpu_variant = (texts s).cpu_variant := rfl
  have hpart : s.cpu_part = (texts s).cpu_part := rfl
  rw [htexts] at hinfo himplementer harchitecture hvariant hpart
  rw [hcounters] at hinfo hprocessors
  simp only [fallback, finished, modelName, armName, logicalCount, physicalCount, hinfo,
    hprocessors, himplementer, harchitecture, hvariant, hpart]
  by_cases hmhz : mhzLines content = 0
  · by_cases hproc : 0 < processorLines content
    · by_cases hlast : lastValue "model name" (lines content) = []
      · by_cases himp : firstValue "CPU implementer" (lines content) = []
        · simp [hmhz, hproc, hlast, himp]
        · simp [hmhz, hproc, hlast, himp]
      · simp [hmhz, hproc, hlast]
    · have hzero : processorLines content = 0 := Nat.eq_zero_of_not_pos hproc
      simp [hmhz, hzero]
  · simp [hmhz]

variable {uname : Option Text} {bigEndian : Bool} {cache : CacheFiles}

theorem scanLines_finished {info : CPUInfo} (hstart : startInfo D uname bigEndian cache = some info)
    (content : Text) :
    (scanLines D { info } (lines content)).map (fallback D) =
      if CountersFit D content then some (finished D content info) else none := by
  have hzero := startInfo_counters hstart
  have hfits := fitsAll_lines_iff (D := D) content
  cases hrun : scanLines D { info } (lines content) with
  | none =>
    have hno : ¬ CountersFit D content := by
      intro h
      obtain ⟨s, hs, -⟩ := Option.map_eq_some_iff.mp
        ((scanLines_of_zero hzero).mpr ⟨hfits.mpr h, rfl⟩)
      rw [hrun] at hs
      cases hs
    rw [if_neg hno, Option.map_none]
  | some s =>
    have hmap : (scanLines D { info } (lines content)).map counters = some (counters s) := by
      rw [hrun, Option.map_some]
    obtain ⟨hall, hcounters⟩ := (scanLines_of_zero hzero).mp hmap
    have htexts := scanLines_texts hrun
    have hname := (startInfo_unset hstart).1
    rw [if_pos (hfits.mp hall), Option.map_some, Option.some_inj]
    refine fallback_finished ?_ (hcounters.symm.trans (afterAll_lines content))
    rw [htexts, texts, hname]

theorem getCPUInfoLinux_finished (content : Text) :
    getCPUInfoLinux D uname bigEndian cache (some content) =
      (startInfo D uname bigEndian cache).bind (fun info =>
        if CountersFit D content then some (finished D content info) else none) := by
  rw [getCPUInfoLinux_eq]
  cases hstart : startInfo D uname bigEndian cache with
  | none => rfl
  | some info => exact scanLines_finished hstart content

theorem hasKey_eq_isSome (name : String) (line : Text) :
    hasKey name line = (valueOf name line).isSome := by
  rw [hasKey, valueOf]
  cases keyValue line with
  | none => rfl
  | some kv =>
    obtain ⟨key, value⟩ := kv
    cases h : isKey name key with
    | true => simp [h]
    | false => simp [h]

theorem countP_hasKey (name : String) (ls : List Text) :
    ls.countP (hasKey name) = (valuesOf name ls).length := by
  rw [valuesOf, List.length_filterMap_eq_countP]
  exact List.countP_congr fun line _ => by rw [hasKey_eq_isSome]

theorem physicalIds_eq (content : Text) : physicalIds D content =
    (valuesOf "physical id" (lines content)).filterMap D.trySimpleIntegerCast := by
  rw [physicalIds, valuesOf, List.filterMap_filterMap]
  apply List.filterMap_congr
  intro line _
  rw [physicalId, valueOf, Option.bind_assoc]
  cases keyValue line with
  | none => rfl
  | some kv =>
    obtain ⟨key, value⟩ := kv
    cases h : isKey "physical id" key with
    | true => simp [h]
    | false => simp [h]

theorem valuesOf_filter_relevant {name : String} (hname : name ∈ countedKeys) (ls : List Text) :
    valuesOf name (ls.filter relevant) = valuesOf name ls := by
  rw [valuesOf, List.filterMap_filter, valuesOf]
  apply List.filterMap_congr
  intro line _
  split_ifs with hline
  · rfl
  · have hno : hasKey name line = false := by
      rw [Bool.eq_false_iff]
      exact fun h => hline (List.any_eq_true.mpr ⟨name, hname, h⟩)
    rw [hasKey_eq_isSome, Option.isSome_eq_false_iff, Option.isNone_iff_eq_none] at hno
    exact hno.symm

section Values

variable {content content' : Text}
  (h : ∀ name ∈ countedKeys, valuesOf name (lines content) = valuesOf name (lines content'))

include h

theorem countersFit_congr : CountersFit D content ↔ CountersFit D content' := by
  have hmhz := congrArg List.length (h "cpu MHz" (by decide))
  have hproc := congrArg List.length (h "processor" (by decide))
  simp only [CountersFit, mhzLines, processorLines, countP_hasKey, hmhz, hproc, physicalIds_eq,
    h "physical id" (by decide)]

theorem finished_congr (info : CPUInfo) : finished D content info = finished D content' info := by
  have hmhz := congrArg List.length (h "cpu MHz" (by decide))
  have hproc := congrArg List.length (h "processor" (by decide))
  simp only [finished, modelName, armName, logicalCount, physicalCount, lastValue, firstValue,
    mhzLines, processorLines, countP_hasKey, hmhz, hproc, physicalIds_eq,
    h "physical id" (by decide), h "model name" (by decide), h "CPU implementer" (by decide),
    h "CPU architecture" (by decide), h "CPU variant" (by decide), h "CPU part" (by decide)]

theorem getCPUInfoLinux_congr :
    getCPUInfoLinux D uname bigEndian cache (some content) =
      getCPUInfoLinux D uname bigEndian cache (some content') := by
  rw [getCPUInfoLinux_finished, getCPUInfoLinux_finished]
  simp only [countersFit_congr h, finished_congr h]

end Values

theorem reported_perm {content content' : Text} (h : (lines content).Perm (lines content')) :
    (getCPUInfoLinux D uname bigEndian cache (some content)).map reported =
      (getCPUInfoLinux D uname bigEndian cache (some content')).map reported := by
  have hmhz : mhzLines content = mhzLines content' := h.countP_eq _
  have hproc : processorLines content = processorLines content' := h.countP_eq _
  have hids : (physicalIds D content).Perm (physicalIds D content') := h.filterMap _
  have hbound := boundFrom_congr (b := 0) fun i => hids.mem_iff (a := i)
  have hfit : CountersFit D content ↔ CountersFit D content' := by
    rw [CountersFit, CountersFit, hmhz, hproc, hids.mem_iff]
  have hreported (info : CPUInfo) :
      reported (finished D content info) = reported (finished D content' info) := by
    simp only [reported, finished, logicalCount, physicalCount, hmhz, hproc, hbound]
  rw [getCPUInfoLinux_finished, getCPUInfoLinux_finished, Option.map_bind, Option.map_bind]
  apply Option.bind_congr
  intro info _
  rw [Function.comp_apply, Function.comp_apply]
  by_cases hc : CountersFit D content
  · rw [if_pos hc, if_pos (hfit.mp hc), Option.map_some, Option.map_some, hreported]
  · rw [if_neg hc, if_neg (hfit.not.mp hc)]

/-- The size that a cache file states, `0` where it cannot be read. -/
def cacheKb (file : Option Text) : ℕ := (file.map leadingValue).getD 0

def CachesFit (cache : CacheFiles) : Prop := ∀ i, cacheKb (cache i) ≤ 2 ^ 31 - 1

instance (cache : CacheFiles) : Decidable (CachesFit cache) :=
  inferInstanceAs (Decidable (∀ _, _))

def hostInfo (uname : Option Text) (bigEndian : Bool) (cache : CacheFiles) : CPUInfo :=
  initialInfo uname bigEndian (fun i => cacheKb (cache i))

theorem readCPUCacheSize_cacheKb (file : Option Text) :
    readCPUCacheSize file =
      if cacheKb file ≤ 2 ^ 31 - 1 then some (cacheKb file : ℤ) else none := by
  cases file with
  | none => rfl
  | some content =>
    rw [readCPUCacheSize_eq, int32_natCast]
    rfl

theorem cachesFit_iff : CachesFit cache ↔
    cacheKb (cache 0) ≤ 2 ^ 31 - 1 ∧ cacheKb (cache 1) ≤ 2 ^ 31 - 1 ∧
      cacheKb (cache 2) ≤ 2 ^ 31 - 1 ∧ cacheKb (cache 3) ≤ 2 ^ 31 - 1 := by
  rw [CachesFit, Fin.forall_fin_succ, Fin.forall_fin_succ, Fin.forall_fin_two]
  rfl

theorem startInfo_eq : startInfo D uname bigEndian cache =
    if CachesFit cache then some (hostInfo uname bigEndian cache) else none := by
  have hguard : ∀ {α β : Type} (p : Prop) [Decidable p] (a : α) (f : α → Option β),
      (if p then some a else none).bind f = if p then f a else none := by
    intro α β p _ a f
    split_ifs <;> rfl
  simp only [startInfo, getCPUInfoLinux, readCPUCacheSize_cacheKb, Option.bind_eq_bind, hguard,
    cachesFit_iff, ite_and]
  rfl

/-- The result in closed form. The counts do not depend on the order of the lines,
and nothing depends on a line without a colon or with another key. -/
structure ClosedForm (D : DuckDB) (uname : Option Text) (bigEndian : Bool) (cache : CacheFiles)
    (content : Text) : Prop where
  result : getCPUInfoLinux D uname bigEndian cache (some content) =
    some (finished D content (hostInfo uname bigEndian cache))
  permuted : ∀ content', (lines content).Perm (lines content') →
    (getCPUInfoLinux D uname bigEndian cache (some content')).map reported =
      some (reported (finished D content (hostInfo uname bigEndian cache)))
  irrelevant : ∀ content', (lines content).filter relevant = (lines content').filter relevant →
    getCPUInfoLinux D uname bigEndian cache (some content') =
      some (finished D content (hostInfo uname bigEndian cache))
  no_colon : ∀ line, ':' ∉ line → keyValue line = none
  first_colon : ∀ key value, ':' ∉ key →
    keyValue (key ++ ':' :: value) = some (trimString key, trimString value)

theorem getCPUInfoLinux_closed_form (D : DuckDB) (uname : Option Text) (bigEndian : Bool)
    (cache : CacheFiles) {content : Text} (hlines : (lines content).length < 2 ^ 31)
    (hids : ∀ i ∈ physicalIds D content, i < 2 ^ 31 - 1) :
    ClosedForm D uname bigEndian cache content ↔ CachesFit cache := by
  have hfit : CountersFit D content := (fitsAll_lines_iff content).mp
    (fitsAll_of_length hlines fun hmem => absurd (hids _ hmem) (lt_irrefl _))
  have hrun : getCPUInfoLinux D uname bigEndian cache (some content) =
      if CachesFit cache then some (finished D content (hostInfo uname bigEndian cache))
      else none := by
    rw [getCPUInfoLinux_finished, startInfo_eq]
    split_ifs
    · rfl
    · rfl
  apply Iff.intro
  · intro h
    by_contra hover
    have hresult := h.result
    rw [hrun, if_neg hover] at hresult
    cases hresult
  · intro hcaches
    rw [if_pos hcaches] at hrun
    refine ⟨hrun, fun content' h => ?_, fun content' h => ?_, fun line => keyValue_of_not_mem,
      fun key value h => keyValue_append h value⟩
    · rw [← reported_perm h, hrun, Option.map_some]
    · rw [← hrun]
      refine (getCPUInfoLinux_congr fun name hname => ?_).symm
      rw [← valuesOf_filter_relevant hname (lines content), h, valuesOf_filter_relevant hname]

def armBoard : Text :=
  ["processor\t: 0\nCPU implementer\t: 0x41\nCPU architecture: 8\nCPU variant\t: 0x3\n",
    "CPU part\t: 0xd0c\n\nprocessor\t: 1\nCPU implementer\t: 0x42\nmodel : 5\n"].flatMap
      String.toList

def armCaches : CacheFiles := fun i => if i.val < 2 then some "64K\n".toList else none

theorem armBoard_info :
    getCPUInfoLinux .reference none false armCaches (some armBoard) = some
      { model_name := "ARM v8 (impl: 0x41, part: 0xd0c, variant: 0x3)".toList
        logical_cpus := 2
        physical_cpus := 2
        l1d_cache_kb := 64
        l1i_cache_kb := 64
        byte_order := "Little Endian".toList } := by
  have hids : physicalIds .reference armBoard = [] := by decide +kernel
  have hlines : (lines armBoard).length < 2 ^ 31 := by decide +kernel
  have hclosed := (getCPUInfoLinux_closed_form .reference none false armCaches hlines
    (by simp [hids])).mpr (by decide)
  rw [hclosed.result]
  decide +kernel

/-- A cache of 2 TiB, the first size that is not an `int32` number of KiB. -/
def hugeCaches : CacheFiles := fun i => if i.val = 3 then some "2147483648K\n".toList else none

theorem hugeCaches_no_result :
    (lines armBoard).length < 2 ^ 31 ∧
      (∀ i ∈ physicalIds .reference armBoard, i < 2 ^ 31 - 1) ∧
      getCPUInfoLinux .reference none false hugeCaches (some armBoard) = none ∧
      ¬ ClosedForm .reference none false hugeCaches armBoard := by
  have hids : physicalIds .reference armBoard = [] := by decide +kernel
  have hrun : getCPUInfoLinux .reference none false hugeCaches (some armBoard) = none := by
    decide +kernel
  refine ⟨by decide +kernel, by simp [hids], hrun, fun h => ?_⟩
  cases hrun.symm.trans h.result

end SystemStats.CpuFields
