import SystemStats.QueryFunctions

/-!
# Runs with a unit

A run binds its parameter and drains the function. With the name of a unit the
rows are those of the run in bytes, text columns unchanged and sizes divided by
the size of the unit; with any other text the bind fails. Whether a text of the
snapshot makes the run throw does not depend on the unit.
-/

namespace SystemStats.UnitRuns
open TextLines ChunkedScan DiskStats MemoryStats MemoryUnitUtil QueryFunctions

abbrev Rows := List (List (Option Value))

def sysDiskInfo (D : DuckDB) (capacity : ℕ) (unitStr : Option Text) (disks : List DiskInfo) :
    Except Text (Except Fault Rows) :=
  (sysDiskInfoBind D unitStr).map (fun (columns, unit) =>
    (drain (sysDiskInfoFunc D capacity unit) (disks.length + 1) (.init disks)).map
      (fun chunks => chunks.flatMap (·.rows columns.length)))

def sysMemoryInfo (D : DuckDB) (unitStr : Option Text) (info : MemoryInfo) :
    Except Text (Except Fault Rows) :=
  (sysMemoryInfoBind D unitStr).map (fun (columns, unit) =>
    (drain (sysMemoryInfoFunc D unit info) 2 false).map
      (fun chunks => chunks.flatMap (·.rows columns.length)))

def scale (size : ℕ) : Value → Value
  | .varchar s => .varchar s
  | .ubigint v => .ubigint (.ofNat (v.toNat / size))

def scaleRows (size : ℕ) (rows : Rows) : Rows := rows.map (List.map (Option.map (scale size)))

def diskRow (info : DiskInfo) : List (Option Value) :=
  [some (.varchar info.mount_point), some (.varchar info.file_system),
    some (.varchar info.file_system_type), some (.ubigint info.total_space),
    some (.ubigint info.used_space), some (.ubigint info.free_space)]

def memoryRow (info : MemoryInfo) : List (Option Value) :=
  [some (.ubigint info.total_memory), some (.ubigint info.used_memory),
    some (.ubigint info.free_memory), some (.ubigint info.cached_memory),
    some (.ubigint info.total_swap), some (.ubigint info.used_swap),
    some (.ubigint info.free_swap)]

def diskTable (D : DuckDB) (disks : List DiskInfo) : Except Fault Rows :=
  if ∀ info ∈ disks, (diskTexts info).all D.stringIsValid = true then .ok (disks.map diskRow)
  else .error .thrown

theorem scale_ubigint (v : UInt64) (unit : MemoryUnit) :
    scale unit.size (.ubigint v) = .ubigint (convertBytes v unit) := by
  rw [scale, ← convertBytes_toNat, UInt64.ofNat_toNat]

theorem diskValues_eq_scale (unit : MemoryUnit) (info : DiskInfo) :
    (diskValues unit info).map some = (diskRow info).map (Option.map (scale unit.size)) := by
  simp only [diskValues, diskRow, List.map_cons, List.map_nil, Option.map_some, scale_ubigint]
  rfl

theorem memoryValues_eq_scale (unit : MemoryUnit) (info : MemoryInfo) :
    (memoryValues unit info).map some = (memoryRow info).map (Option.map (scale unit.size)) := by
  simp only [memoryValues, memoryRow, List.map_cons, List.map_nil, Option.map_some, scale_ubigint]

theorem scaleRows_one (rows : Rows) : scaleRows MemoryUnit.bytes.size rows = rows := by
  have hscale : scale MemoryUnit.bytes.size = id := by
    funext v
    cases v with
    | varchar s => rfl
    | ubigint v => exact scale_ubigint v .bytes
  rw [scaleRows, hscale, Option.map_id, List.map_id_fun, List.map_id_fun, id]

variable {D : DuckDB} {unitStr : Option Text}

theorem sysDiskInfo_of_bound {unit : MemoryUnit} (h : bindUnit D unitStr = .ok unit)
    {capacity : ℕ} (hcap : 1 ≤ capacity) (disks : List DiskInfo) :
    sysDiskInfo D capacity unitStr disks =
      .ok ((diskTable D disks).map (scaleRows unit.size)) := by
  have hwidth : ∀ info, (diskValues unit info).length = diskColumns.length := fun _ => rfl
  have hfuel : disks.length < 0 + (disks.length + 1) := by omega
  have hinit := ScanState.valid_init disks
  simp only [sysDiskInfo, sysDiskInfoBind, bindColumns, h, Except.map, sysDiskInfoFunc]
  by_cases hvalid : ∀ info ∈ disks, (diskTexts info).all D.stringIsValid = true
  · rw [diskTable, if_pos hvalid]
    simp only [← diskValues_valid D unit] at hvalid
    obtain ⟨chunks, hrun, hrows⟩ := drain_emit hwidth hcap hinit hvalid hfuel
    have hrows' : chunks.flatMap (·.rows diskColumns.length) =
        disks.map (fun info => (diskValues unit info).map some) := hrows
    simp only [hrun, hrows', diskValues_eq_scale]
    rw [scaleRows, List.map_map]
    rfl
  · rw [diskTable, if_neg hvalid]
    simp only [not_forall, Bool.not_eq_true, exists_prop, ← diskValues_valid D unit] at hvalid
    rw [drain_thrown hwidth hcap hinit hvalid hfuel]

theorem sysMemoryInfo_of_bound {unit : MemoryUnit} (h : bindUnit D unitStr = .ok unit)
    (info : MemoryInfo) :
    sysMemoryInfo D unitStr info = .ok (.ok (scaleRows unit.size [memoryRow info])) := by
  obtain ⟨chunks, hrun, hrows⟩ := drain_emitOnce (memoryValues_valid D unit info) (Nat.le_refl 2)
  have hrows' : chunks.flatMap (·.rows memoryColumns.length) =
      [(memoryValues unit info).map some] := hrows
  simp only [sysMemoryInfo, sysMemoryInfoBind, bindColumns, h, Except.map, sysMemoryInfoFunc,
    hrun, hrows', memoryValues_eq_scale]
  rfl

theorem run_of_error {message : Text} (h : bindUnit D unitStr = .error message) (capacity : ℕ)
    (disks : List DiskInfo) (info : MemoryInfo) :
    sysDiskInfo D capacity unitStr disks = .error message ∧
      sysMemoryInfo D unitStr info = .error message := by
  simp only [sysDiskInfo, sysMemoryInfo, sysDiskInfoBind, sysMemoryInfoBind, bindColumns, h,
    Except.map, and_self]

/-- With a unit the rows are those of the run in bytes, scaled. -/
def RunsAgree (D : DuckDB) (capacity : ℕ) (s : Text) (size : ℕ) (disks : List DiskInfo)
    (info : MemoryInfo) : Prop :=
  sysDiskInfo D capacity none disks = .ok (diskTable D disks) ∧
    sysDiskInfo D capacity (some s) disks = .ok ((diskTable D disks).map (scaleRows size)) ∧
    sysMemoryInfo D none info = .ok (.ok [memoryRow info]) ∧
    sysMemoryInfo D (some s) info = .ok (.ok (scaleRows size [memoryRow info]))

theorem runs_of_named {unit : MemoryUnit} {s : Text} (h : unit.Named s) {capacity : ℕ}
    (hcap : 1 ≤ capacity) (disks : List DiskInfo) (info : MemoryInfo) :
    RunsAgree D capacity s unit.size disks info := by
  have hbytes : bindUnit D none = .ok .bytes := rfl
  have hunit : bindUnit D (some s) = .ok unit := parseUnit_of_named D h
  refine ⟨?_, sysDiskInfo_of_bound hunit hcap disks, ?_, sysMemoryInfo_of_bound hunit info⟩
  · rw [sysDiskInfo_of_bound hbytes hcap]
    cases diskTable D disks with
    | error fault => rfl
    | ok rows => rw [Except.map, scaleRows_one]
  · rw [sysMemoryInfo_of_bound hbytes, scaleRows_one]

theorem runs_of_not_named {s : Text} (hname : ∀ unit : MemoryUnit, ¬ unit.Named s)
    (hb : s.map Char.toLower ≠ ['b']) (capacity : ℕ) (disks : List DiskInfo)
    (info : MemoryInfo) :
    ∃ message, sysDiskInfoBind D (some s) = .error message ∧
      sysMemoryInfoBind D (some s) = .error message ∧
      sysDiskInfo D capacity (some s) disks = .error message ∧
      sysMemoryInfo D (some s) info = .error message := by
  have herror := parseUnit_error D hname hb
  have hruns := run_of_error (show bindUnit D (some s) = _ from herror) capacity disks info
  refine ⟨_, ?_, ?_, hruns⟩
  · rw [sysDiskInfoBind, bindColumns, bindUnit, herror]
    rfl
  · rw [sysMemoryInfoBind, bindColumns, bindUnit, herror]
    rfl

theorem unit_runs (D : DuckDB) {capacity : ℕ} (hcap : 1 ≤ capacity) :
    (∀ s disks info,
      (∀ unit : MemoryUnit, unit.Named s → RunsAgree D capacity s unit.size disks info) ∧
      ((∀ unit : MemoryUnit, ¬ unit.Named s) → s.map Char.toLower ≠ ['b'] →
        ∃ message, sysDiskInfoBind D (some s) = .error message ∧
          sysMemoryInfoBind D (some s) = .error message ∧
          sysDiskInfo D capacity (some s) disks = .error message ∧
          sysMemoryInfo D (some s) info = .error message)) ∧
    (∀ (unit : MemoryUnit) (a b t : UInt64), a.toNat + b.toNat = t.toNat →
      (convertBytes a unit).toNat + (convertBytes b unit).toNat ≤ (convertBytes t unit).toNat ∧
        (convertBytes t unit).toNat ≤
          (convertBytes a unit).toNat + (convertBytes b unit).toNat + 1) ∧
    (∀ (k : ℕ) (unit : MemoryUnit) (bytes : UInt64),
      (MemoryUnit.decimalFamily[k]? = some unit →
        (convertBytes · .kb)^[k] bytes = convertBytes bytes unit) ∧
      (MemoryUnit.binaryFamily[k]? = some unit →
        (convertBytes · .kib)^[k] bytes = convertBytes bytes unit)) := by
  refine ⟨fun s disks info => ⟨fun unit h => ?_, fun hname hb => ?_⟩, fun unit a b t h => ?_,
    fun k unit bytes => ⟨fun h => ?_, fun h => ?_⟩⟩
  · exact runs_of_named h hcap disks info
  · exact runs_of_not_named hname hb capacity disks info
  · exact convertBytes_add h unit
  · exact convertBytes_decimalFamily h bytes
  · exact convertBytes_binaryFamily h bytes

theorem unit_runs_reference :
    RunsAgree .reference 2048 "gIb".toList (1024 ^ 3)
        [⟨"/".toList, "/dev/sda".toList, "ext4".toList, 5000000000, 4000000000, 1000000000⟩] {} ∧
      (∃ message, sysDiskInfoBind .reference (some "invalid".toList) = .error message ∧
        sysMemoryInfoBind .reference (some "invalid".toList) = .error message ∧
        sysDiskInfo .reference 2048 (some "invalid".toList) [] = .error message ∧
        sysMemoryInfo .reference (some "invalid".toList) {} = .error message) ∧
      ((convertBytes 600 .kb).toNat + (convertBytes 600 .kb).toNat ≤
          (convertBytes 1200 .kb).toNat ∧
        (convertBytes 1200 .kb).toNat ≤
          (convertBytes 600 .kb).toNat + (convertBytes 600 .kb).toNat + 1) ∧
      (convertBytes · .kb)^[2] 123456789 = convertBytes 123456789 .mb ∧
      (convertBytes · .kib)^[3] 123456789 = convertBytes 123456789 .gib := by
  obtain ⟨hruns, hadd, hfamilies⟩ := unit_runs .reference (show 1 ≤ 2048 by decide)
  refine ⟨(hruns _ _ _).1 .gib (by decide), (hruns _ _ _).2 ?_ (by decide), hadd _ _ _ _ rfl,
    (hfamilies 2 _ _).1 rfl, (hfamilies 3 _ _).2 rfl⟩
  intro unit
  cases unit <;> decide

end SystemStats.UnitRuns
