import SystemStats.InstanceCache
import SystemStats.MacProcesses
import SystemStats.QueryFunctions

/-!
# The five table functions on a platform

A query is bound, initialised and then called until it returns an empty chunk.
The functions for disks, networks and the operating system run their probe when
they are initialised, those for memory and CPU at the first call. A row with a
text that is not valid ends the call with an exception. A platform brings its
probes together with what they return when there is an instance.
-/

namespace SystemStats.TableFunctions
open TextLines ChunkedScan MemoryStats CpuStats DiskStats NetworkStats MemoryUnitUtil OsProbe
  HostActions QueryFunctions InstanceCache HeldResources HeldResources.Action

inductive SqlType
  | varchar
  | ubigint
  | integer
  deriving DecidableEq, Repr

inductive Cell
  | value (v : Value)
  | integer (v : ℤ)
  deriving DecidableEq, Repr

abbrev Row := List (Option Cell)

def sqlType : LogicalType → SqlType
  | .varchar => .varchar
  | .ubigint => .ubigint

def Cell.type : Cell → SqlType
  | value v => sqlType v.type
  | integer _ => .integer

def Cell.valid (D : DuckDB) : Cell → Bool
  | value v => v.valid D
  | integer _ => true

def Row.valid (D : DuckDB) (row : Row) : Bool := row.all (Option.all (Cell.valid D))

abbrev TypedColumns := List (String × SqlType)

def sysCPUInfoBind : TypedColumns :=
  [("model_name", .varchar),
    ("architecture", .varchar),
    ("logical_processor", .integer),
    ("physical_processor", .integer),
    ("l1dcache_size_KiB", .integer),
    ("l1icache_size_KiB", .integer),
    ("l2cache_size_KiB", .integer),
    ("l3cache_size_KiB", .integer),
    ("cpu_byte_order", .varchar)]

def cpuValues (info : CPUInfo) : List Cell :=
  [.value (.varchar info.model_name),
    .value (.varchar info.architecture),
    .integer info.logical_cpus,
    .integer info.physical_cpus,
    .integer info.l1d_cache_kb,
    .integer info.l1i_cache_kb,
    .integer info.l2_cache_kb,
    .integer info.l3_cache_kb,
    .value (.varchar info.byte_order)]

def sysOSInfoBind : TypedColumns :=
  [("name", .varchar),
    ("version", .varchar),
    ("host_name", .varchar),
    ("handle_count", .integer),
    ("process_count", .integer),
    ("thread_count", .integer),
    ("architecture", .varchar),
    ("os_up_since_seconds", .ubigint)]

def osValues (info : OSInfo) : List Cell :=
  [.value (.varchar info.name),
    .value (.varchar info.version),
    .value (.varchar info.host_name),
    .integer info.handle_count,
    .integer info.process_count,
    .integer info.thread_count,
    .value (.varchar info.architecture),
    .value (.ubigint info.os_up_since_seconds)]

structure Platform where
  Host : Type
  getMemoryInfo : Host → Instance → Action MemoryInfo
  getCPUInfo : Host → Instance → Action CPUInfo
  getDiskInfo : Host → Instance → Action (List DiskInfo)
  getNetworkInfo : Host → Instance → Action (List NetworkInfo)
  getOSInfo : Host → Instance → Action OSInfo
  memoryReport : Host → Except Stop MemoryInfo
  cpuReport : Host → Except Stop CPUInfo
  diskReport : Host → Except Stop (List DiskInfo)
  networkReport : Host → Except Stop (List NetworkInfo)
  osReport : Host → Except Stop OSInfo
  memory_denotes : ∀ host i, Denotes [] (getMemoryInfo host (.ok i)) (memoryReport host)
  cpu_denotes : ∀ host i, Denotes [] (getCPUInfo host (.ok i)) (cpuReport host)
  disk_denotes : ∀ host i, Denotes [] (getDiskInfo host (.ok i)) (diskReport host)
  network_denotes : ∀ host i, Denotes [] (getNetworkInfo host (.ok i)) (networkReport host)
  os_denotes : ∀ host i, Denotes [] (getOSInfo host (.ok i)) (osReport host)

def linux (D : DuckDB) : Platform where
  Host := LinuxHost
  getMemoryInfo := LinuxProbes.getMemoryInfoLinux
  getCPUInfo := LinuxProbes.getCPUInfoLinux D
  getDiskInfo := LinuxProbes.getDiskInfoLinux D
  getNetworkInfo := LinuxProbes.getNetworkInfoLinux D
  getOSInfo := getOSInfoLinux D
  memoryReport host := .ok (getMemoryInfoLinux (host.opened "/proc/meminfo"))
  cpuReport host := orOverflow (getCPUInfoLinux D (host.uname.map Utsname.machine) host.bigEndian
    (LinuxProbes.cacheFiles host) (host.opened "/proc/cpuinfo"))
  diskReport host := orCast (getDiskInfoLinux D (host.mountTables "/etc/mtab".toList)
    (host.mountTables "/proc/mounts".toList))
  networkReport host := .ok (getNetworkInfoLinux D host.getnameinfo host.files host.getifaddrs)
  osReport host := osReport D host
  memory_denotes host := (LinuxProbes.memory_reports host).found
  cpu_denotes host := (LinuxProbes.cpu_reports D host).found
  disk_denotes host := LinuxProbes.disk_denotes D host
  network_denotes host := (LinuxProbes.network_reports D host).found
  os_denotes host := (os_reports D host).found

def macOS (D : MacProbes.NumericCasts) : Platform where
  Host := MacProbes.MacHost
  getMemoryInfo := MacProbes.getMemoryInfoMacOS D
  getCPUInfo := MacProbes.getCPUInfoMacOS D
  getDiskInfo := MacProbes.getDiskInfoMacOS D
  getNetworkInfo := MacProbes.getNetworkInfoMacOS D
  getOSInfo := MacProbes.getOSInfoMacOS D
  memoryReport host := .ok (MacReports.memoryInfo host)
  cpuReport := MacReports.cpuReport D
  diskReport host := orCast (getDiskInfoMacOS D.toDuckDB host.getmntinfo)
  networkReport := MacReports.networkReport D
  osReport := MacProcesses.osReport D
  memory_denotes host := (MacReports.memory_reports D host).found
  cpu_denotes host := (MacReports.cpu_reports D host).found
  disk_denotes host := (MacReports.disk_reports D host).found
  network_denotes host := (MacReports.network_reports D host).found
  os_denotes host := (MacProcesses.os_reports D host).found

theorem linux_refines (D : DuckDB) (host : LinuxHost) :
    Refines (LinuxProbes.getMemoryInfoLinux host) ((linux D).memoryReport host) ∧
    Refines (LinuxProbes.getCPUInfoLinux D host) ((linux D).cpuReport host) ∧
    Refines (LinuxProbes.getNetworkInfoLinux D host) ((linux D).networkReport host) ∧
    Refines (getOSInfoLinux D host) ((linux D).osReport host) :=
  ⟨(LinuxProbes.memory_reports host).refines, (LinuxProbes.cpu_reports D host).refines,
    (LinuxProbes.network_reports D host).refines, (os_reports D host).refines⟩

theorem macOS_refines (D : MacProbes.NumericCasts) (host : MacProbes.MacHost) :
    Refines (MacProbes.getMemoryInfoMacOS D host) ((macOS D).memoryReport host) ∧
    Refines (MacProbes.getCPUInfoMacOS D host) ((macOS D).cpuReport host) ∧
    Refines (MacProbes.getDiskInfoMacOS D host) ((macOS D).diskReport host) ∧
    Refines (MacProbes.getNetworkInfoMacOS D host) ((macOS D).networkReport host) ∧
    Refines (MacProbes.getOSInfoMacOS D host) ((macOS D).osReport host) :=
  ⟨(MacReports.memory_reports D host).refines, (MacReports.cpu_reports D host).refines,
    (MacReports.disk_reports D host).refines, (MacReports.network_reports D host).refines,
    (MacProcesses.os_reports D host).refines⟩

theorem macOS_refines_busy :
    Refines (MacProbes.getMemoryInfoMacOS .reference (MacProbes.busyMac 0)) (.ok {
      total_memory := 17179869184, used_memory := 12264669184, free_memory := 4915200000
      total_swap := 2147483648, used_swap := 536870912, free_swap := 1610612736 }) ∧
    Refines (MacProbes.getNetworkInfoMacOS .reference (MacProbes.busyMac 0)) (.ok [{
      interface_name := "en0".toList, ipv4_address := "10.0.0.1".toList
      tx_bytes := 700, tx_packets := 70, tx_errors := 1
      rx_bytes := 800, rx_packets := 80, rx_errors := 2, rx_dropped := 3 }]) := by
  obtain ⟨hmemory, -, -, hnetworks, -⟩ := macOS_refines .reference (MacProbes.busyMac 0)
  exact ⟨hmemory, hnetworks⟩

def unsupported {α : Type} (what : String) : Except Stop α :=
  .error (.notImplemented (what ++ " not supported on this platform"))

def otherPlatform : Platform where
  Host := Unit
  getMemoryInfo _ _ := ofExcept (unsupported "Memory statistics are")
  getCPUInfo _ _ := ofExcept (unsupported "CPU statistics are")
  getDiskInfo _ _ := ofExcept (unsupported "Disk statistics are")
  getNetworkInfo _ _ := ofExcept (unsupported "Network statistics are")
  getOSInfo _ _ := ofExcept (unsupported "OS information is")
  memoryReport _ := unsupported "Memory statistics are"
  cpuReport _ := unsupported "CPU statistics are"
  diskReport _ := unsupported "Disk statistics are"
  networkReport _ := unsupported "Network statistics are"
  osReport _ := unsupported "OS information is"
  memory_denotes _ _ := Denotes.ofExcept _
  cpu_denotes _ _ := Denotes.ofExcept _
  disk_denotes _ _ := Denotes.ofExcept _
  network_denotes _ _ := Denotes.ofExcept _
  os_denotes _ _ := Denotes.ofExcept _

inductive Bound
  | memory (unit : MemoryUnit)
  | cpu
  | disk (unit : MemoryUnit)
  | network
  | os
  deriving DecidableEq, Repr

def bindFunction (D : DuckDB) (unit : Option Text) : TableFunction → Except Text Bound
  | .memory => (sysMemoryInfoBind D unit).map (fun bound => .memory bound.2)
  | .cpu => .ok .cpu
  | .disk => (sysDiskInfoBind D unit).map (fun bound => .disk bound.2)
  | .network => .ok .network
  | .os => .ok .os

def typed (columns : Columns) : TypedColumns :=
  columns.map (fun column => (column.1, sqlType column.2))

def Bound.columns : Bound → TypedColumns
  | .memory _ => typed memoryColumns
  | .cpu => sysCPUInfoBind
  | .disk _ => typed diskColumns
  | .network => typed sysNetworkInfoBind
  | .os => sysOSInfoBind

def Bound.width (bound : Bound) : ℕ := bound.columns.length

/-- The bind data and the global state of a query. -/
inductive ScanData
  | memory (unit : MemoryUnit) (finished : Bool)
  | cpu (finished : Bool)
  | disk (unit : MemoryUnit) (data : ScanState DiskInfo)
  | network (data : ScanState NetworkInfo)
  | os (finished : Bool) (info : OSInfo)
  deriving DecidableEq

def ScanData.bound : ScanData → Bound
  | .memory unit _ => .memory unit
  | .cpu _ => .cpu
  | .disk unit _ => .disk unit
  | .network _ => .network
  | .os _ _ => .os

variable (D : DuckDB) (P : Platform) (capacity : ℕ) (host : P.Host) (db : Instance)

def initFunction : Bound → Action ScanData
  | .memory unit => return .memory unit false
  | .cpu => return .cpu false
  | .disk unit => do
    let disks ← P.getDiskInfo host db
    return .disk unit (.init disks)
  | .network => do
    let networks ← P.getNetworkInfo host db
    return .network (.init networks)
  | .os => do
    let os_info ← P.getOSInfo host db
    return .os false os_info

/-- A value that cannot be built throws; an access outside the snapshot is undefined. -/
def orFault {α : Type} : Except Fault α → Action α
  | .ok a => pure a
  | .error .thrown => throw .invalidUnicode
  | .error _ => ofExec (fun _ => none)

def callFunction : ScanData → Action (ScanData × Chunk Cell)
  | .memory unit true => return (.memory unit true, .reset)
  | .memory unit false => do
    let info ← P.getMemoryInfo host db
    let (finished, output) ← orFault (sysMemoryInfoFunc D unit info false .reset)
    return (.memory unit finished, output.map .value)
  | .cpu true => return (.cpu true, .reset)
  | .cpu false => do
    let info ← P.getCPUInfo host db
    let (finished, output) ← orFault (emitOnce (Cell.valid D) (cpuValues info) false .reset)
    return (.cpu finished, output)
  | .disk unit data => do
    let (data, output) ← orFault (sysDiskInfoFunc D capacity unit data .reset)
    return (.disk unit data, output.map .value)
  | .network data => do
    let (data, output) ← orFault (sysNetworkInfoFunc D capacity data .reset)
    return (.network data, output.map .value)
  | .os finished info => do
    let (finished, output) ← orFault (emitOnce (Cell.valid D) (osValues info) finished .reset)
    return (.os finished info, output)

def valueRow (values : List Value) : Row := (values.map some).map (Option.map Cell.value)

def memoryRow (unit : MemoryUnit) (info : MemoryInfo) : Row := valueRow (memoryValues unit info)

def diskRow (unit : MemoryUnit) (info : DiskInfo) : Row := valueRow (diskValues unit info)

def networkRow (info : NetworkInfo) : Row := valueRow (networkValues info)

def contents : Bound → Except Stop (List Row)
  | .memory unit => (P.memoryReport host).map (fun info => [memoryRow unit info])
  | .cpu => (P.cpuReport host).map (fun info => [(cpuValues info).map some])
  | .disk unit => (P.diskReport host).map (List.map (diskRow unit))
  | .network => (P.networkReport host).map (List.map networkRow)
  | .os => (P.osReport host).map (fun info => [(osValues info).map some])

def Bound.Typed (bound : Bound) (row : Row) : Prop :=
  row.map (Option.map Cell.type) = bound.columns.map (fun column => some column.2)

theorem contents_typed {bound : Bound} {rows : List Row} (h : contents P host bound = .ok rows) :
    ∀ row ∈ rows, bound.Typed row := by
  have hone : ∀ {α : Type} {report : Except Stop α} {row : α → Row},
      report.map (fun info => [row info]) = .ok rows → (∀ info, bound.Typed (row info)) →
      ∀ row ∈ rows, bound.Typed row := by
    intro α report row hrows hrow r hr
    cases report with
    | error e => cases hrows
    | ok info =>
      obtain rfl := Except.ok.inj hrows
      rw [List.mem_singleton.mp hr]
      exact hrow info
  have hmany : ∀ {α : Type} {report : Except Stop (List α)} {row : α → Row},
      report.map (List.map row) = .ok rows → (∀ info, bound.Typed (row info)) →
      ∀ row ∈ rows, bound.Typed row := by
    intro α report row hrows hrow r hr
    cases report with
    | error e => cases hrows
    | ok infos =>
      obtain rfl := Except.ok.inj hrows
      obtain ⟨info, -, rfl⟩ := List.mem_map.mp hr
      exact hrow info
  cases bound with
  | memory unit => exact hone h fun _ => rfl
  | cpu => exact hone h fun _ => rfl
  | disk unit => exact hmany h fun _ => rfl
  | network => exact hmany h fun _ => rfl
  | os => exact hone h fun _ => rfl

theorem linux_contents_ok (D : DuckDB) (host : LinuxHost) {bound : Bound} (hcpu : bound ≠ .cpu)
    (hos : bound ≠ .os) : ∃ rows, contents (linux D) host bound = .ok rows := by
  cases bound with
  | memory unit => exact ⟨_, rfl⟩
  | disk unit =>
    have hrows := getDiskInfoLinux_eq D (host.mountTables "/etc/mtab".toList)
      (host.mountTables "/proc/mounts".toList)
    exact ⟨_, congrArg (fun disks => (orCast disks).map (List.map (diskRow unit))) hrows⟩
  | network => exact ⟨_, rfl⟩
  | cpu => exact absurd rfl hcpu
  | os => exact absurd rfl hos

def unread {α : Type} (row : α → Row) (data : ScanState α) : List Row :=
  (data.snapshot.drop data.current_index).map row

/-- The rows still to come, `none` before the probe has run. -/
def ScanData.remaining : ScanData → Option (List Row)
  | .memory _ finished => if finished then some [] else none
  | .cpu finished => if finished then some [] else none
  | .disk unit data => some (unread (diskRow unit) data)
  | .network data => some (unread networkRow data)
  | .os finished info => some (if finished then [] else [(osValues info).map some])

def ScanData.Valid : ScanData → Prop
  | .disk _ data => data.Valid
  | .network data => data.Valid
  | .memory _ _ => True
  | .cpu _ => True
  | .os _ _ => True

/-- A call that goes on from `rows`: what it returns and what it leaves add up to them,
and it returns an empty chunk only when there are none. -/
structure Delivers (rows : List Row) (data data' : ScanData) (output : Chunk Cell) : Prop where
  valid : data'.Valid
  bound : data'.bound = data.bound
  split : ∃ rest, data'.remaining = some rest ∧ rows = output.rows data.bound.width ++ rest
  empty : output.cardinality = 0 → rows = []

variable {D P capacity host}

theorem valueRow_valid (values : List Value) :
    Row.valid D (valueRow values) = values.all (Value.valid D) := by
  rw [Row.valid, valueRow, List.map_map, List.all_map]
  rfl

theorem map_some_valid (values : List Cell) :
    Row.valid D (values.map some) = values.all (Cell.valid D) := by
  rw [Row.valid, List.all_map]
  rfl

theorem drained_delivers {data : ScanData} (hvalid : data.Valid)
    (hrest : data.remaining = some []) : Delivers [] data data .reset :=
  ⟨hvalid, rfl, ⟨[], hrest, rfl⟩, fun _ => rfl⟩

theorem emitOnce_delivers {values : List Cell} {data data' : ScanData}
    (hvalid : data'.Valid) (hbound : data'.bound = data.bound)
    (hwidth : values.length = data.bound.width) (hrest : data'.remaining = some []) :
    Delivers [values.map some] data data'
      { Chunk.reset.setRow 0 values with cardinality := 1 } where
  valid := hvalid
  bound := hbound
  split := by
    refine ⟨[], hrest, ?_⟩
    have hrow := Chunk.row_setRow_self .reset 0 values
    rw [hwidth] at hrow
    simpa [Chunk.rows, Chunk.row] using hrow.symm
  empty h := by cases h

theorem emit_delivers {α : Type} {values : α → List Value} {width : ℕ}
    (hwidth : ∀ a, (values a).length = width) (hcap : 1 ≤ capacity) {data : ScanState α}
    (hdata : data.Valid) (hvalid : ∀ a ∈ data.next capacity, (values a).all (Value.valid D)) :
    ∃ data' output, emit capacity (Value.valid D) values data .reset = .ok (data', output) ∧
      data'.Valid ∧
      unread (fun a => valueRow (values a)) data =
        (output.map Cell.value).rows width ++ unread (fun a => valueRow (values a)) data' ∧
      ((output.map Cell.value).cardinality = 0 →
        unread (fun a => valueRow (values a)) data = []) := by
  obtain ⟨data', output, hcall, hdata', hsnapshot, hindex, hcard, hrows⟩ :=
    emit_spec hwidth capacity hdata (rfl : (Chunk.reset : Chunk Value).cardinality = 0) hvalid
  have hle := hdata.index_le
  refine ⟨data', output, hcall, hdata', ?_, fun hempty => ?_⟩
  · rw [Chunk.rows_map, hrows, List.map_map, unread, unread,
      ← ScanState.next_append_drop hsnapshot hindex, List.map_append]
    rfl
  · have hzero : output.cardinality = 0 := hempty
    have hend : data.current_index = data.snapshot.length := by omega
    rw [unread, hend, List.drop_length, List.map_nil]

theorem ScanData.remaining_none {data : ScanData} (h : data.remaining = none) :
    data.bound = .cpu ∨ ∃ unit, data.bound = .memory unit := by
  cases data with
  | memory unit finished => exact .inr ⟨unit, rfl⟩
  | cpu finished => exact .inl rfl
  | disk unit data => cases h
  | network data => cases h
  | os finished info => cases h

theorem memory_contents_valid {unit : MemoryUnit} {rows : List Row}
    (h : contents P host (.memory unit) = .ok rows) : ∀ row ∈ rows, Row.valid D row = true := by
  rw [contents] at h
  cases hreport : P.memoryReport host with
  | error e =>
    rw [hreport] at h
    cases h
  | ok info =>
    rw [hreport] at h
    obtain rfl := Except.ok.inj h
    intro row hrow
    rw [List.mem_singleton.mp hrow, memoryRow, valueRow_valid]
    exact memoryValues_valid D unit info

structure Starts (P : Platform) (host : P.Host) (bound : Bound) (data : ScanData) : Prop where
  valid : data.Valid
  bound_eq : data.bound = bound
  rows : data.remaining = none ∨
    ∃ rows, data.remaining = some rows ∧ contents P host bound = .ok rows

theorem probe_init {α : Type} {probe : Action α} {report : Except Stop α}
    (hprobe : Denotes [] probe report) {bound : Bound} {data : α → ScanData}
    (hok : ∀ a, report = .ok a → Starts P host bound (data a))
    (herror : ∀ e, report = .error e → contents P host bound = .error e) :
    (∃ d, Starts P host bound d ∧ Denotes [] (probe >>= fun a => pure (data a)) (.ok d)) ∨
    ∃ e, contents P host bound = .error e ∧
      Denotes [] (probe >>= fun a => pure (data a)) (.error e) := by
  cases report with
  | error e => exact .inr ⟨e, herror e rfl, hprobe.bind_error⟩
  | ok a => exact .inl ⟨data a, hok a rfl, hprobe.seq (Denotes.pure _)⟩

theorem initFunction_spec (P : Platform) (host : P.Host) (i : ℕ) (bound : Bound) :
    (∃ data, Starts P host bound data ∧
      Denotes [] (initFunction P host (.ok i) bound) (.ok data)) ∨
    ∃ e, contents P host bound = .error e ∧
      Denotes [] (initFunction P host (.ok i) bound) (.error e) := by
  cases bound with
  | memory unit => exact .inl ⟨.memory unit false, ⟨trivial, rfl, .inl rfl⟩, Denotes.pure _⟩
  | cpu => exact .inl ⟨.cpu false, ⟨trivial, rfl, .inl rfl⟩, Denotes.pure _⟩
  | disk unit =>
    refine probe_init (P.disk_denotes host i) (fun disks h => ?_) fun e h => ?_
    · exact ⟨ScanState.valid_init disks, rfl, .inr ⟨_, rfl, by rw [contents, h]; rfl⟩⟩
    · rw [contents, h]
      rfl
  | network =>
    refine probe_init (P.network_denotes host i) (fun networks h => ?_) fun e h => ?_
    · exact ⟨ScanState.valid_init networks, rfl, .inr ⟨_, rfl, by rw [contents, h]; rfl⟩⟩
    · rw [contents, h]
      rfl
  | os =>
    refine probe_init (P.os_denotes host i) (fun os_info h => ?_) fun e h => ?_
    · exact ⟨trivial, rfl, .inr ⟨_, rfl, by rw [contents, h]; rfl⟩⟩
    · rw [contents, h]
      rfl

/-- The rows a query goes on with: what is left, or the table at this moment. -/
def ScanData.Continues (P : Platform) (host : P.Host) (data : ScanData) (rows : List Row) : Prop :=
  data.remaining = some rows ∨
    data.remaining = none ∧ contents P host data.bound = .ok rows

/-- How a call on `data` ends: it returns a chunk, the probe that it runs fails, or one of
the rows cannot be built. -/
inductive CallEnds (D : DuckDB) (P : Platform) (host : P.Host) (data : ScanData) :
    Except Stop (ScanData × Chunk Cell) → Prop
  | delivers {rows : List Row} {data' : ScanData} {output : Chunk Cell}
    (hrows : data.Continues P host rows) (h : Delivers rows data data' output) :
    CallEnds D P host data (.ok (data', output))
  | failed {e : Stop} (hnone : data.remaining = none) (he : contents P host data.bound = .error e) :
    CallEnds D P host data (.error e)
  | invalid {rows : List Row} (hrows : data.Continues P host rows)
    (hbad : ∃ row ∈ rows, Row.valid D row = false) :
    CallEnds D P host data (.error .invalidUnicode)

theorem CallEnds.invalid_row {data : ScanData} {e : Stop}
    (h : CallEnds D P host data (.error e)) {rest : List Row}
    (hrest : data.remaining = some rest) : ∃ row ∈ rest, Row.valid D row = false := by
  cases h with
  | failed hnone he =>
    rw [hnone] at hrest
    cases hrest
  | invalid hrows hbad =>
    rcases hrows with hsome | ⟨hnone, -⟩
    · obtain rfl := Option.some.inj (hsome.symm.trans hrest)
      exact hbad
    · rw [hnone] at hrest
      cases hrest

theorem probe_call {α : Type} {probe : Action α} {report : Except Stop α}
    (hprobe : Denotes [] probe report) {data : ScanData} {row : α → Row}
    {k : α → Action (ScanData × Chunk Cell)} (hrest : data.remaining = none)
    (hcontents : contents P host data.bound = report.map (fun a => [row a]))
    (hk : ∀ a, data.Continues P host [row a] →
      ∃ r, CallEnds D P host data r ∧ Denotes [] (k a) r) :
    ∃ r, CallEnds D P host data r ∧ Denotes [] (probe >>= k) r := by
  cases report with
  | error e => exact ⟨.error e, .failed hrest hcontents, hprobe.bind_error⟩
  | ok a =>
    obtain ⟨r, hends, hrun⟩ := hk a (.inr ⟨hrest, hcontents⟩)
    exact ⟨r, hends, hprobe.seq hrun⟩

theorem emitOnce_ends {values : List Cell} {data : ScanData} (data' : Bool → ScanData)
    (hrows : data.Continues P host [values.map some]) (hvalid : (data' true).Valid)
    (hbound : (data' true).bound = data.bound) (hwidth : values.length = data.bound.width)
    (hrest : (data' true).remaining = some []) :
    ∃ r, CallEnds D P host data r ∧
      Denotes [] (orFault (emitOnce (Cell.valid D) values false .reset) >>= fun call =>
        pure (data' call.1, call.2)) r := by
  by_cases hall : values.all (Cell.valid D) = true
  · refine ⟨_, .delivers hrows (emitOnce_delivers hvalid hbound hwidth hrest), ?_⟩
    simp only [emitOnce, hall, Bool.false_eq_true, ↓reduceIte]
    exact (Denotes.pure _).seq (Denotes.pure _)
  · refine ⟨_, .invalid hrows ⟨_, List.mem_cons_self, ?_⟩, ?_⟩
    · rw [map_some_valid]
      exact Bool.eq_false_iff.mpr hall
    · simp only [emitOnce, hall, Bool.false_eq_true, ↓reduceIte]
      exact (Denotes.throw _).bind_error

theorem emit_ends {α : Type} {values : α → List Value} {width : ℕ} {data : ScanData}
    {state : ScanState α} (data' : ScanState α → ScanData)
    (hwidth : ∀ a, (values a).length = width) (hcap : 1 ≤ capacity) (hstate : state.Valid)
    (hrest : data.remaining = some (unread (fun a => valueRow (values a)) state))
    (hvalid' : ∀ state, state.Valid → (data' state).Valid)
    (hbound : ∀ state, (data' state).bound = data.bound) (hcolumns : data.bound.width = width)
    (hrest' : ∀ state,
      (data' state).remaining = some (unread (fun a => valueRow (values a)) state)) :
    ∃ r, CallEnds D P host data r ∧
      Denotes [] (orFault (emit capacity (Value.valid D) values state .reset) >>= fun call =>
        pure (data' call.1, call.2.map .value)) r := by
  by_cases hbad : ∃ a ∈ state.next capacity, (values a).all (Value.valid D) = false
  · refine ⟨_, .invalid (.inl hrest) ?_, ?_⟩
    · obtain ⟨a, ha, hbad⟩ := hbad
      refine ⟨_, List.mem_map_of_mem (List.mem_of_mem_take ha), ?_⟩
      rw [valueRow_valid]
      exact hbad
    · rw [emit_thrown capacity hstate .reset hbad]
      exact (Denotes.throw _).bind_error
  · obtain ⟨state', output, hcall, hstate', hsplit, hempty⟩ :=
      emit_delivers hwidth hcap hstate (values_valid hbad)
    refine ⟨.ok (data' state', output.map .value), .delivers (.inl hrest) ?_, ?_⟩
    · refine ⟨hvalid' _ hstate', hbound _, ⟨_, hrest' _, ?_⟩, hempty⟩
      rw [hcolumns]
      exact hsplit
    · rw [hcall]
      exact (Denotes.pure _).seq (Denotes.pure _)

theorem callFunction_spec (D : DuckDB) (P : Platform) (hcap : 1 ≤ capacity) (host : P.Host)
    (i : ℕ) {data : ScanData} (hdata : data.Valid) :
    ∃ r, CallEnds D P host data r ∧
      Denotes [] (callFunction D P capacity host (.ok i) data) r := by
  cases data with
  | memory unit finished =>
    cases finished with
    | true => exact ⟨_, .delivers (.inl rfl) (drained_delivers trivial rfl), Denotes.pure _⟩
    | false =>
      refine probe_call (P.memory_denotes host i) rfl rfl fun info hrows =>
        ⟨.ok (.memory unit true, _), .delivers hrows ⟨trivial, rfl, ⟨[], rfl, ?_⟩, ?_⟩,
          (Denotes.pure _).seq (Denotes.pure _)⟩
      · rw [Chunk.rows_map]
        rfl
      · exact fun h => by cases h
  | cpu finished =>
    cases finished with
    | true => exact ⟨_, .delivers (.inl rfl) (drained_delivers trivial rfl), Denotes.pure _⟩
    | false =>
      exact probe_call (P.cpu_denotes host i) rfl rfl fun info hrows =>
        emitOnce_ends ScanData.cpu hrows trivial rfl rfl rfl
  | disk unit data =>
    exact emit_ends (ScanData.disk unit) (fun _ => rfl) hcap hdata rfl (fun _ h => h)
      (fun _ => rfl) rfl fun _ => rfl
  | network data =>
    exact emit_ends ScanData.network (fun _ => rfl) hcap hdata rfl (fun _ h => h) (fun _ => rfl)
      rfl fun _ => rfl
  | os finished info =>
    cases finished with
    | true =>
      exact ⟨_, .delivers (.inl rfl) (drained_delivers trivial rfl),
        (Denotes.pure _).seq (Denotes.pure _)⟩
    | false =>
      exact emitOnce_ends (fun finished => ScanData.os finished info) (.inl rfl) trivial rfl rfl rfl

end SystemStats.TableFunctions
