import SystemStats.ChunkedScan
import SystemStats.DiskStats
import SystemStats.MemoryStats
import SystemStats.MemoryUnitUtil
import SystemStats.NetworkStats

/-!
# Table functions

A bind function declares the columns and reads the `unit` parameter, `none` when
it is not given. The function itself is then called until it returns an empty
chunk; `capacity` is `STANDARD_VECTOR_SIZE`. The constructor of a text value
throws when the text is not valid, and that ends the call.
-/

namespace SystemStats.QueryFunctions
open TextLines ChunkedScan DiskStats MemoryStats MemoryUnitUtil NetworkStats

inductive LogicalType
  | varchar
  | ubigint
  deriving DecidableEq, Repr

inductive Value
  | varchar (s : Text)
  | ubigint (v : UInt64)
  deriving DecidableEq, Repr

def Value.type : Value → LogicalType
  | varchar _ => .varchar
  | ubigint _ => .ubigint

/-- The constructor of the value does not throw. -/
def Value.valid (D : DuckDB) : Value → Bool
  | varchar s => D.stringIsValid s
  | ubigint _ => true

abbrev Columns := List (String × LogicalType)

def bindUnit (D : DuckDB) : Option Text → Except Text MemoryUnit
  | none => .ok .bytes
  | some unitStr => parseUnit D unitStr

def bindColumns (D : DuckDB) (columns : Columns) (unit : Option Text) :
    Except Text (Columns × MemoryUnit) :=
  (bindUnit D unit).map (fun unit => (columns, unit))

def diskColumns : Columns :=
  [("mount_point", .varchar),
    ("file_system", .varchar),
    ("file_system_type", .varchar),
    ("total_space", .ubigint),
    ("used_space", .ubigint),
    ("free_space", .ubigint)]

def sysDiskInfoBind (D : DuckDB) (unit : Option Text) : Except Text (Columns × MemoryUnit) :=
  bindColumns D diskColumns unit

def diskValues (unit : MemoryUnit) (info : DiskInfo) : List Value :=
  [.varchar info.mount_point,
    .varchar info.file_system,
    .varchar info.file_system_type,
    .ubigint (convertBytes info.total_space unit),
    .ubigint (convertBytes info.used_space unit),
    .ubigint (convertBytes info.free_space unit)]

def sysDiskInfoFunc (D : DuckDB) (capacity : ℕ) (unit : MemoryUnit) :
    ScanState DiskInfo → Chunk Value → Except Fault (ScanState DiskInfo × Chunk Value) :=
  emit capacity (Value.valid D) (diskValues unit)

def sysNetworkInfoBind : Columns :=
  [("interface_name", .varchar),
    ("ip_address", .varchar),
    ("tx_bytes", .ubigint),
    ("tx_packets", .ubigint),
    ("tx_errors", .ubigint),
    ("tx_dropped", .ubigint),
    ("rx_bytes", .ubigint),
    ("rx_packets", .ubigint),
    ("rx_errors", .ubigint),
    ("rx_dropped", .ubigint),
    ("link_speed_mbps", .ubigint)]

def networkValues (info : NetworkInfo) : List Value :=
  [.varchar info.interface_name,
    .varchar info.ipv4_address,
    .ubigint info.tx_bytes,
    .ubigint info.tx_packets,
    .ubigint info.tx_errors,
    .ubigint info.tx_dropped,
    .ubigint info.rx_bytes,
    .ubigint info.rx_packets,
    .ubigint info.rx_errors,
    .ubigint info.rx_dropped,
    .ubigint info.speed_mbps]

def sysNetworkInfoFunc (D : DuckDB) (capacity : ℕ) :
    ScanState NetworkInfo → Chunk Value → Except Fault (ScanState NetworkInfo × Chunk Value) :=
  emit capacity (Value.valid D) networkValues

def memoryColumns : Columns :=
  [("total_memory", .ubigint),
    ("used_memory", .ubigint),
    ("free_memory", .ubigint),
    ("cached_memory", .ubigint),
    ("total_swap", .ubigint),
    ("used_swap", .ubigint),
    ("free_swap", .ubigint)]

def sysMemoryInfoBind (D : DuckDB) (unit : Option Text) : Except Text (Columns × MemoryUnit) :=
  bindColumns D memoryColumns unit

def memoryValues (unit : MemoryUnit) (info : MemoryInfo) : List Value :=
  [.ubigint (convertBytes info.total_memory unit),
    .ubigint (convertBytes info.used_memory unit),
    .ubigint (convertBytes info.free_memory unit),
    .ubigint (convertBytes info.cached_memory unit),
    .ubigint (convertBytes info.total_swap unit),
    .ubigint (convertBytes info.used_swap unit),
    .ubigint (convertBytes info.free_swap unit)]

/-- `info` is what `GetMemoryInfo` returns during the call; the state is `finished`. -/
def sysMemoryInfoFunc (D : DuckDB) (unit : MemoryUnit) (info : MemoryInfo) :
    Bool → Chunk Value → Except Fault (Bool × Chunk Value) :=
  emitOnce (Value.valid D) (memoryValues unit info)

structure Matches (columns : Columns) (field : String → Option Value) (values : List Value) :
    Prop where
  fields : values.map some = columns.map (fun column => field column.1)
  types : values.map Value.type = columns.map Prod.snd

theorem Matches.length_eq {columns : Columns} {field : String → Option Value}
    {values : List Value} (h : Matches columns field values) : values.length = columns.length := by
  simpa using congrArg List.length h.types

def diskTexts (info : DiskInfo) : List Text :=
  [info.mount_point, info.file_system, info.file_system_type]

def networkTexts (info : NetworkInfo) : List Text := [info.interface_name, info.ipv4_address]

theorem diskValues_valid (D : DuckDB) (unit : MemoryUnit) (info : DiskInfo) :
    (diskValues unit info).all (Value.valid D) = (diskTexts info).all D.stringIsValid := by
  simp [diskValues, diskTexts, Value.valid]

theorem networkValues_valid (D : DuckDB) (info : NetworkInfo) :
    (networkValues info).all (Value.valid D) = (networkTexts info).all D.stringIsValid := by
  simp [networkValues, networkTexts, Value.valid]

theorem memoryValues_valid (D : DuckDB) (unit : MemoryUnit) (info : MemoryInfo) :
    (memoryValues unit info).all (Value.valid D) = true := rfl

end SystemStats.QueryFunctions
