import SystemStats.DuckDB
import SystemStats.FormattedInput
import SystemStats.StringUtils

/-!
# CPU statistics

`getCPUInfoLinux` reads four cache sizes and then `/proc/cpuinfo` line by line.
The counters are 32-bit signed integers: `none` is an overflow, which C++ leaves
undefined. A file is its content, `none` when it cannot be opened.
-/

namespace SystemStats.CpuStats
open TextLines FormattedInput StringUtils

structure CPUInfo where
  model_name : Text := []
  architecture : Text := []
  logical_cpus : ℤ := 0
  physical_cpus : ℤ := 0
  l1d_cache_kb : ℤ := 0
  l1i_cache_kb : ℤ := 0
  l2_cache_kb : ℤ := 0
  l3_cache_kb : ℤ := 0
  byte_order : Text := []
  deriving DecidableEq, Repr

def getByteOrder (bigEndian : Bool) : Text :=
  if bigEndian then "Big Endian".toList else "Little Endian".toList

def readDigits (value : ℤ) : Text → Option ℤ
  | [] => some value
  | c :: cs =>
    if c.isDigit then do
      let tens ← int32 (value * 10)
      let value ← int32 (tens + (c.toNat - '0'.toNat : ℕ))
      readDigits value cs
    else some value

def readCPUCacheSize (file : Option Text) : Option ℤ :=
  match file with
  | none => some 0
  | some content =>
    match getline content with
    | none => some 0
    | some (line, _) => readDigits 0 line

def keyValue (line : Text) : Option (Text × Text) :=
  (find ":" line).map (fun colonPos =>
    (trimString (line.take colonPos), trimString (line.drop (colonPos + 1))))

def isKey (name : String) (key : Text) : Bool := key == name.toList

structure CpuScan where
  info : CPUInfo
  model_found : Bool := false
  processor_count : ℤ := 0
  cpu_implementer : Text := []
  cpu_architecture : Text := []
  cpu_variant : Text := []
  cpu_part : Text := []
  deriving DecidableEq, Repr

def scanLine (D : DuckDB) (s : CpuScan) (line : Text) : Option CpuScan :=
  match keyValue line with
  | none => some s
  | some (key, value) =>
    if isKey "model name" key then some { s with info.model_name := value }
    else if isKey "model" key && !s.model_found then some { s with model_found := true }
    else if isKey "cpu MHz" key then
      (int32 (s.info.logical_cpus + 1)).map (fun n => { s with info.logical_cpus := n })
    else if isKey "physical id" key then
      match D.trySimpleIntegerCast value with
      | none => some s
      | some physId =>
        (int32 (physId + 1)).map (fun n =>
          if n > s.info.physical_cpus then { s with info.physical_cpus := n } else s)
    else if isKey "processor" key then
      (int32 (s.processor_count + 1)).map (fun n => { s with processor_count := n })
    else if isKey "CPU implementer" key then
      some (if s.cpu_implementer = [] then { s with cpu_implementer := value } else s)
    else if isKey "CPU architecture" key then
      some (if s.cpu_architecture = [] then { s with cpu_architecture := value } else s)
    else if isKey "CPU variant" key then
      some (if s.cpu_variant = [] then { s with cpu_variant := value } else s)
    else if isKey "CPU part" key then
      some (if s.cpu_part = [] then { s with cpu_part := value } else s)
    else some s

def scanLines (D : DuckDB) : CpuScan → List Text → Option CpuScan
  | s, [] => some s
  | s, line :: rest => (scanLine D s line).bind (fun s => scanLines D s rest)

def fallback (D : DuckDB) (s : CpuScan) : CPUInfo :=
  if s.processor_count > 0 ∧ s.info.logical_cpus = 0 then
    let info := { s.info with
      logical_cpus := s.processor_count
      physical_cpus := s.processor_count }
    let arm := D.format "ARM v%s (impl: %s, part: %s, variant: %s)".toList
      [s.cpu_architecture, s.cpu_implementer, s.cpu_part, s.cpu_variant]
    if info.model_name = [] ∧ s.cpu_implementer ≠ [] then { info with model_name := arm }
    else info
  else s.info

/-- The files `index0/size` to `index3/size` under `/sys/devices/system/cpu/cpu0/cache`. -/
abbrev CacheFiles := Fin 4 → Option Text

def getCPUInfoLinux (D : DuckDB) (uname : Option Text) (bigEndian : Bool) (cache : CacheFiles)
    (cpuinfo : Option Text) : Option CPUInfo := do
  let l1d ← readCPUCacheSize (cache 0)
  let l1i ← readCPUCacheSize (cache 1)
  let l2 ← readCPUCacheSize (cache 2)
  let l3 ← readCPUCacheSize (cache 3)
  let info : CPUInfo :=
    { architecture := uname.getD [], byte_order := getByteOrder bigEndian
      l1d_cache_kb := l1d, l1i_cache_kb := l1i, l2_cache_kb := l2, l3_cache_kb := l3 }
  match cpuinfo with
  | none => some info
  | some content => (scanLines D { info } (lines content)).map (fallback D)

/-- What the scan starts from, with these cache sizes. -/
def initialInfo (uname : Option Text) (bigEndian : Bool) (cache_kb : Fin 4 → ℤ) : CPUInfo where
  architecture := uname.getD []
  byte_order := getByteOrder bigEndian
  l1d_cache_kb := cache_kb 0
  l1i_cache_kb := cache_kb 1
  l2_cache_kb := cache_kb 2
  l3_cache_kb := cache_kb 3

end SystemStats.CpuStats
