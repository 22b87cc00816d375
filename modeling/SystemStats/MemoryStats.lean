import SystemStats.FormattedInput

/-!
# Memory statistics

`getMemoryInfoLinux` reads `/proc/meminfo`; its argument is the content of the
file, `none` when it cannot be opened. Sizes are in bytes modulo `2 ^ 64`.
-/

namespace SystemStats.MemoryStats
open TextLines FormattedInput

structure MemoryInfo where
  total_memory : UInt64 := 0
  used_memory : UInt64 := 0
  free_memory : UInt64 := 0
  total_swap : UInt64 := 0
  used_swap : UInt64 := 0
  free_swap : UInt64 := 0
  cached_memory : UInt64 := 0
  deriving DecidableEq, Repr

def parseBytesValue (line : Text) : UInt64 :=
  match extractWord line with
  | none => 0
  | some (_, iss) =>
    match extractUInt64 0 iss with
    | (_, none) => 0
    | (value, some iss) =>
      match extractWord iss with
      | none => 0
      | some _ => value * 1024

/-- One pass through the body of the loop: the state and `parsed_count`. The
`SwapTotal:` branch goes on to the test for `SwapFree:`. -/
def parseLine (line : Text) (info : MemoryInfo) (parsedCount : ℕ) : MemoryInfo × ℕ :=
  if find "MemTotal:" line = some 0 then
    ({ info with total_memory := parseBytesValue line }, parsedCount + 1)
  else if find "MemFree:" line = some 0 then
    ({ info with free_memory := parseBytesValue line }, parsedCount + 1)
  else if find "Cached:" line = some 0 then
    ({ info with cached_memory := parseBytesValue line }, parsedCount + 1)
  else
    let (info, parsedCount) :=
      if find "SwapTotal:" line = some 0 then
        ({ info with total_swap := parseBytesValue line }, parsedCount + 1)
      else (info, parsedCount)
    if find "SwapFree:" line = some 0 then
      ({ info with free_swap := parseBytesValue line }, parsedCount + 1)
    else (info, parsedCount)

/-- The counter is tested after `getline` has consumed a line. -/
def parseLoop : List Text → MemoryInfo → ℕ → MemoryInfo
  | [], info, _ => info
  | line :: rest, info, parsedCount =>
    if parsedCount < 5 then
      let r := parseLine line info parsedCount
      parseLoop rest r.1 r.2
    else info

def MemoryInfo.setUsed (info : MemoryInfo) : MemoryInfo :=
  { info with
    used_memory := info.total_memory - info.free_memory
    used_swap := info.total_swap - info.free_swap }

def getMemoryInfoLinux : Option Text → MemoryInfo
  | none => {}
  | some meminfo => (parseLoop (lines meminfo) {} 0).setUsed

def MemoryInfo.Accounted (info : MemoryInfo) : Prop :=
  info.used_memory ≤ info.total_memory ∧ info.used_swap ≤ info.total_swap

instance (info : MemoryInfo) : Decidable info.Accounted :=
  inferInstanceAs (Decidable (_ ∧ _))

example : getMemoryInfoLinux (some "MemTotal:  8 kB\nMemFree:  3 kB\n".toList) =
    { total_memory := 8192, used_memory := 5120, free_memory := 3072 } := by decide

end SystemStats.MemoryStats
