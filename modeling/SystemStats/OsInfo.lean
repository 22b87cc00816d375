import SystemStats.DuckDB
import SystemStats.FormattedInput
import SystemStats.StringUtils

/-!
# Operating system information

`readOSName` looks the name up in the lines of `/etc/os-release`, and
`readProcessStatus` walks the entries of `/proc` and reads the `stat` file of
each numeric one. Directories and files are their contents, `none` when they
cannot be opened. In a NUL-terminated buffer the parsing cursor is the text that
is left, so `*line == '\0'` says that it is empty.
-/

namespace SystemStats.OsInfo
open TextLines FormattedInput StringUtils

def OS_NAME_PREFIX : String := "PRETTY_NAME="

def scanOSName : List Text → Text
  | [] => []
  | line :: rest =>
    match find OS_NAME_PREFIX line with
    | none => scanOSName rest
    | some pos => removeQuotes (trimString (line.drop (pos + OS_NAME_PREFIX.length)))

def readOSName (osFile : Option Text) : Text :=
  match osFile with
  | none => []
  | some content => scanOSName (lines content)

structure ProcessStatus where
  active_processes : ℤ := 0
  running_processes : ℤ := 0
  sleeping_processes : ℤ := 0
  stopped_processes : ℤ := 0
  zombie_processes : ℤ := 0
  total_threads : ℤ := 0
  deriving DecidableEq, Repr

def statFormat : Text :=
  "%c %d %d %d %d %d %lu %lu %lu %lu %lu ".toList ++ "%lu %lu %lu %lu %ld %ld %lu".toList

def isBlank (c : Char) : Bool := c == ' ' || c == '\t'

def scanFields (line : Text) : Option (Char × ℤ) :=
  let scanned := sscanf ((parseFormat statFormat).getD []) line
  if scanned.length < 18 then none
  else match scanned[0]?, scanned[17]? with
    | some (Conversion.char state), some (Conversion.number threads) => some (state, threads)
    | _, _ => none

/-- From the name of the process on: the cursor goes behind the last `)`. -/
def parseComm (line : Text) : Option (Char × ℤ) :=
  match strrchr ')' line with
  | none => none
  | some commEnd =>
    let line := (commEnd.drop 1).dropWhile isBlank
    if line = [] then none else scanFields line

def parseStat (lineBuf : Text) : Option (Char × ℤ) :=
  let line := (cString lineBuf).dropWhile (fun c => !isBlank c)
  if line = [] then none
  else match line.dropWhile isBlank with
    | '(' :: line => parseComm line
    | _ => none

/-- The addition converts to `unsigned long` and back. -/
def ProcessStatus.count (status : ProcessStatus) (state : Char) (threads : ℤ) : ProcessStatus :=
  let status := match state with
    | 'R' => { status with running_processes := status.running_processes + 1 }
    | 'S' | 'D' => { status with sleeping_processes := status.sleeping_processes + 1 }
    | 'T' => { status with stopped_processes := status.stopped_processes + 1 }
    | 'Z' => { status with zombie_processes := status.zombie_processes + 1 }
    | _ => status
  { status with
    total_threads := ((status.total_threads + threads) % 2 ^ 64).bmod (2 ^ 32) }

def readStat (stat : Option Text) (status : ProcessStatus) : ProcessStatus :=
  match stat with
  | none => status
  | some content =>
    match fgets 512 content with
    | none => status
    | some lineBuf =>
      match parseStat lineBuf with
      | none => status
      | some (state, threads) => status.count state threads

def numericName (d_name : Text) : Bool := d_name.head?.any Char.isDigit

def scanEntries (D : DuckDB) (files : Text → Option Text) :
    List Text → ProcessStatus → Option ProcessStatus
  | [], status => some status
  | d_name :: rest, status =>
    if numericName d_name then do
      let active ← int32 (status.active_processes + 1)
      let stat := files (D.format "/proc/%s/stat".toList [d_name])
      scanEntries D files rest (readStat stat { status with active_processes := active })
    else scanEntries D files rest status

def readProcessStatus (D : DuckDB) (files : Text → Option Text) (proc : Option (List Text)) :
    Option ProcessStatus :=
  match proc with
  | none => some {}
  | some entries => scanEntries D files entries {}

end SystemStats.OsInfo
