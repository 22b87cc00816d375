import SystemStats.HandleCounts
import SystemStats.ProcessStates

/-!
# The operating system probe

`GetOSInfoLinux` combines `uname`, `gethostname`, the name from `os-release`, the
handle count, the walk over the processes and the uptime. A part that fails
leaves the default of its own fields and is logged.
-/

namespace SystemStats.OsProbe
open TextLines FormattedInput OsInfo ProcessScan ProcessStates HostActions HandleCounts
  HeldResources HeldResources.Action

structure OSInfo where
  name : Text := []
  version : Text := []
  host_name : Text := []
  handle_count : ℤ := 0
  process_count : ℤ := 0
  thread_count : ℤ := 0
  architecture : Text := []
  os_up_since_seconds : UInt64 := 0
  deriving DecidableEq, Repr

variable (D : DuckDB) (host : LinuxHost) (db : Instance)

def readOSName : Action Text :=
  withStream (host.opened "/etc/os-release") fun osFile => do
    logWhen osFile.isNone db
    return OsInfo.readOSName osFile

def readStatFile (d_name : Text) (status : ProcessStatus) : Action ProcessStatus :=
  match opened (host.files (D.format "/proc/%s/stat".toList [d_name])) with
  | none => return status
  | some content => do
    let stat_file ← acquire .file
    scopeExit (release stat_file) (do
      use stat_file
      return readStat (some content) status)

def scanEntries (dirp : Open) : List Text → ProcessStatus → Action ProcessStatus
  | [], status => do
    use dirp
    return status
  | d_name :: rest, status => do
    use dirp
    if numericName d_name then
      let active ← ofExcept (orOverflow (int32 (status.active_processes + 1)))
      let status ← readStatFile D host d_name { status with active_processes := active }
      scanEntries dirp rest status
    else scanEntries dirp rest status

def readProcessStatus : Action ProcessStatus :=
  match host.directories "/proc".toList with
  | none => return {}
  | some entries => do
    let dirp ← acquire .directory
    scopeExit (release dirp) (scanEntries D host dirp entries {})

def uptimeSeconds : Except Stop UInt64 :=
  host.uptime.elim (.ok 0) (fun uptime => orCast (D.numericCast uptime))

def osName (name : Text) : Text :=
  if name = [] then (host.uname.map Utsname.sysname).getD [] else name

def osVersion : Text :=
  (host.uname.map (fun uts => D.format "%s %s".toList [uts.sysname, uts.release])).getD []

def osInfo (name : Text) (handle_count : ℤ) (status : ProcessStatus) (uptime : UInt64) :
    OSInfo where
  name := osName host name
  version := osVersion D host
  host_name := (host.gethostname.map cString).getD []
  handle_count := handle_count
  process_count := status.active_processes
  thread_count := status.total_threads
  architecture := (host.uname.map Utsname.machine).getD []
  os_up_since_seconds := uptime

def getOSInfoLinux : Action OSInfo := do
  logWhen host.uname.isNone db
  logWhen host.gethostname.isNone db
  let name ← readOSName host db
  let allocated ← readHandleCount host db
  let handle_count ← orFallback D host allocated
  let status ← readProcessStatus D host
  logWhen host.uptime.isNone db
  let uptime ← ofExcept (uptimeSeconds D host)
  return osInfo D host name handle_count status uptime

def statFiles (path : Text) : Option Text := opened (host.files path)

def osReport : Except Stop OSInfo := do
  let handle_count ← handleCount D host
  let status ← orOverflow
    (OsInfo.readProcessStatus D (statFiles host) (host.directories "/proc".toList))
  let uptime ← uptimeSeconds D host
  return osInfo D host (OsInfo.readOSName (host.opened "/etc/os-release")) handle_count status
    uptime

variable {need : List Open}

theorem statFile_denotes (d_name : Text) (status : ProcessStatus) :
    Denotes need (readStatFile D host d_name status)
      (.ok (readStat (statFiles host (D.format "/proc/%s/stat".toList [d_name])) status)) := by
  rw [readStatFile, statFiles]
  cases opened (host.files (D.format "/proc/%s/stat".toList [d_name])) with
  | none => exact Denotes.pure status
  | some content =>
    exact Denotes.bracket Resource.file fun stat_file =>
      (Denotes.use List.mem_cons_self).bind fun _ _ => Denotes.pure _

theorem scanEntries_denotes {dirp : Open} (hmem : dirp ∈ need) (entries : List Text)
    (status : ProcessStatus) :
    Denotes need (scanEntries D host dirp entries status)
      (orOverflow (OsInfo.scanEntries D (statFiles host) entries status)) := by
  induction entries generalizing status with
  | nil => exact (Denotes.use hmem).seq (Denotes.pure status)
  | cons d_name rest ih =>
    refine (Denotes.use hmem).seq ?_
    rw [OsInfo.scanEntries]
    by_cases hname : numericName d_name = true
    · rw [if_pos hname, if_pos hname, Option.bind_eq_bind, orOverflow_bind]
      refine (Denotes.ofExcept _).bind fun active _ => ?_
      exact (statFile_denotes D host d_name _).seq (ih _)
    · rw [if_neg hname, if_neg hname]
      exact ih status

theorem processStatus_denotes : Denotes need (readProcessStatus D host)
    (orOverflow (OsInfo.readProcessStatus D (statFiles host)
      (host.directories "/proc".toList))) := by
  rw [readProcessStatus]
  cases host.directories "/proc".toList with
  | none => exact Denotes.pure _
  | some entries =>
    exact Denotes.bracket Resource.directory fun dirp =>
      scanEntries_denotes D host List.mem_cons_self entries {}

theorem os_reports : Reports need (getOSInfoLinux D host) (osReport D host) := by
  refine (Reports.logWhen _).seq ?_
  refine (Reports.logWhen _).seq ?_
  have hname : Reports need (readOSName host)
      (.ok (OsInfo.readOSName (host.opened "/etc/os-release"))) :=
    Reports.withStream fun _ => (Reports.logWhen _).seq (Reports.pure _)
  have hreport : osReport D host = (do
      let name ← .ok (OsInfo.readOSName (host.opened "/etc/os-release"))
      let allocated ← .ok (allocatedCount (host.opened "/proc/sys/fs/file-nr"))
      let handle_count ← orFallbackCount D host allocated
      let status ← orOverflow
        (OsInfo.readProcessStatus D (statFiles host) (host.directories "/proc".toList))
      let uptime ← uptimeSeconds D host
      return osInfo D host name handle_count status uptime) := rfl
  rw [hreport]
  refine hname.bind fun name => ?_
  refine (handleCount_reports host).bind fun allocated => ?_
  refine (Reports.of_denotes (orFallback_denotes D host allocated)).bind fun handle_count => ?_
  refine (Reports.of_denotes (processStatus_denotes D host)).bind fun status => ?_
  refine (Reports.logWhen _).seq ?_
  exact (Reports.ofExcept _).bind fun uptime => Reports.pure _

def entries : List Text := (host.directories "/proc".toList).getD []

def processes : List (Option (Char × ℤ)) := reports D (statFiles host) (entries host)

def threads : ℤ := ((processes D host).map threadsOf).sum

def handles : ℤ :=
  let allocated := allocatedCount (host.opened "/proc/sys/fs/file-nr")
  if allocated = 0 then descriptors D host (entries host) else allocated

def linuxInfo (uptime : UInt64) : OSInfo where
  name := osName host (OsInfo.readOSName (host.opened "/etc/os-release"))
  version := osVersion D host
  host_name := (host.gethostname.map cString).getD []
  handle_count := handles D host
  process_count := (processes D host).length
  thread_count := wrap32 (threads D host)
  architecture := (host.uname.map Utsname.machine).getD []
  os_up_since_seconds := uptime

theorem handleCount_eq : handleCount D host =
    if handles D host < 2 ^ 31 then .ok (handles D host) else .error .overflow := by
  rw [handleCount, orFallbackCount, handles]
  by_cases hzero : allocatedCount (host.opened "/proc/sys/fs/file-nr") = 0
  · simp only [hzero, ↓reduceIte]
    by_cases hfits : descriptors D host (entries host) < 2 ^ 31
    · rw [if_pos (by exact_mod_cast hfits)]
      exact counted_of_lt hfits
    · rw [if_neg (by exact_mod_cast hfits)]
      exact counted_of_le (not_lt.mp hfits)
  · simp only [hzero, ↓reduceIte]
    rw [if_pos (allocatedCount_range _).2]

theorem processStatus_eq :
    orOverflow (OsInfo.readProcessStatus D (statFiles host) (host.directories "/proc".toList)) =
      if (processes D host).length < 2 ^ 31 then .ok (statusOf (processes D host))
      else .error .overflow := by
  rw [processes, entries]
  cases host.directories "/proc".toList with
  | none => rfl
  | some entries =>
    rw [readProcessStatus_eq, apply_ite orOverflow]
    rfl

theorem osReport_eq_ok_iff {info : OSInfo} : osReport D host = .ok info ↔
    handles D host < 2 ^ 31 ∧ (processes D host).length < 2 ^ 31 ∧
      ∃ uptime, uptimeSeconds D host = .ok uptime ∧ info = linuxInfo D host uptime := by
  simp only [osReport, handleCount_eq, processStatus_eq, guard_bind, guard_eq_ok_iff,
    bind_eq_ok_iff]
  refine and_congr_right fun _ => and_congr_right fun _ => exists_congr fun uptime =>
    and_congr_right fun _ => ?_
  exact ⟨fun h => (Except.ok.inj h).symm, fun h => congrArg Except.ok h.symm⟩

/-- The row of `GetOSInfoLinux`: there is one unless a counter overflows or the uptime
does not fit, and its thread count is the residue of the exact sum. -/
theorem getOSInfoLinux_row (i : ℕ) (s : Store Resource) :
    ∃ r next, exec (getOSInfoLinux D host (.ok i)) s = some (r, ⟨next, s.held⟩) ∧
      (∀ info, r = .ok info ↔
        handles D host < 2 ^ 31 ∧ (processes D host).length < 2 ^ 31 ∧
          ∃ uptime, uptimeSeconds D host = .ok uptime ∧ info = linuxInfo D host uptime) ∧
      (∀ info, r = .ok info → InRange info.thread_count ∧
        info.thread_count ≡ threads D host [ZMOD 2 ^ 32] ∧
        (info.thread_count = threads D host ↔ InRange (threads D host))) := by
  obtain ⟨next, hrun⟩ := ((os_reports D host).found i).exec_eq (List.nil_subset s.held)
  refine ⟨osReport D host, next, hrun, fun info => osReport_eq_ok_iff D host, fun info hinfo => ?_⟩
  obtain ⟨-, -, uptime, -, rfl⟩ := (osReport_eq_ok_iff D host).mp hinfo
  exact wrap32_residue (threads D host)

end SystemStats.OsProbe
