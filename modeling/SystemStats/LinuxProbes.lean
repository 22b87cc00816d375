import SystemStats.CpuStats
import SystemStats.HostActions
import SystemStats.MemoryStats

/-!
# The Linux probes as programs

Each probe opens what it reads, logs what it cannot open and closes everything
again. With an instance to log to it returns what the model of its parser says,
and with or without one it gives back every handle, but for `GetDiskInfoLinux`:
its `endmntent` has no guard, so an exception from the lookup leaves the mount
table open.
-/

namespace SystemStats.LinuxProbes
open TextLines FormattedInput MemoryStats CpuStats NetworkStats DiskStats HostActions
  HeldResources HeldResources.Action

variable (D : DuckDB) (host : LinuxHost) (db : Instance)

def getMemoryInfoLinux : Action MemoryInfo :=
  withStream (host.opened "/proc/meminfo") fun meminfo => do
    logWhen meminfo.isNone db
    return MemoryStats.getMemoryInfoLinux meminfo

def cachePath (k : Fin 4) : String :=
  match k with
  | 0 => "/sys/devices/system/cpu/cpu0/cache/index0/size"
  | 1 => "/sys/devices/system/cpu/cpu0/cache/index1/size"
  | 2 => "/sys/devices/system/cpu/cpu0/cache/index2/size"
  | 3 => "/sys/devices/system/cpu/cpu0/cache/index3/size"

def cacheFiles : CacheFiles := fun k => host.opened (cachePath k)

def readCPUCacheSize (path : String) : Action ℤ :=
  withStream (host.opened path) fun file => do
    logWhen file.isNone db
    ofExcept (orOverflow (CpuStats.readCPUCacheSize file))

def getCPUInfoLinux : Action CPUInfo := do
  logWhen host.uname.isNone db
  let l1d ← readCPUCacheSize host db "/sys/devices/system/cpu/cpu0/cache/index0/size"
  let l1i ← readCPUCacheSize host db "/sys/devices/system/cpu/cpu0/cache/index1/size"
  let l2 ← readCPUCacheSize host db "/sys/devices/system/cpu/cpu0/cache/index2/size"
  let l3 ← readCPUCacheSize host db "/sys/devices/system/cpu/cpu0/cache/index3/size"
  let info : CPUInfo :=
    { architecture := (host.uname.map Utsname.machine).getD []
      byte_order := getByteOrder host.bigEndian
      l1d_cache_kb := l1d, l1i_cache_kb := l1i, l2_cache_kb := l2, l3_cache_kb := l3 }
  withStream (host.opened "/proc/cpuinfo") fun cpuinfo =>
    match cpuinfo with
    | none => do
      logDebug db
      return info
    | some content =>
      ofExcept (orOverflow ((scanLines D { info } (lines content)).map (fallback D)))

def readSysFile (file : SysFile) : Action UInt64 :=
  withStream (opened file) fun text => do
    logWhen text.isNone db
    return file.value

def readSysNetValue (interface : Text) (statName : String) : Action UInt64 :=
  readSysFile db (host.files
    (D.format "/sys/class/net/%s/statistics/%s".toList [interface, statName.toList]))

def readSpeedMbps (interface : Text) : Action UInt64 :=
  readSysFile db (host.files (D.format "/sys/class/net/%s/speed".toList [interface]))

def readStatistics (info : NetworkInfo) : Action NetworkInfo := do
  let speed_mbps ← readSpeedMbps D host db info.interface_name
  let rx_bytes ← readSysNetValue D host db info.interface_name "rx_bytes"
  let tx_bytes ← readSysNetValue D host db info.interface_name "tx_bytes"
  let rx_packets ← readSysNetValue D host db info.interface_name "rx_packets"
  let tx_packets ← readSysNetValue D host db info.interface_name "tx_packets"
  let rx_errors ← readSysNetValue D host db info.interface_name "rx_errors"
  let tx_errors ← readSysNetValue D host db info.interface_name "tx_errors"
  let rx_dropped ← readSysNetValue D host db info.interface_name "rx_dropped"
  let tx_dropped ← readSysNetValue D host db info.interface_name "tx_dropped"
  return { info with
    speed_mbps, rx_bytes, tx_bytes, rx_packets, tx_packets, rx_errors, tx_errors, rx_dropped,
    tx_dropped }

def scanAddresses (ifaddr : Open) : List IfAddrs → Action (List NetworkInfo)
  | [] => return []
  | ifa :: rest => do
    use ifaddr
    match ifa.ifa_addr with
    | none => scanAddresses ifaddr rest
    | some addr =>
      if addr.sa_family ≠ AF_INET then scanAddresses ifaddr rest
      else
        logWhen (host.getnameinfo addr).isNone db
        let info ← readStatistics D host db
          { interface_name := ifa.ifa_name, ipv4_address := hostName host.getnameinfo addr }
        let networks ← scanAddresses ifaddr rest
        return info :: networks

def getNetworkInfoLinux : Action (List NetworkInfo) :=
  match host.getifaddrs with
  | none => do
    logDebug db
    return []
  | some addresses => do
    let ifaddr ← acquire .addresses
    scopeExit (release ifaddr) (scanAddresses D host db ifaddr addresses)

/-- The loop over a mount table, which both platforms share. `advance` is the call that
moves on to the next entry. -/
def scanMounts {w : ℕ} (advance : Action Unit) : MountTable w → Action (List DiskInfo)
  | [] => do
    advance
    return []
  | (ent, reply) :: rest => do
    advance
    if skipped ent then scanMounts advance rest
    else match reply with
      | none =>
        logDebug db
        scanMounts advance rest
      | some buf =>
        let total_space ← ofExcept (orCast (D.numericCast (buf.space buf.f_blocks).toNat))
        if total_space = 0 then scanMounts advance rest
        else
          let used_space ← ofExcept
            (orCast (D.numericCast (buf.space (buf.f_blocks - buf.f_bfree)).toNat))
          let free_space ← ofExcept (orCast (D.numericCast (buf.space buf.f_bavail).toNat))
          let disks ← scanMounts advance rest
          return ⟨ent.mnt_dir, ent.mnt_fsname, ent.mnt_type, total_space, used_space,
            free_space⟩ :: disks

def mountTable : Option (MountTable 64) :=
  (host.mountTables "/etc/mtab".toList).or (host.mountTables "/proc/mounts".toList)

def getDiskInfoLinux : Action (List DiskInfo) :=
  match mountTable host with
  | none => do
    logDebug db
    return []
  | some table => unguarded .mountTable fun fp => scanMounts D db (use fp) table

variable {need : List Open}

theorem memory_reports : Reports need (getMemoryInfoLinux host)
    (.ok (MemoryStats.getMemoryInfoLinux (host.opened "/proc/meminfo"))) :=
  Reports.withStream fun _ => (Reports.logWhen _).seq (Reports.pure _)

theorem cacheSize_reports (path : String) : Reports need (fun db => readCPUCacheSize host db path)
    (orOverflow (CpuStats.readCPUCacheSize (host.opened path))) :=
  Reports.withStream fun _ => (Reports.logWhen _).seq (Reports.ofExcept _)

theorem cpu_reports : Reports need (getCPUInfoLinux D host)
    (orOverflow (CpuStats.getCPUInfoLinux D (host.uname.map Utsname.machine) host.bigEndian
      (cacheFiles host) (host.opened "/proc/cpuinfo"))) := by
  simp only [CpuStats.getCPUInfoLinux, Option.bind_eq_bind, orOverflow_bind]
  refine (Reports.logWhen _).seq ?_
  refine (cacheSize_reports host _).bind fun l1d => ?_
  refine (cacheSize_reports host _).bind fun l1i => ?_
  refine (cacheSize_reports host _).bind fun l2 => ?_
  refine (cacheSize_reports host _).bind fun l3 => ?_
  refine Reports.withStream fun _ => ?_
  cases host.opened "/proc/cpuinfo" with
  | none => exact Reports.logDebug.seq (Reports.pure _)
  | some content => exact Reports.ofExcept _

theorem sysFile_reports (file : SysFile) :
    Reports need (fun db => readSysFile db file) (.ok file.value) :=
  Reports.withStream fun _ => (Reports.logWhen _).seq (Reports.pure _)

theorem statistics_reports (info : NetworkInfo) :
    Reports need (fun db => readStatistics D host db info)
      (.ok (NetworkStats.readStatistics D host.files info)) := by
  have hread : ∀ file, Reports need (fun db => readSysFile db file) (.ok file.value) :=
    fun file => sysFile_reports file
  have hspeed : ∀ name, Reports need (fun db => readSpeedMbps D host db name)
      (.ok (NetworkStats.readSpeedMbps D host.files name)) := fun name => hread _
  have hvalue : ∀ name stat, Reports need (fun db => readSysNetValue D host db name stat)
      (.ok (NetworkStats.readSysNetValue D host.files name stat)) := fun name stat => hread _
  have hreport : (.ok (NetworkStats.readStatistics D host.files info) : Except Stop NetworkInfo) =
      (do
        let speed_mbps ← .ok (NetworkStats.readSpeedMbps D host.files info.interface_name)
        let rx_bytes ←
          .ok (NetworkStats.readSysNetValue D host.files info.interface_name "rx_bytes")
        let tx_bytes ←
          .ok (NetworkStats.readSysNetValue D host.files info.interface_name "tx_bytes")
        let rx_packets ←
          .ok (NetworkStats.readSysNetValue D host.files info.interface_name "rx_packets")
        let tx_packets ←
          .ok (NetworkStats.readSysNetValue D host.files info.interface_name "tx_packets")
        let rx_errors ←
          .ok (NetworkStats.readSysNetValue D host.files info.interface_name "rx_errors")
        let tx_errors ←
          .ok (NetworkStats.readSysNetValue D host.files info.interface_name "tx_errors")
        let rx_dropped ←
          .ok (NetworkStats.readSysNetValue D host.files info.interface_name "rx_dropped")
        let tx_dropped ←
          .ok (NetworkStats.readSysNetValue D host.files info.interface_name "tx_dropped")
        return { info with
          speed_mbps, rx_bytes, tx_bytes, rx_packets, tx_packets, rx_errors, tx_errors, rx_dropped,
          tx_dropped }) := rfl
  rw [hreport]
  refine (hspeed _).bind fun speed_mbps => ?_
  refine (hvalue _ _).bind fun rx_bytes => ?_
  refine (hvalue _ _).bind fun tx_bytes => ?_
  refine (hvalue _ _).bind fun rx_packets => ?_
  refine (hvalue _ _).bind fun tx_packets => ?_
  refine (hvalue _ _).bind fun rx_errors => ?_
  refine (hvalue _ _).bind fun tx_errors => ?_
  refine (hvalue _ _).bind fun rx_dropped => ?_
  exact (hvalue _ _).bind fun tx_dropped => Reports.pure _

theorem addresses_reports {ifaddr : Open} (hmem : ifaddr ∈ need) (addresses : List IfAddrs) :
    Reports need (fun db => scanAddresses D host db ifaddr addresses)
      (.ok (NetworkStats.scanAddresses D host.getnameinfo host.files addresses)) := by
  induction addresses with
  | nil => exact Reports.pure []
  | cons ifa rest ih =>
    refine (Reports.use hmem).seq ?_
    rw [NetworkStats.scanAddresses]
    cases ifa.ifa_addr with
    | none => exact ih
    | some addr =>
      by_cases hfamily : addr.sa_family = AF_INET
      · simp only [hfamily, ne_eq, not_true_eq_false, ↓reduceIte]
        refine (Reports.logWhen _).seq ?_
        set networks := NetworkStats.scanAddresses D host.getnameinfo host.files rest
        refine (statistics_reports D host _).bind (g := fun info => .ok (info :: networks)) ?_
        intro info
        exact ih.bind fun networks => Reports.pure (info :: networks)
      · simp only [hfamily, ne_eq, not_false_eq_true, ↓reduceIte]
        exact ih

theorem network_reports : Reports need (getNetworkInfoLinux D host)
    (.ok (NetworkStats.getNetworkInfoLinux D host.getnameinfo host.files host.getifaddrs)) := by
  unfold getNetworkInfoLinux
  cases host.getifaddrs with
  | none => exact Reports.logDebug.seq (Reports.pure _)
  | some addresses =>
    exact Reports.guarded Resource.addresses fun ifaddr =>
      addresses_reports D host List.mem_cons_self addresses

def failing {w : ℕ} (e : MountEntry × Option (StatVfs w)) : Bool := !skipped e.1 && e.2.isNone

def mountReport {w : ℕ} (table : MountTable w) : Except Stop (List DiskInfo) :=
  if table.any failing then db.map (fun _ => table.filterMap emitted)
  else .ok (table.filterMap emitted)

theorem mountReport_quiet {w : ℕ} {e : MountEntry × Option (StatVfs w)} (he : failing e = false)
    (rest : MountTable w) :
    mountReport db (e :: rest) = (mountReport db rest).map ((emitted e).toList ++ ·) := by
  have hrows : (e :: rest).filterMap emitted = (emitted e).toList ++ rest.filterMap emitted := by
    rw [List.filterMap_cons]
    cases emitted e <;> rfl
  rw [mountReport, mountReport, hrows, List.any_cons, he, Bool.false_or]
  split_ifs
  · cases db <;> rfl
  · rfl

theorem mountReport_dropped {w : ℕ} {e : MountEntry × Option (StatVfs w)} (he : failing e = false)
    (hnone : emitted e = none) (rest : MountTable w) :
    mountReport db (e :: rest) = mountReport db rest := by
  rw [mountReport_quiet db he, hnone]
  cases mountReport db rest <;> rfl

theorem mountReport_failing {w : ℕ} {e : MountEntry × Option (StatVfs w)} (he : failing e = true)
    (rest : MountTable w) :
    mountReport db (e :: rest) = db.bind (fun _ => mountReport db rest) := by
  have hnone : emitted e = none := by
    rw [failing, Bool.and_eq_true, Option.isNone_iff_eq_none] at he
    simp [emitted, he.2]
  rw [mountReport, mountReport, List.filterMap_cons_none hnone, List.any_cons, he, Bool.true_or,
    if_pos rfl]
  cases db with
  | error e => rfl
  | ok i => split_ifs <;> rfl

theorem mountReport_found {w : ℕ} (i : ℕ) (table : MountTable w) :
    mountReport (.ok i) table = .ok (table.filterMap emitted) := by
  rw [mountReport]
  split_ifs <;> rfl

theorem mounts_denotes {w : ℕ} {advance : Action Unit} (hadvance : Denotes need advance (.ok ()))
    (table : MountTable w) :
    Denotes need (scanMounts D db advance table) (mountReport db table) := by
  induction table with
  | nil => exact hadvance.seq (Denotes.pure _)
  | cons e rest ih =>
    obtain ⟨ent, reply⟩ := e
    refine hadvance.seq ?_
    by_cases hskip : skipped ent = true
    · have hquiet : failing (ent, reply) = false := by simp [failing, hskip]
      have hnone : emitted (ent, reply) = none := by simp [emitted, hskip]
      rw [mountReport_dropped db hquiet hnone, if_pos hskip]
      exact ih
    rw [if_neg hskip]
    cases reply with
    | none =>
      have hfailing : failing (ent, (none : Option (StatVfs w))) = true := by
        simp [failing, hskip]
      rw [mountReport_failing db hfailing]
      cases db with
      | error e => exact (Denotes.throw e).bind_error
      | ok i => exact (Reports.logDebug.found i).seq ih
    | some buf =>
      have hquiet : failing (ent, some buf) = false := by simp [failing]
      have hcast : ∀ v : UInt64,
          Denotes need (ofExcept (orCast (D.numericCast v.toNat)) : Action UInt64) (.ok v) := by
        intro v
        rw [D.numericCast_fits]
        exact Denotes.ofExcept _
      refine (hcast _).seq ?_
      by_cases htotal : buf.space buf.f_blocks = 0
      · have hnone : emitted (ent, some buf) = none := by simp [emitted, htotal]
        rw [mountReport_dropped db hquiet hnone, if_pos htotal]
        exact ih
      · have hsome : emitted (ent, some buf) = some (diskInfo ent buf) := by
          simp [emitted, htotal, hskip]
        rw [mountReport_quiet db hquiet, hsome, if_neg htotal]
        refine (hcast _).seq ?_
        refine (hcast _).seq ?_
        exact ih.bind fun _ _ => Denotes.pure _

theorem disk_denotes (i : ℕ) : Denotes need (getDiskInfoLinux D host (.ok i))
    (orCast (DiskStats.getDiskInfoLinux D (host.mountTables "/etc/mtab".toList)
      (host.mountTables "/proc/mounts".toList))) := by
  rw [getDiskInfoLinux_eq, ← mountTable, getDiskInfoLinux]
  cases mountTable host with
  | none => exact (Reports.logDebug.found i).seq (Denotes.pure _)
  | some table =>
    refine Denotes.unguarded Resource.mountTable fun fp => ?_
    rw [Option.getD_some, ← mountReport_found i table]
    exact mounts_denotes D (.ok i) (Denotes.use List.mem_cons_self) table

def abandoned : Bool :=
  !db.isOk && (mountTable host).any (fun table => table.any failing)

theorem getDiskInfoLinux_kept (h : abandoned host db = false) :
    Tidy need (getDiskInfoLinux D host db) := by
  rw [abandoned, Bool.and_eq_false_iff] at h
  rw [getDiskInfoLinux]
  cases htable : mountTable host with
  | none =>
    exact Ends.bind (Reports.logDebug.tidy db) (fun _ _ => Ends.pure trivial) fun _ _ => trivial
  | some table =>
    have hreport : mountReport db table = .ok (table.filterMap emitted) := by
      rcases h with hdb | hany
      · cases db with
        | ok i => exact mountReport_found i table
        | error e => cases hdb
      · rw [htable, Option.any_some] at hany
        rw [mountReport, hany]
        rfl
    have hbody : ∀ fp, Denotes (fp :: need) (scanMounts D db (use fp) table)
        (.ok (table.filterMap emitted)) := by
      intro fp
      rw [← hreport]
      exact mounts_denotes D db (Denotes.use List.mem_cons_self) table
    exact (Denotes.unguarded Resource.mountTable hbody).tidy

theorem getDiskInfoLinux_abandoned (h : abandoned host db = true) :
    ∃ (body : Open → Action (List DiskInfo)) (e : Stop),
      getDiskInfoLinux D host db = unguarded .mountTable body ∧
        ∀ fp, Denotes [fp] (body fp) (.error e) := by
  rw [abandoned, Bool.and_eq_true] at h
  cases db with
  | ok i => cases h.1
  | error e =>
    obtain ⟨table, htable, hany⟩ := (Option.any_eq_true _ _).mp h.2
    refine ⟨fun fp => scanMounts D (.error e) (use fp) table, e, by rw [getDiskInfoLinux, htable],
      fun fp => ?_⟩
    have hmounts := mounts_denotes D (.error e) (Denotes.use (List.mem_singleton_self fp)) table
    rw [mountReport, if_pos hany] at hmounts
    exact hmounts

/-- However often it is called, `GetDiskInfoLinux` never misuses a handle. It leaves
the mount table open exactly when it is abandoned, one more each time. -/
theorem getDiskInfoLinux_leaks_iff (n : ℕ) (s : Store Resource) :
    ∃ s' leaked, repeated (getDiskInfoLinux D host db) n s = some s' ∧
      s'.held = leaked ++ s.held ∧ (∀ h ∈ leaked, h.2 = .mountTable) ∧
      leaked.length = if abandoned host db then n else 0 := by
  by_cases h : abandoned host db = true
  · obtain ⟨body, e, hprobe, hbody⟩ := getDiskInfoLinux_abandoned D host db h
    obtain ⟨s', hrun, leaked, hheld, hlength, hkind⟩ := repeated_unguarded hbody n s
    exact ⟨s', leaked, by rw [hprobe, hrun], hheld, hkind, by rw [hlength, if_pos h]⟩
  · have hkept : Tidy [] (getDiskInfoLinux D host db) :=
      getDiskInfoLinux_kept D host db (Bool.eq_false_iff.mpr h)
    obtain ⟨next, hrun⟩ := repeated_of_tidy hkept n s
    exact ⟨_, [], hrun, rfl, by simp, by rw [if_neg h, List.length_nil]⟩

end SystemStats.LinuxProbes
