import SystemStats.LinuxProbes
import SystemStats.OsProbe

/-!
# The macOS probes

Most of what macOS reports comes from `sysctl`, each reply of which has the type
of the variable it is read into. The lists of processes and of interfaces are
read into a buffer of the size that a first call asks for. `none` is a call that
fails.
-/

namespace SystemStats.MacProbes
open TextLines FormattedInput MemoryStats CpuStats NetworkStats DiskStats OsInfo OsProbe
  HostActions LinuxProbes HeldResources HeldResources.Action

/-- `NumericCast<int32_t>` throws exactly when the value does not fit. -/
structure NumericCasts extends DuckDB where
  numericCastInt32 : ℤ → Option ℤ
  numericCastInt32_eq : ∀ v, numericCastInt32 v = int32 v

def NumericCasts.reference : NumericCasts where
  toDuckDB := .reference
  numericCastInt32 := int32
  numericCastInt32_eq _ := rfl

structure VmStatistics where
  free_count : UInt32
  inactive_count : UInt32
  deriving DecidableEq, Repr

structure SwapUsage where
  xsu_total : UInt64
  xsu_avail : UInt64
  xsu_used : UInt64
  deriving DecidableEq, Repr

structure MacHost where
  hw_memsize : Option UInt64
  host_statistics : Option VmStatistics
  getpagesize : ℤ
  vm_swapusage : Option SwapUsage
  hw_availcpu : Option ℤ
  hw_ncpu : Option ℤ
  sysctlInt : String → Option ℤ
  sysctlUInt64 : String → Option UInt64
  sysctlString : String → Option Text
  getmntinfo : Option (MountTable 32)
  malloc : ℕ → Bool
  iflistSize : Option ℕ
  iflist : Option RouteBuffer
  iflistFuel : ℕ
  getifaddrs : Option (List IfAddrs)
  getnameinfo : SockAddr → Option Text
  processListSize : Option ℕ
  processList : Option (List ℕ)
  taskThreads : ℕ → Option ℤ
  descriptorBytes : ℕ → ℤ
  uname : Option Utsname
  gethostname : Option Text
  uptime : Option ℤ

def quietMac : MacHost where
  hw_memsize := none
  host_statistics := none
  getpagesize := 4096
  vm_swapusage := none
  hw_availcpu := none
  hw_ncpu := none
  sysctlInt _ := none
  sysctlUInt64 _ := none
  sysctlString _ := none
  getmntinfo := none
  malloc _ := false
  iflistSize := none
  iflist := none
  iflistFuel := 0
  getifaddrs := none
  getnameinfo _ := none
  processListSize := none
  processList := none
  taskThreads _ := none
  descriptorBytes _ := 0
  uname := none
  gethostname := none
  uptime := none

def macBuffer : RouteBuffer where
  len := 360
  header offset :=
    if offset < 160 then ⟨160, RTM_IFINFO2, ⟨700, 70, 1, 800, 80, 2, 3⟩, "en0".toList⟩
    else ⟨200, RTM_IFINFO2, ⟨300, 30, 0, 400, 40, 0, 5⟩, "en1".toList⟩

/-- A host with these replies; only the size of the second-level cache is left open. -/
def busyMac (l2cachesize : UInt64) : MacHost where
  hw_memsize := some 17179869184
  host_statistics := some ⟨100000, 200000⟩
  getpagesize := 16384
  vm_swapusage := some ⟨2147483648, 1610612736, 536870912⟩
  hw_availcpu := some 8
  hw_ncpu := some 8
  sysctlInt name :=
    [("hw.byteorder", 1234), ("hw.logicalcpu", 8), ("hw.physicalcpu", 4)].lookup name
  sysctlUInt64 name := [("hw.l1dcachesize", 65536), ("hw.l2cachesize", l2cachesize)].lookup name
  sysctlString name :=
    [("hw.machine", "arm64\x00".toList), ("hw.model", "Mac14,2\x00".toList)].lookup name
  getmntinfo := some
    [(⟨"/dev/disk1".toList, "/".toList, "apfs".toList, by decide⟩,
      some ⟨4096, 4096, 5000, 2000, 1500⟩)]
  malloc _ := true
  iflistSize := some 512
  iflist := some macBuffer
  iflistFuel := 3
  getifaddrs := some
    [⟨"en1".toList, none, by decide⟩, ⟨"en0".toList, some ⟨AF_INET, [10, 0, 0, 1]⟩, by decide⟩]
  getnameinfo _ := some "10.0.0.1".toList
  processListSize := some 2000
  processList := some [1, 42, 7]
  taskThreads pid := [(1, 4), (42, 12)].lookup pid
  descriptorBytes pid := if pid = 1 then 80 else if pid = 42 then 400 else -1
  uname := some ⟨"Darwin".toList, "23.1.0".toList, "Version 23.1.0".toList, "arm64".toList⟩
  gethostname := some "mac".toList
  uptime := some 86400

variable (D : NumericCasts) (host : MacHost) (db : Instance)

/-- The counts are added as 32-bit numbers, the page size is converted to 64 bits. -/
def freeMemory (vm : VmStatistics) : Except Stop UInt64 :=
  (orCast (D.numericCast (vm.inactive_count + vm.free_count).toNat)).map
    (· * UInt64.ofInt host.getpagesize)

def getMemoryInfoMacOS : Action MemoryInfo := do
  match host.hw_memsize with
  | none =>
    logDebug db
    return {}
  | some total_memory =>
    match host.host_statistics with
    | none =>
      logDebug db
      return { total_memory }
    | some vm =>
      let free_memory ← ofExcept (freeMemory D host vm)
      let info : MemoryInfo :=
        { total_memory, free_memory, used_memory := total_memory - free_memory }
      match host.vm_swapusage with
      | none =>
        logDebug db
        return info
      | some swap =>
        return { info with
          total_swap := swap.xsu_total
          used_swap := swap.xsu_used
          free_swap := swap.xsu_avail }

def getByteOrderMacOS : Text :=
  match host.sysctlInt "hw.byteorder" with
  | none => "(Unknown)".toList
  | some int_val => if int_val = 1234 then "Little Endian".toList else "Big Endian".toList

/-- The number of available processors is not reported, only its absence is logged. -/
def logAvailable : Action Unit :=
  if host.hw_availcpu.all (· < 1) then do
    logDebug db
    logWhen host.hw_ncpu.isNone db
  else pure ()

def cacheKiB (name : String) : Except Stop ℤ :=
  match host.sysctlUInt64 name with
  | none => .ok 0
  | some bytes => orCast (D.numericCastInt32 (bytes / 1024).toNat)

def getCPUInfoMacOS : Action CPUInfo := do
  logAvailable host db
  let l1d_cache_kb ← ofExcept (cacheKiB D host "hw.l1dcachesize")
  let l1i_cache_kb ← ofExcept (cacheKiB D host "hw.l1icachesize")
  let l2_cache_kb ← ofExcept (cacheKiB D host "hw.l2cachesize")
  let l3_cache_kb ← ofExcept (cacheKiB D host "hw.l3cachesize")
  logWhen (host.sysctlString "hw.machine").isNone db
  return {
    byte_order := getByteOrderMacOS host
    logical_cpus := (host.sysctlInt "hw.logicalcpu").getD 0
    physical_cpus := (host.sysctlInt "hw.physicalcpu").getD 0
    l1d_cache_kb, l1i_cache_kb, l2_cache_kb, l3_cache_kb
    model_name := ((host.sysctlString "hw.model").map cString).getD []
    architecture := ((host.sysctlString "hw.machine").map cString).getD [] }

def getDiskInfoMacOS : Action (List DiskInfo) :=
  match host.getmntinfo with
  | none => do
    logDebug db
    return []
  | some mntbuf => scanMounts D.toDuckDB db (pure ()) mntbuf

def findAddress (ifaddr : Open) (ifm : IfMsgHdr) : List IfAddrs → Action (Option NetworkInfo)
  | [] => return none
  | ifa :: rest => do
    use ifaddr
    match ifa.ifa_addr with
    | none => findAddress ifaddr ifm rest
    | some addr =>
      if ifa.ifa_name ≠ cString ifm.sdl_name then findAddress ifaddr ifm rest
      else if addr.sa_family ≠ AF_INET then findAddress ifaddr ifm rest
      else
        logWhen (host.getnameinfo addr).isNone db
        let info ← ofExcept (orCast (setStatistics D.toDuckDB ifm.ifm_data
          { interface_name := ifm.sdl_name, ipv4_address := hostName host.getnameinfo addr }))
        return some info

def walkBuffer (buf ifaddr : Open) (route : RouteBuffer) (addresses : List IfAddrs) :
    ℕ → ℕ → Action (List NetworkInfo)
  | 0, _ => throw .diverges
  | fuel + 1, nextPtr =>
    if nextPtr < route.len then do
      use buf
      let ifm := route.header nextPtr
      let nextPtr := nextPtr + ifm.ifm_msglen.toNat
      if ifm.ifm_type ≠ RTM_IFINFO2 then walkBuffer buf ifaddr route addresses fuel nextPtr
      else
        let row ← findAddress D host db ifaddr ifm addresses
        let networks ← walkBuffer buf ifaddr route addresses fuel nextPtr
        return row.toList ++ networks
    else return []

def getNetworkInfoMacOS : Action (List NetworkInfo) :=
  match host.iflistSize with
  | none => do
    logDebug db
    return []
  | some len =>
    if host.malloc len then do
      let buf ← acquire .memory
      scopeExit (release buf) (
        match host.iflist, host.getifaddrs with
        | some route, some addresses => do
          let ifaddr ← acquire .addresses
          scopeExit (release ifaddr)
            (walkBuffer D host db buf ifaddr route addresses host.iflistFuel 0)
        | _, _ => do
          logDebug db
          return [])
    else do
      logDebug db
      return []

def sizeofKinfoProc : ℕ := 648

def sizeofProcFdinfo : ℕ := 8

def withProcessList (count : Open → List ℕ → Action ℤ) : Action ℤ :=
  match host.processListSize with
  | none => do
    logDebug db
    return 0
  | some len =>
    if len = 0 then do
      logDebug db
      return 0
    else if host.malloc len then do
      let buf ← acquire .memory
      scopeExit (release buf) (
        match host.processList with
        | none => do
          logDebug db
          return 0
        | some procs => count buf procs)
    else do
      logDebug db
      return 0

def sumThreads (buf : Open) : List ℕ → ℤ → Action ℤ
  | [], total_threads => return total_threads
  | pid :: rest, total_threads => do
    use buf
    match host.taskThreads pid with
    | none => sumThreads buf rest total_threads
    | some pti_threadnum =>
      let total_threads ← ofExcept (orOverflow (int32 (total_threads + pti_threadnum)))
      sumThreads buf rest total_threads

/-- The quotient is a `size_t`, so the sum is taken in 64 bits and stored in 32. -/
def addHandles (total_handles num_fds : ℤ) : ℤ :=
  if num_fds > 0 then ((total_handles + num_fds / sizeofProcFdinfo) % 2 ^ 64).bmod (2 ^ 32)
  else total_handles

def sumHandles (buf : Open) : List ℕ → ℤ → Action ℤ
  | [], total_handles => return total_handles
  | pid :: rest, total_handles => do
    use buf
    sumHandles buf rest (addHandles total_handles (host.descriptorBytes pid))

def getThreadCountMacOS : Action ℤ :=
  withProcessList host db fun buf procs => sumThreads host buf procs 0

def getHandleCountMacOS : Action ℤ :=
  withProcessList host db fun buf procs => sumHandles host buf procs 0

def processCount : Except Stop ℤ :=
  match host.processListSize with
  | none => .ok 0
  | some len =>
    if len > 0 then orCast (D.numericCastInt32 (len / sizeofKinfoProc : ℕ)) else .ok 0

def uptimeSeconds : Except Stop UInt64 :=
  host.uptime.elim (.ok 0) (fun uptime => orCast (D.numericCast uptime))

def getOSInfoMacOS : Action OSInfo := do
  logWhen host.uname.isNone db
  logWhen host.gethostname.isNone db
  logWhen host.processListSize.isNone db
  let process_count ← ofExcept (processCount D host)
  let thread_count ← getThreadCountMacOS host db
  let handle_count ← getHandleCountMacOS host db
  logWhen host.uptime.isNone db
  let os_up_since_seconds ← ofExcept (uptimeSeconds D host)
  return {
    name := (host.uname.map Utsname.sysname).getD []
    version := (host.uname.map Utsname.version).getD []
    host_name := (host.gethostname.map cString).getD []
    architecture := (host.uname.map Utsname.machine).getD []
    handle_count, process_count, thread_count, os_up_since_seconds }

end SystemStats.MacProbes
