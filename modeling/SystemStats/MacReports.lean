import SystemStats.MacProbes

/-!
# What the macOS probes return

With an instance to log to, each probe returns a function of the host's replies;
with or without one it frees its buffers and lists. The memory account is exact
as long as the page counts add up without a carry and fit into the total, and a
cache is reported as long as it is smaller than 2 TiB.
-/

namespace SystemStats.MacReports
open TextLines FormattedInput MemoryStats CpuStats NetworkStats DiskStats OsInfo OsProbe
  ProcessScan HostActions LinuxProbes MacProbes HeldResources HeldResources.Action

variable (D : NumericCasts) (host : MacHost) (db : Instance)

def freeBytes (vm : VmStatistics) : UInt64 :=
  (vm.inactive_count + vm.free_count).toUInt64 * UInt64.ofInt host.getpagesize

def accounted (total_memory free_memory : UInt64) : MemoryInfo where
  total_memory := total_memory
  free_memory := free_memory
  used_memory := total_memory - free_memory
  total_swap := (host.vm_swapusage.map SwapUsage.xsu_total).getD 0
  used_swap := (host.vm_swapusage.map SwapUsage.xsu_used).getD 0
  free_swap := (host.vm_swapusage.map SwapUsage.xsu_avail).getD 0

def memoryInfo : MemoryInfo :=
  match host.hw_memsize, host.host_statistics with
  | none, _ => {}
  | some total_memory, none => { total_memory }
  | some total_memory, some vm => accounted host total_memory (freeBytes host vm)

theorem freeMemory_eq (vm : VmStatistics) : freeMemory D host vm = .ok (freeBytes host vm) := by
  have hcast := D.numericCast_fits (vm.inactive_count + vm.free_count).toUInt64
  rw [UInt32.toNat_toUInt64] at hcast
  rw [freeMemory, hcast]
  rfl

variable {need : List Open}

theorem memory_reports : Reports need (getMemoryInfoMacOS D host) (.ok (memoryInfo host)) := by
  unfold getMemoryInfoMacOS memoryInfo
  cases host.hw_memsize with
  | none => exact Reports.logDebug.seq (Reports.pure _)
  | some total_memory =>
    cases host.host_statistics with
    | none => exact Reports.logDebug.seq (Reports.pure _)
    | some vm =>
      have hreport : (.ok (accounted host total_memory (freeBytes host vm)) :
          Except Stop MemoryInfo) =
          (do
            let free_memory ← freeMemory D host vm
            return accounted host total_memory free_memory) := by
        rw [freeMemory_eq]
        rfl
      apply hreport ▸ (Reports.ofExcept _).bind
      intro free_memory
      unfold accounted
      cases host.vm_swapusage with
      | none => exact Reports.logDebug.seq (Reports.pure _)
      | some swap => exact Reports.pure _

def countedBytes (vm : VmStatistics) : ℕ :=
  (vm.inactive_count.toNat + vm.free_count.toNat) * host.getpagesize.toNat

theorem freeBytes_toNat (vm : VmStatistics)
    (hpage : 0 < host.getpagesize ∧ host.getpagesize < 2 ^ 31) :
    (freeBytes host vm).toNat =
      (vm.inactive_count.toNat + vm.free_count.toNat) % 2 ^ 32 * host.getpagesize.toNat := by
  obtain ⟨p, hp⟩ : ∃ p : ℕ, host.getpagesize = p := ⟨host.getpagesize.toNat, by omega⟩
  rw [hp] at hpage
  have hp31 : p < 2 ^ 31 := by omega
  have hofInt : (UInt64.ofInt (p : ℤ)).toNat = p := by
    have hmod : ((p : ℤ) % 2 ^ 64).toNat = p := by omega
    rw [UInt64.ofInt, hmod, UInt64.toNat_ofNat_of_lt' (hp31.trans (by decide))]
  set n := (vm.inactive_count.toNat + vm.free_count.toNat) % 2 ^ 32 with hn
  have hsum : (vm.inactive_count + vm.free_count).toUInt64.toNat = n := by
    rw [UInt32.toNat_toUInt64, UInt32.toNat_add]
  have hprod : n * p < 2 ^ 64 := by
    have hlt : n < 2 ^ 32 := Nat.mod_lt _ (Nat.two_pow_pos 32)
    calc n * p ≤ 2 ^ 32 * 2 ^ 31 := Nat.mul_le_mul hlt.le hp31.le
      _ < 2 ^ 64 := by norm_num
  rw [freeBytes, hp, UInt64.toNat_mul, hsum, hofInt, Nat.mod_eq_of_lt hprod, Int.toNat_natCast]

def ExactMemory (vm : VmStatistics) (total : UInt64) : Prop :=
  (memoryInfo host).free_memory.toNat = countedBytes host vm ∧
    (memoryInfo host).used_memory.toNat + countedBytes host vm = total.toNat

theorem memoryInfo_exact_iff {vm : VmStatistics} {total : UInt64}
    (htotal : host.hw_memsize = some total) (hvm : host.host_statistics = some vm)
    (hpage : 0 < host.getpagesize ∧ host.getpagesize < 2 ^ 31) :
    ExactMemory host vm total ↔
      vm.inactive_count.toNat + vm.free_count.toNat < 2 ^ 32 ∧
        countedBytes host vm ≤ total.toNat := by
  have hfree : (memoryInfo host).free_memory = freeBytes host vm := by
    rw [memoryInfo, htotal, hvm]
    rfl
  have hused : (memoryInfo host).used_memory = total - freeBytes host vm := by
    rw [memoryInfo, htotal, hvm]
    rfl
  have hbytes := freeBytes_toNat host vm hpage
  have hpos : 0 < host.getpagesize.toNat := by omega
  rw [ExactMemory, hfree, hused]
  constructor
  · rintro ⟨hexact, hsum⟩
    rw [hbytes, countedBytes] at hexact
    have hmod := Nat.eq_of_mul_eq_mul_right hpos hexact
    exact ⟨hmod ▸ Nat.mod_lt _ (Nat.two_pow_pos 32), by omega⟩
  · rintro ⟨hfits, hle⟩
    have hexact : (freeBytes host vm).toNat = countedBytes host vm := by
      rw [hbytes, Nat.mod_eq_of_lt hfits, countedBytes]
    have hle' : freeBytes host vm ≤ total := by
      rw [UInt64.le_iff_toNat_le, hexact]
      exact hle
    exact ⟨hexact, by rw [UInt64.toNat_sub_of_le _ _ hle', hexact]; omega⟩

def pagedMac : MacHost :=
  { quietMac with
    hw_memsize := some 65536
    host_statistics := some ⟨1, 2⟩
    getpagesize := 4096 }

theorem memoryInfo_exact_iff_paged : ExactMemory pagedMac ⟨1, 2⟩ 65536 :=
  (memoryInfo_exact_iff pagedMac rfl rfl (by decide)).mpr (by decide)

def cpuReport : Except Stop CPUInfo := do
  let l1d_cache_kb ← cacheKiB D host "hw.l1dcachesize"
  let l1i_cache_kb ← cacheKiB D host "hw.l1icachesize"
  let l2_cache_kb ← cacheKiB D host "hw.l2cachesize"
  let l3_cache_kb ← cacheKiB D host "hw.l3cachesize"
  return {
    byte_order := getByteOrderMacOS host
    logical_cpus := (host.sysctlInt "hw.logicalcpu").getD 0
    physical_cpus := (host.sysctlInt "hw.physicalcpu").getD 0
    l1d_cache_kb, l1i_cache_kb, l2_cache_kb, l3_cache_kb
    model_name := ((host.sysctlString "hw.model").map cString).getD []
    architecture := ((host.sysctlString "hw.machine").map cString).getD [] }

def cacheFits (name : String) : Bool :=
  (host.sysctlUInt64 name).all (fun bytes => bytes.toNat < 2 ^ 41)

def cacheSize (name : String) : ℤ :=
  (host.sysctlUInt64 name).elim 0 (fun bytes => (bytes.toNat / 1024 : ℕ))

theorem cacheKiB_eq (name : String) : cacheKiB D host name =
    if cacheFits host name then .ok (cacheSize host name) else .error .cast := by
  rw [cacheKiB, cacheFits, cacheSize]
  cases host.sysctlUInt64 name with
  | none => rfl
  | some bytes =>
    have hdiv : (bytes / 1024).toNat = bytes.toNat / 1024 := UInt64.toNat_div bytes 1024
    have hrange : bytes.toNat / 1024 < 2 ^ 31 ↔ bytes.toNat < 2 ^ 41 := by omega
    dsimp only
    rw [D.numericCastInt32_eq, hdiv, Option.all_some, Option.elim_some]
    by_cases hfits : bytes.toNat < 2 ^ 41
    · have hlt := hrange.mpr hfits
      have hint : InRange ((bytes.toNat / 1024 : ℕ) : ℤ) := ⟨by omega, by omega⟩
      rw [int32_eq_some_iff.mpr ⟨hint, rfl⟩, if_pos (decide_eq_true hfits)]
      rfl
    · have hnone : int32 ((bytes.toNat / 1024 : ℕ) : ℤ) = none :=
        if_neg fun h => hfits (hrange.mp (by omega))
      rw [hnone, if_neg (by simpa using hfits)]
      rfl

def cacheNames : List String :=
  ["hw.l1dcachesize", "hw.l1icachesize", "hw.l2cachesize", "hw.l3cachesize"]

def macCPU : CPUInfo where
  byte_order := getByteOrderMacOS host
  logical_cpus := (host.sysctlInt "hw.logicalcpu").getD 0
  physical_cpus := (host.sysctlInt "hw.physicalcpu").getD 0
  l1d_cache_kb := cacheSize host "hw.l1dcachesize"
  l1i_cache_kb := cacheSize host "hw.l1icachesize"
  l2_cache_kb := cacheSize host "hw.l2cachesize"
  l3_cache_kb := cacheSize host "hw.l3cachesize"
  model_name := ((host.sysctlString "hw.model").map cString).getD []
  architecture := ((host.sysctlString "hw.machine").map cString).getD []

theorem cpuReport_eq : cpuReport D host =
    if cacheNames.all (cacheFits host) then .ok (macCPU host) else .error .cast := by
  simp only [cpuReport, cacheKiB_eq, guard_bind, cacheNames, List.all_cons, Bool.and_eq_true,
    ite_and]
  rfl

theorem available_reports : Reports need (logAvailable host) (.ok ()) := by
  unfold logAvailable
  by_cases hfew : host.hw_availcpu.all (· < 1) = true
  · simp only [hfew, ↓reduceIte]
    exact Reports.logDebug.seq (Reports.logWhen _)
  · simp only [hfew, Bool.false_eq_true, ↓reduceIte]
    exact Reports.pure ()

theorem cpu_reports : Reports need (getCPUInfoMacOS D host) (cpuReport D host) := by
  apply (available_reports host).seq
  apply (Reports.ofExcept _).bind
  intro l1d_cache_kb
  apply (Reports.ofExcept _).bind
  intro l1i_cache_kb
  apply (Reports.ofExcept _).bind
  intro l2_cache_kb
  apply (Reports.ofExcept _).bind
  intro l3_cache_kb
  exact (Reports.logWhen _).seq (Reports.pure _)

/-- The row of `GetCPUInfoMacOS`: one cache of 2 TiB or more, and there is none. -/
theorem getCPUInfoMacOS_row (i : ℕ) (s : Store Resource) :
    ∃ next, exec (getCPUInfoMacOS D host (.ok i)) s = some
      (if cacheNames.all (cacheFits host) then .ok (macCPU host) else .error .cast,
        ⟨next, s.held⟩) := by
  rw [← cpuReport_eq]
  exact ((cpu_reports D host).found i).exec_eq (List.nil_subset s.held)

theorem getCPUInfoMacOS_row_busy :
    (∃ next, exec (getCPUInfoMacOS .reference (busyMac 2199023255551) (.ok 0)) .empty = some (.ok {
      model_name := "Mac14,2".toList, architecture := "arm64".toList
      byte_order := "Little Endian".toList, logical_cpus := 8, physical_cpus := 4
      l1d_cache_kb := 64, l1i_cache_kb := 0, l2_cache_kb := 2147483647, l3_cache_kb := 0 },
      ⟨next, []⟩)) ∧
    ∃ next, exec (getCPUInfoMacOS .reference (busyMac 2199023255552) (.ok 0)) .empty =
      some (.error .cast, ⟨next, []⟩) :=
  ⟨getCPUInfoMacOS_row .reference (busyMac 2199023255551) 0 .empty,
    getCPUInfoMacOS_row .reference (busyMac 2199023255552) 0 .empty⟩

theorem disk_reports : Reports need (MacProbes.getDiskInfoMacOS D host)
    (orCast (DiskStats.getDiskInfoMacOS D.toDuckDB host.getmntinfo)) := by
  rw [getDiskInfoMacOS_eq]
  unfold MacProbes.getDiskInfoMacOS
  cases host.getmntinfo with
  | none => exact Reports.logDebug.seq (Reports.pure _)
  | some mntbuf =>
    have hmounts : ∀ db, Denotes need (scanMounts D.toDuckDB db (pure ()) mntbuf)
        (mountReport db mntbuf) :=
      fun db => mounts_denotes D.toDuckDB db (Denotes.pure ()) mntbuf
    refine ⟨fun i => ?_, fun e => (hmounts (.error e)).mono fun r hr => ?_⟩
    · have hfound := hmounts (.ok i)
      rw [mountReport_found] at hfound
      exact hfound
    · rw [hr, mountReport]
      split_ifs
      · exact .inr rfl
      · exact .inl rfl

def orDiverges {α : Type} : Option α → Except Stop α
  | none => .error .diverges
  | some a => .ok a

theorem orCast_map {α β : Type} (f : α → β) (v : Option α) :
    orCast (v.map f) = (orCast v).bind (fun a => .ok (f a)) := by
  cases v <;> rfl

theorem findAddress_reports {ifaddr : Open} (hmem : ifaddr ∈ need) (ifm : IfMsgHdr)
    (addresses : List IfAddrs) :
    Reports need (fun db => MacProbes.findAddress D host db ifaddr ifm addresses)
      (orCast (NetworkStats.findAddress D.toDuckDB host.getnameinfo ifm addresses)) := by
  induction addresses with
  | nil => exact Reports.pure none
  | cons ifa rest ih =>
    apply (Reports.use hmem).seq
    rw [NetworkStats.findAddress]
    cases ifa.ifa_addr with
    | none => exact ih
    | some addr =>
      by_cases hname : ifa.ifa_name = cString ifm.sdl_name
      · by_cases hfamily : addr.sa_family = AF_INET
        · simp only [hname, hfamily, ne_eq, not_true_eq_false, ↓reduceIte, orCast_map]
          apply (Reports.logWhen _).seq
          exact (Reports.ofExcept _).bind fun info => Reports.pure (some info)
        · simp only [hname, hfamily, ne_eq, not_true_eq_false, not_false_eq_true, ↓reduceIte]
          exact ih
      · simp only [hname, ne_eq, not_false_eq_true, ↓reduceIte]
        exact ih

theorem walkBuffer_reports {buf ifaddr : Open} (hbuf : buf ∈ need) (hifaddr : ifaddr ∈ need)
    (route : RouteBuffer) (addresses : List IfAddrs) (fuel nextPtr : ℕ) :
    Reports need
      (fun db => MacProbes.walkBuffer D host db buf ifaddr route addresses fuel nextPtr)
      (orDiverges (NetworkStats.walkBuffer D.toDuckDB host.getnameinfo route addresses fuel
        nextPtr)) := by
  induction fuel generalizing nextPtr with
  | zero => exact Reports.throw _
  | succ fuel ih =>
    unfold MacProbes.walkBuffer NetworkStats.walkBuffer
    by_cases hlt : nextPtr < route.len
    · simp only [hlt, ↓reduceIte]
      apply (Reports.use hbuf).seq
      set ifm := route.header nextPtr
      by_cases htype : ifm.ifm_type = RTM_IFINFO2
      · simp only [htype, ne_eq, not_true_eq_false, ↓reduceIte]
        have hrow := findAddress_reports D host hifaddr ifm addresses
        have hrest := ih (nextPtr + ifm.ifm_msglen.toNat)
        rw [findAddress_eq] at hrow ⊢
        have hwalk : orDiverges (do
              let row ← some (messageRow host.getnameinfo addresses ifm)
              let networks ← NetworkStats.walkBuffer D.toDuckDB host.getnameinfo route addresses
                fuel (nextPtr + ifm.ifm_msglen.toNat)
              return row.toList ++ networks) =
            (do
              let row ← orCast (some (messageRow host.getnameinfo addresses ifm))
              let networks ← orDiverges (NetworkStats.walkBuffer D.toDuckDB host.getnameinfo route
                addresses fuel (nextPtr + ifm.ifm_msglen.toNat))
              return row.toList ++ networks) := by
          cases NetworkStats.walkBuffer D.toDuckDB host.getnameinfo route addresses fuel
            (nextPtr + ifm.ifm_msglen.toNat) <;> rfl
        rw [hwalk]
        apply hrow.bind
        intro row
        exact hrest.bind fun networks => Reports.pure _
      · simp only [htype, ne_eq, not_false_eq_true, ↓reduceIte]
        exact ih _
    · simp only [hlt, ↓reduceIte]
      exact Reports.pure []

def networkReport : Except Stop (List NetworkInfo) :=
  match host.iflistSize with
  | none => .ok []
  | some len =>
    if host.malloc len then
      orDiverges (NetworkStats.getNetworkInfoMacOS D.toDuckDB host.getnameinfo host.iflistFuel
        host.iflist host.getifaddrs)
    else .ok []

theorem network_reports :
    Reports need (MacProbes.getNetworkInfoMacOS D host) (networkReport D host) := by
  unfold MacProbes.getNetworkInfoMacOS networkReport
  cases host.iflistSize with
  | none => exact Reports.logDebug.seq (Reports.pure _)
  | some len =>
    by_cases hmalloc : host.malloc len = true
    · simp only [hmalloc, ↓reduceIte]
      apply Reports.guarded Resource.memory
      intro buf
      cases host.iflist with
      | none => exact Reports.logDebug.seq (Reports.pure _)
      | some route =>
        cases host.getifaddrs with
        | none => exact Reports.logDebug.seq (Reports.pure _)
        | some addresses =>
          apply Reports.guarded Resource.addresses
          intro ifaddr
          exact walkBuffer_reports D host (List.mem_cons_of_mem _ List.mem_cons_self)
            List.mem_cons_self route addresses host.iflistFuel 0
    · simp only [hmalloc, Bool.false_eq_true, ↓reduceIte]
      exact Reports.logDebug.seq (Reports.pure _)

end SystemStats.MacReports
