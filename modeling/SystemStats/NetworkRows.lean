import SystemStats.ListCounts
import SystemStats.NetworkStats

/-!
# One row for each interface

A host is a table of interfaces with distinct names. `getifaddrs` lists one
record for each interface and address, and the routing-socket buffer one
message for each interface. The loop over the messages has one row for each
interface with an IPv4 address; the loop over the address records repeats an
interface as often as it has IPv4 addresses.
-/

namespace SystemStats.NetworkRows
open ListCounts TextLines FormattedInput NetworkStats

structure Interface where
  name : Text
  name_cstring : '\x00' ∉ name
  addresses : List (Option SockAddr)
  data : IfData

def Interface.records (i : Interface) : List IfAddrs :=
  i.addresses.map (fun addr => ⟨i.name, addr, i.name_cstring⟩)

def Interface.ipv4 (i : Interface) : List IfAddrs := i.records.filter IfAddrs.isIPv4

structure Host where
  interfaces : List Interface
  names_nodup : (interfaces.map (·.name)).Nodup

def Host.owners (host : Host) : List Interface := host.interfaces.filter (fun i => i.ipv4 != [])

def Host.ListedBy (host : Host) (ifaddr : List IfAddrs) : Prop :=
  ifaddr.Perm (host.interfaces.flatMap Interface.records)

def Host.WalkedBy (host : Host) (buf : RouteBuffer) : Prop :=
  ∃ msgs, buf.Holds 0 msgs ∧
    ((msgs.filter (fun ifm => ifm.ifm_type == RTM_IFINFO2)).map
      (fun ifm => (ifm.sdl_name, ifm.ifm_data))).Perm
    (host.interfaces.map (fun i => (i.name, i.data)))

def counterColumns : List (NetworkInfo → UInt64) :=
  [(·.tx_bytes), (·.tx_packets), (·.tx_errors), (·.tx_dropped), (·.rx_bytes), (·.rx_packets),
    (·.rx_errors), (·.rx_dropped), (·.speed_mbps)]

/-- Each of these interfaces has one row, and the sum of a counter column counts
each of them once. -/
structure OneRowEach (networks : List NetworkInfo) (interfaces : List Interface)
    (own : Interface → NetworkInfo) : Prop where
  names : (networks.map (·.interface_name)).Perm (interfaces.map (·.name))
  sums : ∀ c ∈ counterColumns, (networks.map fun info => (c info).toNat).sum =
    (interfaces.map fun i => (c (own i)).toNat).sum

def ownLinux (D : DuckDB) (sys : Text → SysFile) (i : Interface) : NetworkInfo :=
  readStatistics D sys { interface_name := i.name }

def ownMacOS (i : Interface) : NetworkInfo :=
  NetworkInfo.withData { interface_name := i.name } i.data

theorem Interface.ifa_name_of_mem_records {i : Interface} {ifa : IfAddrs} (h : ifa ∈ i.records) :
    ifa.ifa_name = i.name := by
  obtain ⟨addr, _, rfl⟩ := List.mem_map.mp h
  rfl

theorem Interface.ipv4_names (i : Interface) :
    i.ipv4.map (·.ifa_name) = List.replicate i.ipv4.length i.name := by
  rw [List.eq_replicate_iff, List.length_map]
  refine ⟨rfl, fun name hname => ?_⟩
  obtain ⟨ifa, hifa, rfl⟩ := List.mem_map.mp hname
  exact ifa_name_of_mem_records (List.mem_filter.mp hifa).1

variable {host : Host} {ifaddr : List IfAddrs}

theorem Host.ipv4_names (h : host.ListedBy ifaddr) :
    ((ifaddr.filter IfAddrs.isIPv4).map (·.ifa_name)).Perm
      (repeated Interface.name (fun i => i.ipv4.length) host.interfaces) := by
  have hperm := (h.filter IfAddrs.isIPv4).map (·.ifa_name)
  rw [List.filter_flatMap, List.map_flatMap] at hperm
  refine hperm.trans (List.Perm.of_eq (List.flatMap_congr fun i _ => ?_))
  exact i.ipv4_names

theorem Host.eq_of_name_eq {i j : Interface} (hi : i ∈ host.interfaces)
    (hj : j ∈ host.interfaces) (h : i.name = j.name) : i = j :=
  List.inj_on_of_nodup_map host.names_nodup hi hj h

theorem Host.any_ipv4_iff (h : host.ListedBy ifaddr) {i : Interface} (hi : i ∈ host.interfaces) :
    (∃ ifa ∈ ifaddr, ifa.isIPv4 = true ∧ ifa.ifa_name = i.name) ↔ i.ipv4 ≠ [] := by
  apply Iff.intro
  · intro hx
    obtain ⟨ifa, hifa, hv4, hname⟩ := hx
    obtain ⟨j, hj, hrec⟩ := List.mem_flatMap.mp (h.mem_iff.mp hifa)
    have hji : j = i :=
      Host.eq_of_name_eq hj hi ((Interface.ifa_name_of_mem_records hrec).symm.trans hname)
    subst hji
    exact List.ne_nil_of_mem (List.mem_filter.mpr ⟨hrec, hv4⟩)
  · intro hne
    obtain ⟨ifa, hifa⟩ := List.exists_mem_of_ne_nil _ hne
    obtain ⟨hrec, hv4⟩ := List.mem_filter.mp hifa
    exact ⟨ifa, h.mem_iff.mpr (List.mem_flatMap.mpr ⟨i, hi, hrec⟩), hv4,
      Interface.ifa_name_of_mem_records hrec⟩

section Linux

variable (D : DuckDB) (getnameinfo : SockAddr → Option Text) (sys : Text → SysFile)

theorem readStatistics_counter {c : NetworkInfo → UInt64} (hc : c ∈ counterColumns)
    (info : NetworkInfo) : c (readStatistics D sys info) =
      c (readStatistics D sys { interface_name := info.interface_name }) := by
  simp only [counterColumns, List.mem_cons, List.not_mem_nil, or_false] at hc
  rcases hc with rfl | rfl | rfl | rfl | rfl | rfl | rfl | rfl | rfl <;> rfl

theorem linux_names (ifaddr : List IfAddrs) :
    (getNetworkInfoLinux D getnameinfo sys (some ifaddr)).map (·.interface_name) =
      (ifaddr.filter IfAddrs.isIPv4).map (·.ifa_name) := by
  rw [getNetworkInfoLinux, scanAddresses_eq, List.map_map]
  rfl

theorem linux_counter {c : NetworkInfo → UInt64} (hc : c ∈ counterColumns)
    (ifaddr : List IfAddrs) :
    (getNetworkInfoLinux D getnameinfo sys (some ifaddr)).map (fun info => (c info).toNat) =
      ((getNetworkInfoLinux D getnameinfo sys (some ifaddr)).map (·.interface_name)).map
        (fun name => (c (readStatistics D sys { interface_name := name })).toNat) := by
  rw [linux_names, getNetworkInfoLinux, scanAddresses_eq, List.map_map, List.map_map]
  apply List.map_congr_left
  intro ifa _
  simp only [Function.comp_apply]
  rw [readStatistics_counter D sys hc]

theorem linux_oneRowEach_iff (h : host.ListedBy ifaddr) :
    OneRowEach (getNetworkInfoLinux D getnameinfo sys (some ifaddr)) host.owners
      (ownLinux D sys) ↔ ∀ i ∈ host.interfaces, i.ipv4.length ≤ 1 := by
  have hnames : ((getNetworkInfoLinux D getnameinfo sys (some ifaddr)).map
      (·.interface_name)).Perm (host.owners.map (·.name)) ↔
        ∀ i ∈ host.interfaces, i.ipv4.length ≤ 1 := by
    rw [linux_names, (Host.ipv4_names h).congr_left, Host.owners, filter_map_eq_repeated,
      repeated_perm_iff host.names_nodup]
    apply forall₂_congr
    intro i _
    cases hipv4 : i.ipv4 with
    | nil => simp
    | cons ifa rest => simp
  refine ⟨fun hrows => hnames.mp hrows.names, fun hone => ⟨hnames.mpr hone, fun c hc => ?_⟩⟩
  rw [linux_counter D getnameinfo sys hc, ((hnames.mpr hone).map _).sum_nat, List.map_map]
  rfl

end Linux

section MacOS

variable (D : DuckDB) (getnameinfo : SockAddr → Option Text)

theorem messageRows_column {γ : Type*} (column : NetworkInfo → γ)
    (hcolumn : ∀ (info : NetworkInfo) (data : IfData), column (info.withData data) =
      column (NetworkInfo.withData { interface_name := info.interface_name } data))
    (ifaddr : List IfAddrs) (msgs : List IfMsgHdr) :
    (msgs.filterMap (messageRow getnameinfo ifaddr)).map column =
      (((msgs.map fun ifm => (ifm.sdl_name, ifm.ifm_data)).filter fun nd => ifaddr.any fun ifa =>
        ifa.isIPv4 && ifa.ifa_name == cString nd.1).map
          fun nd => column (NetworkInfo.withData { interface_name := nd.1 } nd.2)) := by
  induction msgs with
  | nil => rfl
  | cons ifm rest ih =>
    cases hfind : ifaddr.find? (matching ifm) with
    | none =>
      have hany : (ifaddr.any fun ifa =>
          ifa.isIPv4 && ifa.ifa_name == cString ifm.sdl_name) = false := by
        rw [List.any_eq_false]
        exact List.find?_eq_none.mp hfind
      simp [messageRow, hfind, hany, ih]
    | some ifa =>
      have hany : (ifaddr.any fun ifa =>
          ifa.isIPv4 && ifa.ifa_name == cString ifm.sdl_name) = true := by
        have hmatch : matching ifm ifa = true := List.find?_some hfind
        rw [List.any_eq_true]
        exact ⟨ifa, List.mem_of_find?_eq_some hfind, hmatch⟩
      simp [messageRow, hfind, hany, ih, hcolumn]

theorem macOS_column {γ : Type*} (column : NetworkInfo → γ)
    (hcolumn : ∀ (info : NetworkInfo) (data : IfData), column (info.withData data) =
      column (NetworkInfo.withData { interface_name := info.interface_name } data))
    (h : host.ListedBy ifaddr) {msgs : List IfMsgHdr}
    (hmsgs : (msgs.map fun ifm => (ifm.sdl_name, ifm.ifm_data)).Perm
      (host.interfaces.map fun i => (i.name, i.data))) :
    ((msgs.filterMap (messageRow getnameinfo ifaddr)).map column).Perm
      (host.owners.map fun i => column (ownMacOS i)) := by
  rw [messageRows_column getnameinfo column hcolumn]
  refine ((hmsgs.filter _).map _).trans (List.Perm.of_eq ?_)
  rw [List.filter_map, List.map_map, Host.owners]
  have hfilter : host.interfaces.filter ((fun nd : Text × IfData => ifaddr.any fun ifa =>
      ifa.isIPv4 && ifa.ifa_name == cString nd.1) ∘ fun i => (i.name, i.data)) =
      host.interfaces.filter (fun i => i.ipv4 != []) := by
    apply List.filter_congr
    intro i hi
    have hiff := Host.any_ipv4_iff h hi
    rw [Bool.eq_iff_iff]
    simpa [cString_of_not_mem i.name_cstring] using hiff
  rw [hfilter]
  rfl

theorem macOS_oneRowEach (h : host.ListedBy ifaddr) {buf : RouteBuffer}
    (hbuf : host.WalkedBy buf) {fuel : ℕ} (hfuel : buf.len < fuel) :
    ∃ networks, getNetworkInfoMacOS D getnameinfo fuel (some buf) (some ifaddr) = some networks ∧
      OneRowEach networks host.owners ownMacOS := by
  obtain ⟨msgs, hholds, hmsgs⟩ := hbuf
  refine ⟨_, walkBuffer_eq D getnameinfo ifaddr hholds (by omega), ?_, fun c hc => ?_⟩
  · exact macOS_column getnameinfo (·.interface_name) (fun _ _ => rfl) h hmsgs
  · have hcolumn : ∀ (info : NetworkInfo) (data : IfData), (c (info.withData data)).toNat =
        (c (NetworkInfo.withData { interface_name := info.interface_name } data)).toNat := by
      intro info data
      simp only [counterColumns, List.mem_cons, List.not_mem_nil, or_false] at hc
      rcases hc with rfl | rfl | rfl | rfl | rfl | rfl | rfl | rfl | rfl <;> rfl
    exact (macOS_column getnameinfo (fun info => (c info).toNat) hcolumn h hmsgs).sum_nat

end MacOS

/-- The two platforms agree on one row for each interface exactly when no
interface has a second IPv4 address. -/
theorem getNetworkInfo_oneRowEach_iff (D : DuckDB) (getnameinfo : SockAddr → Option Text)
    (sys : Text → SysFile) {ifaddrLinux ifaddrMacOS : List IfAddrs}
    (hLinux : host.ListedBy ifaddrLinux) (hMacOS : host.ListedBy ifaddrMacOS) {buf : RouteBuffer}
    (hbuf : host.WalkedBy buf) {fuel : ℕ} (hfuel : buf.len < fuel) :
    (∃ networksMacOS,
      getNetworkInfoMacOS D getnameinfo fuel (some buf) (some ifaddrMacOS) = some networksMacOS ∧
      OneRowEach networksMacOS host.owners ownMacOS ∧
      OneRowEach (getNetworkInfoLinux D getnameinfo sys (some ifaddrLinux)) host.owners
        (ownLinux D sys) ∧
      ((getNetworkInfoLinux D getnameinfo sys (some ifaddrLinux)).map (·.interface_name)).Perm
        (networksMacOS.map (·.interface_name))) ↔
    ∀ i ∈ host.interfaces, i.ipv4.length ≤ 1 := by
  rw [← linux_oneRowEach_iff D getnameinfo sys hLinux]
  apply Iff.intro
  · intro hx
    obtain ⟨_, _, _, hrows, _⟩ := hx
    exact hrows
  · intro hrows
    obtain ⟨networks, hrun, hmac⟩ := macOS_oneRowEach D getnameinfo hMacOS hbuf hfuel
    exact ⟨networks, hrun, hmac, hrows, hrows.names.trans hmac.names.symm⟩

def ipv4Address (d : UInt8) : Option SockAddr := some ⟨AF_INET, [10, 0, 0, d]⟩

def linkAddress : Option SockAddr := some ⟨18, []⟩

def laptop : Host where
  interfaces := [
    ⟨"eth0".toList, by decide, [linkAddress, ipv4Address 1, none], ⟨100, 10, 1, 200, 20, 2, 3⟩⟩,
    ⟨"wlan0".toList, by decide, [linkAddress, none], ⟨300, 30, 0, 400, 40, 0, 5⟩⟩,
    ⟨"lo".toList, by decide, [ipv4Address 2], ⟨700, 70, 0, 700, 70, 0, 0⟩⟩]
  names_nodup := by decide

def laptopMessages : List IfMsgHdr :=
  [⟨160, RTM_IFINFO2, ⟨700, 70, 0, 700, 70, 0, 0⟩, "lo".toList⟩,
    ⟨20, 0x0c, ⟨0, 0, 0, 0, 0, 0, 0⟩, []⟩,
    ⟨180, RTM_IFINFO2, ⟨100, 10, 1, 200, 20, 2, 3⟩, "eth0".toList⟩,
    ⟨200, RTM_IFINFO2, ⟨300, 30, 0, 400, 40, 0, 5⟩, "wlan0".toList⟩]

def laptopBuffer : RouteBuffer where
  len := 560
  header offset := laptopMessages.getD
    (if offset < 160 then 0 else if offset < 180 then 1 else if offset < 360 then 2 else 3)
    ⟨0, 0, ⟨0, 0, 0, 0, 0, 0, 0⟩, []⟩

def laptopAddresses : List IfAddrs := (laptop.interfaces.flatMap Interface.records).reverse

theorem laptop_oneRowEach :
    let sys := fun _ => SysFile.content "7\n".toList
    let linux := getNetworkInfoLinux DuckDB.reference (fun _ => none) sys (some laptopAddresses)
    ∃ macOS, getNetworkInfoMacOS DuckDB.reference (fun _ => none) 561 (some laptopBuffer)
        (some (laptop.interfaces.flatMap Interface.records)) = some macOS ∧
      OneRowEach macOS laptop.owners ownMacOS ∧
      OneRowEach linux laptop.owners (ownLinux DuckDB.reference sys) ∧
      (linux.map (·.interface_name)).Perm (macOS.map (·.interface_name)) := by
  have hholds : laptopBuffer.Holds 0 laptopMessages :=
    ⟨by decide, rfl, by decide, by decide, rfl, by decide, by decide, rfl, by decide, by decide,
      rfl, by decide, rfl⟩
  have hbuf : laptop.WalkedBy laptopBuffer := ⟨laptopMessages, hholds, by decide⟩
  exact (getNetworkInfo_oneRowEach_iff DuckDB.reference _ _ (List.reverse_perm _) (.refl _) hbuf
    (by decide)).mpr (by decide)

def eth0Host : Host where
  interfaces := [⟨"eth0".toList, by decide, [ipv4Address 1, ipv4Address 2], ⟨0, 0, 0, 0, 0, 0, 0⟩⟩]
  names_nodup := by simp

theorem eth0_repeated :
    eth0Host.ListedBy (eth0Host.interfaces.flatMap Interface.records) ∧
      (getNetworkInfoLinux DuckDB.reference (fun _ => none) (fun _ => .absent)
        (some (eth0Host.interfaces.flatMap Interface.records))).map (·.interface_name) =
          ["eth0".toList, "eth0".toList] ∧
      ¬ OneRowEach (getNetworkInfoLinux DuckDB.reference (fun _ => none) (fun _ => .absent)
        (some (eth0Host.interfaces.flatMap Interface.records))) eth0Host.owners
          (ownLinux DuckDB.reference fun _ => .absent) := by
  refine ⟨.refl _, rfl, fun hrows => ?_⟩
  rw [linux_oneRowEach_iff _ _ _ (.refl _)] at hrows
  exact absurd (hrows _ List.mem_cons_self) (by decide)

end SystemStats.NetworkRows
