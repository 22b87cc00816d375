import SystemStats.DuckDB
import SystemStats.FormattedInput

/-!
# Network statistics

Linux makes a row of each IPv4 record of `getifaddrs` and reads the counters
from `/sys/class/net`. macOS walks the records of a routing-socket buffer and
looks each interface up in `getifaddrs`. The system calls are arguments, `none`
when they fail. The walk over the buffer takes fuel, since no record length is
checked.
-/

namespace SystemStats.NetworkStats
open TextLines FormattedInput

structure NetworkInfo where
  interface_name : Text
  ipv4_address : Text := []
  tx_bytes : UInt64 := 0
  tx_packets : UInt64 := 0
  tx_errors : UInt64 := 0
  tx_dropped : UInt64 := 0
  rx_bytes : UInt64 := 0
  rx_packets : UInt64 := 0
  rx_errors : UInt64 := 0
  rx_dropped : UInt64 := 0
  speed_mbps : UInt64 := 0
  deriving DecidableEq, Repr

structure SockAddr where
  sa_family : ℕ
  address : List UInt8
  deriving DecidableEq, Repr

def AF_INET : ℕ := 2

structure IfAddrs where
  ifa_name : Text
  ifa_addr : Option SockAddr
  name_cstring : '\x00' ∉ ifa_name
  deriving DecidableEq

def IfAddrs.isIPv4 (ifa : IfAddrs) : Bool :=
  ifa.ifa_addr.any (fun addr => addr.sa_family == AF_INET)

/-- A file of `/sys/class/net`; one can be opened and still fail every read. -/
inductive SysFile
  | absent
  | unreadable
  | content (text : Text)
  deriving DecidableEq, Repr

def SysFile.value : SysFile → UInt64
  | .absent => 0
  | .unreadable => 0
  | .content text => (extractUInt64 0 text).1

def readSysNetValue (D : DuckDB) (sys : Text → SysFile) (interface : Text) (statName : String) :
    UInt64 :=
  (sys (D.format "/sys/class/net/%s/statistics/%s".toList [interface, statName.toList])).value

def readSpeedMbps (D : DuckDB) (sys : Text → SysFile) (interface : Text) : UInt64 :=
  (sys (D.format "/sys/class/net/%s/speed".toList [interface])).value

def readStatistics (D : DuckDB) (sys : Text → SysFile) (info : NetworkInfo) : NetworkInfo :=
  { info with
    speed_mbps := readSpeedMbps D sys info.interface_name
    rx_bytes := readSysNetValue D sys info.interface_name "rx_bytes"
    tx_bytes := readSysNetValue D sys info.interface_name "tx_bytes"
    rx_packets := readSysNetValue D sys info.interface_name "rx_packets"
    tx_packets := readSysNetValue D sys info.interface_name "tx_packets"
    rx_errors := readSysNetValue D sys info.interface_name "rx_errors"
    tx_errors := readSysNetValue D sys info.interface_name "tx_errors"
    rx_dropped := readSysNetValue D sys info.interface_name "rx_dropped"
    tx_dropped := readSysNetValue D sys info.interface_name "tx_dropped" }

def hostName (getnameinfo : SockAddr → Option Text) (addr : SockAddr) : Text :=
  (getnameinfo addr).getD []

def scanAddresses (D : DuckDB) (getnameinfo : SockAddr → Option Text) (sys : Text → SysFile) :
    List IfAddrs → List NetworkInfo
  | [] => []
  | ifa :: rest =>
    match ifa.ifa_addr with
    | none => scanAddresses D getnameinfo sys rest
    | some addr =>
      if addr.sa_family ≠ AF_INET then scanAddresses D getnameinfo sys rest
      else
        readStatistics D sys
          { interface_name := ifa.ifa_name, ipv4_address := hostName getnameinfo addr } ::
          scanAddresses D getnameinfo sys rest

def getNetworkInfoLinux (D : DuckDB) (getnameinfo : SockAddr → Option Text) (sys : Text → SysFile)
    (ifaddr : Option (List IfAddrs)) : List NetworkInfo :=
  match ifaddr with
  | none => []
  | some ifaddr => scanAddresses D getnameinfo sys ifaddr

structure IfData where
  ifi_obytes : UInt64
  ifi_opackets : UInt64
  ifi_oerrors : UInt64
  ifi_ibytes : UInt64
  ifi_ipackets : UInt64
  ifi_ierrors : UInt64
  ifi_iqdrops : UInt64
  deriving DecidableEq, Repr

/-- What the code reads at one place of the buffer: the header, and after it the
link-level address with the interface name. -/
structure IfMsgHdr where
  ifm_msglen : UInt16
  ifm_type : UInt8
  ifm_data : IfData
  sdl_name : Text
  deriving DecidableEq, Repr

def RTM_IFINFO2 : UInt8 := 0x12

structure RouteBuffer where
  len : ℕ
  header : ℕ → IfMsgHdr

def setStatistics (D : DuckDB) (data : IfData) (info : NetworkInfo) : Option NetworkInfo := do
  let tx_bytes ← D.numericCast data.ifi_obytes.toNat
  let tx_packets ← D.numericCast data.ifi_opackets.toNat
  let tx_errors ← D.numericCast data.ifi_oerrors.toNat
  let rx_bytes ← D.numericCast data.ifi_ibytes.toNat
  let rx_packets ← D.numericCast data.ifi_ipackets.toNat
  let rx_errors ← D.numericCast data.ifi_ierrors.toNat
  let rx_dropped ← D.numericCast data.ifi_iqdrops.toNat
  return { info with
    tx_bytes, tx_packets, tx_errors, tx_dropped := 0, speed_mbps := 0
    rx_bytes, rx_packets, rx_errors, rx_dropped }

def findAddress (D : DuckDB) (getnameinfo : SockAddr → Option Text) (ifm : IfMsgHdr) :
    List IfAddrs → Option (Option NetworkInfo)
  | [] => some none
  | ifa :: rest =>
    match ifa.ifa_addr with
    | none => findAddress D getnameinfo ifm rest
    | some addr =>
      if ifa.ifa_name ≠ cString ifm.sdl_name then findAddress D getnameinfo ifm rest
      else if addr.sa_family ≠ AF_INET then findAddress D getnameinfo ifm rest
      else
        (setStatistics D ifm.ifm_data
          { interface_name := ifm.sdl_name, ipv4_address := hostName getnameinfo addr }).map some

/-- The loop from `next_ptr` on; `none` when it throws or the fuel does not suffice. -/
def walkBuffer (D : DuckDB) (getnameinfo : SockAddr → Option Text) (buf : RouteBuffer)
    (ifaddr : List IfAddrs) : ℕ → ℕ → Option (List NetworkInfo)
  | 0, _ => none
  | fuel + 1, nextPtr =>
    if nextPtr < buf.len then
      -- A header that crosses the end of the buffer is read all the same: it may be anything.
      let ifm := buf.header nextPtr
      let nextPtr := nextPtr + ifm.ifm_msglen.toNat
      if ifm.ifm_type ≠ RTM_IFINFO2 then walkBuffer D getnameinfo buf ifaddr fuel nextPtr
      else do
        let row ← findAddress D getnameinfo ifm ifaddr
        let networks ← walkBuffer D getnameinfo buf ifaddr fuel nextPtr
        return row.toList ++ networks
    else some []

def getNetworkInfoMacOS (D : DuckDB) (getnameinfo : SockAddr → Option Text) (fuel : ℕ)
    (buf : Option RouteBuffer) (ifaddr : Option (List IfAddrs)) : Option (List NetworkInfo) :=
  match buf, ifaddr with
  | some buf, some ifaddr => walkBuffer D getnameinfo buf ifaddr fuel 0
  | _, _ => some []

theorem scanAddresses_eq (D : DuckDB) (getnameinfo : SockAddr → Option Text)
    (sys : Text → SysFile) (ifaddr : List IfAddrs) :
    scanAddresses D getnameinfo sys ifaddr = (ifaddr.filter IfAddrs.isIPv4).map (fun ifa =>
      readStatistics D sys
        { interface_name := ifa.ifa_name
          ipv4_address := (ifa.ifa_addr.map (hostName getnameinfo)).getD [] }) := by
  induction ifaddr with
  | nil => rfl
  | cons ifa rest ih =>
    cases haddr : ifa.ifa_addr with
    | none => simp [scanAddresses, IfAddrs.isIPv4, haddr, ih]
    | some addr =>
      by_cases hfamily : addr.sa_family = AF_INET
      · simp [scanAddresses, IfAddrs.isIPv4, haddr, hfamily, ih]
      · simp [scanAddresses, IfAddrs.isIPv4, haddr, hfamily, ih]

def NetworkInfo.withData (info : NetworkInfo) (data : IfData) : NetworkInfo :=
  { info with
    tx_bytes := data.ifi_obytes, tx_packets := data.ifi_opackets, tx_errors := data.ifi_oerrors
    tx_dropped := 0, speed_mbps := 0
    rx_bytes := data.ifi_ibytes, rx_packets := data.ifi_ipackets, rx_errors := data.ifi_ierrors
    rx_dropped := data.ifi_iqdrops }

theorem setStatistics_eq (D : DuckDB) (data : IfData) (info : NetworkInfo) :
    setStatistics D data info = some (info.withData data) := by
  simp [setStatistics, D.numericCast_fits, NetworkInfo.withData]

def matching (ifm : IfMsgHdr) (ifa : IfAddrs) : Bool :=
  ifa.isIPv4 && ifa.ifa_name == cString ifm.sdl_name

def messageRow (getnameinfo : SockAddr → Option Text) (ifaddr : List IfAddrs) (ifm : IfMsgHdr) :
    Option NetworkInfo :=
  (ifaddr.find? (matching ifm)).map (fun ifa =>
    NetworkInfo.withData
      { interface_name := ifm.sdl_name
        ipv4_address := (ifa.ifa_addr.map (hostName getnameinfo)).getD [] } ifm.ifm_data)

theorem findAddress_eq (D : DuckDB) (getnameinfo : SockAddr → Option Text) (ifm : IfMsgHdr)
    (ifaddr : List IfAddrs) :
    findAddress D getnameinfo ifm ifaddr = some (messageRow getnameinfo ifaddr ifm) := by
  induction ifaddr with
  | nil => rfl
  | cons ifa rest ih =>
    cases haddr : ifa.ifa_addr with
    | none =>
      have hno : matching ifm ifa = false := by simp [matching, IfAddrs.isIPv4, haddr]
      rw [messageRow, List.find?_cons_of_neg (by simp [hno]), findAddress, haddr]
      exact ih
    | some addr =>
      by_cases hmatch : matching ifm ifa = true
      · have h := hmatch
        simp only [matching, IfAddrs.isIPv4, haddr, Option.any_some, Bool.and_eq_true,
          beq_iff_eq] at h
        rw [messageRow, List.find?_cons_of_pos hmatch, findAddress, haddr]
        simp [h.1, h.2, setStatistics_eq, haddr]
      · have h := hmatch
        simp only [matching, IfAddrs.isIPv4, haddr, Option.any_some, Bool.and_eq_true,
          beq_iff_eq, not_and_or] at h
        rw [messageRow, List.find?_cons_of_neg hmatch, findAddress, haddr]
        rcases h with h | h <;> simpa [h, messageRow] using ih

def RouteBuffer.Holds (buf : RouteBuffer) : ℕ → List IfMsgHdr → Prop
  | offset, [] => offset = buf.len
  | offset, ifm :: rest =>
    offset < buf.len ∧ buf.header offset = ifm ∧ 0 < ifm.ifm_msglen.toNat ∧
      buf.Holds (offset + ifm.ifm_msglen.toNat) rest

theorem walkBuffer_eq (D : DuckDB) (getnameinfo : SockAddr → Option Text) {buf : RouteBuffer}
    (ifaddr : List IfAddrs) {msgs : List IfMsgHdr} {offset fuel : ℕ}
    (hbuf : buf.Holds offset msgs) (hfuel : buf.len < offset + fuel) :
    walkBuffer D getnameinfo buf ifaddr fuel offset =
      some ((msgs.filter (fun ifm => ifm.ifm_type == RTM_IFINFO2)).filterMap
        (messageRow getnameinfo ifaddr)) := by
  induction msgs generalizing offset fuel with
  | nil =>
    obtain ⟨n, rfl⟩ : ∃ n, fuel = n + 1 := ⟨fuel - 1, by
      have : offset = buf.len := hbuf
      omega⟩
    have hend : ¬ offset < buf.len := Nat.not_lt.mpr (Nat.le_of_eq (Eq.symm hbuf))
    simp [walkBuffer, hend]
  | cons ifm rest ih =>
    obtain ⟨hlt, rfl, hpos, hrest⟩ := hbuf
    obtain ⟨n, rfl⟩ : ∃ n, fuel = n + 1 := ⟨fuel - 1, by omega⟩
    have hfuel' : buf.len < offset + (buf.header offset).ifm_msglen.toNat + n := by omega
    have htail := ih hrest hfuel'
    by_cases htype : (buf.header offset).ifm_type = RTM_IFINFO2
    · cases hrow : messageRow getnameinfo ifaddr (buf.header offset) with
      | none => simp [walkBuffer, hlt, htype, findAddress_eq, htail, hrow]
      | some row => simp [walkBuffer, hlt, htype, findAddress_eq, htail, hrow]
    · simp [walkBuffer, hlt, htype, htail]

end SystemStats.NetworkStats
