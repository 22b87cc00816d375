import SystemStats.NetworkStats
import SystemStats.UnitRuns

/-!
# The link speed

The speed file of an interface is extracted into an unsigned variable. Text
without digits leaves `0` there, but a negative integer is reduced modulo
`2 ^ 64` and one that is too large stores the maximum. So the column is `0`
where no speed is available except for these two kinds of text, as long as the
names and addresses of the interfaces are valid texts and there are rows at all.
-/

namespace SystemStats.LinkSpeed
open TextLines DecimalText FormattedInput ChunkedScan DuckDB NetworkStats QueryFunctions
  UnitRuns

def sysNetworkInfo (D : DuckDB) (capacity : ℕ) (networks : List NetworkInfo) :
    Except Fault Rows :=
  (drain (sysNetworkInfoFunc D capacity) (networks.length + 1) (.init networks)).map
    (fun chunks => chunks.flatMap (·.rows sysNetworkInfoBind.length))

def column (name : String) (rows : Rows) : List (Option Value) :=
  rows.map (fun row => row[sysNetworkInfoBind.findIdx (fun col => col.1 == name)]?.join)

def speedFile (D : DuckDB) (sys : Text → SysFile) (ifa : IfAddrs) : SysFile :=
  sys (D.format "/sys/class/net/%s/speed".toList [ifa.ifa_name])

def leadingInteger : SysFile → Option ℤ
  | .absent => none
  | .unreadable => none
  | .content text => (readInteger (text.dropWhile isSpace)).map
      (fun (negative, n, _) => if negative then -(n : ℤ) else n)

def InRange (v : ℤ) : Prop := 0 ≤ v ∧ v < 2 ^ 64

instance (v : ℤ) : Decidable (InRange v) := inferInstanceAs (Decidable (_ ∧ _))

def availableSpeed (file : SysFile) : UInt64 :=
  match leadingInteger file with
  | none => 0
  | some v => if InRange v then UInt64.ofNat v.toNat else 0

theorem neg_ofNat_ne_zero {n : ℕ} (hn : n < 2 ^ 64) (hzero : n ≠ 0) : -UInt64.ofNat n ≠ 0 := by
  rw [UInt64.neg_ne_zero, Ne, ← UInt64.toNat_inj, UInt64.toNat_ofNat_of_lt' hn]
  exact hzero

theorem value_eq_availableSpeed_iff (file : SysFile) :
    file.value = availableSpeed file ↔ ∀ v, leadingInteger file = some v → InRange v := by
  cases file with
  | absent => simp [SysFile.value, availableSpeed, leadingInteger]
  | unreadable => simp [SysFile.value, availableSpeed, leadingInteger]
  | content text =>
    simp only [SysFile.value, availableSpeed, leadingInteger, extractUInt64]
    by_cases hempty : text.dropWhile isSpace = []
    · rw [if_pos hempty, hempty]
      simp [readInteger, readSign]
    rw [if_neg hempty]
    cases hread : readInteger (text.dropWhile isSpace) with
    | none => simp
    | some result =>
      obtain ⟨negative, n, rest⟩ := result
      simp only [Option.map_some, Option.some_inj, forall_eq']
      by_cases hn : n < 2 ^ 64
      · cases negative with
        | true =>
          have hrange : InRange (-(n : ℤ)) ↔ n = 0 := by
            rw [InRange]
            omega
          simp only [hn, ↓reduceIte, hrange]
          by_cases hzero : n = 0
          · simp [hzero]
          · simp only [hzero, ↓reduceIte, iff_false]
            exact neg_ofNat_ne_zero hn hzero
        | false =>
          have hrange : InRange (n : ℤ) := ⟨Int.natCast_nonneg n, by exact_mod_cast hn⟩
          simp only [hn, Bool.false_eq_true, ↓reduceIte, hrange, Int.toNat_natCast]
      · have hrange : ¬ InRange (if negative = true then -(n : ℤ) else n) := by
          rw [InRange]
          split_ifs <;> omega
        simp only [hn, ↓reduceIte, hrange, iff_false]
        decide

def TextsValid (D : DuckDB) (networks : List NetworkInfo) : Prop :=
  ∀ info ∈ networks, (networkTexts info).all D.stringIsValid = true

instance (D : DuckDB) (networks : List NetworkInfo) : Decidable (TextsValid D networks) :=
  inferInstanceAs (Decidable (∀ _ ∈ _, _))

theorem sysNetworkInfo_rows {D : DuckDB} {capacity : ℕ} (hcap : 1 ≤ capacity)
    (networks : List NetworkInfo) :
    sysNetworkInfo D capacity networks =
      if TextsValid D networks then
        .ok (networks.map (fun info => (networkValues info).map some))
      else .error .thrown := by
  have hwidth : ∀ info, (networkValues info).length = sysNetworkInfoBind.length := fun _ => rfl
  have hfuel : networks.length < 0 + (networks.length + 1) := by omega
  have hinit := ScanState.valid_init networks
  rw [sysNetworkInfo, sysNetworkInfoFunc]
  by_cases hvalid : TextsValid D networks
  · rw [if_pos hvalid]
    simp only [TextsValid, ← networkValues_valid] at hvalid
    obtain ⟨chunks, hrun, hrows⟩ := drain_emit hwidth hcap hinit hvalid hfuel
    rw [hrun, Except.map, hrows]
    rfl
  · rw [if_neg hvalid]
    simp only [TextsValid, not_forall, Bool.not_eq_true, exists_prop,
      ← networkValues_valid] at hvalid
    rw [drain_thrown hwidth hcap hinit hvalid hfuel]
    rfl

theorem column_linkSpeed (networks : List NetworkInfo) :
    column "link_speed_mbps" (networks.map (fun info => (networkValues info).map some)) =
      networks.map (fun info => some (.ubigint info.speed_mbps)) := by
  rw [column, List.map_map]
  rfl

variable (D : DuckDB) (getnameinfo : SockAddr → Option Text) (sys : Text → SysFile)

theorem linux_speeds (ifaddr : Option (List IfAddrs)) :
    (getNetworkInfoLinux D getnameinfo sys ifaddr).map (·.speed_mbps) =
      ((ifaddr.getD []).filter IfAddrs.isIPv4).map (fun ifa => (speedFile D sys ifa).value) := by
  cases ifaddr with
  | none => rfl
  | some ifaddr =>
    rw [getNetworkInfoLinux, scanAddresses_eq, List.map_map]
    rfl

def recordTexts (ifa : IfAddrs) : List Text :=
  [ifa.ifa_name, (ifa.ifa_addr.map (hostName getnameinfo)).getD []]

theorem linux_textsValid_iff (ifaddr : Option (List IfAddrs)) :
    TextsValid D (getNetworkInfoLinux D getnameinfo sys ifaddr) ↔
      ∀ ifa ∈ (ifaddr.getD []).filter IfAddrs.isIPv4,
        (recordTexts getnameinfo ifa).all D.stringIsValid = true := by
  cases ifaddr with
  | none => exact iff_of_true nofun nofun
  | some ifaddr =>
    rw [TextsValid, getNetworkInfoLinux, scanAddresses_eq, List.forall_mem_map]
    rfl

theorem column_available_iff (ifaddr : Option (List IfAddrs)) :
    column "link_speed_mbps" ((getNetworkInfoLinux D getnameinfo sys ifaddr).map
        (fun info => (networkValues info).map some)) =
      ((ifaddr.getD []).filter IfAddrs.isIPv4).map
        (fun ifa => some (.ubigint (availableSpeed (speedFile D sys ifa)))) ↔
    ∀ ifa ∈ (ifaddr.getD []).filter IfAddrs.isIPv4, ∀ v,
      leadingInteger (speedFile D sys ifa) = some v → InRange v := by
  have hvalues : (getNetworkInfoLinux D getnameinfo sys ifaddr).map
      (fun info => some (Value.ubigint info.speed_mbps)) =
        ((ifaddr.getD []).filter IfAddrs.isIPv4).map
          (fun ifa => some (.ubigint (speedFile D sys ifa).value)) := by
    have hspeeds := congrArg (List.map (fun v => some (Value.ubigint v)))
      (linux_speeds D getnameinfo sys ifaddr)
    rwa [List.map_map, List.map_map] at hspeeds
  rw [column_linkSpeed, hvalues, List.map_inj_left]
  apply forall₂_congr
  intro ifa _
  rw [Option.some_inj, Value.ubigint.injEq, value_eq_availableSpeed_iff]

/-- `sys_network_info` on Linux has rows exactly when their texts are valid, and then the
column is the available speed exactly when no speed file starts with a negative or too
large integer. -/
theorem linkSpeed_available_iff {capacity : ℕ} (hcap : 1 ≤ capacity)
    (ifaddr : Option (List IfAddrs)) :
    (∃ rows, sysNetworkInfo D capacity (getNetworkInfoLinux D getnameinfo sys ifaddr) = .ok rows ∧
      column "link_speed_mbps" rows = ((ifaddr.getD []).filter IfAddrs.isIPv4).map
        (fun ifa => some (.ubigint (availableSpeed (speedFile D sys ifa))))) ↔
    (∀ ifa ∈ (ifaddr.getD []).filter IfAddrs.isIPv4,
      (recordTexts getnameinfo ifa).all D.stringIsValid = true) ∧
    ∀ ifa ∈ (ifaddr.getD []).filter IfAddrs.isIPv4, ∀ v,
      leadingInteger (speedFile D sys ifa) = some v → InRange v := by
  rw [sysNetworkInfo_rows hcap, ← linux_textsValid_iff D getnameinfo sys,
    ← column_available_iff D getnameinfo sys]
  by_cases hvalid : TextsValid D (getNetworkInfoLinux D getnameinfo sys ifaddr)
  · rw [if_pos hvalid, and_iff_right hvalid]
    simp only [Except.ok.injEq, exists_eq_left']
  · rw [if_neg hvalid]
    exact iff_of_false (fun ⟨_, h, _⟩ => by cases h) (fun h => hvalid h.1)

theorem nul_not_mem_eth0 : '\x00' ∉ "eth0".toList := by decide

def eth0 : List IfAddrs := [⟨"eth0".toList, some ⟨AF_INET, [10, 0, 0, 1]⟩, nul_not_mem_eth0⟩]

theorem eth0_available :
    ∃ rows, sysNetworkInfo .reference 2048 (getNetworkInfoLinux .reference (fun _ => none)
        (fun _ => .content "1000\n".toList) (some eth0)) = .ok rows ∧
      column "link_speed_mbps" rows = [some (.ubigint 1000)] := by
  have hfile : leadingInteger (.content "1000\n".toList) = some 1000 := by decide
  have htexts : ∀ ifa ∈ eth0, (recordTexts (fun _ => none) ifa).all isUtf8 = true := by decide
  obtain ⟨rows, hrun, hcolumn⟩ := (linkSpeed_available_iff .reference (fun _ => none)
    (fun _ => .content "1000\n".toList) (show 1 ≤ 2048 by decide) (some eth0)).mpr ⟨htexts, by
      intro ifa _ v hv
      obtain rfl := Option.some.inj (hfile.symm.trans hv)
      decide⟩
  exact ⟨rows, hrun, hcolumn.trans (by decide +kernel)⟩

/-- The kernel prints `-1` for an unknown speed. -/
theorem eth0_unknown :
    availableSpeed (.content "-1\n".toList) = 0 ∧
      ∃ rows, sysNetworkInfo .reference 2048 (getNetworkInfoLinux .reference (fun _ => none)
          (fun _ => .content "-1\n".toList) (some eth0)) = .ok rows ∧
        column "link_speed_mbps" rows = [some (.ubigint 18446744073709551615)] := by
  have htexts : TextsValid .reference (getNetworkInfoLinux .reference (fun _ => none)
      (fun _ => .content "-1\n".toList) (some eth0)) := by decide +kernel
  refine ⟨by decide, _, (sysNetworkInfo_rows (by decide) _).trans (if_pos htexts), ?_⟩
  rw [column_linkSpeed]
  decide +kernel

end SystemStats.LinkSpeed
