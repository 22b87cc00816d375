import SystemStats.MacReports
import Mathlib.Algebra.Order.BigOperators.Group.List

/-!
# The process list on macOS

Threads and handles are summed over one list in a buffer of `malloc`. The two
sums differ in their arithmetic: a thread count is added to a 32-bit signed
integer and can overflow, while the handles of a process are a `size_t`, so that
their total wraps and is the balanced residue of the exact sum.
-/

namespace SystemStats.MacProcesses
open TextLines FormattedInput OsProbe ProcessScan ProcessStates HostActions MacProbes MacReports
  HeldResources HeldResources.Action

variable (D : NumericCasts) (host : MacHost)

def listed : Option (List ℕ) :=
  host.processListSize.bind (fun len =>
    if len ≠ 0 ∧ host.malloc len = true then host.processList else none)

def sumInt32 : List ℤ → ℤ → Option ℤ
  | [], total => some total
  | v :: vs, total => (int32 (total + v)).bind (sumInt32 vs)

def handlesOf (num_fds : ℤ) : ℤ := if num_fds > 0 then num_fds / sizeofProcFdinfo else 0

def threadReport (procs : List ℕ) : Except Stop ℤ :=
  orOverflow (sumInt32 (procs.filterMap host.taskThreads) 0)

def handleTotal (procs : List ℕ) : ℤ :=
  (procs.map (fun pid => handlesOf (host.descriptorBytes pid))).sum

variable {need : List Open}

theorem processList_reports {count : Open → List ℕ → Action ℤ} {g : List ℕ → Except Stop ℤ}
    (hcount : ∀ buf procs, Denotes (buf :: need) (count buf procs) (g procs)) :
    Reports need (fun db => withProcessList host db count) ((listed host).elim (.ok 0) g) := by
  unfold withProcessList listed
  cases host.processListSize with
  | none => exact Reports.logDebug.seq (Reports.pure 0)
  | some len =>
    rw [Option.bind_some]
    by_cases hlen : len = 0
    · simp only [hlen, ↓reduceIte, ne_eq, not_true_eq_false, false_and]
      exact Reports.logDebug.seq (Reports.pure 0)
    by_cases hmalloc : host.malloc len = true
    · simp only [hlen, hmalloc, ↓reduceIte, ne_eq, not_false_eq_true, and_self]
      apply Reports.guarded Resource.memory
      intro buf
      cases host.processList with
      | none => exact Reports.logDebug.seq (Reports.pure 0)
      | some procs => exact Reports.of_denotes (hcount buf procs)
    · simp only [hlen, hmalloc, Bool.false_eq_true, ↓reduceIte, and_false]
      exact Reports.logDebug.seq (Reports.pure 0)

theorem sumThreads_denotes {buf : Open} (hmem : buf ∈ need) (procs : List ℕ) (total : ℤ) :
    Denotes need (sumThreads host buf procs total)
      (orOverflow (sumInt32 (procs.filterMap host.taskThreads) total)) := by
  induction procs generalizing total with
  | nil => exact Denotes.pure total
  | cons pid rest ih =>
    apply (Denotes.use hmem).seq
    cases hthreads : host.taskThreads pid with
    | none =>
      rw [List.filterMap_cons_none hthreads]
      exact ih total
    | some pti_threadnum =>
      rw [List.filterMap_cons_some hthreads, sumInt32, orOverflow_bind]
      exact (Denotes.ofExcept _).bind fun total _ => ih total

theorem addHandles_wrap (total num_fds : ℤ) :
    addHandles (wrap32 total) num_fds = wrap32 (total + handlesOf num_fds) := by
  rw [addHandles, handlesOf]
  split_ifs
  · rw [wrap32_emod, wrap32_add]
  · rw [add_zero]

theorem sumHandles_denotes {buf : Open} (hmem : buf ∈ need) (procs : List ℕ) (total : ℤ) :
    Denotes need (sumHandles host buf procs (wrap32 total))
      (.ok (wrap32 (total + handleTotal host procs))) := by
  induction procs generalizing total with
  | nil =>
    rw [handleTotal, List.map_nil, List.sum_nil, add_zero]
    exact Denotes.pure _
  | cons pid rest ih =>
    apply (Denotes.use hmem).seq
    rw [addHandles_wrap, handleTotal, List.map_cons, List.sum_cons, ← add_assoc]
    exact ih _

def threadCount : Except Stop ℤ := (listed host).elim (.ok 0) (threadReport host)

def handleCount : Except Stop ℤ :=
  (listed host).elim (.ok 0) (fun procs => .ok (wrap32 (handleTotal host procs)))

theorem threads_reports : Reports need (getThreadCountMacOS host) (threadCount host) :=
  processList_reports host fun _ procs => sumThreads_denotes host List.mem_cons_self procs 0

theorem handles_reports : Reports need (getHandleCountMacOS host) (handleCount host) := by
  apply processList_reports host
  intro buf procs
  have hsum := sumHandles_denotes host (List.mem_cons_self (a := buf) (l := need)) procs 0
  rwa [zero_add] at hsum

def osReport : Except Stop OSInfo := do
  let process_count ← processCount D host
  let thread_count ← threadCount host
  let handle_count ← handleCount host
  let os_up_since_seconds ← MacProbes.uptimeSeconds D host
  return {
    name := (host.uname.map Utsname.sysname).getD []
    version := (host.uname.map Utsname.version).getD []
    host_name := (host.gethostname.map cString).getD []
    architecture := (host.uname.map Utsname.machine).getD []
    handle_count, process_count, thread_count, os_up_since_seconds }

theorem os_reports : Reports need (getOSInfoMacOS D host) (osReport D host) := by
  apply (Reports.logWhen _).seq
  apply (Reports.logWhen _).seq
  apply (Reports.logWhen _).seq
  apply (Reports.ofExcept _).bind
  intro process_count
  apply (threads_reports host).bind
  intro thread_count
  apply (handles_reports host).bind
  intro handle_count
  apply (Reports.logWhen _).seq
  exact (Reports.ofExcept _).bind fun uptime => Reports.pure _

theorem sumInt32_eq_some_iff {vs : List ℤ} {total v : ℤ} (htotal : InRange total) :
    sumInt32 vs total = some v ↔
      v = total + vs.sum ∧ ∀ p, p <+: vs → InRange (total + p.sum) := by
  induction vs generalizing total with
  | nil =>
    simp only [sumInt32, List.prefix_nil, forall_eq, Option.some_inj, List.sum_nil, add_zero]
    exact ⟨fun h => ⟨h.symm, htotal⟩, fun h => h.1.symm⟩
  | cons w ws ih =>
    rw [sumInt32, Option.bind_eq_some_iff]
    have hfirst : InRange (total + w) ↔ InRange (total + [w].sum) := by rw [List.sum_singleton]
    constructor
    · rintro ⟨next, hnext, hrest⟩
      obtain ⟨hrange, rfl⟩ := int32_eq_some_iff.mp hnext
      obtain ⟨hv, hall⟩ := (ih hrange).mp hrest
      refine ⟨by rw [hv, List.sum_cons, add_assoc], fun p hp => ?_⟩
      rcases List.prefix_cons_iff.mp hp with rfl | ⟨q, rfl, hq⟩
      · simpa using htotal
      · rw [List.sum_cons, ← add_assoc]
        exact hall q hq
    · rintro ⟨hv, hall⟩
      have hrange : InRange (total + w) := hfirst.mpr (hall [w] ⟨ws, rfl⟩)
      refine ⟨total + w, int32_eq_some_iff.mpr ⟨hrange, rfl⟩, (ih hrange).mpr ⟨?_, fun q hq => ?_⟩⟩
      · rw [hv, List.sum_cons, add_assoc]
      · have h := hall (w :: q) (List.cons_prefix_cons.mpr ⟨rfl, hq⟩)
        rwa [List.sum_cons, ← add_assoc] at h

def threads : List ℤ := ((listed host).getD []).filterMap host.taskThreads

def handles : ℤ := handleTotal host ((listed host).getD [])

theorem threadCount_eq_ok_iff {v : ℤ} : threadCount host = .ok v ↔
    v = (threads host).sum ∧ ∀ p, p <+: threads host → InRange p.sum := by
  have hcount : threadCount host = orOverflow (sumInt32 (threads host) 0) := by
    rw [threadCount, threads]
    cases listed host <;> rfl
  have hok : threadCount host = .ok v ↔ sumInt32 (threads host) 0 = some v := by
    rw [hcount]
    cases sumInt32 (threads host) 0 <;> simp [orOverflow]
  have hzero : InRange 0 := by norm_num [InRange]
  rw [hok, sumInt32_eq_some_iff hzero]
  simp only [zero_add]

theorem handleCount_eq : handleCount host = .ok (wrap32 (handles host)) := by
  rw [handleCount, handles]
  cases listed host <;> rfl

def roomFor : ℕ := host.processListSize.getD 0 / sizeofKinfoProc

theorem processCount_eq : processCount D host =
    if roomFor host < 2 ^ 31 then .ok (roomFor host : ℤ) else .error .cast := by
  rw [processCount, roomFor]
  cases host.processListSize with
  | none => rfl
  | some len =>
    dsimp only
    rw [Option.getD_some]
    by_cases hpos : len > 0
    · rw [if_pos hpos, D.numericCastInt32_eq, CacheSize.int32_natCast]
      by_cases hfits : len / sizeofKinfoProc < 2 ^ 31
      · rw [if_pos hfits, if_pos (by omega)]
        rfl
      · rw [if_neg hfits, if_neg (by omega)]
        rfl
    · obtain rfl : len = 0 := by omega
      rfl

def macInfo (uptime : UInt64) : OSInfo where
  name := (host.uname.map Utsname.sysname).getD []
  version := (host.uname.map Utsname.version).getD []
  host_name := (host.gethostname.map cString).getD []
  architecture := (host.uname.map Utsname.machine).getD []
  process_count := roomFor host
  thread_count := (threads host).sum
  handle_count := wrap32 (handles host)
  os_up_since_seconds := uptime

theorem osReport_eq_ok_iff {info : OSInfo} : osReport D host = .ok info ↔
    roomFor host < 2 ^ 31 ∧ (∀ p, p <+: threads host → InRange p.sum) ∧
      ∃ uptime, MacProbes.uptimeSeconds D host = .ok uptime ∧ info = macInfo host uptime := by
  rw [osReport, processCount_eq, guard_bind, guard_eq_ok_iff, bind_eq_ok_iff, handleCount_eq]
  apply and_congr_right
  intro _
  constructor
  · rintro ⟨v, hcount, hrest⟩
    obtain ⟨rfl, hrange⟩ := (threadCount_eq_ok_iff host).mp hcount
    obtain ⟨_, ⟨⟩, hrest⟩ := bind_eq_ok_iff.mp hrest
    obtain ⟨uptime, huptime, hinfo⟩ := bind_eq_ok_iff.mp hrest
    exact ⟨hrange, uptime, huptime, (Except.ok.inj hinfo).symm⟩
  · rintro ⟨hrange, uptime, huptime, rfl⟩
    refine ⟨_, (threadCount_eq_ok_iff host).mpr ⟨rfl, hrange⟩, ?_⟩
    exact bind_eq_ok_iff.mpr ⟨_, rfl, bind_eq_ok_iff.mpr ⟨uptime, huptime, rfl⟩⟩

/-- The row of `GetOSInfoMacOS`: the thread count is the exact sum or there is no row,
and the handle count is that of all processes exactly as long as it fits. -/
theorem getOSInfoMacOS_row (i : ℕ) (s : Store Resource) :
    ∃ r next, exec (getOSInfoMacOS D host (.ok i)) s = some (r, ⟨next, s.held⟩) ∧
      (∀ info, r = .ok info ↔
        roomFor host < 2 ^ 31 ∧ (∀ p, p <+: threads host → InRange p.sum) ∧
          ∃ uptime, MacProbes.uptimeSeconds D host = .ok uptime ∧ info = macInfo host uptime) ∧
      (∀ info, r = .ok info → InRange info.handle_count ∧
        info.handle_count ≡ handles host [ZMOD 2 ^ 32] ∧
        (info.handle_count = handles host ↔ handles host < 2 ^ 31)) := by
  obtain ⟨next, hrun⟩ := ((os_reports D host).found i).exec_eq (List.nil_subset s.held)
  refine ⟨osReport D host, next, hrun, fun info => osReport_eq_ok_iff D host, fun info hinfo => ?_⟩
  obtain ⟨-, -, uptime, -, rfl⟩ := (osReport_eq_ok_iff D host).mp hinfo
  have hnonneg : 0 ≤ handles host := by
    apply List.sum_nonneg
    intro v hv
    obtain ⟨pid, -, rfl⟩ := List.mem_map.mp hv
    rw [handlesOf]
    split_ifs with hpos
    · exact Int.ediv_nonneg hpos.le (by decide)
    · exact le_rfl
  obtain ⟨hrange, hresidue, hexact⟩ := wrap32_residue (handles host)
  exact ⟨hrange, hresidue, hexact.trans ⟨fun h => h.2, fun h => ⟨by omega, h⟩⟩⟩

theorem getOSInfoMacOS_row_busy :
    ∃ next, exec (getOSInfoMacOS .reference (busyMac 0) (.ok 0)) .empty = some (.ok {
      name := "Darwin".toList, version := "Version 23.1.0".toList, host_name := "mac".toList
      architecture := "arm64".toList, handle_count := 60, process_count := 3, thread_count := 16
      os_up_since_seconds := 86400 }, ⟨next, []⟩) := by
  obtain ⟨r, next, hrun, hrow, -⟩ := getOSInfoMacOS_row .reference (busyMac 0) 0 .empty
  have hthreads : ∀ p ∈ (threads (busyMac 0)).inits, InRange p.sum := by decide
  have hr := (hrow _).mpr ⟨by decide, fun p hp => hthreads p ((List.mem_inits p _).mpr hp), 86400,
    rfl, rfl⟩
  exact ⟨next, hrun.trans (by rw [hr]; rfl)⟩

end SystemStats.MacProcesses
