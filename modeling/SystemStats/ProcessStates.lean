import SystemStats.ProcessScan
import Mathlib.Algebra.BigOperators.Group.List.Basic
import Mathlib.Data.List.Count

/-!
# The counters of the process walk

Every entry of `/proc` adds to the status what its own `stat` file says, whatever
the other entries are. The status of a directory is therefore a sum over its
numeric entries: it does not depend on their order, two parts of a directory add
up, and the states never count more processes than are active.
-/

namespace SystemStats.ProcessStates
open TextLines FormattedInput OsInfo ProcessScan

def parsedStat (stat : Option Text) : Option (Char × ℤ) := (stat.bind (fgets 512)).bind parseStat

def inState (letters : List Char) (report : Option (Char × ℤ)) : Bool :=
  report.any (fun parsed => letters.contains parsed.1)

def threadsOf (report : Option (Char × ℤ)) : ℤ := report.elim 0 Prod.snd

def statusOf (reports : List (Option (Char × ℤ))) : ProcessStatus where
  active_processes := reports.length
  running_processes := reports.countP (inState ['R'])
  sleeping_processes := reports.countP (inState ['S', 'D'])
  stopped_processes := reports.countP (inState ['T'])
  zombie_processes := reports.countP (inState ['Z'])
  total_threads := wrap32 (reports.map threadsOf).sum

def merge (a b : ProcessStatus) : ProcessStatus where
  active_processes := a.active_processes + b.active_processes
  running_processes := a.running_processes + b.running_processes
  sleeping_processes := a.sleeping_processes + b.sleeping_processes
  stopped_processes := a.stopped_processes + b.stopped_processes
  zombie_processes := a.zombie_processes + b.zombie_processes
  total_threads := wrap32 (a.total_threads + b.total_threads)

theorem wrap32_wrap32_add (a b : ℤ) : wrap32 (a + wrap32 b) = wrap32 (a + b) := Int.add_bmod_bmod

theorem wrap32_idem (a : ℤ) : wrap32 (wrap32 a) = wrap32 a := Int.bmod_bmod

theorem wrap32_residue (a : ℤ) :
    InRange (wrap32 a) ∧ wrap32 a ≡ a [ZMOD 2 ^ 32] ∧ (wrap32 a = a ↔ InRange a) := by
  obtain ⟨hrange, hresidue⟩ := wrap32_eq_iff.mp (rfl : wrap32 a = wrap32 a)
  refine ⟨hrange, hresidue.symm, ?_⟩
  rw [wrap32_eq_iff]
  exact ⟨fun h => h.1, fun h => ⟨h, rfl⟩⟩

theorem statusOf_append (rs rs' : List (Option (Char × ℤ))) :
    statusOf (rs ++ rs') = merge (statusOf rs) (statusOf rs') := by
  simp only [statusOf, merge, List.length_append, List.countP_append, List.map_append,
    List.sum_append, wrap32_add, wrap32_wrap32_add, Nat.cast_add]

theorem merge_assoc (a b c : ProcessStatus) : merge (merge a b) c = merge a (merge b c) := by
  simp only [merge, add_assoc, wrap32_add, wrap32_wrap32_add]

theorem statusOf_perm {rs rs' : List (Option (Char × ℤ))} (h : rs.Perm rs') :
    statusOf rs = statusOf rs' := by
  simp only [statusOf, h.length_eq, h.countP_eq, (h.map threadsOf).sum_eq]

theorem readStat_eq (stat : Option Text) (status : ProcessStatus) :
    readStat stat status =
      (parsedStat stat).elim status (fun parsed => status.count parsed.1 parsed.2) := by
  unfold readStat parsedStat
  cases stat with
  | none => rfl
  | some content =>
    cases hline : fgets 512 content with
    | none => simp [hline]
    | some lineBuf =>
      cases hparse : parseStat lineBuf with
      | none => simp [hline, hparse]
      | some parsed => simp [hline, hparse]

theorem count_eq_merge (status : ProcessStatus) (state : Char) (threads : ℤ) :
    ProcessStatus.count { status with active_processes := status.active_processes + 1 } state
      threads = merge status (statusOf [some (state, threads)]) := by
  have hthreads : ((status.total_threads + threads) % 2 ^ 64).bmod (2 ^ 32) =
      wrap32 (status.total_threads + wrap32 threads) := by
    rw [wrap32_emod, wrap32_wrap32_add]
  simp only [Int.reducePow, Nat.reducePow] at hthreads
  by_cases hR : state = 'R'
  · subst hR
    simp [ProcessStatus.count, merge, statusOf, inState, threadsOf, hthreads]
  by_cases hS : state = 'S'
  · subst hS
    simp [ProcessStatus.count, merge, statusOf, inState, threadsOf, hthreads]
  by_cases hD : state = 'D'
  · subst hD
    simp [ProcessStatus.count, merge, statusOf, inState, threadsOf, hthreads]
  by_cases hT : state = 'T'
  · subst hT
    simp [ProcessStatus.count, merge, statusOf, inState, threadsOf, hthreads]
  by_cases hZ : state = 'Z'
  · subst hZ
    simp [ProcessStatus.count, merge, statusOf, inState, threadsOf, hthreads]
  simp [ProcessStatus.count, merge, statusOf, inState, threadsOf, hthreads, hR, hS, hD, hT, hZ]

theorem readStat_eq_merge (stat : Option Text) {status : ProcessStatus}
    (hthreads : wrap32 status.total_threads = status.total_threads) :
    readStat stat { status with active_processes := status.active_processes + 1 } =
      merge status (statusOf [parsedStat stat]) := by
  rw [readStat_eq]
  cases parsedStat stat with
  | none => simp [merge, statusOf, inState, threadsOf, wrap32_wrap32_add, hthreads]
  | some parsed => exact count_eq_merge status parsed.1 parsed.2

variable (D : DuckDB) (files : Text → Option Text)

def reports (entries : List Text) : List (Option (Char × ℤ)) :=
  (entries.filter numericName).map (fun d_name => parsedStat (statFile D files d_name))

theorem reports_length (entries : List Text) :
    (reports D files entries).length = (entries.filter numericName).length := List.length_map _

theorem reports_append (entries entries' : List Text) :
    reports D files (entries ++ entries') =
      reports D files entries ++ reports D files entries' := by
  rw [reports, List.filter_append, List.map_append]
  rfl

theorem merge_threads (a b : ProcessStatus) :
    wrap32 (merge a b).total_threads = (merge a b).total_threads := wrap32_idem _

theorem merge_nil {status : ProcessStatus}
    (hthreads : wrap32 status.total_threads = status.total_threads) :
    merge status (statusOf []) = status := by
  simp [merge, statusOf, wrap32_wrap32_add, hthreads]

/-- The counter of the entries is the only one that can overflow. -/
theorem scanEntries_eq (entries : List Text) {status : ProcessStatus}
    (hactive : 0 ≤ status.active_processes)
    (hthreads : wrap32 status.total_threads = status.total_threads)
    (hfits : status.active_processes < 2 ^ 31) :
    scanEntries D files entries status =
      if status.active_processes + (reports D files entries).length < 2 ^ 31 then
        some (merge status (statusOf (reports D files entries)))
      else none := by
  induction entries generalizing status with
  | nil =>
    rw [scanEntries, if_pos (by simpa [reports] using hfits)]
    exact congrArg some (merge_nil hthreads).symm
  | cons d_name rest ih =>
    by_cases hname : numericName d_name = true
    · have hreports : reports D files (d_name :: rest) =
          [parsedStat (statFile D files d_name)] ++ reports D files rest := by
        rw [reports, List.filter_cons_of_pos hname]
        rfl
      rw [hreports, List.length_append, List.length_singleton, statusOf_append, ← merge_assoc,
        ← readStat_eq_merge _ hthreads, scanEntries, if_pos hname, int32_succ_of_nonneg hactive]
      set status₁ := readStat (statFile D files d_name)
        { status with active_processes := status.active_processes + 1 } with hstatus₁
      have hactive₁ : status₁.active_processes = status.active_processes + 1 :=
        readStat_active _ _
      by_cases hnext : status.active_processes + 1 < 2 ^ 31
      · have hthreads₁ : wrap32 status₁.total_threads = status₁.total_threads := by
          rw [hstatus₁, readStat_eq_merge _ hthreads]
          exact merge_threads _ _
        have hrest := ih (by omega) hthreads₁ (by omega)
        rw [if_pos hnext]
        refine hrest.trans (if_congr ?_ rfl rfl)
        rw [hactive₁]
        push_cast
        omega
      · have hover : ¬ status.active_processes + ((1 + (reports D files rest).length : ℕ) : ℤ) <
            2 ^ 31 := by
          push_cast
          omega
        rw [if_neg hnext, if_neg hover]
        rfl
    · have hreports : reports D files (d_name :: rest) = reports D files rest := by
        rw [reports, List.filter_cons_of_neg hname]
        rfl
      rw [scanEntries, if_neg hname, hreports]
      exact ih hactive hthreads hfits

theorem readProcessStatus_eq (entries : List Text) :
    readProcessStatus D files (some entries) =
      if (reports D files entries).length < 2 ^ 31 then
        some (statusOf (reports D files entries))
      else none := by
  have hscan := @scanEntries_eq D files entries {} le_rfl rfl (by decide)
  have hmerge : merge {} (statusOf (reports D files entries)) =
      statusOf (reports D files entries) := by
    simp [merge, statusOf, wrap32_idem]
  rw [hmerge] at hscan
  refine hscan.trans (if_congr ?_ rfl rfl)
  push_cast
  omega

theorem inState_disjoint (r : Option (Char × ℤ)) :
    (if inState ['R'] r then 1 else 0) + (if inState ['S', 'D'] r then 1 else 0) +
      (if inState ['T'] r then 1 else 0) + (if inState ['Z'] r then 1 else 0) ≤ 1 := by
  rcases r with _ | ⟨state, threads⟩
  · exact Nat.zero_le 1
  by_cases hR : state = 'R'
  · simp [inState, hR]
  by_cases hT : state = 'T'
  · simp [inState, hT]
  by_cases hZ : state = 'Z'
  · simp [inState, hZ]
  simp only [inState, Option.any_some, List.contains_eq_mem, List.mem_singleton, hR, hT, hZ,
    decide_false, Bool.false_eq_true, ↓reduceIte]
  split_ifs <;> omega

theorem countP_letters (rs : List (Option (Char × ℤ))) :
    rs.countP (inState ['R']) + rs.countP (inState ['S', 'D']) + rs.countP (inState ['T']) +
      rs.countP (inState ['Z']) ≤ rs.length := by
  induction rs with
  | nil => exact Nat.zero_le 0
  | cons r rs ih =>
    have hone := inState_disjoint r
    simp only [List.countP_cons, List.length_cons]
    omega

theorem statusOf_states_le (rs : List (Option (Char × ℤ))) :
    (statusOf rs).running_processes + (statusOf rs).sleeping_processes +
        (statusOf rs).stopped_processes + (statusOf rs).zombie_processes ≤
      (statusOf rs).active_processes := by
  have h := countP_letters rs
  simp only [statusOf]
  omega

theorem readProcessStatus_closed_form (entries : List Text) :
    readProcessStatus D files (some entries) =
      (if (entries.filter numericName).length < 2 ^ 31 then
        some (statusOf (reports D files entries)) else none) ∧
    (∀ entries', (entries.filter numericName).Perm (entries'.filter numericName) →
      readProcessStatus D files (some entries') = readProcessStatus D files (some entries)) ∧
    (∀ entries₁ entries₂ status, entries = entries₁ ++ entries₂ →
      readProcessStatus D files (some entries) = some status →
      ∃ status₁ status₂, readProcessStatus D files (some entries₁) = some status₁ ∧
        readProcessStatus D files (some entries₂) = some status₂ ∧
        status = merge status₁ status₂) ∧
    (∀ status, readProcessStatus D files (some entries) = some status →
      status.running_processes + status.sleeping_processes + status.stopped_processes +
        status.zombie_processes ≤ status.active_processes) := by
  refine ⟨?_, fun entries' h => ?_, fun entries₁ entries₂ status happend h => ?_,
    fun status h => ?_⟩
  · rw [readProcessStatus_eq, reports_length]
  · have hreports : (reports D files entries).Perm (reports D files entries') := h.map _
    rw [readProcessStatus_eq, readProcessStatus_eq, hreports.length_eq, statusOf_perm hreports]
  · rw [readProcessStatus_eq, happend, reports_append, List.length_append] at h
    split_ifs at h with hfits
    obtain rfl := Option.some.inj h
    refine ⟨statusOf (reports D files entries₁), statusOf (reports D files entries₂), ?_, ?_,
      statusOf_append _ _⟩
    · rw [readProcessStatus_eq, if_pos (by omega)]
    · rw [readProcessStatus_eq, if_pos (by omega)]
  · rw [readProcessStatus_eq] at h
    split_ifs at h
    obtain rfl := Option.some.inj h
    exact statusOf_states_le _

end SystemStats.ProcessStates
