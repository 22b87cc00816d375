import SystemStats.OsInfo
import Mathlib.Data.Int.ModEq

/-!
# The walk over the process directory

Each numeric entry is counted once, and what its `stat` file adds to the threads
does not depend on the other entries. The thread total wraps at 32 bits, so it
is the balanced residue of the exact sum.
-/

namespace SystemStats.ProcessScan
open TextLines FormattedInput OsInfo

def addedThreads (stat : Option Text) : ℤ :=
  ((stat.bind (fgets 512)).bind parseStat).elim 0 Prod.snd

def wrap32 (v : ℤ) : ℤ := v.bmod (2 ^ 32)

theorem wrap32_add (a b : ℤ) : wrap32 (wrap32 a + b) = wrap32 (a + b) := Int.bmod_add_bmod

theorem wrap32_eq_iff {a c : ℤ} :
    wrap32 a = c ↔ (-2 ^ 31 ≤ c ∧ c < 2 ^ 31) ∧ a ≡ c [ZMOD 2 ^ 32] := by
  rw [wrap32, Int.bmod_eq_iff (by norm_num), Int.modEq_iff_dvd]
  norm_num [and_assoc]

theorem wrap32_emod (v : ℤ) : (v % 2 ^ 64).bmod (2 ^ 32) = wrap32 v := by
  have h : v % 2 ^ 64 % 2 ^ 32 = v % 2 ^ 32 := Int.emod_emod_of_dvd v (by norm_num)
  rw [wrap32, ← Int.emod_bmod (v % 2 ^ 64), ← Int.emod_bmod v]
  exact congrArg (Int.bmod · (2 ^ 32)) h

theorem count_active (status : ProcessStatus) (state : Char) (threads : ℤ) :
    (status.count state threads).active_processes = status.active_processes := by
  unfold ProcessStatus.count
  split <;> rfl

theorem count_total (status : ProcessStatus) (state : Char) (threads : ℤ) :
    (status.count state threads).total_threads = wrap32 (status.total_threads + threads) := by
  rw [← wrap32_emod]
  unfold ProcessStatus.count
  split <;> rfl

theorem readStat_active (stat : Option Text) (status : ProcessStatus) :
    (readStat stat status).active_processes = status.active_processes := by
  unfold readStat
  split
  · rfl
  split
  · rfl
  split
  · rfl
  · exact count_active ..

theorem readStat_total (stat : Option Text) {status : ProcessStatus} {total : ℤ}
    (h : status.total_threads = wrap32 total) :
    (readStat stat status).total_threads = wrap32 (total + addedThreads stat) := by
  unfold readStat
  split
  · simp [addedThreads, h]
  split
  · simp [addedThreads, *]
  split
  · simp [addedThreads, *]
  · rw [count_total, h, wrap32_add]
    simp [addedThreads, *]

variable (D : DuckDB) (files : Text → Option Text)

def statFile (d_name : Text) : Option Text :=
  files (D.format "/proc/%s/stat".toList [d_name])

def entryThreads (d_name : Text) : ℤ := addedThreads (statFile D files d_name)

theorem scanEntries_spec (entries : List Text) {status : ProcessStatus} {total : ℤ}
    (hactive : 0 ≤ status.active_processes) (htotal : status.total_threads = wrap32 total)
    (hfits : status.active_processes + (entries.filter numericName).length < 2 ^ 31) :
    ∃ status', scanEntries D files entries status = some status' ∧
      status'.active_processes =
        status.active_processes + (entries.filter numericName).length ∧
      status'.total_threads = wrap32 (total +
        ((entries.filter numericName).map (entryThreads D files)).sum) := by
  induction entries generalizing status total with
  | nil => exact ⟨status, rfl, by simp, by simpa using htotal⟩
  | cons d_name rest ih =>
    by_cases hname : numericName d_name = true
    · rw [List.filter_cons_of_pos hname, List.length_cons] at hfits
      have hlt : status.active_processes + 1 < 2 ^ 31 := by omega
      have hinc := int32_succ_of_nonneg hactive
      rw [if_pos hlt] at hinc
      set status₁ := readStat (statFile D files d_name)
        { status with active_processes := status.active_processes + 1 } with hstatus₁
      have hactive₁ : status₁.active_processes = status.active_processes + 1 :=
        readStat_active _ _
      have htotal₁ : status₁.total_threads =
          wrap32 (total + addedThreads (statFile D files d_name)) := readStat_total _ htotal
      have hpos₁ : 0 ≤ status₁.active_processes := by omega
      obtain ⟨status', hrun, hactive', htotal'⟩ := ih hpos₁ htotal₁ (by omega)
      refine ⟨status', ?_, ?_, ?_⟩
      · rw [scanEntries, if_pos hname, hinc]
        exact hrun
      · rw [hactive', hactive₁, List.filter_cons_of_pos hname, List.length_cons]
        omega
      · rw [htotal', List.filter_cons_of_pos hname, List.map_cons, List.sum_cons, entryThreads,
          add_assoc]
    · rw [List.filter_cons_of_neg hname] at hfits ⊢
      rw [scanEntries, if_neg hname]
      exact ih hactive htotal hfits

theorem readProcessStatus_spec (entries : List Text)
    (hfits : (entries.filter numericName).length < 2 ^ 31) :
    ∃ status, readProcessStatus D files (some entries) = some status ∧
      status.active_processes = (entries.filter numericName).length ∧
      status.total_threads = wrap32
        ((entries.filter numericName).map (entryThreads D files)).sum := by
  have hactive₀ : 0 ≤ ({} : ProcessStatus).active_processes := le_rfl
  have htotal₀ : ({} : ProcessStatus).total_threads = wrap32 0 := rfl
  have hfits₀ : ({} : ProcessStatus).active_processes + (entries.filter numericName).length <
      2 ^ 31 := by
    rw [zero_add]
    exact_mod_cast hfits
  obtain ⟨status, hrun, hactive, htotal⟩ :=
    scanEntries_spec D files entries hactive₀ htotal₀ hfits₀
  exact ⟨status, hrun, by rw [hactive, zero_add], by rw [htotal, zero_add]⟩

end SystemStats.ProcessScan
