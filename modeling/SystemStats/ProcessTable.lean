import SystemStats.ProcessScan
import Mathlib.Algebra.BigOperators.Group.List.Basic
import Mathlib.Data.List.Nodup
import Mathlib.Order.Interval.Finset.Nat

/-!
# Reading back the process table

The kernel prints one line for each process, with the process name raw between
parentheses. Where the name has no line break the fields behind it are read back
whatever else the name contains. A line break ends the line inside the name, and
what is then parsed as fields is the text of the name itself.
-/

namespace SystemStats.ProcessTable
open TextLines DecimalText FormattedInput OsInfo ProcessScan

structure Process where
  pid : ℕ
  comm : Text
  state : Char
  ppid : ℤ
  pgrp : ℤ
  session : ℤ
  tty_nr : ℤ
  tpgid : ℤ
  flags : ℤ
  minflt : ℤ
  cminflt : ℤ
  majflt : ℤ
  cmajflt : ℤ
  utime : ℤ
  stime : ℤ
  cutime : ℤ
  cstime : ℤ
  priority : ℤ
  nice : ℤ
  num_threads : ℤ
  tail : List ℤ
  pid_range : 1 ≤ pid ∧ pid < 2 ^ 31
  comm_length : comm.length ≤ 63
  comm_cstring : '\x00' ∉ comm
  state_letter : state.isAlpha = true
  int_range : ∀ v ∈ [ppid, pgrp, session, tty_nr, tpgid], -2 ^ 31 ≤ v ∧ v < 2 ^ 31
  long_range : ∀ v ∈ [flags, minflt, cminflt, majflt, cmajflt, utime, stime, cutime, cstime,
    priority, nice, num_threads], -2 ^ 63 ≤ v ∧ v < 2 ^ 64

namespace Process

def fields (p : Process) : List (NumberKind × ℤ) :=
  [(.int, p.ppid), (.int, p.pgrp), (.int, p.session), (.int, p.tty_nr), (.int, p.tpgid),
    (.ulong, p.flags), (.ulong, p.minflt), (.ulong, p.cminflt), (.ulong, p.majflt),
    (.ulong, p.cmajflt), (.ulong, p.utime), (.ulong, p.stime), (.ulong, p.cutime),
    (.ulong, p.cstime), (.long, p.priority), (.long, p.nice), (.ulong, p.num_threads)]

def fieldsText (p : Process) : Text := p.fields.flatMap (fun f => ' ' :: decimalInt f.2)

def tailText (p : Process) : Text := p.tail.flatMap (fun v => ' ' :: decimalInt v)

def head (p : Process) : Text :=
  decimal p.pid ++ ' ' :: '(' :: (p.comm ++ ')' :: ' ' :: p.state :: p.fieldsText)

def stat (p : Process) : Text := p.head ++ p.tailText ++ ['\n']

end Process

theorem field_range {p : Process} {f : NumberKind × ℤ} (hf : f ∈ p.fields) :
    -10 ^ 19 < f.2 ∧ f.2 < 10 ^ 20 := by
  have hint := p.int_range
  have hlong := p.long_range
  simp only [List.forall_mem_cons, List.not_mem_nil, IsEmpty.forall_iff, implies_true,
    and_true] at hint hlong
  simp only [Process.fields, List.mem_cons, List.not_mem_nil, or_false] at hf
  rcases hf with rfl | rfl | rfl | rfl | rfl | rfl | rfl | rfl | rfl | rfl | rfl | rfl | rfl | rfl |
    rfl | rfl | rfl <;> dsimp only <;> omega

theorem fieldsText_length (p : Process) : p.fieldsText.length ≤ 357 := by
  have hle : ∀ f ∈ p.fields, (' ' :: decimalInt f.2).length ≤ 21 := by
    intro f hf
    obtain ⟨hneg, hpos⟩ := field_range hf
    exact Nat.succ_le_succ (decimalInt_length_le hneg hpos (by decide))
  have hlen : p.fields.length = 17 := rfl
  have h := length_flatMap_le hle
  rw [hlen] at h
  exact h

theorem parse_statFormat (p : Process) : parseFormat statFormat =
    some (.char :: p.fields.flatMap (fun f => [.space, .number f.1])) := by
  rfl

theorem scanFields_fields (p : Process) {rest : Text} (hr : Stops Char.isDigit rest) :
    scanFields (p.state :: (p.fieldsText ++ rest)) =
      some (p.state,
        NumberKind.ulong.convert (decide (p.num_threads < 0)) p.num_threads.natAbs) := by
  have hscan := sscanf_numbers p.fields hr []
  rw [List.append_nil] at hscan
  simp only [scanFields, parse_statFormat p, Option.getD_some, sscanf]
  rw [Process.fieldsText, hscan]
  rfl

theorem convert_ulong_modEq {v : ℤ} (h : -2 ^ 63 ≤ v ∧ v < 2 ^ 64) :
    NumberKind.ulong.convert (decide (v < 0)) v.natAbs ≡ v [ZMOD 2 ^ 32] := by
  have hlt : v.natAbs < 2 ^ 64 := by omega
  rw [NumberKind.convert, if_pos hlt, Int.ModEq]
  by_cases hneg : v < 0
  · simp only [hneg, decide_true, ↓reduceIte]
    omega
  · simp only [hneg, decide_false, Bool.false_eq_true, ↓reduceIte]
    omega

theorem ne_of_isAlpha {c d : Char} (hc : c.isAlpha = true) (hd : d.isAlpha = false) : c ≠ d := by
  intro hx
  subst hx
  rw [hd] at hc
  cases hc

def Foreign (c : Char) : Prop := c.isDigit = false ∧ c ≠ '-' ∧ c ≠ ' '

theorem not_mem_numbers {c : Char} (hc : Foreign c) {α : Type*} (v : α → ℤ) (l : List α) :
    c ∉ l.flatMap (fun a => ' ' :: decimalInt (v a)) := by
  intro h
  obtain ⟨a, _, ha⟩ := List.mem_flatMap.mp h
  rcases List.mem_cons.mp ha with hsp | hdec
  · exact hc.2.2 hsp
  · exact not_mem_decimalInt hc.1 hc.2.1 hdec

theorem foreign_newline : Foreign '\n' := ⟨by decide, by decide, by decide⟩

theorem foreign_nul : Foreign '\x00' := ⟨by decide, by decide, by decide⟩

theorem foreign_paren : Foreign ')' := ⟨by decide, by decide, by decide⟩

theorem Stops.take {q : Char → Bool} {t : Text} (h : Stops q t) (k : ℕ) : Stops q (t.take k) := by
  cases k with
  | zero => simp [Stops]
  | succ k =>
    cases t with
    | nil => simp [Stops]
    | cons c cs => simpa [Stops] using h

theorem parseStat_pid {pid : ℕ} {line : Text} (hline : '\x00' ∉ line) :
    parseStat (decimal pid ++ ' ' :: '(' :: line) = parseComm line := by
  have hnul : '\x00' ∉ decimal pid ++ ' ' :: '(' :: line := by
    simp [hline, not_mem_decimal foreign_nul.1]
  have hdigits : ∀ c ∈ decimal pid, (!isBlank c) = true := by
    intro c hc
    have hspace := isSpace_of_isDigit (isDigit_of_mem_decimal hc)
    rw [Bool.not_eq_true', ← Bool.not_eq_true]
    intro hblank
    simp only [isBlank, Bool.or_eq_true, beq_iff_eq] at hblank
    rcases hblank with rfl | rfl <;> simp [isSpace] at hspace
  have hstop : Stops (fun c => !isBlank c) (' ' :: '(' :: line) := by simp [Stops, isBlank]
  rw [parseStat, cString_of_not_mem hnul, hstop.dropWhile_append hdigits]
  simp [isBlank]

theorem parseComm_state (comm : Text) {r : Text} {state : Char} (hstate : state.isAlpha = true)
    (hr : ')' ∉ r) :
    parseComm (comm ++ ')' :: ' ' :: state :: r) = scanFields (state :: r) := by
  have hparen : ')' ∉ ' ' :: state :: r := by
    simp [hr, (ne_of_isAlpha hstate (by decide : (')').isAlpha = false)).symm]
  have hblank : isBlank state = false := by
    simp [isBlank, ne_of_isAlpha hstate (by decide : (' ').isAlpha = false),
      ne_of_isAlpha hstate (by decide : ('\t').isAlpha = false)]
  have hskip : (' ' :: state :: r).dropWhile isBlank = state :: r := by
    rw [List.dropWhile_cons_of_pos (by decide), List.dropWhile_cons_of_neg (by simp [hblank])]
  simp only [parseComm, strrchr_append comm hparen, List.drop_succ_cons, List.drop_zero, hskip]
  rfl

/-- The threads that a name with a line break spells: the text up to the break,
parsed as the end of a line. -/
def spelledThreads (comm : Text) : ℤ :=
  (parseComm (comm.takeWhile (· != '\n') ++ ['\n'])).elim 0 Prod.snd

theorem pid_length (p : Process) : (decimal p.pid).length ≤ 10 :=
  decimal_length_le (by decide) (p.pid_range.2.trans (by decide))

theorem head_length (p : Process) : p.head.length ≤ 435 := by
  have hpid := pid_length p
  have hcomm := p.comm_length
  have hfields := fieldsText_length p
  simp only [Process.head, List.length_append, List.length_cons]
  omega

theorem not_mem_head {p : Process} {c : Char} (hc : Foreign c) (hletter : c.isAlpha = false)
    (hopen : c ≠ '(') (hclose : c ≠ ')') (hcomm : c ∉ p.comm) : c ∉ p.head := by
  have hfields : c ∉ p.fieldsText := not_mem_numbers hc Prod.snd p.fields
  have hstate := (ne_of_isAlpha p.state_letter hletter).symm
  simp [Process.head, not_mem_decimal hc.1, hc.2.2, hopen, hclose, hcomm, hfields, hstate]

def restText (p : Process) : Text := (p.tailText ++ ['\n']).take (511 - p.head.length)

theorem not_mem_restText {p : Process} {c : Char} (hc : Foreign c) (hn : c ≠ '\n') :
    c ∉ restText p := by
  intro h
  have hmem := List.mem_of_mem_take h
  rw [List.mem_append, List.mem_singleton] at hmem
  exact hmem.elim (not_mem_numbers hc id p.tail) hn

theorem restText_stops (p : Process) : Stops Char.isDigit (restText p) := by
  refine Stops.take ?_ _
  cases htail : p.tail with
  | nil => simp [Process.tailText, htail, Stops]
  | cons v vs => simp [Process.tailText, htail, Stops]

theorem fgets_stat {p : Process} (h : '\n' ∉ p.comm) :
    fgets 512 p.stat = some (p.head ++ restText p) := by
  have hline : '\n' ∉ p.head ++ p.tailText := by
    rw [List.mem_append, not_or]
    exact ⟨not_mem_head foreign_newline (by decide) (by decide) (by decide) h,
      not_mem_numbers foreign_newline id p.tail⟩
  have hne : p.stat ≠ [] := by simp [Process.stat]
  have hle := head_length p
  rw [fgets, if_neg hne, Process.stat, lineThrough_append hline [], List.append_assoc,
    List.take_append, List.take_of_length_le (by omega)]
  rfl

theorem addedThreads_of_no_newline {p : Process} (h : '\n' ∉ p.comm) :
    addedThreads (some p.stat) =
      NumberKind.ulong.convert (decide (p.num_threads < 0)) p.num_threads.natAbs := by
  have hfields : ∀ c, Foreign c → c ∉ p.fieldsText :=
    fun c hc => not_mem_numbers hc Prod.snd p.fields
  have hletter := ne_of_isAlpha p.state_letter (by decide : ('\x00').isAlpha = false)
  have hnul : '\x00' ∉ p.comm ++ ')' :: ' ' :: p.state :: (p.fieldsText ++ restText p) := by
    simp [p.comm_cstring, hletter.symm, hfields _ foreign_nul,
      not_mem_restText foreign_nul (by decide)]
  have hparen : ')' ∉ p.fieldsText ++ restText p := by
    simp [hfields _ foreign_paren, not_mem_restText foreign_paren (by decide)]
  have hhead : p.head ++ restText p = decimal p.pid ++ ' ' :: '(' ::
      (p.comm ++ ')' :: ' ' :: p.state :: (p.fieldsText ++ restText p)) := by
    simp [Process.head]
  rw [addedThreads, Option.bind_some, fgets_stat h, Option.bind_some, hhead, parseStat_pid hnul,
    parseComm_state p.comm p.state_letter hparen, scanFields_fields p (restText_stops p)]
  rfl

theorem addedThreads_of_newline {p : Process} (h : '\n' ∈ p.comm) :
    addedThreads (some p.stat) = spelledThreads p.comm := by
  obtain ⟨x, y, hcomm, hx⟩ := List.eq_append_cons_of_mem h
  have hfirst : p.comm.takeWhile (· != '\n') = x := by
    rw [hcomm]
    apply Stops.takeWhile_append (by simp [Stops])
    intro c hc
    have hne : c ≠ '\n' := fun hn => hx (hn ▸ hc)
    simpa using hne
  have hline : '\n' ∉ decimal p.pid ++ ' ' :: '(' :: x := by
    simp [not_mem_decimal foreign_newline.1, hx]
  have hnul : '\x00' ∉ x ++ ['\n'] := by
    have hcstring := p.comm_cstring
    rw [hcomm, List.mem_append, not_or] at hcstring
    simp [hcstring.1]
  have hstat : p.stat = (decimal p.pid ++ ' ' :: '(' :: x) ++ '\n' ::
      (y ++ ')' :: ' ' :: p.state :: (p.fieldsText ++ (p.tailText ++ ['\n']))) := by
    simp [Process.stat, Process.head, hcomm]
  have hlength : (decimal p.pid ++ ' ' :: '(' :: x ++ ['\n']).length ≤ 511 := by
    have hpid := pid_length p
    have hle := p.comm_length
    simp only [hcomm, List.length_append, List.length_cons, List.length_nil] at hle ⊢
    omega
  have hbuf : fgets 512 p.stat = some (decimal p.pid ++ ' ' :: '(' :: (x ++ ['\n'])) := by
    have hne : p.stat ≠ [] := by simp [Process.stat]
    rw [fgets, if_neg hne, hstat, lineThrough_append hline, List.take_of_length_le hlength]
    simp
  rw [addedThreads, Option.bind_some, hbuf, Option.bind_some, parseStat_pid hnul, spelledThreads,
    hfirst]

structure Table where
  processes : List Process
  pids_nodup : (processes.map (·.pid)).Nodup

namespace Table

def threads (table : Table) : ℤ := (table.processes.map (·.num_threads)).sum

def broken (table : Table) : List Process := table.processes.filter (fun p => '\n' ∈ p.comm)

/-- The directory lists these processes, among entries that do not start with a
digit, and their files can be read. -/
structure ListedBy (table : Table) (D : DuckDB) (files : Text → Option Text)
    (entries : List Text) : Prop where
  entries_perm : (entries.filter numericName).Perm
    (table.processes.map (fun p => decimal p.pid))
  files_stat : ∀ p ∈ table.processes, statFile D files (decimal p.pid) = some p.stat

theorem length_lt (table : Table) : table.processes.length < 2 ^ 31 := by
  have hsub : (table.processes.map (·.pid)).toFinset ⊆ Finset.Ico 1 (2 ^ 31) := by
    intro pid hpid
    obtain ⟨p, _, rfl⟩ := List.mem_map.mp (List.mem_toFinset.mp hpid)
    exact Finset.mem_Ico.mpr p.pid_range
  have hcard := Finset.card_le_card hsub
  rw [List.toFinset_card_of_nodup table.pids_nodup, Nat.card_Ico, List.length_map] at hcard
  omega

end Table

theorem sum_addedThreads_modEq (ps : List Process) :
    (ps.map (fun p => addedThreads (some p.stat))).sum +
        ((ps.filter (fun p => '\n' ∈ p.comm)).map (·.num_threads)).sum ≡
      (ps.map (·.num_threads)).sum +
        ((ps.filter (fun p => '\n' ∈ p.comm)).map (fun p => spelledThreads p.comm)).sum
      [ZMOD 2 ^ 32] := by
  induction ps with
  | nil => rfl
  | cons p ps ih =>
    by_cases h : '\n' ∈ p.comm
    · simp only [List.map_cons, List.sum_cons, h, decide_true, List.filter_cons_of_pos,
        addedThreads_of_newline h]
      have hadd := ih.add_left (spelledThreads p.comm + p.num_threads)
      convert hadd using 1 <;> omega
    · have hthreads := convert_ulong_modEq (p.long_range p.num_threads (by simp))
      rw [← addedThreads_of_no_newline h] at hthreads
      simp only [List.map_cons, List.sum_cons, h, decide_false, Bool.false_eq_true,
        not_false_eq_true, List.filter_cons_of_neg, add_assoc]
      exact hthreads.add ih

theorem readProcessStatus_listed (D : DuckDB) {files : Text → Option Text} {table : Table}
    {entries : List Text} (hlisted : table.ListedBy D files entries) :
    ∃ status, readProcessStatus D files (some entries) = some status ∧
      status.active_processes = table.processes.length ∧
      status.total_threads =
        wrap32 (table.processes.map (fun p => addedThreads (some p.stat))).sum := by
  have hlength := hlisted.entries_perm.length_eq
  rw [List.length_map] at hlength
  have hfits : (entries.filter numericName).length < 2 ^ 31 := hlength ▸ table.length_lt
  obtain ⟨status, hrun, hactive, htotal⟩ := readProcessStatus_spec D files entries hfits
  refine ⟨status, hrun, by rw [hactive, hlength], ?_⟩
  have hperm := hlisted.entries_perm.map (entryThreads D files)
  rw [htotal, hperm.sum_eq, List.map_map]
  congr 2
  apply List.map_congr_left
  intro p hp
  rw [Function.comp_apply, entryThreads, hlisted.files_stat p hp]

/-- The table is read back exactly when the names with a line break spell, modulo
`2 ^ 32`, the threads of their processes; in particular when there are none. -/
theorem readProcessStatus_exact_iff (D : DuckDB) {files : Text → Option Text} {table : Table}
    {entries : List Text} (hlisted : table.ListedBy D files entries)
    (hsum : table.threads < 2 ^ 31) :
    (∃ status, readProcessStatus D files (some entries) = some status ∧
      status.active_processes = table.processes.length ∧
      status.total_threads = table.threads) ↔
    -2 ^ 31 ≤ table.threads ∧
      (table.broken.map (fun p => spelledThreads p.comm)).sum ≡
        (table.broken.map (·.num_threads)).sum [ZMOD 2 ^ 32] := by
  obtain ⟨status, hrun, hactive, htotal⟩ := readProcessStatus_listed D hlisted
  have hexact : (∃ status, readProcessStatus D files (some entries) = some status ∧
      status.active_processes = table.processes.length ∧
      status.total_threads = table.threads) ↔ status.total_threads = table.threads := by
    simp [hrun, hactive]
  have hsums := sum_addedThreads_modEq table.processes
  rw [hexact, htotal, wrap32_eq_iff, and_assoc, and_iff_right hsum]
  refine and_congr_right fun _ => ⟨fun h => ?_, fun h => ?_⟩
  · exact (Int.ModEq.add_left_cancel h hsums).symm
  · exact Int.ModEq.add_right_cancel h.symm hsums

def sleeping (comm : Text) (hlength : comm.length ≤ 63) (hcstring : '\x00' ∉ comm) : Process where
  pid := 42
  comm := comm
  state := 'S'
  ppid := 1
  pgrp := 42
  session := 42
  tty_nr := 0
  tpgid := -1
  flags := 4194560
  minflt := 1530
  cminflt := 0
  majflt := 12
  cmajflt := 0
  utime := 3
  stime := 5
  cutime := 0
  cstime := 0
  priority := 20
  nice := 0
  num_threads := 7
  tail := [0, 1234]
  pid_range := by decide
  comm_length := hlength
  comm_cstring := hcstring
  state_letter := by decide
  int_range := by decide
  long_range := by decide

def shell : Process := sleeping "a) R 1 (b".toList (by decide) (by decide)

def server : Process :=
  { sleeping "kworker/0:1 (x)".toList (by decide) (by decide) with
    pid := 1007
    state := 'R'
    num_threads := 30
    pid_range := by decide
    state_letter := by decide
    long_range := by decide }

def twoProcesses : Table := ⟨[shell, server], by decide⟩

def twoEntries : List Text :=
  ["..".toList, "1007".toList, "sys".toList, "42".toList, "self".toList]

def twoFiles (path : Text) : Option Text :=
  if path = "/proc/42/stat".toList then some shell.stat
  else if path = "/proc/1007/stat".toList then some server.stat
  else none

theorem twoProcesses_listed : twoProcesses.ListedBy .reference twoFiles twoEntries where
  entries_perm := by decide +kernel
  files_stat p hp := by
    simp only [twoProcesses, List.mem_cons, List.not_mem_nil, or_false] at hp
    rcases hp with rfl | rfl
    · decide +kernel
    · decide +kernel

theorem parentheses_read_back :
    ∃ status, readProcessStatus .reference twoFiles (some twoEntries) = some status ∧
      status.active_processes = twoProcesses.processes.length ∧
      status.total_threads = twoProcesses.threads :=
  (readProcessStatus_exact_iff .reference twoProcesses_listed (by decide)).mpr
    ⟨by decide, by decide⟩

def oneProcess (p : Process) : Table := ⟨[p], List.nodup_singleton _⟩

def procEntries : List Text := [['.'], ['4', '2'], ['s', 'y', 's']]

theorem oneProcess_listed (p : Process) (hpid : decimal p.pid = ['4', '2']) :
    (oneProcess p).ListedBy .reference (fun _ => some p.stat) procEntries where
  entries_perm := List.Perm.of_eq
    (by simp [oneProcess, procEntries, hpid, numericName, Char.isDigit])
  files_stat _ hp := by rw [List.mem_singleton.mp hp]; rfl

theorem lineBreak_hides_threads :
    let p := sleeping "a\nb".toList (by decide) (by decide)
    (oneProcess p).ListedBy .reference (fun _ => some p.stat) procEntries ∧
      (oneProcess p).threads < 2 ^ 31 ∧
      ∃ status, readProcessStatus .reference (fun _ => some p.stat)
          (some procEntries) = some status ∧
        status.total_threads ≠ (oneProcess p).threads :=
  ⟨oneProcess_listed _ (by decide), by decide, { active_processes := 1 }, by decide +kernel,
    by decide⟩

end SystemStats.ProcessTable
