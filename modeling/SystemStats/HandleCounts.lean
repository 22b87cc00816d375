import SystemStats.CacheSize
import SystemStats.HostActions
import SystemStats.OsInfo

/-!
# Handle counts

`ReadHandleCount` takes the first number of `/proc/sys/fs/file-nr`. When that is
zero, or cannot be read, `ReadHandleCountFallback` opens `/proc` and the `fd`
directory of every numeric entry and counts the numeric names in them, one
directory inside the other. The count is a 32-bit signed integer.
-/

namespace SystemStats.HandleCounts
open TextLines DecimalText FormattedInput OsInfo CacheSize HostActions HeldResources
  HeldResources.Action

def extractInt32 (s : Text) : Option ℤ :=
  (readInteger (s.dropWhile isSpace)).bind (fun (negative, n, _) =>
    int32 (if negative then -n else n))

def allocatedCount (file : Option Text) : ℤ := (file.bind extractInt32).getD 0

def readHandleCount (host : LinuxHost) (db : Instance) : Action ℤ :=
  withStream (host.opened "/proc/sys/fs/file-nr") fun file => do
    logWhen file.isNone db
    return allocatedCount file

def countDescriptors (fd_dirp : Open) : List Text → ℤ → Action ℤ
  | [], handle_count => do
    use fd_dirp
    return handle_count
  | d_name :: rest, handle_count => do
    use fd_dirp
    if numericName d_name then
      let handle_count ← ofExcept (orOverflow (int32 (handle_count + 1)))
      countDescriptors fd_dirp rest handle_count
    else countDescriptors fd_dirp rest handle_count

def openDescriptors (fds : List Text) (handle_count : ℤ) : Action ℤ := do
  let fd_dirp ← acquire .directory
  scopeExit (release fd_dirp) (countDescriptors fd_dirp fds handle_count)

def fdDirectory (D : DuckDB) (host : LinuxHost) (d_name : Text) : Option (List Text) :=
  host.directories (D.format "/proc/%s/fd".toList [d_name])

def scanDescriptors (D : DuckDB) (host : LinuxHost) (dirp : Open) : List Text → ℤ → Action ℤ
  | [], handle_count => do
    use dirp
    return handle_count
  | d_name :: rest, handle_count => do
    use dirp
    if numericName d_name then
      match fdDirectory D host d_name with
      | none => scanDescriptors D host dirp rest handle_count
      | some fds =>
        let handle_count ← openDescriptors fds handle_count
        scanDescriptors D host dirp rest handle_count
    else scanDescriptors D host dirp rest handle_count

def readHandleCountFallback (D : DuckDB) (host : LinuxHost) : Action ℤ :=
  match host.directories "/proc".toList with
  | none => return 0
  | some entries => do
    let dirp ← acquire .directory
    scopeExit (release dirp) (scanDescriptors D host dirp entries 0)

def orFallback (D : DuckDB) (host : LinuxHost) (allocated : ℤ) : Action ℤ :=
  if allocated = 0 then readHandleCountFallback D host else pure allocated

def descriptors (D : DuckDB) (host : LinuxHost) (entries : List Text) : ℕ :=
  ((entries.filter numericName).map (fun d_name =>
    ((fdDirectory D host d_name).getD []).countP numericName)).sum

def counted (n : ℕ) : Except Stop ℤ := orOverflow (int32 n)

theorem counted_of_lt {n : ℕ} (h : n < 2 ^ 31) : counted n = .ok n := by
  have hle : n ≤ 2 ^ 31 - 1 := by omega
  rw [counted, int32_natCast, if_pos hle]
  rfl

theorem counted_of_le {n : ℕ} (h : 2 ^ 31 ≤ n) : counted n = .error .overflow := by
  have hlt : ¬ n ≤ 2 ^ 31 - 1 := by omega
  rw [counted, int32_natCast, if_neg hlt]
  rfl

variable {need : List Open}

theorem counted_succ (n : ℕ) : orOverflow (int32 ((n : ℤ) + 1)) = counted (n + 1) := by
  rw [counted, Nat.cast_succ]

theorem countDescriptors_denotes {fd_dirp : Open} (hmem : fd_dirp ∈ need) (fds : List Text)
    {n : ℕ} (hn : n < 2 ^ 31) :
    Denotes need (countDescriptors fd_dirp fds n) (counted (n + fds.countP numericName)) := by
  induction fds generalizing n with
  | nil =>
    rw [List.countP_nil, add_zero, counted_of_lt hn]
    exact (Denotes.use hmem).seq (Denotes.pure _)
  | cons d_name rest ih =>
    refine (Denotes.use hmem).seq ?_
    by_cases hname : numericName d_name = true
    · rw [if_pos hname, List.countP_cons_of_pos hname, counted_succ,
        Nat.add_comm (rest.countP numericName) 1, ← Nat.add_assoc]
      by_cases hnext : n + 1 < 2 ^ 31
      · rw [counted_of_lt hnext]
        exact (Denotes.pure _).seq (ih hnext)
      · rw [counted_of_le (by omega), counted_of_le (by omega)]
        exact (Denotes.throw _).bind_error
    · rw [if_neg hname, List.countP_cons_of_neg hname]
      exact ih hn

theorem descriptors_nil (D : DuckDB) (host : LinuxHost) : descriptors D host [] = 0 := rfl

theorem scanDescriptors_denotes (D : DuckDB) (host : LinuxHost) {dirp : Open} (hmem : dirp ∈ need)
    (entries : List Text) {n : ℕ} (hn : n < 2 ^ 31) :
    Denotes need (scanDescriptors D host dirp entries n)
      (counted (n + descriptors D host entries)) := by
  induction entries generalizing n with
  | nil =>
    rw [descriptors_nil, add_zero, counted_of_lt hn]
    exact (Denotes.use hmem).seq (Denotes.pure _)
  | cons d_name rest ih =>
    refine (Denotes.use hmem).seq ?_
    by_cases hname : numericName d_name = true
    · have hsum : descriptors D host (d_name :: rest) =
          ((fdDirectory D host d_name).getD []).countP numericName + descriptors D host rest := by
        rw [descriptors, List.filter_cons_of_pos hname]
        rfl
      rw [if_pos hname, hsum, ← add_assoc]
      cases fdDirectory D host d_name with
      | none => exact ih hn
      | some fds =>
        have hopen : Denotes need (openDescriptors fds n) (counted (n + fds.countP numericName)) :=
          Denotes.bracket Resource.directory fun fd_dirp =>
            countDescriptors_denotes List.mem_cons_self fds hn
        rw [Option.getD_some]
        by_cases hnext : n + fds.countP numericName < 2 ^ 31
        · rw [counted_of_lt hnext] at hopen
          exact hopen.seq (ih hnext)
        · rw [counted_of_le (by omega)] at hopen ⊢
          exact hopen.bind_error
    · have hskip : descriptors D host (d_name :: rest) = descriptors D host rest := by
        rw [descriptors, List.filter_cons_of_neg hname]
        rfl
      rw [if_neg hname, hskip]
      exact ih hn

theorem fallback_denotes (D : DuckDB) (host : LinuxHost) :
    Denotes need (readHandleCountFallback D host)
      (counted (descriptors D host ((host.directories "/proc".toList).getD []))) := by
  rw [readHandleCountFallback]
  cases host.directories "/proc".toList with
  | none =>
    rw [Option.getD_none, descriptors_nil, counted_of_lt (Nat.two_pow_pos 31)]
    exact Denotes.pure 0
  | some entries =>
    refine Denotes.bracket Resource.directory fun dirp => ?_
    have hmem : dirp ∈ dirp :: need := List.mem_cons_self
    have hscan := scanDescriptors_denotes D host hmem entries (Nat.two_pow_pos 31)
    rwa [zero_add, Nat.cast_zero] at hscan

theorem handleCount_reports (host : LinuxHost) :
    Reports need (readHandleCount host)
      (.ok (allocatedCount (host.opened "/proc/sys/fs/file-nr"))) :=
  Reports.withStream fun _ => (Reports.logWhen _).seq (Reports.pure _)

def orFallbackCount (D : DuckDB) (host : LinuxHost) (allocated : ℤ) : Except Stop ℤ :=
  if allocated = 0 then counted (descriptors D host ((host.directories "/proc".toList).getD []))
  else .ok allocated

def handleCount (D : DuckDB) (host : LinuxHost) : Except Stop ℤ :=
  orFallbackCount D host (allocatedCount (host.opened "/proc/sys/fs/file-nr"))

theorem orFallback_denotes (D : DuckDB) (host : LinuxHost) (allocated : ℤ) :
    Denotes need (orFallback D host allocated) (orFallbackCount D host allocated) := by
  rw [orFallback, orFallbackCount]
  split_ifs
  · exact fallback_denotes D host
  · exact Denotes.pure allocated

theorem extractInt32_decimalInt (v : ℤ) (k : ℕ) {rest : Text} (hr : Stops Char.isDigit rest) :
    extractInt32 (List.replicate k ' ' ++ (decimalInt v ++ rest)) = int32 v := by
  have hs : Stops isSpace (decimalInt v ++ rest) := decimalInt_stops_space v rest
  rw [extractInt32, dropWhile_isSpace_replicate, hs.dropWhile, readInteger_decimalInt v hr,
    Option.bind_some]
  have habs : (if v < 0 then -(v.natAbs : ℤ) else v.natAbs) = v := by
    split_ifs <;> omega
  simp only [decide_eq_true_eq, habs]

theorem allocatedCount_range (file : Option Text) : InRange (allocatedCount file) := by
  rw [allocatedCount]
  cases hcount : file.bind extractInt32 with
  | none => exact ⟨by decide, by decide⟩
  | some v =>
    obtain ⟨content, -, hread⟩ := Option.bind_eq_some_iff.mp hcount
    obtain ⟨_, -, hint⟩ := Option.bind_eq_some_iff.mp hread
    obtain ⟨hrange, rfl⟩ := int32_eq_some_iff.mp hint
    exact hrange

/-- A number that is written at the start of `file-nr` comes back, unless it is zero or
does not fit: then the descriptors are counted, as long as they fit. -/
theorem handleCount_of_decimal (D : DuckDB) {host : LinuxHost} {v : ℤ} {k : ℕ} {rest : Text}
    (hfile : host.opened "/proc/sys/fs/file-nr" =
      some (List.replicate k ' ' ++ (decimalInt v ++ rest)))
    (hrest : Stops Char.isDigit rest) (i : ℕ) (s : Store Resource) :
    ∃ r next, exec (readHandleCount host (.ok i) >>= orFallback D host) s =
        some (r, ⟨next, s.held⟩) ∧
      ∀ count, r = .ok count ↔ if v ≠ 0 ∧ InRange v then count = v else
        count = descriptors D host ((host.directories "/proc".toList).getD []) ∧ InRange count := by
  have hcount : allocatedCount (host.opened "/proc/sys/fs/file-nr") =
      if InRange v then v else 0 := by
    rw [hfile, allocatedCount, Option.bind_some, extractInt32_decimalInt v k hrest]
    by_cases hv : InRange v
    · rw [if_pos hv, int32_eq_some_iff.mpr ⟨hv, rfl⟩, Option.getD_some]
    · have hnone : int32 v = none := if_neg hv
      rw [if_neg hv, hnone, Option.getD_none]
  have hdenotes : Denotes [] (readHandleCount host (.ok i) >>= orFallback D host)
      (handleCount D host) :=
    ((handleCount_reports host).found i).seq (orFallback_denotes D host _)
  obtain ⟨next, hrun⟩ := hdenotes.exec_eq (List.nil_subset s.held)
  refine ⟨_, next, hrun, fun count => ?_⟩
  rw [handleCount, hcount, orFallbackCount]
  set n := descriptors D host ((host.directories "/proc".toList).getD [])
  have hfallback : counted n = .ok count ↔ count = n ∧ InRange count := by
    rcases Nat.lt_or_ge n (2 ^ 31) with hn | hn
    · rw [counted_of_lt hn]
      constructor
      · intro h
        obtain rfl := Except.ok.inj h
        exact ⟨rfl, by omega, by omega⟩
      · rintro ⟨rfl, -⟩
        rfl
    · rw [counted_of_le hn]
      constructor
      · intro h
        cases h
      · rintro ⟨rfl, -, hlt⟩
        omega
  by_cases hv : InRange v
  · by_cases hzero : v = 0
    · rw [if_pos hv, if_pos hzero, if_neg (fun h => h.1 hzero), hfallback]
    · rw [if_pos hv, if_neg hzero, if_pos ⟨hzero, hv⟩, Except.ok.injEq]
      exact eq_comm
  · rw [if_neg hv, if_pos rfl, if_neg (fun h => hv h.2), hfallback]

def countingHost : LinuxHost := { quietHost with files := fun _ => .content "1184\t0\t9".toList }

theorem handleCount_of_decimal_counting :
    ∃ r next, exec (readHandleCount countingHost (.ok 0) >>= orFallback .reference countingHost)
      .empty = some (r, ⟨next, []⟩) ∧ r = .ok 1184 := by
  have hfile : countingHost.opened "/proc/sys/fs/file-nr" =
    some (List.replicate 0 ' ' ++ (decimalInt 1184 ++ "\t0\t9".toList)) := rfl
  have hrest : Stops Char.isDigit "\t0\t9".toList := by simp [Stops]
  obtain ⟨r, next, hrun, hcount⟩ := handleCount_of_decimal .reference hfile hrest 0 .empty
  exact ⟨r, next, hrun, (hcount 1184).mpr (by decide)⟩

end SystemStats.HandleCounts
