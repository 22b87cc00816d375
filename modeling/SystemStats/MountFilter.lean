import SystemStats.LineScan
import SystemStats.DiskStats

/-!
# Which mounts are listed

The two patterns are read by the regular expression syntax and their languages
are computed. `regex_match` has to match the whole path, so the tail `($|/)`
of the second pattern accepts a directory with or without one separator after
it and nothing beneath it. `Hidden` is the filter that the pattern is written
for: a directory and everything beneath it by whole components.
-/

namespace SystemStats.MountFilter
open TextLines LineScan PosixRegex DiskStats

def literal (n : String) : Regex := chars n.toList .eps

theorem matches_literal_iff {n : String} {u w v : Text} :
    Matches (literal n) u w v ↔ w = n.toList := by
  simp [literal, matches_chars_iff]

def typesBefore : List String := ["autofs", "binfmt_misc", "bpf"]

def typesAfter : List String :=
  ["configfs", "debugfs", "devpts", "devtmpfs", "fusectl", "hugetlbfs", "iso9660", "mqueue",
    "nsfs", "overlay", "proc", "procfs", "pstore", "rpc_pipefs", "securityfs", "selinuxfs",
    "squashfs", "sysfs", "tracefs"]

def virtualTypes : List String := typesBefore ++ ["cgroup", "cgroup2"] ++ typesAfter

def cgroupRegex : Regex := chars "cgroup".toList (.seq (.opt (.char '2')) .eps)

theorem parse_fileSystemType : parse ignoreFileSystemTypeRegex =
    some (alternatives [.seq .bol (.seq
      (alternatives (typesBefore.map literal ++ cgroupRegex :: typesAfter.map literal))
      (.seq .eol .eps))]) := by
  decide +kernel

theorem matches_cgroup_iff {u w v : Text} :
    Matches cgroupRegex u w v ↔ w = "cgroup".toList ∨ w = "cgroup2".toList := by
  have hlong : "cgroup2".toList = "cgroup".toList ++ ['2'] := by decide
  rw [cgroupRegex, matches_chars_iff, hlong]
  simp only [matches_seq_eps_iff, Regex.opt, matches_alt_iff, matches_char_iff, matches_eps_iff]
  apply Iff.intro
  · intro hx
    obtain ⟨x, rfl, rfl | rfl⟩ := hx
    · exact Or.inr rfl
    · exact Or.inl (List.append_nil _)
  · intro hx
    rcases hx with rfl | rfl
    · exact ⟨[], (List.append_nil _).symm, Or.inr rfl⟩
    · exact ⟨['2'], rfl, Or.inl rfl⟩

theorem ignoreFileSystemType_iff {t : Text} :
    ignoreFileSystemType t = true ↔ ∃ n ∈ virtualTypes, t = n.toList := by
  rw [ignoreFileSystemType, patternMatches, parse_fileSystemType, Option.any_some, regexMatch_iff,
    matches_alternatives_iff]
  simp only [List.mem_singleton, exists_eq_left, matches_bol_seq_iff]
  rw [matches_seq_iff]
  apply Iff.intro
  · intro hx
    obtain ⟨w, w', rfl, hw, hw'⟩ := hx
    obtain ⟨-, rfl⟩ := matches_eol_iff.mp (matches_seq_eps_iff.mp hw')
    obtain ⟨r, hr, hm⟩ := matches_alternatives_iff.mp hw
    rw [List.append_nil]
    simp only [List.mem_append, List.mem_cons, List.mem_map] at hr
    rcases hr with ⟨n, hn, rfl⟩ | rfl | ⟨n, hn, rfl⟩
    · exact ⟨n, by simp [virtualTypes, hn], matches_literal_iff.mp hm⟩
    · rcases matches_cgroup_iff.mp hm with h | h
      · exact ⟨"cgroup", by simp [virtualTypes], h⟩
      · exact ⟨"cgroup2", by simp [virtualTypes], h⟩
    · exact ⟨n, by simp [virtualTypes, hn], matches_literal_iff.mp hm⟩
  · intro hx
    obtain ⟨n, hn, rfl⟩ := hx
    refine ⟨n.toList, [], (List.append_nil _).symm, matches_alternatives_iff.mpr ?_,
      matches_seq_eps_iff.mpr (.eol _)⟩
    simp only [virtualTypes, List.mem_append, List.mem_cons, List.not_mem_nil, or_false] at hn
    rcases hn with (hn | rfl | rfl) | hn
    · exact ⟨literal n, List.mem_append_left _ (List.mem_map_of_mem hn),
        matches_literal_iff.mpr rfl⟩
    · exact ⟨cgroupRegex, by simp, matches_cgroup_iff.mpr (Or.inl rfl)⟩
    · exact ⟨cgroupRegex, by simp, matches_cgroup_iff.mpr (Or.inr rfl)⟩
    · exact ⟨literal n, List.mem_append_right _ (List.mem_cons_of_mem _ (List.mem_map_of_mem hn)),
        matches_literal_iff.mpr rfl⟩

def topNames : List String := ["dev", "proc", "sys", "run", "snap"]

def topDir (n : String) : Text := '/' :: n.toList

def dockerDir : Text := "/var/lib/docker".toList

def dockerPart : Text := "var/lib/docker/".toList

def dockerRegex : Regex := chars dockerPart (.seq (.plus .any) .eps)

def tailRegex : Regex := alternatives [.seq .eol .eps, literal "/"]

theorem parse_mountPoints : parse ignoreMountPointsRegex =
    some (alternatives [.seq .bol (.seq (.char '/')
      (.seq (alternatives (topNames.map literal ++ [dockerRegex])) (.seq tailRegex .eps)))]) := by
  decide +kernel

theorem matches_docker_iff {u w v : Text} : Matches dockerRegex u w v ↔
    ∃ q, w = dockerPart ++ q ∧ q ≠ [] ∧ '\x00' ∉ q := by
  simp only [dockerRegex, matches_chars_iff, matches_seq_eps_iff, matches_plus_any_iff]

theorem matches_tail_iff {u w : Text} : Matches tailRegex u w [] ↔ w = [] ∨ w = ['/'] := by
  simp [tailRegex, matches_alternatives_iff, matches_literal_iff]

def Beneath (dir path : Text) : Prop := path = dir ∨ ∃ q, path = dir ++ '/' :: q

def StrictlyBeneath (dir path : Text) : Prop := ∃ q, q ≠ [] ∧ path = dir ++ '/' :: q

/-- The paths that the filter is meant to leave out. -/
def Hidden (path : Text) : Prop :=
  (∃ n ∈ topNames, Beneath (topDir n) path) ∨ StrictlyBeneath dockerDir path

instance (dir path : Text) : Decidable (Beneath dir path) :=
  decidable_of_iff (path = dir ∨ dir ++ ['/'] <+: path) <| by
    simp [Beneath, List.IsPrefix, eq_comm]

instance (dir path : Text) : Decidable (StrictlyBeneath dir path) :=
  decidable_of_iff (dir ++ ['/'] <+: path ∧ path ≠ dir ++ ['/']) <| by
    apply Iff.intro
    · intro hx
      obtain ⟨⟨q, rfl⟩, hne⟩ := hx
      exact ⟨q, by rintro rfl; simp at hne, by simp⟩
    · intro hx
      obtain ⟨q, hq, rfl⟩ := hx
      exact ⟨⟨q, by simp⟩, by simpa using hq⟩

instance (path : Text) : Decidable (Hidden path) := inferInstanceAs (Decidable (_ ∨ _))

theorem beneath_iff {dir path : Text} :
    Beneath dir path ↔ (path = dir ∨ path = dir ++ ['/']) ∨ StrictlyBeneath dir path := by
  apply Iff.intro
  · intro hx
    rcases hx with h | ⟨q, rfl⟩
    · exact Or.inl (Or.inl h)
    · by_cases hq : q = []
      · exact Or.inl (Or.inr (by rw [hq]))
      · exact Or.inr ⟨q, hq, rfl⟩
  · intro hx
    rcases hx with (h | h) | ⟨q, -, h⟩
    · exact Or.inl h
    · exact Or.inr ⟨[], h⟩
    · exact Or.inr ⟨q, h⟩

theorem ignoreMountPoint_iff {path : Text} (hp : '\x00' ∉ path) :
    ignoreMountPoint path = true ↔
      (∃ n ∈ topNames, path = topDir n ∨ path = topDir n ++ ['/']) ∨
        StrictlyBeneath dockerDir path := by
  have hdocker (q : Text) : '/' :: (dockerPart ++ q) = dockerDir ++ '/' :: q := rfl
  rw [ignoreMountPoint, patternMatches, parse_mountPoints, Option.any_some, regexMatch_iff,
    matches_alternatives_iff]
  simp only [List.mem_singleton, exists_eq_left, matches_bol_seq_iff]
  rw [matches_seq_iff]
  apply Iff.intro
  · intro hx
    obtain ⟨x, y, rfl, hx, hy⟩ := hx
    obtain rfl := matches_char_iff.mp hx
    obtain ⟨w, w', rfl, hw, hw'⟩ := matches_seq_iff.mp hy
    have htail := matches_tail_iff.mp (matches_seq_eps_iff.mp hw')
    obtain ⟨r, hr, hm⟩ := matches_alternatives_iff.mp hw
    simp only [List.mem_append, List.mem_map, List.mem_singleton] at hr
    rcases hr with ⟨n, hn, rfl⟩ | rfl
    · obtain rfl := matches_literal_iff.mp hm
      left
      refine ⟨n, hn, ?_⟩
      rcases htail with rfl | rfl
      · exact Or.inl (by simp [topDir])
      · exact Or.inr (by simp [topDir])
    · obtain ⟨q, rfl, hq, -⟩ := matches_docker_iff.mp hm
      right
      exact ⟨q ++ w', by simp [hq], by rw [← hdocker]; simp⟩
  · intro hx
    rcases hx with ⟨n, hn, h⟩ | ⟨q, hq, rfl⟩
    · obtain ⟨w', rfl, hw'⟩ : ∃ w', path = '/' :: (n.toList ++ w') ∧ (w' = [] ∨ w' = ['/']) := by
        rcases h with rfl | rfl
        · exact ⟨[], by simp [topDir], Or.inl rfl⟩
        · exact ⟨['/'], by simp [topDir], Or.inr rfl⟩
      refine ⟨['/'], n.toList ++ w', rfl, .char _ _ _, matches_seq_iff.mpr ⟨n.toList, w', rfl,
        matches_alternatives_iff.mpr ⟨literal n, ?_, matches_literal_iff.mpr rfl⟩,
        matches_seq_eps_iff.mpr (matches_tail_iff.mpr hw')⟩⟩
      exact List.mem_append_left _ (List.mem_map_of_mem hn)
    · rw [← hdocker] at hp ⊢
      have hnul : '\x00' ∉ q := fun hmem => hp (by simp [hmem])
      refine ⟨['/'], dockerPart ++ q, rfl, .char _ _ _, matches_seq_iff.mpr
        ⟨dockerPart ++ q, [], (List.append_nil _).symm, matches_alternatives_iff.mpr
          ⟨dockerRegex, by simp, matches_docker_iff.mpr ⟨q, rfl, hq, hnul⟩⟩,
          matches_seq_eps_iff.mpr (matches_tail_iff.mpr (Or.inl rfl))⟩⟩

def belowTop (path : Text) : Text := path.tail.dropWhile (· != '/')

theorem topNames_no_separator : ∀ n ∈ topNames, ∀ c ∈ n.toList, (c != '/') = true := by
  have hall : topNames.all (fun n => n.toList.all (· != '/')) = true := by decide
  simpa only [List.all_eq_true] using hall

theorem belowTop_topDir {n : String} (hn : n ∈ topNames) (rest : Text)
    (hr : Stops (· != '/') rest) : belowTop (topDir n ++ rest) = rest :=
  hr.dropWhile_append (topNames_no_separator n hn)

theorem ignoreMountPoint_eq_false {path : Text} (hp : '\x00' ∉ path) {n : String}
    (hn : n ∈ topNames) (h : StrictlyBeneath (topDir n) path) : ignoreMountPoint path = false := by
  obtain ⟨q, hq, rfl⟩ := h
  have hbelow := belowTop_topDir hn ('/' :: q) (by simp [Stops])
  rw [Bool.eq_false_iff, ne_eq, ignoreMountPoint_iff hp]
  intro hx
  rcases hx with ⟨m, hm, h | h⟩ | ⟨q', -, h⟩
  · have hm' := belowTop_topDir hm [] (by simp [Stops])
    rw [List.append_nil, ← h, hbelow] at hm'
    cases hm'
  · have hm' := belowTop_topDir hm ['/'] (by simp [Stops])
    rw [← h, hbelow] at hm'
    simp [hq] at hm'
  · have htop : ∀ m ∈ topNames, ¬ m.toList <+: "var/lib/docker/".toList ∧
        ¬ "var/lib/docker/".toList <+: m.toList := by decide
    have hpath : n.toList ++ '/' :: q = dockerPart ++ q' := List.cons.inj h |>.2
    have h1 : n.toList <+: n.toList ++ '/' :: q := List.prefix_append _ _
    have h2 : dockerPart <+: n.toList ++ '/' :: q := hpath ▸ List.prefix_append _ _
    rcases List.prefix_or_prefix_of_prefix h1 h2 with h | h
    · exact (htop n hn).1 h
    · exact (htop n hn).2 h

theorem hidden_iff {path : Text} (hp : '\x00' ∉ path) : Hidden path ↔
    ignoreMountPoint path = true ∨ ∃ n ∈ topNames, StrictlyBeneath (topDir n) path := by
  rw [ignoreMountPoint_iff hp, Hidden]
  apply Iff.intro
  · intro hx
    rcases hx with ⟨n, hn, h⟩ | h
    · rcases beneath_iff.mp h with h | h
      · exact Or.inl (Or.inl ⟨n, hn, h⟩)
      · exact Or.inr ⟨n, hn, h⟩
    · exact Or.inl (Or.inr h)
  · intro hx
    rcases hx with (⟨n, hn, h⟩ | h) | ⟨n, hn, h⟩
    · exact Or.inl ⟨n, hn, beneath_iff.mpr (Or.inl h)⟩
    · exact Or.inr h
    · exact Or.inl ⟨n, hn, beneath_iff.mpr (Or.inr h)⟩

section Listing
variable {w : ℕ}

def Sized : Option (StatVfs w) → Prop
  | none => False
  | some buf => buf.f_blocks ≠ 0 ∧ buf.f_bsize ≠ 0

instance (reply : Option (StatVfs w)) : Decidable (Sized reply) :=
  match reply with
  | none => inferInstanceAs (Decidable False)
  | some _ => inferInstanceAs (Decidable (_ ∧ _))

/-- The total size is zero in 64 bits. -/
def WrapsToZero : Option (StatVfs w) → Prop
  | none => False
  | some buf => 2 ^ 64 ∣ buf.f_blocks.toNat * buf.f_bsize.toNat

instance (reply : Option (StatVfs w)) : Decidable (WrapsToZero reply) :=
  match reply with
  | none => inferInstanceAs (Decidable False)
  | some _ => inferInstanceAs (Decidable (_ ∣ _))

def Virtual (fsType : Text) : Prop := ∃ n ∈ virtualTypes, fsType = n.toList

instance (fsType : Text) : Decidable (Virtual fsType) :=
  inferInstanceAs (Decidable (∃ n ∈ virtualTypes, _))

def Listed (e : MountEntry × Option (StatVfs w)) : Prop :=
  ¬ Virtual e.1.mnt_type ∧ ¬ Hidden e.1.mnt_dir ∧ Sized e.2

instance (e : MountEntry × Option (StatVfs w)) : Decidable (Listed e) :=
  inferInstanceAs (Decidable (_ ∧ _))

def listedRow (e : MountEntry × Option (StatVfs w)) : Option DiskInfo :=
  if Listed e then e.2.map (diskInfo e.1) else none

def listedRows (table : MountTable w) : List DiskInfo := table.filterMap listedRow

/-- What the loop lets through: the pattern in place of `Hidden`, and sizes in 64 bits. -/
def Passes (e : MountEntry × Option (StatVfs w)) : Prop :=
  skipped e.1 = false ∧ Sized e.2 ∧ ¬ WrapsToZero e.2

instance (e : MountEntry × Option (StatVfs w)) : Decidable (Passes e) :=
  inferInstanceAs (Decidable (_ ∧ _))

/-- An entry that passes every other test and lies beneath a hidden directory. -/
def BeneathHidden (e : MountEntry × Option (StatVfs w)) : Prop :=
  ¬ Virtual e.1.mnt_type ∧ (∃ n ∈ topNames, StrictlyBeneath (topDir n) e.1.mnt_dir) ∧
    Sized e.2 ∧ ¬ WrapsToZero e.2

def Vanishing (e : MountEntry × Option (StatVfs w)) : Prop := Listed e ∧ WrapsToZero e.2

theorem emitted_eq (hw : w ≤ 64) (e : MountEntry × Option (StatVfs w)) :
    emitted e = if Passes e then e.2.map (diskInfo e.1) else none := by
  obtain ⟨ent, reply⟩ := e
  cases hskip : skipped ent with
  | true => simp [emitted, Passes, hskip]
  | false =>
    cases reply with
    | none => simp [emitted, Passes, Sized, hskip]
    | some buf =>
      have hzero : buf.space buf.f_blocks = 0 ↔ WrapsToZero (some buf) :=
        space_eq_zero_iff hw buf buf.f_blocks
      by_cases hwrap : WrapsToZero (some buf)
      · have hspace := hzero.mpr hwrap
        simp [emitted, Passes, hskip, hspace, hwrap]
      · have hspace : ¬ buf.space buf.f_blocks = 0 := hzero.not.mpr hwrap
        have hsized : Sized (some buf) := by
          refine ⟨fun h => hwrap ?_, fun h => hwrap ?_⟩
          · simp [WrapsToZero, h]
          · simp [WrapsToZero, h]
        simp [emitted, Passes, hskip, hspace, hwrap, hsized]

theorem emitted_of_passes (hw : w ≤ 64) {e : MountEntry × Option (StatVfs w)} (h : Passes e) :
    emitted e = e.2.map (diskInfo e.1) := by
  rw [emitted_eq hw, if_pos h]

theorem skipped_iff {ent : MountEntry} : skipped ent = true ↔
    Virtual ent.mnt_type ∨ ignoreMountPoint ent.mnt_dir = true := by
  rw [skipped, Bool.or_eq_true, ignoreFileSystemType_iff]
  rfl

theorem not_skipped_of_listed {e : MountEntry × Option (StatVfs w)} (h : Listed e) :
    skipped e.1 = false := by
  obtain ⟨htype, hhidden, -⟩ := h
  rw [Bool.eq_false_iff, ne_eq, skipped_iff, not_or]
  exact ⟨htype, fun hignore => hhidden ((hidden_iff e.1.dir_cstring).mpr (Or.inl hignore))⟩

theorem passes_iff (e : MountEntry × Option (StatVfs w)) :
    Passes e ↔ (Listed e ∧ ¬ WrapsToZero e.2) ∨ BeneathHidden e := by
  have hhidden := hidden_iff e.1.dir_cstring
  apply Iff.intro
  · intro hx
    obtain ⟨hskip, hsized, hwrap⟩ := hx
    rw [Bool.eq_false_iff, ne_eq, skipped_iff, not_or] at hskip
    by_cases hb : ∃ n ∈ topNames, StrictlyBeneath (topDir n) e.1.mnt_dir
    · exact Or.inr ⟨hskip.1, hb, hsized, hwrap⟩
    · exact Or.inl ⟨⟨hskip.1, fun h => (hhidden.mp h).elim hskip.2 hb, hsized⟩, hwrap⟩
  · intro hx
    rcases hx with ⟨hlisted, hwrap⟩ | ⟨htype, ⟨n, hn, hb⟩, hsized, hwrap⟩
    · exact ⟨not_skipped_of_listed hlisted, hlisted.2.2, hwrap⟩
    · refine ⟨?_, hsized, hwrap⟩
      rw [Bool.eq_false_iff, ne_eq, skipped_iff, not_or,
        ignoreMountPoint_eq_false e.1.dir_cstring hn hb]
      exact ⟨htype, Bool.false_ne_true⟩

theorem Sized.map_eq_some {reply : Option (StatVfs w)} (h : Sized reply) (ent : MountEntry) :
    ∃ buf, reply = some buf ∧ reply.map (diskInfo ent) = some (diskInfo ent buf) := by
  cases reply with
  | none => exact h.elim
  | some buf => exact ⟨buf, rfl, rfl⟩

theorem mount_point_of_listedRow {e : MountEntry × Option (StatVfs w)} {row : DiskInfo}
    (h : listedRow e = some row) : ¬ Hidden row.mount_point := by
  rw [listedRow] at h
  split_ifs at h with hlisted
  obtain ⟨buf, -, rfl⟩ := Option.map_eq_some_iff.mp h
  exact hlisted.2.1

theorem filterMap_emitted_ne (hw : w ≤ 64) {table : MountTable w}
    {e : MountEntry × Option (StatVfs w)} (he : e ∈ table) (hb : BeneathHidden e) :
    table.filterMap emitted ≠ listedRows table := by
  intro heq
  obtain ⟨buf, -, hrow⟩ := Sized.map_eq_some hb.2.2.1 e.1
  have hemit : emitted e = some (diskInfo e.1 buf) := by
    rw [emitted_of_passes hw ((passes_iff e).mpr (Or.inr hb)), hrow]
  have hmem : diskInfo e.1 buf ∈ listedRows table :=
    heq ▸ List.mem_filterMap.mpr ⟨e, he, hemit⟩
  obtain ⟨e', -, hrow'⟩ := List.mem_filterMap.mp hmem
  exact mount_point_of_listedRow hrow'
    ((hidden_iff e.1.dir_cstring).mpr (Or.inr hb.2.1))

theorem emitted_eq_listedRow_iff (hw : w ≤ 64) {e : MountEntry × Option (StatVfs w)}
    (hb : ¬ BeneathHidden e) :
    (emitted e = none ∨ emitted e = listedRow e) ∧
      (listedRow e = emitted e ↔ ¬ Vanishing e) := by
  have hpasses := passes_iff e
  rw [or_iff_left hb] at hpasses
  by_cases hlisted : Listed e
  · obtain ⟨buf, -, hrow⟩ := Sized.map_eq_some hlisted.2.2 e.1
    by_cases hwrap : WrapsToZero e.2
    · have hnot : ¬ Passes e := fun h => (hpasses.mp h).2 hwrap
      rw [emitted_eq hw, if_neg hnot, listedRow, if_pos hlisted, hrow]
      exact ⟨Or.inl rfl, iff_of_false (Option.some_ne_none _) (fun h => h ⟨hlisted, hwrap⟩)⟩
    · rw [emitted_of_passes hw (hpasses.mpr ⟨hlisted, hwrap⟩), listedRow, if_pos hlisted]
      exact ⟨Or.inr rfl, iff_of_true rfl (fun h => hwrap h.2)⟩
  · have hnot : ¬ Passes e := fun h => hlisted (hpasses.mp h).1
    rw [emitted_eq hw, if_neg hnot, listedRow, if_neg hlisted]
    exact ⟨Or.inl rfl, iff_of_true rfl (fun h => hlisted h.1)⟩

theorem filterMap_emitted_eq_iff (hw : w ≤ 64) (table : MountTable w) :
    table.filterMap emitted = listedRows table ↔
      ∀ e ∈ table, ¬ BeneathHidden e ∧ ¬ Vanishing e := by
  by_cases hall : ∀ e ∈ table, ¬ BeneathHidden e
  · have hleft : ∀ e ∈ table, emitted e = none ∨ emitted e = listedRow e :=
      fun e he => (emitted_eq_listedRow_iff hw (hall e he)).1
    rw [eq_comm, listedRows, filterMap_eq_filterMap_iff hleft]
    apply forall₂_congr
    intro e he
    rw [(emitted_eq_listedRow_iff hw (hall e he)).2, and_iff_right (hall e he)]
  · push Not at hall
    obtain ⟨e, he, hb⟩ := hall
    exact iff_of_false (filterMap_emitted_ne hw he hb) (fun h => (h e he).1 hb)

end Listing

/-- On either platform the result is the list of the entries that belong in it, unless some
other entry lies strictly beneath a hidden top directory or some size wraps to zero. -/
theorem getDiskInfo_eq_listedRows_iff (D : DuckDB) (mtab mounts : Option (MountTable 64))
    (mntbuf : Option (MountTable 32)) :
    (getDiskInfoLinux D mtab mounts = some (listedRows ((mtab.or mounts).getD [])) ↔
      ∀ e ∈ (mtab.or mounts).getD [], ¬ BeneathHidden e ∧ ¬ Vanishing e) ∧
    (getDiskInfoMacOS D mntbuf = some (listedRows (mntbuf.getD [])) ↔
      ∀ e ∈ mntbuf.getD [], ¬ BeneathHidden e ∧ ¬ Vanishing e) := by
  rw [getDiskInfoLinux_eq, getDiskInfoMacOS_eq, Option.some_inj, Option.some_inj]
  exact ⟨filterMap_emitted_eq_iff le_rfl _, filterMap_emitted_eq_iff (by decide) _⟩

def devShm : MountTable 64 :=
  [(⟨"tmpfs".toList, "/dev/shm".toList, "tmpfs".toList, by decide⟩,
    some ⟨4096, 4096, 1000, 900, 900⟩)]

theorem devShm_not_hidden :
    getDiskInfoLinux DuckDB.reference (some devShm) none ≠ some (listedRows devShm) := by
  rw [getDiskInfoLinux_eq, ne_eq, Option.some_inj]
  apply filterMap_emitted_ne le_rfl (List.mem_cons_self (a := _) (l := []))
  exact ⟨by decide, ⟨"dev", by decide, by decide⟩, by decide, by decide⟩

end SystemStats.MountFilter
