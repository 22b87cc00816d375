import SystemStats.DuckDB
import SystemStats.PosixRegexSyntax

/-!
# Disk statistics

The two platforms run the same loop over their mount table. A table entry
comes with the reply of `statvfs` for its mount point, `none` when the call
fails, and block counts are `w` bits wide: 64 on Linux and 32 on macOS. Only
the loop's source of entries and this width tell the platforms apart.
-/

namespace SystemStats.DiskStats
open TextLines PosixRegex

structure DiskInfo where
  mount_point : Text
  file_system : Text
  file_system_type : Text
  total_space : UInt64
  used_space : UInt64
  free_space : UInt64
  deriving DecidableEq, Repr

def ignoreFileSystemTypeRegex : Text :=
  ["^(autofs|binfmt_misc|bpf|cgroup2?|configfs|debugfs|devpts|",
    "devtmpfs|fusectl|hugetlbfs|iso9660|mqueue|nsfs|overlay|",
    "proc|procfs|pstore|rpc_pipefs|securityfs|selinuxfs|",
    "squashfs|sysfs|tracefs)$"].flatMap String.toList

def ignoreMountPointsRegex : Text := "^/(dev|proc|sys|run|snap|var/lib/docker/.+)($|/)".toList

/-- `std::regex_match` against a pattern, which has to match the whole text. -/
def patternMatches (pattern s : Text) : Bool := (parse pattern).any (fun r => regexMatch r s)

def ignoreFileSystemType (fsType : Text) : Bool := patternMatches ignoreFileSystemTypeRegex fsType

def ignoreMountPoint (mountPoint : Text) : Bool := patternMatches ignoreMountPointsRegex mountPoint

structure StatVfs (w : ℕ) where
  f_bsize : UInt64
  f_frsize : UInt64
  f_blocks : BitVec w
  f_bfree : BitVec w
  f_bavail : BitVec w
  deriving DecidableEq, Repr

def StatVfs.space {w : ℕ} (buf : StatVfs w) (blocks : BitVec w) : UInt64 :=
  UInt64.ofBitVec (blocks.setWidth 64) * buf.f_bsize

theorem space_toNat {w : ℕ} (hw : w ≤ 64) (buf : StatVfs w) (blocks : BitVec w) :
    (buf.space blocks).toNat = blocks.toNat * buf.f_bsize.toNat % 2 ^ 64 := by
  have hlt : blocks.toNat < 2 ^ 64 :=
    blocks.isLt.trans_le (Nat.pow_le_pow_right (by decide) hw)
  rw [StatVfs.space, UInt64.toNat_mul, UInt64.toNat_ofBitVec, BitVec.toNat_setWidth,
    Nat.mod_eq_of_lt hlt]

theorem space_eq_zero_iff {w : ℕ} (hw : w ≤ 64) (buf : StatVfs w) (blocks : BitVec w) :
    buf.space blocks = 0 ↔ 2 ^ 64 ∣ blocks.toNat * buf.f_bsize.toNat := by
  rw [← UInt64.toNat_inj, space_toNat hw, Nat.dvd_iff_mod_eq_zero]
  rfl

structure MountEntry where
  mnt_fsname : Text
  mnt_dir : Text
  mnt_type : Text
  dir_cstring : '\x00' ∉ mnt_dir

abbrev MountTable (w : ℕ) := List (MountEntry × Option (StatVfs w))

def skipped (ent : MountEntry) : Bool :=
  ignoreFileSystemType ent.mnt_type || ignoreMountPoint ent.mnt_dir

/-- The loop over the table; `none` when `NumericCast` throws. -/
def scanMounts {w : ℕ} (D : DuckDB) : MountTable w → Option (List DiskInfo)
  | [] => some []
  | (ent, reply) :: rest =>
    if skipped ent then scanMounts D rest
    else match reply with
      | none => scanMounts D rest
      | some buf => do
        let total_space ← D.numericCast (buf.space buf.f_blocks).toNat
        if total_space = 0 then scanMounts D rest
        else
          let used_space ← D.numericCast (buf.space (buf.f_blocks - buf.f_bfree)).toNat
          let free_space ← D.numericCast (buf.space buf.f_bavail).toNat
          let disks ← scanMounts D rest
          return ⟨ent.mnt_dir, ent.mnt_fsname, ent.mnt_type, total_space, used_space,
            free_space⟩ :: disks

def getDiskInfoLinux (D : DuckDB) (mtab mounts : Option (MountTable 64)) :
    Option (List DiskInfo) :=
  match mtab.or mounts with
  | none => some []
  | some table => scanMounts D table

def getDiskInfoMacOS (D : DuckDB) (mntbuf : Option (MountTable 32)) : Option (List DiskInfo) :=
  match mntbuf with
  | none => some []
  | some table => scanMounts D table

def diskInfo {w : ℕ} (ent : MountEntry) (buf : StatVfs w) : DiskInfo :=
  ⟨ent.mnt_dir, ent.mnt_fsname, ent.mnt_type, buf.space buf.f_blocks,
    buf.space (buf.f_blocks - buf.f_bfree), buf.space buf.f_bavail⟩

def emitted {w : ℕ} (e : MountEntry × Option (StatVfs w)) : Option DiskInfo :=
  if skipped e.1 then none
  else e.2.bind (fun buf => if buf.space buf.f_blocks = 0 then none else some (diskInfo e.1 buf))

theorem scanMounts_eq {w : ℕ} (D : DuckDB) (table : MountTable w) :
    scanMounts D table = some (table.filterMap emitted) := by
  induction table with
  | nil => rfl
  | cons e rest ih =>
    obtain ⟨ent, reply⟩ := e
    by_cases hskip : skipped ent = true
    · simp [scanMounts, emitted, hskip, ih]
    · cases reply with
      | none => simp [scanMounts, emitted, hskip, ih]
      | some buf =>
        by_cases htotal : buf.space buf.f_blocks = 0
        · have hzero : D.numericCast 0 = some 0 := D.numericCast_fits 0
          simp [scanMounts, emitted, hskip, ih, hzero, htotal]
        · simp [scanMounts, emitted, hskip, ih, D.numericCast_fits, htotal, diskInfo]

theorem getDiskInfoLinux_eq (D : DuckDB) (mtab mounts : Option (MountTable 64)) :
    getDiskInfoLinux D mtab mounts = some (((mtab.or mounts).getD []).filterMap emitted) := by
  rw [getDiskInfoLinux]
  cases mtab.or mounts with
  | none => rfl
  | some table => exact scanMounts_eq D table

theorem getDiskInfoMacOS_eq (D : DuckDB) (mntbuf : Option (MountTable 32)) :
    getDiskInfoMacOS D mntbuf = some ((mntbuf.getD []).filterMap emitted) := by
  cases mntbuf with
  | none => rfl
  | some table => exact scanMounts_eq D table

end SystemStats.DiskStats
