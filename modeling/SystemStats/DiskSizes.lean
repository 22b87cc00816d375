import SystemStats.MountFilter
import Mathlib.Data.Nat.ModEq
import Mathlib.Tactic.Ring

/-!
# The unit of the disk sizes

Block counts are in units of `f_frsize` and the code multiplies them by
`f_bsize`. The three products agree exactly when the two sizes are congruent
after multiplication by the greatest common divisor of the three counts, which
for sizes that do not wrap means that they are equal.
-/

namespace SystemStats.DiskSizes
open LineScan DiskStats MountFilter

variable {w : ℕ}

theorem mul_modEq_iff_dvd {n a x y : ℕ} :
    a * x ≡ a * y [MOD n] ↔ n ∣ a * ((y : ℤ) - x).natAbs := by
  rw [Nat.modEq_iff_dvd, Int.natCast_dvd, Nat.cast_mul, Nat.cast_mul, ← mul_sub, Int.natAbs_mul,
    Int.natAbs_natCast]

theorem gcd_mul_modEq_iff {n a b c x y : ℕ} :
    Nat.gcd a (Nat.gcd b c) * x ≡ Nat.gcd a (Nat.gcd b c) * y [MOD n] ↔
      a * x ≡ a * y [MOD n] ∧ b * x ≡ b * y [MOD n] ∧ c * x ≡ c * y [MOD n] := by
  simp only [mul_modEq_iff_dvd]
  rw [← Nat.gcd_mul_right, ← Nat.gcd_mul_right, Nat.dvd_gcd_iff, Nat.dvd_gcd_iff]

theorem mod_eq_iff_modEq {n a b : ℕ} (hb : b < n) : a % n = b ↔ a ≡ b [MOD n] := by
  rw [Nat.ModEq, Nat.mod_eq_of_lt hb]

def usedBlocks (buf : StatVfs w) : ℤ := (buf.f_blocks.toNat : ℤ) - buf.f_bfree.toNat

def Fits (buf : StatVfs w) : Prop :=
  buf.f_blocks.toNat * buf.f_frsize.toNat < 2 ^ 64 ∧
    0 ≤ usedBlocks buf * buf.f_frsize.toNat ∧ usedBlocks buf * buf.f_frsize.toNat < 2 ^ 64 ∧
    buf.f_bavail.toNat * buf.f_frsize.toNat < 2 ^ 64

def InBytes (buf : StatVfs w) (row : DiskInfo) : Prop :=
  row.total_space.toNat = buf.f_blocks.toNat * buf.f_frsize.toNat ∧
    (row.used_space.toNat : ℤ) = usedBlocks buf * buf.f_frsize.toNat ∧
    row.free_space.toNat = buf.f_bavail.toNat * buf.f_frsize.toNat

/-- The two block sizes differ by nothing that 64 bits can show. -/
def BlockSizesAgree (buf : StatVfs w) : Prop :=
  let g := Nat.gcd buf.f_blocks.toNat (Nat.gcd buf.f_bfree.toNat buf.f_bavail.toNat)
  g * buf.f_bsize.toNat ≡ g * buf.f_frsize.toNat [MOD 2 ^ 64]

theorem eq_of_blockSizesAgree {buf : StatVfs w} (h : BlockSizesAgree buf) (hfits : Fits buf)
    (hpos : 0 < buf.f_blocks.toNat)
    (hlt : buf.f_blocks.toNat * buf.f_bsize.toNat < 2 ^ 64) : buf.f_bsize = buf.f_frsize := by
  have hmod := (gcd_mul_modEq_iff.mp h).1
  rw [← mod_eq_iff_modEq hfits.1, Nat.mod_eq_of_lt hlt] at hmod
  exact UInt64.toNat_inj.mp (Nat.eq_of_mul_eq_mul_left hpos hmod)

theorem usedBlocks_toNat {buf : StatVfs w} (h : 0 ≤ usedBlocks buf) :
    ((buf.f_blocks - buf.f_bfree).toNat : ℤ) = usedBlocks buf := by
  have hle : buf.f_bfree.toNat ≤ buf.f_blocks.toNat := by
    rw [usedBlocks] at h
    omega
  rw [BitVec.toNat_sub_of_le (BitVec.le_def.mpr hle), usedBlocks, Nat.cast_sub hle]

theorem sub_mul_modEq_iff {n a b x y : ℕ} (hab : b ≤ a) (ha : a * x ≡ a * y [MOD n]) :
    (a - b) * x ≡ (a - b) * y [MOD n] ↔ b * x ≡ b * y [MOD n] := by
  have hsplit (z : ℕ) : (a - b) * z + b * z = a * z := by rw [← Nat.add_mul, Nat.sub_add_cancel hab]
  rw [← hsplit x, ← hsplit y] at ha
  exact ⟨fun h => Nat.ModEq.add_left_cancel h ha, fun h => Nat.ModEq.add_right_cancel h ha⟩

theorem inBytes_diskInfo_iff (hw : w ≤ 64) (ent : MountEntry) {buf : StatVfs w} (hfits : Fits buf)
    (hpos : buf.f_blocks.toNat * buf.f_frsize.toNat ≠ 0) :
    InBytes buf (diskInfo ent buf) ↔ BlockSizesAgree buf := by
  obtain ⟨htotal, hnonneg, hused, hfree⟩ := hfits
  rw [BlockSizesAgree, gcd_mul_modEq_iff, InBytes]
  simp only [diskInfo, space_toNat hw]
  rw [mod_eq_iff_modEq htotal, mod_eq_iff_modEq hfree]
  refine and_congr_right fun hB => and_congr_left fun _ => ?_
  have hfrsize : 0 < buf.f_frsize.toNat := Nat.pos_of_ne_zero (Nat.mul_ne_zero_iff.mp hpos).2
  have hused' : 0 ≤ usedBlocks buf :=
    nonneg_of_mul_nonneg_left hnonneg (by exact_mod_cast hfrsize)
  have hle : buf.f_bfree.toNat ≤ buf.f_blocks.toNat := by
    rw [usedBlocks] at hused'
    omega
  have hsub : (buf.f_blocks - buf.f_bfree).toNat = buf.f_blocks.toNat - buf.f_bfree.toNat :=
    BitVec.toNat_sub_of_le (BitVec.le_def.mpr hle)
  rw [← usedBlocks_toNat hused'] at hused ⊢
  rw [hsub] at hused ⊢
  rw [← sub_mul_modEq_iff hle hB, ← mod_eq_iff_modEq (by exact_mod_cast hused)]
  exact_mod_cast Iff.rfl

theorem space_ne_zero_of_agree (hw : w ≤ 64) {buf : StatVfs w} (h : BlockSizesAgree buf)
    (hfits : Fits buf) (hpos : buf.f_blocks.toNat * buf.f_frsize.toNat ≠ 0) :
    buf.space buf.f_blocks ≠ 0 := by
  intro hzero
  have hmod := (gcd_mul_modEq_iff.mp h).1
  rw [← mod_eq_iff_modEq hfits.1, ← space_toNat hw, hzero] at hmod
  exact hpos hmod.symm

structure Reported (e : MountEntry × Option (StatVfs w)) (buf : StatVfs w) : Prop where
  not_skipped : skipped e.1 = false
  reply : e.2 = some buf
  fits : Fits buf
  nonempty : buf.f_blocks.toNat * buf.f_frsize.toNat ≠ 0

structure RowInBytes (ent : MountEntry) (buf : StatVfs w) (row : DiskInfo) : Prop where
  mount_point : row.mount_point = ent.mnt_dir
  inBytes : InBytes buf row

/-- Each such mount has a row, between the rows of the entries before it and after it. -/
def TableInBytes (D : DuckDB) (table : MountTable w) (rows : List DiskInfo) : Prop :=
  ∀ before e after buf, table = before ++ e :: after → Reported e buf → ∃ r₁ row r₂,
    scanMounts D before = some r₁ ∧ scanMounts D after = some r₂ ∧ rows = r₁ ++ row :: r₂ ∧
      RowInBytes e.1 buf row

theorem emitted_eq_some {e : MountEntry × Option (StatVfs w)} {row : DiskInfo}
    (h : emitted e = some row) :
    ∃ buf, e.2 = some buf ∧ buf.space buf.f_blocks ≠ 0 ∧ row = diskInfo e.1 buf := by
  rw [emitted] at h
  split_ifs at h with hskip
  obtain ⟨buf, hbuf, hrow⟩ := Option.bind_eq_some_iff.mp h
  split_ifs at hrow with hsize
  exact ⟨buf, hbuf, hsize, (Option.some.inj hrow).symm⟩

theorem emitted_inBytes_iff (hw : w ≤ 64) {e : MountEntry × Option (StatVfs w)}
    {buf : StatVfs w} (he : Reported e buf) :
    (∃ row, emitted e = some row ∧ RowInBytes e.1 buf row) ↔ BlockSizesAgree buf := by
  apply Iff.intro
  · intro hx
    obtain ⟨row, hrow, hbytes⟩ := hx
    obtain ⟨buf', hbuf, -, rfl⟩ := emitted_eq_some hrow
    obtain rfl := Option.some.inj (he.reply.symm.trans hbuf)
    exact (inBytes_diskInfo_iff hw e.1 he.fits he.nonempty).mp hbytes.inBytes
  · intro hagree
    have hspace := space_ne_zero_of_agree hw hagree he.fits he.nonempty
    refine ⟨diskInfo e.1 buf, ?_, rfl, ?_⟩
    · simp [emitted, he.not_skipped, he.reply, hspace]
    · exact (inBytes_diskInfo_iff hw e.1 he.fits he.nonempty).mpr hagree

theorem tableInBytes_iff (hw : w ≤ 64) (D : DuckDB) (table : MountTable w) :
    TableInBytes D table (table.filterMap emitted) ↔
      ∀ e ∈ table, ∀ buf, Reported e buf → BlockSizesAgree buf := by
  have hsplit (before after : MountTable w) (e : MountEntry × Option (StatVfs w)) :
      (before ++ e :: after).filterMap emitted =
        before.filterMap emitted ++ ((emitted e).toList ++ after.filterMap emitted) := by
    rw [List.filterMap_append, List.filterMap_cons]
    cases emitted e <;> rfl
  apply Iff.intro
  · intro h e he buf hreported
    obtain ⟨before, after, rfl⟩ := List.mem_iff_append.mp he
    obtain ⟨r₁, row, r₂, hbefore, hafter, hrows, hbytes⟩ := h before e after buf rfl hreported
    rw [scanMounts_eq, Option.some_inj] at hbefore hafter
    rw [hsplit, hbefore, hafter, List.append_cancel_left_eq, ← List.singleton_append,
      List.append_cancel_right_eq] at hrows
    refine (emitted_inBytes_iff hw hreported).mp ⟨row, ?_, hbytes⟩
    exact Option.toList_eq_singleton_iff.mp hrows
  · intro h before e after buf htable hreported
    have he : e ∈ table := htable ▸ List.mem_append_right _ List.mem_cons_self
    obtain ⟨row, hrow, hbytes⟩ := (emitted_inBytes_iff hw hreported).mpr (h e he buf hreported)
    refine ⟨_, row, _, scanMounts_eq D before, scanMounts_eq D after, ?_, hbytes⟩
    rw [htable, hsplit, hrow]
    rfl

/-- Every mount that is reported has its row in bytes, on either platform, exactly when the
two block sizes of its reply agree. -/
theorem getDiskInfo_inBytes_iff (D : DuckDB) (mtab mounts : Option (MountTable 64))
    (mntbuf : Option (MountTable 32)) :
    ((∃ rows, getDiskInfoLinux D mtab mounts = some rows ∧
        TableInBytes D ((mtab.or mounts).getD []) rows) ↔
      ∀ e ∈ (mtab.or mounts).getD [], ∀ buf, Reported e buf → BlockSizesAgree buf) ∧
    ((∃ rows, getDiskInfoMacOS D mntbuf = some rows ∧ TableInBytes D (mntbuf.getD []) rows) ↔
      ∀ e ∈ mntbuf.getD [], ∀ buf, Reported e buf → BlockSizesAgree buf) := by
  simp only [getDiskInfoLinux_eq, getDiskInfoMacOS_eq, Option.some_inj, exists_eq_left']
  exact ⟨tableInBytes_iff le_rfl D _, tableInBytes_iff (by decide) D _⟩

def fuseMount : MountTable 64 :=
  [(⟨"store".toList, "/mnt/data".toList, "fuse".toList, by decide⟩,
    some ⟨1048576, 4096, 1000, 400, 300⟩)]

theorem fuseMount_not_inBytes :
    ¬ ∃ rows, getDiskInfoLinux DuckDB.reference (some fuseMount) none = some rows ∧
      TableInBytes DuckDB.reference fuseMount rows := by
  have hlisted : ∀ e ∈ fuseMount, Listed e := by decide
  have hfits : Fits (⟨1048576, 4096, 1000, 400, 300⟩ : StatVfs 64) := by
    unfold Fits usedBlocks
    decide
  intro hx
  obtain ⟨rows, hrows, hbytes⟩ := hx
  rw [getDiskInfoLinux_eq, Option.some_inj] at hrows
  rw [← hrows] at hbytes
  have hagree := (tableInBytes_iff le_rfl _ fuseMount).mp hbytes _ List.mem_cons_self _
    ⟨not_skipped_of_listed (hlisted _ List.mem_cons_self), rfl, hfits, by decide⟩
  have heq := eq_of_blockSizesAgree hagree hfits (by decide) (by decide)
  exact absurd heq (by decide)

end SystemStats.DiskSizes
