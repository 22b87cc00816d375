import SystemStats.DiskSizes

/-!
# Exact disk sizes

The three products of a reply are taken modulo `2 ^ 64` before `NumericCast`
sees them, so the cast never rejects one. The rows of a table are exact, with
every mount of non-zero size among them, exactly when no product of a reply
leaves the range of 64 bits.
-/

namespace SystemStats.DiskExact
open LineScan DiskStats MountFilter DiskSizes

variable {w : ℕ}

def sizeable (e : MountEntry × Option (StatVfs w)) : Bool :=
  !skipped e.1 && e.2.any (fun buf => buf.f_blocks != 0 && buf.f_bsize != 0)

structure ExactRow (e : MountEntry × Option (StatVfs w)) (row : DiskInfo) : Prop where
  mount_point : row.mount_point = e.1.mnt_dir
  sizes : ∀ buf, e.2 = some buf →
    row.total_space.toNat = buf.f_blocks.toNat * buf.f_bsize.toNat ∧
      (row.used_space.toNat : ℤ) = usedBlocks buf * buf.f_bsize.toNat ∧
      row.free_space.toNat = buf.f_bavail.toNat * buf.f_bsize.toNat

/-- Every sizeable entry has its row, in table order, and no row is about another
entry: a mount is dropped for its size only when `f_blocks` or `f_bsize` is `0`. -/
structure ExactTable (table : MountTable w) (rows : List DiskInfo) : Prop where
  rows_exact : List.Forall₂ ExactRow (table.filter sizeable) rows
  used_le_total : ∀ row ∈ rows, row.used_space ≤ row.total_space

def ProductsFit (buf : StatVfs w) : Prop :=
  buf.f_blocks.toNat * buf.f_bsize.toNat < 2 ^ 64 ∧ buf.f_bfree ≤ buf.f_blocks ∧
    buf.f_bavail.toNat * buf.f_bsize.toNat < 2 ^ 64

theorem sizeable_iff {e : MountEntry × Option (StatVfs w)} : sizeable e = true ↔
    skipped e.1 = false ∧ ∃ buf, e.2 = some buf ∧ buf.f_blocks ≠ 0 ∧ buf.f_bsize ≠ 0 := by
  simp [sizeable, Option.any_eq_true]

theorem sizeable_of_emitted {e : MountEntry × Option (StatVfs w)} {row : DiskInfo}
    (h : emitted e = some row) : sizeable e = true := by
  obtain ⟨buf, hbuf, hsize, -⟩ := emitted_eq_some h
  have hskip : skipped e.1 = false := by
    by_contra hskip
    simp [emitted, hskip] at h
  refine sizeable_iff.mpr ⟨hskip, buf, hbuf, fun hblocks => hsize ?_, fun hbsize => hsize ?_⟩
  · rw [StatVfs.space, hblocks]
    simp
  · rw [StatVfs.space, hbsize, UInt64.mul_zero]

theorem used_exact_iff (hw : w ≤ 64) {buf : StatVfs w} (hbsize : buf.f_bsize ≠ 0)
    (htotal : buf.f_blocks.toNat * buf.f_bsize.toNat < 2 ^ 64) :
    ((buf.space (buf.f_blocks - buf.f_bfree)).toNat : ℤ) = usedBlocks buf * buf.f_bsize.toNat ↔
      buf.f_bfree ≤ buf.f_blocks := by
  have hpos : 0 < buf.f_bsize.toNat :=
    Nat.pos_of_ne_zero fun hzero => hbsize (UInt64.toNat_inj.mp hzero)
  apply Iff.intro
  · intro h
    have hnonneg : 0 ≤ usedBlocks buf * buf.f_bsize.toNat := h ▸ Int.natCast_nonneg _
    have hused := nonneg_of_mul_nonneg_left hnonneg (by exact_mod_cast hpos)
    rw [usedBlocks] at hused
    rw [BitVec.le_def]
    omega
  · intro hle
    have hle' : buf.f_bfree.toNat ≤ buf.f_blocks.toNat := BitVec.le_def.mp hle
    have hused : 0 ≤ usedBlocks buf := by
      rw [usedBlocks]
      omega
    have hsub : (buf.f_blocks - buf.f_bfree).toNat ≤ buf.f_blocks.toNat := by
      rw [BitVec.toNat_sub_of_le hle]
      exact Nat.sub_le _ _
    have hfits := (Nat.mul_le_mul_right buf.f_bsize.toNat hsub).trans_lt htotal
    rw [space_toNat hw, Nat.mod_eq_of_lt hfits, Nat.cast_mul, usedBlocks_toNat hused]

theorem exactRow_iff (hw : w ≤ 64) (ent : MountEntry) {buf : StatVfs w} (hbsize : buf.f_bsize ≠ 0) :
    ExactRow (ent, some buf) (diskInfo ent buf) ↔ ProductsFit buf := by
  have hmod {n : ℕ} : n % 2 ^ 64 = n ↔ n < 2 ^ 64 := Nat.mod_eq_iff_lt (by decide)
  apply Iff.intro
  · intro h
    obtain ⟨htotal, hused, hfree⟩ := h.sizes buf rfl
    have htotal' := hmod.mp ((space_toNat hw buf _).symm.trans htotal)
    exact ⟨htotal', (used_exact_iff hw hbsize htotal').mp hused,
      hmod.mp ((space_toNat hw buf _).symm.trans hfree)⟩
  · intro h
    obtain ⟨htotal, hle, hfree⟩ := h
    refine ⟨rfl, fun buf' hbuf => ?_⟩
    obtain rfl := Option.some.inj hbuf
    exact ⟨(space_toNat hw buf _).trans (hmod.mpr htotal),
      (used_exact_iff hw hbsize htotal).mpr hle, (space_toNat hw buf _).trans (hmod.mpr hfree)⟩

theorem ExactRow.used_le_total {e : MountEntry × Option (StatVfs w)} {row : DiskInfo}
    (h : ExactRow e row) {buf : StatVfs w} (hbuf : e.2 = some buf) :
    row.used_space ≤ row.total_space := by
  obtain ⟨htotal, hused, -⟩ := h.sizes buf hbuf
  have hblocks : usedBlocks buf ≤ buf.f_blocks.toNat := by
    rw [usedBlocks]
    omega
  have hle := mul_le_mul_of_nonneg_right hblocks (Int.natCast_nonneg buf.f_bsize.toNat)
  rw [← hused, ← Nat.cast_mul, ← htotal] at hle
  exact UInt64.le_iff_toNat_le.mpr (by exact_mod_cast hle)

theorem sizeable_exact_iff (hw : w ≤ 64) {e : MountEntry × Option (StatVfs w)}
    (he : sizeable e = true) :
    (∃ row, emitted e = some row ∧ ExactRow e row) ↔ ∀ buf, e.2 = some buf → ProductsFit buf := by
  obtain ⟨hskip, buf, hbuf, hblocks, hbsize⟩ := sizeable_iff.mp he
  obtain ⟨ent, reply⟩ := e
  obtain rfl : reply = some buf := hbuf
  apply Iff.intro
  · intro hx buf' hbuf'
    obtain ⟨row, hrow, hexact⟩ := hx
    obtain ⟨buf₁, hbuf₁, -, rfl⟩ := emitted_eq_some hrow
    obtain rfl := Option.some.inj hbuf'
    obtain rfl := Option.some.inj hbuf₁
    exact (exactRow_iff hw ent hbsize).mp hexact
  · intro h
    have hfit := h buf rfl
    have hpos : 0 < buf.f_blocks.toNat * buf.f_bsize.toNat := by
      refine Nat.mul_pos (Nat.pos_of_ne_zero fun h0 => ?_) (Nat.pos_of_ne_zero fun h0 => ?_)
      · exact hblocks (BitVec.eq_of_toNat_eq h0)
      · exact hbsize (UInt64.toNat_inj.mp h0)
    have hwrap : ¬ WrapsToZero (some buf) := Nat.not_dvd_of_pos_of_lt hpos hfit.1
    have hpasses : Passes (ent, some buf) := ⟨hskip, ⟨hblocks, hbsize⟩, hwrap⟩
    exact ⟨_, emitted_of_passes hw hpasses, (exactRow_iff hw ent hbsize).mpr hfit⟩

theorem exactTable_iff (hw : w ≤ 64) (table : MountTable w) :
    ExactTable table (table.filterMap emitted) ↔
      ∀ e ∈ table, sizeable e = true → ∀ buf, e.2 = some buf → ProductsFit buf := by
  have hrows : List.Forall₂ ExactRow (table.filter sizeable) (table.filterMap emitted) ↔
      ∀ e ∈ table, sizeable e = true → ∀ buf, e.2 = some buf → ProductsFit buf := by
    rw [forall₂_filter_filterMap_iff (fun e row h => sizeable_of_emitted h)]
    exact forall₂_congr fun e _ => imp_congr_right fun he => sizeable_exact_iff hw he
  refine ⟨fun h => hrows.mp h.rows_exact, fun h => ⟨hrows.mpr h, fun row hrow => ?_⟩⟩
  obtain ⟨e, he, hemit⟩ := List.mem_filterMap.mp hrow
  have hsize := sizeable_of_emitted hemit
  obtain ⟨row', hemit', hexact⟩ := (sizeable_exact_iff hw hsize).mpr (h e he hsize)
  obtain rfl := Option.some.inj (hemit.symm.trans hemit')
  obtain ⟨-, buf, hbuf, -⟩ := sizeable_iff.mp hsize
  exact hexact.used_le_total hbuf

/-- No product wraps silently exactly when none leaves the range of 64 bits. -/
theorem getDiskInfoLinux_exact_iff (D : DuckDB) (mtab mounts : Option (MountTable 64)) :
    (∀ rows, getDiskInfoLinux D mtab mounts = some rows →
      ExactTable ((mtab.or mounts).getD []) rows) ↔
    ∀ e ∈ (mtab.or mounts).getD [], sizeable e = true →
      ∀ buf, e.2 = some buf → ProductsFit buf := by
  rw [getDiskInfoLinux_eq, ← exactTable_iff le_rfl]
  simp only [Option.some_inj, forall_eq']

def hugeEntry : MountEntry :=
  ⟨"store".toList, "/mnt/huge".toList, "fuse".toList, by decide⟩

def hugeMount : MountTable 64 := [(hugeEntry, some ⟨4096, 4096, 4503599627370496, 0, 0⟩)]

/-- `2 ^ 52` blocks of `2 ^ 12` bytes: the product wraps to `0` and the mount is dropped. -/
theorem hugeMount_dropped :
    ¬ ∀ rows, getDiskInfoLinux DuckDB.reference (some hugeMount) none = some rows →
      ExactTable hugeMount rows := by
  intro h
  have hlisted : Listed (hugeEntry, some (⟨4096, 4096, 1, 0, 0⟩ : StatVfs 64)) := by decide
  have hskip := not_skipped_of_listed hlisted
  have hsize : sizeable (hugeEntry, some (⟨4096, 4096, 4503599627370496, 0, 0⟩ : StatVfs 64)) =
      true := sizeable_iff.mpr ⟨hskip, _, rfl, by decide, by decide⟩
  have hrun := h _ (getDiskInfoLinux_eq _ _ _)
  have hfit := (exactTable_iff le_rfl hugeMount).mp hrun _ List.mem_cons_self hsize _ rfl
  exact absurd hfit.1 (by decide)

end SystemStats.DiskExact
