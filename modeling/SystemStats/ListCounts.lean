import Mathlib.Data.Int.Interval
import Mathlib.Data.List.Basic
import Mathlib.Data.List.Nodup
import Mathlib.Data.List.Perm.Basic
import Mathlib.Tactic.Common

/-!
# Counting in lists

A list that repeats the key of each item a number of times determines these
numbers when the keys are distinct. The running maximum `boundFrom` of `i + 1`
counts the distinct non-negative members of a list only when they start at `0`
and have no gap.
-/

namespace ListCounts

variable {α β : Type*}

def repeated (key : α → β) (times : α → ℕ) (xs : List α) : List β :=
  xs.flatMap (fun x => List.replicate (times x) (key x))

theorem filter_map_eq_repeated (key : α → β) (p : α → Bool) (xs : List α) :
    (xs.filter p).map key = repeated key (fun x => if p x then 1 else 0) xs := by
  induction xs with
  | nil => rfl
  | cons x xs ih =>
    rw [repeated, List.flatMap_cons, ← repeated, ← ih]
    by_cases h : p x = true
    · simp [h]
    · simp [h]

theorem count_repeated [DecidableEq β] {key : α → β} (times : α → ℕ) {xs : List α}
    (hkeys : (xs.map key).Nodup) {a : α} (ha : a ∈ xs) :
    (repeated key times xs).count (key a) = times a := by
  induction xs with
  | nil => cases ha
  | cons x xs ih =>
    obtain ⟨hx, hrest⟩ := List.nodup_cons.mp hkeys
    rw [repeated, List.flatMap_cons, ← repeated, List.count_append, List.count_replicate]
    rcases List.mem_cons.mp ha with rfl | ha
    · have hnone : (repeated key times xs).count (key a) = 0 := by
        rw [List.count_eq_zero]
        intro hmem
        obtain ⟨y, hy, hkey⟩ := List.mem_flatMap.mp hmem
        rw [List.eq_of_mem_replicate hkey] at hx
        exact hx (List.mem_map_of_mem hy)
      simp [hnone]
    · have hne : key x ≠ key a := fun h => hx (h ▸ List.mem_map_of_mem ha)
      simp [hne, ih hrest ha]

theorem repeated_perm_iff {key : α → β} {f g : α → ℕ} {xs : List α}
    (hkeys : (xs.map key).Nodup) :
    (repeated key f xs).Perm (repeated key g xs) ↔ ∀ a ∈ xs, f a = g a := by
  classical
  apply Iff.intro
  · intro h a ha
    rw [← count_repeated f hkeys ha, ← count_repeated g hkeys ha]
    exact h.count_eq (key a)
  · intro h
    refine List.Perm.of_eq (List.flatMap_congr fun a ha => ?_)
    rw [h a ha]

def boundFrom (b : ℤ) (l : List ℤ) : ℤ := l.foldl (fun b i => max b (i + 1)) b

theorem boundFrom_le_iff {b n : ℤ} {l : List ℤ} :
    boundFrom b l ≤ n ↔ b ≤ n ∧ ∀ i ∈ l, i < n := by
  induction l generalizing b with
  | nil => simp [boundFrom]
  | cons i l ih =>
    have hstep : boundFrom b (i :: l) = boundFrom (max b (i + 1)) l := rfl
    rw [hstep, ih, max_le_iff, Int.add_one_le_iff, List.forall_mem_cons, and_assoc]

theorem le_boundFrom (b : ℤ) (l : List ℤ) : b ≤ boundFrom b l :=
  (boundFrom_le_iff.mp le_rfl).1

theorem lt_boundFrom {b i : ℤ} {l : List ℤ} (h : i ∈ l) : i < boundFrom b l :=
  (boundFrom_le_iff.mp le_rfl).2 i h

theorem boundFrom_pos_iff {l : List ℤ} : 0 < boundFrom 0 l ↔ ∃ i ∈ l, 0 ≤ i := by
  rw [← not_iff_not, not_lt, boundFrom_le_iff, and_iff_right le_rfl]
  push Not
  rfl

theorem boundFrom_congr {b : ℤ} {l l' : List ℤ} (h : ∀ i, i ∈ l ↔ i ∈ l') :
    boundFrom b l = boundFrom b l' := by
  refine eq_of_forall_ge_iff fun n => ?_
  simp only [boundFrom_le_iff, h]

theorem boundFrom_attained (b : ℤ) (l : List ℤ) :
    boundFrom b l = b ∨ ∃ i ∈ l, boundFrom b l = i + 1 := by
  induction l generalizing b with
  | nil => exact Or.inl rfl
  | cons i l ih =>
    have hstep : boundFrom b (i :: l) = boundFrom (max b (i + 1)) l := rfl
    rw [hstep]
    rcases ih (max b (i + 1)) with h | ⟨j, hj, h⟩
    · rw [h]
      rcases le_total b (i + 1) with hle | hle
      · exact Or.inr ⟨i, List.mem_cons_self, max_eq_right hle⟩
      · exact Or.inl (max_eq_left hle)
    · exact Or.inr ⟨j, List.mem_cons_of_mem _ hj, h⟩

def naturals (l : List ℤ) : List ℤ := (l.filter (0 ≤ ·)).dedup

theorem mem_naturals {l : List ℤ} {i : ℤ} : i ∈ naturals l ↔ i ∈ l ∧ 0 ≤ i := by
  simp [naturals]

theorem boundFrom_eq_length_iff (l : List ℤ) :
    boundFrom 0 l = (naturals l).length ↔ ∀ i ∈ l, ∀ j, 0 ≤ j → j < i → j ∈ l := by
  set b := boundFrom 0 l with hb
  have hsub : (naturals l).toFinset ⊆ Finset.Ico 0 b := by
    intro i hi
    obtain ⟨hmem, hpos⟩ := mem_naturals.mp (List.mem_toFinset.mp hi)
    exact Finset.mem_Ico.mpr ⟨hpos, lt_boundFrom hmem⟩
  have hlen : (naturals l).length = (naturals l).toFinset.card :=
    (List.toFinset_card_of_nodup (List.nodup_dedup _)).symm
  have hcard : ((Finset.Ico 0 b).card : ℤ) = b := by
    rw [Int.card_Ico, sub_zero, Int.toNat_of_nonneg (le_boundFrom 0 l)]
  apply Iff.intro
  · intro h i hi j hj hji
    have hle : (Finset.Ico 0 b).card ≤ (naturals l).toFinset.card := by omega
    have hall := Finset.eq_of_subset_of_card_le hsub hle
    have hjb : j ∈ Finset.Ico 0 b := Finset.mem_Ico.mpr ⟨hj, hji.trans (lt_boundFrom hi)⟩
    rw [← hall, List.mem_toFinset] at hjb
    exact (mem_naturals.mp hjb).1
  · intro h
    have hall : (naturals l).toFinset = Finset.Ico 0 b := by
      refine hsub.antisymm fun j hj => ?_
      obtain ⟨hj, hjb⟩ := Finset.mem_Ico.mp hj
      rw [List.mem_toFinset, mem_naturals]
      rcases boundFrom_attained 0 l with hzero | ⟨i, hi, hlast⟩
      · omega
      · rcases (show j ≤ i by omega).eq_or_lt with rfl | hji
        · exact ⟨hi, hj⟩
        · exact ⟨h i hi j hj hji, hj⟩
    rw [hlen, hall, hcard]

end ListCounts
