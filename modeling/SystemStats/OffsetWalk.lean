import Mathlib.Data.List.Pairwise
import Mathlib.Logic.Relation
import Mathlib.Tactic.Common

/-!
# Walks by lengths found in the data

A walk over `len` positions reads at each one how far to jump. It ends exactly
when no position that it reaches jumps by `0`, and then its positions increase.
-/

namespace OffsetWalk

variable {jump : ℕ → ℕ} {len : ℕ}

/-- The positions of the walk from `start`, `none` when the fuel does not suffice. -/
def visited (jump : ℕ → ℕ) (len : ℕ) : ℕ → ℕ → Option (List ℕ)
  | 0, _ => none
  | fuel + 1, start =>
    if start < len then (visited jump len fuel (start + jump start)).map (start :: ·)
    else some []

def Step (jump : ℕ → ℕ) (len : ℕ) (i j : ℕ) : Prop := i < len ∧ j = i + jump i

def Reaches (jump : ℕ → ℕ) (len : ℕ) : ℕ → ℕ → Prop := Relation.ReflTransGen (Step jump len)

def Advances (jump : ℕ → ℕ) (len start : ℕ) : Prop :=
  ∀ i, Reaches jump len start i → i < len → 0 < jump i

theorem visited_succ {fuel start : ℕ} {is : List ℕ}
    (h : visited jump len (fuel + 1) start = some is) :
    (start < len ∧ ∃ js, visited jump len fuel (start + jump start) = some js ∧
      is = start :: js) ∨ (¬ start < len ∧ is = []) := by
  rw [visited] at h
  split_ifs at h with hlt
  · obtain ⟨js, hjs, rfl⟩ := Option.map_eq_some_iff.mp h
    exact Or.inl ⟨hlt, js, hjs, rfl⟩
  · exact Or.inr ⟨hlt, (Option.some.inj h).symm⟩

theorem visited_stuck {i : ℕ} (hlt : i < len) (hzero : jump i = 0) (fuel : ℕ) :
    visited jump len fuel i = none := by
  induction fuel with
  | zero => rfl
  | succ fuel ih => rw [visited, if_pos hlt, hzero, Nat.add_zero, ih, Option.map_none]

theorem visited_of_reaches {start i : ℕ} (hreach : Reaches jump len start i) {fuel : ℕ}
    {is : List ℕ} (h : visited jump len fuel start = some is) :
    ∃ fuel' js, visited jump len fuel' i = some js := by
  induction hreach using Relation.ReflTransGen.head_induction_on generalizing fuel is with
  | refl => exact ⟨fuel, is, h⟩
  | head hstep _ ih =>
    obtain ⟨hlt, rfl⟩ := hstep
    cases fuel with
    | zero => cases h
    | succ fuel =>
      rcases visited_succ h with ⟨-, js, hjs, -⟩ | ⟨hend, -⟩
      · exact ih hjs
      · exact absurd hlt hend

theorem advances_of_visited {start fuel : ℕ} {is : List ℕ}
    (h : visited jump len fuel start = some is) : Advances jump len start := by
  intro i hreach hlt
  obtain ⟨fuel', js, hjs⟩ := visited_of_reaches hreach h
  refine Nat.pos_of_ne_zero fun hzero => ?_
  rw [visited_stuck hlt hzero] at hjs
  cases hjs

theorem Advances.next {start : ℕ} (h : Advances jump len start) (hlt : start < len) :
    Advances jump len (start + jump start) :=
  fun i hreach => h i (Relation.ReflTransGen.head ⟨hlt, rfl⟩ hreach)

theorem visited_of_advances {start fuel : ℕ} (h : Advances jump len start)
    (hfuel : len ≤ start + fuel) : ∃ is, visited jump len (fuel + 1) start = some is := by
  induction fuel generalizing start with
  | zero =>
    have hend : ¬ start < len := Nat.not_lt.mpr hfuel
    exact ⟨[], by rw [visited, if_neg hend]⟩
  | succ fuel ih =>
    rw [visited]
    split_ifs with hlt
    · have hpos := h start Relation.ReflTransGen.refl hlt
      obtain ⟨js, hjs⟩ := ih (h.next hlt) (by omega)
      exact ⟨start :: js, by rw [hjs, Option.map_some]⟩
    · exact ⟨[], rfl⟩

theorem exists_visited_iff {start : ℕ} :
    (∃ fuel is, visited jump len fuel start = some is) ↔ Advances jump len start := by
  apply Iff.intro
  · intro hx
    obtain ⟨fuel, is, h⟩ := hx
    exact advances_of_visited h
  · intro h
    exact ⟨len + 1, visited_of_advances h (Nat.le_add_left len start)⟩

theorem le_of_mem_visited {start fuel : ℕ} {is : List ℕ}
    (h : visited jump len fuel start = some is) {i : ℕ} (hi : i ∈ is) : start ≤ i := by
  induction fuel generalizing start is with
  | zero => cases h
  | succ fuel ih =>
    rcases visited_succ h with ⟨-, js, hjs, rfl⟩ | ⟨-, rfl⟩
    · rcases List.mem_cons.mp hi with rfl | hi
      · exact Nat.le_refl i
      · exact Nat.le_trans (Nat.le_add_right _ _) (ih hjs hi)
    · cases hi

theorem pos_of_mem_visited {start fuel : ℕ} {is : List ℕ}
    (h : visited jump len fuel start = some is) {i : ℕ} (hi : i ∈ is) : 0 < jump i := by
  induction fuel generalizing start is with
  | zero => cases h
  | succ fuel ih =>
    have hadvances := advances_of_visited h
    rcases visited_succ h with ⟨hlt, js, hjs, rfl⟩ | ⟨-, rfl⟩
    · rcases List.mem_cons.mp hi with rfl | hi
      · exact hadvances i Relation.ReflTransGen.refl hlt
      · exact ih hjs hi
    · cases hi

theorem visited_increasing {start fuel : ℕ} {is : List ℕ}
    (h : visited jump len fuel start = some is) : is.Pairwise (· < ·) := by
  induction fuel generalizing start is with
  | zero => cases h
  | succ fuel ih =>
    have hpos : ∀ i ∈ is, 0 < jump i := fun i => pos_of_mem_visited h
    rcases visited_succ h with ⟨-, js, hjs, rfl⟩ | ⟨-, rfl⟩
    · have hstart := hpos start List.mem_cons_self
      refine List.pairwise_cons.mpr ⟨fun i hi => ?_, ih hjs⟩
      have hle := le_of_mem_visited hjs hi
      omega
    · exact List.Pairwise.nil

end OffsetWalk
