import Mathlib.Data.List.Basic
import Mathlib.Tactic.Common

/-!
# Shared and weak pointers

A pool numbers objects in the order of their creation and lists who owns which.
An object lives as long as it has an owner. A weak pointer is the number of an
object; locking it gives the object while it lives. Numbers are not used again,
so a weak pointer that has expired stays expired.
-/

namespace WeakPointers

variable {ω : Type*}

structure Pool (ω : Type*) where
  next : ℕ
  owners : List (ω × ℕ)

namespace Pool

def empty : Pool ω := ⟨0, []⟩

def alive (p : Pool ω) (i : ℕ) : Bool := p.owners.any (fun e => e.2 == i)

def lock (p : Pool ω) (i : ℕ) : Option ℕ := if p.alive i then some i else none

def create (p : Pool ω) (o : ω) : Pool ω := ⟨p.next + 1, (o, p.next) :: p.owners⟩

def share (p : Pool ω) (o : ω) (i : ℕ) : Pool ω := { p with owners := (o, i) :: p.owners }

def drop [DecidableEq ω] (p : Pool ω) (o : ω) : Pool ω :=
  { p with owners := p.owners.filter (fun e => e.1 ≠ o) }

def Valid (p : Pool ω) : Prop := ∀ e ∈ p.owners, e.2 < p.next

/-- Created once, and no longer owned. -/
def Expired (p : Pool ω) (i : ℕ) : Prop := i < p.next ∧ p.alive i = false

theorem alive_iff {p : Pool ω} {i : ℕ} : p.alive i = true ↔ ∃ o, (o, i) ∈ p.owners := by
  simp only [alive, List.any_eq_true, beq_iff_eq]
  constructor
  · rintro ⟨⟨o, j⟩, hmem, rfl⟩
    exact ⟨o, hmem⟩
  · rintro ⟨o, hmem⟩
    exact ⟨(o, i), hmem, rfl⟩

theorem alive_of_mem {p : Pool ω} {o : ω} {i : ℕ} (h : (o, i) ∈ p.owners) : p.alive i = true :=
  alive_iff.mpr ⟨o, h⟩

theorem mem_drop [DecidableEq ω] {p : Pool ω} {o o' : ω} {i : ℕ} :
    (o', i) ∈ (p.drop o).owners ↔ (o', i) ∈ p.owners ∧ o' ≠ o := by
  simp [drop]

theorem Valid.lt_of_alive {p : Pool ω} (hp : p.Valid) {i : ℕ} (h : p.alive i = true) :
    i < p.next := by
  obtain ⟨o, hmem⟩ := alive_iff.mp h
  exact hp _ hmem

theorem valid_empty : (empty : Pool ω).Valid := fun _ h => absurd h List.not_mem_nil

theorem Valid.create {p : Pool ω} (hp : p.Valid) (o : ω) : (p.create o).Valid := by
  intro e he
  rcases List.mem_cons.mp he with rfl | he
  · exact Nat.lt_succ_self _
  · exact Nat.lt_succ_of_lt (hp e he)

theorem Valid.share {p : Pool ω} (hp : p.Valid) (o : ω) {i : ℕ} (hi : p.alive i = true) :
    (p.share o i).Valid := by
  intro e he
  rcases List.mem_cons.mp he with rfl | he
  · exact hp.lt_of_alive hi
  · exact hp e he

theorem Valid.drop [DecidableEq ω] {p : Pool ω} (hp : p.Valid) (o : ω) : (p.drop o).Valid :=
  fun e he => hp e (List.mem_of_mem_filter he)

theorem Expired.create {p : Pool ω} {i : ℕ} (h : p.Expired i) (o : ω) : (p.create o).Expired i := by
  refine ⟨Nat.lt_succ_of_lt h.1, ?_⟩
  have hne : (p.next == i) = false := by simpa using Nat.ne_of_gt h.1
  have hrest := h.2
  rw [alive] at hrest ⊢
  rw [Pool.create, List.any_cons, hne, hrest]
  rfl

theorem Expired.share {p : Pool ω} {i : ℕ} (h : p.Expired i) (o : ω) {j : ℕ}
    (hj : p.alive j = true) : (p.share o j).Expired i := by
  refine ⟨h.1, ?_⟩
  have hne : (j == i) = false := by
    rw [beq_eq_false_iff_ne]
    rintro rfl
    exact absurd hj (Bool.eq_false_iff.mp h.2)
  have hrest := h.2
  rw [alive] at hrest ⊢
  rw [Pool.share, List.any_cons, hne, hrest]
  rfl

theorem Expired.drop [DecidableEq ω] {p : Pool ω} {i : ℕ} (h : p.Expired i) (o : ω) :
    (p.drop o).Expired i := by
  refine ⟨h.1, Bool.eq_false_iff.mpr fun halive => ?_⟩
  obtain ⟨o', hmem⟩ := alive_iff.mp halive
  exact absurd (alive_of_mem (mem_drop.mp hmem).1) (Bool.eq_false_iff.mp h.2)

end Pool

end WeakPointers
