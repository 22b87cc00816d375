import Mathlib.Data.List.Count
import Mathlib.Data.List.Induction
import Mathlib.Data.List.Perm.Basic
import Mathlib.Tactic.Common

/-!
# Scans that keep the last match and stop after enough matches

A scan folds an update over a list. `foldl_last` gives one field of the result
when a class of elements overwrites it and every other element leaves it
alone; in `foldl_latest` and `foldl_first` the elements offer values for the
field. `readUntil` is the part of a list that a scan consumes when it stops
after `n` elements of a class. The last result compares two scans that keep
elements of one list.
-/

namespace LineScan

variable {α σ β : Type*}

theorem foldl_last {step : σ → α → σ} (field : σ → β) {q : α → Bool} {val : α → β}
    (hit : ∀ s a, q a = true → field (step s a) = val a)
    (miss : ∀ s a, q a = false → field (step s a) = field s) (l : List α) (s : σ) :
    field (l.foldl step s) = ((l.filter q).getLast?).elim (field s) val := by
  induction l using List.reverseRecOn with
  | nil => rfl
  | append_singleton l a ih =>
    rw [List.foldl_append, List.foldl_cons, List.foldl_nil, List.filter_append]
    cases ha : q a with
    | true => simp [hit _ a ha, ha]
    | false => simp [miss _ a ha, ha, ih]

theorem foldl_latest {step : σ → α → σ} (field : σ → β) {val : α → Option β}
    (hstep : ∀ s a, field (step s a) = (val a).getD (field s)) (l : List α) (s : σ) :
    field (l.foldl step s) = (l.filterMap val).getLast?.getD (field s) := by
  induction l using List.reverseRecOn with
  | nil => rfl
  | append_singleton l a ih =>
    rw [List.foldl_append, List.foldl_cons, List.foldl_nil, hstep, ih, List.filterMap_append]
    cases ha : val a with
    | none => rw [List.filterMap_cons_none ha, List.filterMap_nil, List.append_nil,
        Option.getD_none]
    | some b => rw [List.filterMap_cons_some ha, List.filterMap_nil, List.getLast?_concat,
        Option.getD_some, Option.getD_some]

theorem foldl_first [DecidableEq β] {step : σ → α → σ} (field : σ → β) (unset : β)
    {val : α → Option β}
    (hstep : ∀ s a, field (step s a) = if field s = unset then (val a).getD unset else field s)
    (l : List α) (s : σ) :
    field (l.foldl step s) =
      if field s = unset then ((l.filterMap val).find? (· ≠ unset)).getD unset else field s := by
  induction l generalizing s with
  | nil => exact (ite_eq_right_iff.mpr Eq.symm).symm
  | cons a l ih =>
    rw [List.foldl_cons, ih, hstep]
    by_cases hs : field s = unset
    · rw [if_pos hs, if_pos hs]
      cases ha : val a with
      | none => rw [List.filterMap_cons_none ha, Option.getD_none, if_pos rfl]
      | some b =>
        rw [List.filterMap_cons_some ha, Option.getD_some]
        by_cases hb : b = unset
        · rw [if_pos hb, List.find?_cons_of_neg (by simp [hb])]
        · rw [if_neg hb, List.find?_cons_of_pos (by simp [hb]), Option.getD_some]
    · rw [if_neg hs, if_neg hs, if_neg hs]

/-- The consumed part of the list: it ends with the `n`-th match. -/
def readUntil (p : α → Bool) : ℕ → List α → List α
  | 0, _ => []
  | _ + 1, [] => []
  | n + 1, a :: l => a :: readUntil p (if p a then n else n + 1) l

theorem filter_readUntil {p q : α → Bool} (hqp : ∀ a, q a = true → p a = true) {n : ℕ}
    {l : List α} (hn : l.countP p ≤ n) : (readUntil p n l).filter q = l.filter q := by
  induction l generalizing n with
  | nil => cases n <;> rfl
  | cons a l ih =>
    cases n with
    | zero =>
      have hnone : ∀ b ∈ a :: l, ¬ p b = true := List.countP_eq_zero.mp (Nat.le_zero.mp hn)
      exact (List.filter_eq_nil_iff.mpr (fun b hb hq => hnone b hb (hqp b hq))).symm
    | succ n =>
      rw [readUntil, List.filter_cons, List.filter_cons]
      cases ha : p a with
      | true =>
        rw [List.countP_cons_of_pos ha] at hn
        simp only [↓reduceIte]
        rw [ih (by omega)]
      | false =>
        rw [List.countP_cons_of_neg (by simp [ha])] at hn
        simp only [Bool.false_eq_true, ↓reduceIte]
        rw [ih hn]

theorem getLast?_filter_of_unique {q : α → Bool} {l : List α} (hq : l.countP q ≤ 1) {a : α}
    (ha : a ∈ l) (hqa : q a = true) : (l.filter q).getLast? = some a := by
  have hmem : a ∈ l.filter q := List.mem_filter.mpr ⟨ha, hqa⟩
  have hlen : (l.filter q).length ≤ 1 := by rwa [← List.countP_eq_length_filter]
  cases hf : l.filter q with
  | nil => simp [hf] at hmem
  | cons b bs =>
    rw [hf, List.length_cons] at hlen
    have hbs : bs = [] := List.eq_nil_of_length_eq_zero (by omega)
    rw [hf, hbs, List.mem_singleton] at hmem
    simp [hbs, hmem]

theorem length_filterMap_le {f g : α → Option β} {l : List α}
    (hg : ∀ a ∈ l, g a = none ∨ g a = f a) : (l.filterMap g).length ≤ (l.filterMap f).length := by
  induction l with
  | nil => simp
  | cons a l ih =>
    rw [List.forall_mem_cons] at hg
    have hle := ih hg.2
    rcases hg.1 with h | h <;> rw [List.filterMap_cons, List.filterMap_cons, h]
    · cases f a with
      | none => exact hle
      | some b => exact Nat.le_succ_of_le hle
    · cases f a with
      | none => exact hle
      | some b => exact Nat.succ_le_succ hle

theorem filterMap_eq_filterMap_iff {f g : α → Option β} {l : List α}
    (hg : ∀ a ∈ l, g a = none ∨ g a = f a) :
    l.filterMap f = l.filterMap g ↔ ∀ a ∈ l, f a = g a := by
  constructor
  · intro h
    induction l with
    | nil => simp
    | cons a l ih =>
      rw [List.forall_mem_cons] at hg
      have ha : f a = g a := by
        rcases hg.1 with hn | hn
        · cases hf : f a with
          | none => exact hn.symm
          | some b =>
            have hle := length_filterMap_le hg.2
            have heq := congrArg List.length h
            simp only [List.filterMap_cons, hf, hn, List.length_cons] at heq
            omega
        · exact hn.symm
      have hl : l.filterMap f = l.filterMap g := by
        rw [List.filterMap_cons, List.filterMap_cons, ha] at h
        cases hga : g a with
        | none => simpa [hga] using h
        | some b => simpa [hga] using h
      exact List.forall_mem_cons.mpr ⟨ha, ih hg.2 hl⟩
  · exact List.filterMap_congr

theorem forall₂_filter_filterMap_iff {p : α → Bool} {f : α → Option β} {R : α → β → Prop}
    (hp : ∀ a b, f a = some b → p a = true) (l : List α) :
    List.Forall₂ R (l.filter p) (l.filterMap f) ↔
      ∀ a ∈ l, p a = true → ∃ b, f a = some b ∧ R a b := by
  have hlen (l : List α) : (l.filterMap f).length ≤ (l.filter p).length := by
    induction l with
    | nil => simp
    | cons a l ih =>
      cases hf : f a with
      | none =>
        rw [List.filterMap_cons_none hf]
        exact Nat.le_trans ih (List.Sublist.filter p (List.sublist_cons_self a l)).length_le
      | some b =>
        rw [List.filterMap_cons_some hf, List.filter_cons_of_pos (hp a b hf)]
        exact Nat.succ_le_succ ih
  induction l with
  | nil => simp
  | cons a l ih =>
    rw [List.forall_mem_cons]
    by_cases ha : p a = true
    · cases hf : f a with
      | none =>
        rw [List.filterMap_cons_none hf, List.filter_cons_of_pos ha]
        refine iff_of_false (fun h => ?_) (fun h => ?_)
        · have hle := hlen l
          have heq := h.length_eq
          rw [List.length_cons] at heq
          omega
        · obtain ⟨b, hb, -⟩ := h.1 ha
          cases hb
      | some b =>
        rw [List.filterMap_cons_some hf, List.filter_cons_of_pos ha, List.forall₂_cons]
        simpa [ha] using fun _ => ih
    · have hf : f a = none := Option.eq_none_iff_forall_ne_some.mpr fun b hb => ha (hp a b hb)
      rw [List.filterMap_cons_none hf, List.filter_cons_of_neg ha]
      exact ih.trans (and_iff_right fun h => absurd h ha).symm

end LineScan
