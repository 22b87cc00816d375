import SystemStats.TextLines

/-!
# Cursors in NUL-terminated text

A cursor is an index into a text that is followed by its terminator. Reading at
the terminator gives NUL, and reading behind it gives `none`: an operation that
returns `some` has not stepped past the terminator. On a text without NUL each
operation is described by the part of the text that is left at the cursor.
-/

namespace NulCursor
open TextLines

def charAt (text : Text) (i : ℕ) : Option Char := (text ++ ['\x00'])[i]?

theorem lt_of_charAt {text : Text} {i : ℕ} {c : Char} (h : charAt text i = some c) :
    i < text.length + 1 := by
  have hlt := (List.getElem?_eq_some_iff.mp h).1
  simpa using hlt

/-- `while (p(*line)) line++` -/
def skipWhile (p : Char → Bool) (text : Text) (i : ℕ) : Option ℕ :=
  match h : charAt text i with
  | none => none
  | some c => if p c then skipWhile p text (i + 1) else some i
termination_by text.length + 1 - i
decreasing_by
  have hlt := lt_of_charAt h
  omega

/-- `strrchr(line, c)`, as the index of the last `c`. -/
def lastIndexOf (c : Char) (text : Text) (i : ℕ) (found : Option ℕ) : Option (Option ℕ) :=
  match h : charAt text i with
  | none => none
  | some a =>
    if a = '\x00' then some found
    else lastIndexOf c text (i + 1) (if a = c then some i else found)
termination_by text.length + 1 - i
decreasing_by
  have hlt := lt_of_charAt h
  omega

def textAt (text : Text) (i : ℕ) : Option Text :=
  if i ≤ text.length then some (text.drop i) else none

theorem skipWhile_of_charAt {p : Char → Bool} {text : Text} {i : ℕ} {c : Char}
    (h : charAt text i = some c) :
    skipWhile p text i = if p c then skipWhile p text (i + 1) else some i := by
  rw [skipWhile]
  split
  · simp_all
  · simp_all

theorem lastIndexOf_of_charAt {c a : Char} {text : Text} {i : ℕ} {found : Option ℕ}
    (h : charAt text i = some a) :
    lastIndexOf c text i found =
      if a = '\x00' then some found
      else lastIndexOf c text (i + 1) (if a = c then some i else found) := by
  rw [lastIndexOf]
  split
  · simp_all
  · simp_all

theorem charAt_nil (u : Text) : charAt u u.length = some '\x00' := by
  simp [charAt]

theorem charAt_cons (u : Text) (c : Char) (r : Text) : charAt (u ++ c :: r) u.length = some c := by
  simp [charAt]

theorem textAt_append (u r : Text) : textAt (u ++ r) u.length = some r := by
  simp [textAt]

theorem skipWhile_append {p : Char → Bool} (hp : p '\x00' = false) (u r : Text) :
    skipWhile p (u ++ r) u.length = some (u ++ r.takeWhile p).length := by
  induction r generalizing u with
  | nil =>
    rw [List.append_nil, skipWhile_of_charAt (charAt_nil u), hp]
    simp
  | cons c r ih =>
    rw [skipWhile_of_charAt (charAt_cons u c r)]
    cases hc : p c with
    | false => simp [hc]
    | true =>
      have hnext := ih (u ++ [c])
      rw [List.append_assoc, List.singleton_append, List.length_append, List.length_singleton]
        at hnext
      rw [if_pos rfl, hnext, List.takeWhile_cons_of_pos hc]
      simp

theorem lastIndexOf_append {c : Char} {r : Text} (hr : '\x00' ∉ r) (u : Text)
    (found : Option ℕ) :
    lastIndexOf c (u ++ r) u.length found =
      some (match strrchr c r with
        | none => found
        | some rest => some ((u ++ r).length - rest.length)) := by
  induction r generalizing u found with
  | nil =>
    rw [List.append_nil, lastIndexOf_of_charAt (charAt_nil u), if_pos rfl]
    rfl
  | cons a r ih =>
    obtain ⟨ha, hr⟩ := not_or.mp (List.mem_cons.not.mp hr)
    have hnext := ih hr (u ++ [a]) (if a = c then some u.length else found)
    rw [List.append_assoc, List.singleton_append, List.length_append, List.length_singleton]
      at hnext
    rw [lastIndexOf_of_charAt (charAt_cons u a r), if_neg (Ne.symm ha), hnext, strrchr]
    cases strrchr c r with
    | some rest => rfl
    | none =>
      by_cases hac : a = c
      · simp [hac]
      · simp [hac]

end NulCursor
