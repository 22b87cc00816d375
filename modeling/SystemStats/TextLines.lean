import Mathlib.Data.List.Basic
import Mathlib.Data.List.Infix
import Mathlib.Tactic.Common

/-!
# Text, lines and searches

A `char` string is a list of characters and its end is the end of the list.
`lines` is the sequence of results of repeated `std::getline` on a file with
the given content: a final line break does not start another line. The
searches follow `std::string`: `find` reports the first occurrence, and the
two `Of` searches report the outermost character outside a set.
-/

namespace TextLines

abbrev Text := List Char

def getline : Text → Option (Text × Text)
  | [] => none
  | c :: cs =>
    some ((c :: cs).takeWhile (· != '\n'), ((c :: cs).dropWhile (· != '\n')).tail)

def lines : Text → List Text
  | [] => []
  | c :: cs =>
    if c = '\n' then [] :: lines cs
    else match lines cs with
      | [] => [[c]]
      | l :: ls => (c :: l) :: ls

def unlines (ls : List Text) : Text := ls.flatMap (fun l => l ++ ['\n'])

theorem lines_append_newline {l : Text} (hl : '\n' ∉ l) (rest : Text) :
    lines (l ++ '\n' :: rest) = l :: lines rest := by
  induction l with
  | nil => simp [lines]
  | cons c cs ih =>
    obtain ⟨hc, hcs⟩ := not_or.mp (List.mem_cons.not.mp hl)
    rw [List.cons_append, lines, if_neg (Ne.symm hc), ih hcs]

theorem lines_unlines {ls : List Text} (h : ∀ l ∈ ls, '\n' ∉ l) : lines (unlines ls) = ls := by
  induction ls with
  | nil => rfl
  | cons l ls ih =>
    have hrest := ih (fun m hm => h m (List.mem_cons_of_mem _ hm))
    have hstep := lines_append_newline (h l List.mem_cons_self) (unlines ls)
    rw [hrest] at hstep
    simpa [unlines] using hstep

def findText (needle : Text) : Text → Option ℕ
  | [] => if needle = [] then some 0 else none
  | c :: cs => if needle.isPrefixOf (c :: cs) then some 0 else (findText needle cs).map (· + 1)

def find (needle : String) (t : Text) : Option ℕ := findText needle.toList t

theorem find_eq_zero_iff {needle : String} {t : Text} :
    find needle t = some 0 ↔ needle.toList <+: t := by
  rw [find]
  cases t with
  | nil => simp [findText]
  | cons c cs =>
    rw [findText]
    split_ifs with h
    · simpa using List.isPrefixOf_iff_prefix.mp h
    · simpa [Option.map_eq_some_iff] using fun hp => h (List.isPrefixOf_iff_prefix.mpr hp)

theorem findText_append {k : Char} {needle p t : Text} (hp : k ∉ p) (ht : k :: needle <+: t) :
    findText (k :: needle) (p ++ t) = some p.length := by
  induction p with
  | nil =>
    cases t with
    | nil => cases List.prefix_nil.mp ht
    | cons c cs => rw [List.nil_append, findText, if_pos (List.isPrefixOf_iff_prefix.mpr ht),
        List.length_nil]
  | cons a p ih =>
    obtain ⟨ha, hp⟩ := not_or.mp (List.mem_cons.not.mp hp)
    have hno : ¬ (k :: needle).isPrefixOf (a :: (p ++ t)) = true := by
      intro h
      exact ha (List.cons_prefix_cons.mp (List.isPrefixOf_iff_prefix.mp h)).1
    rw [List.cons_append, findText, if_neg hno, ih hp, Option.map_some, List.length_cons]

def findFirstNotOf (set : Text) : Text → Option ℕ
  | [] => none
  | c :: cs => if c ∈ set then (findFirstNotOf set cs).map (· + 1) else some 0

def findLastNotOf (set : Text) : Text → Option ℕ
  | [] => none
  | c :: cs =>
    match findLastNotOf set cs with
    | some i => some (i + 1)
    | none => if c ∈ set then none else some 0

theorem findFirstNotOf_eq_none {set t : Text} (h : ∀ c ∈ t, c ∈ set) :
    findFirstNotOf set t = none := by
  induction t with
  | nil => rfl
  | cons c cs ih =>
    obtain ⟨hc, hcs⟩ := List.forall_mem_cons.mp h
    rw [findFirstNotOf, if_pos hc, ih hcs, Option.map_none]

theorem findFirstNotOf_append {set p : Text} (hp : ∀ c ∈ p, c ∈ set) {c : Char} (hc : c ∉ set)
    (r : Text) : findFirstNotOf set (p ++ c :: r) = some p.length := by
  induction p with
  | nil => rw [List.nil_append, findFirstNotOf, if_neg hc, List.length_nil]
  | cons a p ih =>
    obtain ⟨ha, hp⟩ := List.forall_mem_cons.mp hp
    rw [List.cons_append, findFirstNotOf, if_pos ha, ih hp, Option.map_some, List.length_cons]

theorem findLastNotOf_eq_none {set t : Text} (h : ∀ c ∈ t, c ∈ set) :
    findLastNotOf set t = none := by
  induction t with
  | nil => rfl
  | cons c cs ih =>
    obtain ⟨hc, hcs⟩ := List.forall_mem_cons.mp h
    simp only [findLastNotOf, ih hcs, if_pos hc]

theorem findLastNotOf_append {set : Text} (r : Text) {c : Char} (hc : c ∉ set) {q : Text}
    (hq : ∀ c ∈ q, c ∈ set) : findLastNotOf set (r ++ c :: q) = some r.length := by
  induction r with
  | nil => simp only [List.nil_append, findLastNotOf, findLastNotOf_eq_none hq, if_neg hc,
      List.length_nil]
  | cons a r ih => simp only [List.cons_append, findLastNotOf, ih, List.length_cons]

def substr (t : Text) (pos count : ℕ) : Text := (t.drop pos).take count

/-- `strrchr`: the part of the text that starts at the last `c`. -/
def strrchr (c : Char) : Text → Option Text
  | [] => none
  | a :: s =>
    match strrchr c s with
    | some r => some r
    | none => if a = c then some (a :: s) else none

theorem strrchr_eq_none_iff {c : Char} {s : Text} : strrchr c s = none ↔ c ∉ s := by
  induction s with
  | nil => simp [strrchr]
  | cons a s ih =>
    rw [strrchr]
    cases h : strrchr c s with
    | none =>
      rw [h] at ih
      have hs := ih.mp rfl
      by_cases ha : a = c
      · simp [ha]
      · simp [ha, hs, Ne.symm ha]
    | some r =>
      rw [h] at ih
      simpa using fun _ => by simpa using ih

theorem strrchr_append {c : Char} (x : Text) {r : Text} (hr : c ∉ r) :
    strrchr c (x ++ c :: r) = some (c :: r) := by
  induction x with
  | nil => simp [strrchr, strrchr_eq_none_iff.mpr hr]
  | cons a x ih => rw [List.cons_append, strrchr, ih]

theorem strrchr_eq_some_iff {c : Char} {s r : Text} :
    strrchr c s = some r ↔ ∃ x y, s = x ++ c :: y ∧ c ∉ y ∧ r = c :: y := by
  apply Iff.intro
  · intro h
    induction s with
    | nil => cases h
    | cons a s ih =>
      rw [strrchr] at h
      cases hs : strrchr c s with
      | some rest =>
        rw [hs] at h
        obtain rfl := Option.some.inj h
        obtain ⟨x, y, rfl, hy, rfl⟩ := ih hs
        exact ⟨a :: x, y, rfl, hy, rfl⟩
      | none =>
        rw [hs] at h
        dsimp only at h
        split_ifs at h with ha
        obtain rfl := Option.some.inj h
        exact ⟨[], s, by rw [ha, List.nil_append], strrchr_eq_none_iff.mp hs, by rw [ha]⟩
  · intro hx
    obtain ⟨x, y, rfl, hy, rfl⟩ := hx
    exact strrchr_append x hy

def Stops (p : Char → Bool) (rest : Text) : Prop := ∀ c ∈ rest.head?, p c = false

theorem Stops.takeWhile {p : Char → Bool} {rest : Text} (h : Stops p rest) :
    rest.takeWhile p = [] := by
  cases rest with
  | nil => rfl
  | cons c cs => simp [h c rfl]

theorem Stops.dropWhile {p : Char → Bool} {rest : Text} (h : Stops p rest) :
    rest.dropWhile p = rest := by
  cases rest with
  | nil => rfl
  | cons c cs => simp [h c rfl]

theorem Stops.takeWhile_append {p : Char → Bool} {w rest : Text} (h : Stops p rest)
    (hw : ∀ c ∈ w, p c = true) : (w ++ rest).takeWhile p = w := by
  rw [List.takeWhile_append_of_pos hw, h.takeWhile, List.append_nil]

theorem Stops.dropWhile_append {p : Char → Bool} {w rest : Text} (h : Stops p rest)
    (hw : ∀ c ∈ w, p c = true) : (w ++ rest).dropWhile p = rest := by
  rw [List.dropWhile_append_of_pos hw, h.dropWhile]

theorem stops_dropWhile (p : Char → Bool) (t : Text) : Stops p (t.dropWhile p) := by
  intro c hc
  have h := List.head?_dropWhile_not p t
  rw [hc] at h
  exact h

theorem dropWhile_congr {p q : Char → Bool} {t : Text} (h : ∀ c ∈ t, p c = q c) :
    t.dropWhile p = t.dropWhile q := by
  induction t with
  | nil => rfl
  | cons c t ih =>
    obtain ⟨hc, ht⟩ := List.forall_mem_cons.mp h
    rw [List.dropWhile_cons, List.dropWhile_cons, hc, ih ht]

theorem length_flatMap_le {α : Type*} {f : α → Text} {k : ℕ} {l : List α}
    (h : ∀ a ∈ l, (f a).length ≤ k) : (l.flatMap f).length ≤ l.length * k := by
  induction l with
  | nil => simp
  | cons a l ih =>
    obtain ⟨ha, hl⟩ := List.forall_mem_cons.mp h
    rw [List.flatMap_cons, List.length_append, List.length_cons, Nat.succ_mul, Nat.add_comm]
    exact Nat.add_le_add (ih hl) ha

def isSpace (c : Char) : Bool :=
  c == ' ' || c == '\t' || c == '\n' || c == '\x0b' || c == '\x0c' || c == '\r'

theorem isSpace_of_isDigit {c : Char} (h : c.isDigit = true) : isSpace c = false := by
  by_contra hs
  simp only [isSpace, Bool.not_eq_false, Bool.or_eq_true, beq_iff_eq] at hs
  rcases hs with ((((rfl | rfl) | rfl) | rfl) | rfl) | rfl <;> simp [Char.isDigit] at h

end TextLines
