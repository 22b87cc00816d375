import SystemStats.TextLines

/-!
# Extended regular expressions with anchors

`Matches r u w v` says that `r` matches the word `w` where `u` stands before
it and `v` after it, so that `^` and `$` can look at both ends of the subject.
`regexMatch` is the executable whole-subject match of `std::regex_match`; it
collects what is left of the subject after each possible match of a prefix.
-/

namespace PosixRegex
open TextLines (Text)

inductive Regex
  | empty
  | eps
  | bol
  | eol
  | any
  | char (c : Char)
  | seq (r s : Regex)
  | alt (r s : Regex)
  | star (r : Regex)
  deriving DecidableEq, Repr

def Regex.opt (r : Regex) : Regex := .alt r .eps
def Regex.plus (r : Regex) : Regex := .seq r (.star r)

inductive Matches : Regex → Text → Text → Text → Prop
  | eps (u v : Text) : Matches .eps u [] v
  | bol (v : Text) : Matches .bol [] [] v
  | eol (u : Text) : Matches .eol u [] []
  | any (u v : Text) {c : Char} : c ≠ '\x00' → Matches .any u [c] v
  | char (c : Char) (u v : Text) : Matches (.char c) u [c] v
  | seq {r s : Regex} {u w w' v : Text} : Matches r u w (w' ++ v) →
      Matches s (u ++ w) w' v → Matches (.seq r s) u (w ++ w') v
  | altLeft {r : Regex} (s : Regex) {u w v : Text} : Matches r u w v → Matches (.alt r s) u w v
  | altRight (r : Regex) {s : Regex} {u w v : Text} : Matches s u w v → Matches (.alt r s) u w v
  | starNil (r : Regex) (u v : Text) : Matches (.star r) u [] v
  | starCons {r : Regex} {u w w' v : Text} : w ≠ [] → Matches r u w (w' ++ v) →
      Matches (.star r) (u ++ w) w' v → Matches (.star r) u (w ++ w') v

@[simp] theorem matches_eps_iff {u w v : Text} : Matches .eps u w v ↔ w = [] := by
  apply Iff.intro
  · intro hx
    cases hx
    rfl
  · intro hx
    subst hx
    exact .eps u v

@[simp] theorem matches_bol_iff {u w v : Text} : Matches .bol u w v ↔ u = [] ∧ w = [] := by
  apply Iff.intro
  · intro hx
    cases hx
    exact ⟨rfl, rfl⟩
  · intro hx
    obtain ⟨rfl, rfl⟩ := hx
    exact .bol v

@[simp] theorem matches_eol_iff {u w v : Text} : Matches .eol u w v ↔ v = [] ∧ w = [] := by
  apply Iff.intro
  · intro hx
    cases hx
    exact ⟨rfl, rfl⟩
  · intro hx
    obtain ⟨rfl, rfl⟩ := hx
    exact .eol u

@[simp] theorem matches_char_iff {c : Char} {u w v : Text} :
    Matches (.char c) u w v ↔ w = [c] := by
  apply Iff.intro
  · intro hx
    cases hx
    rfl
  · intro hx
    subst hx
    exact .char c u v

theorem matches_any_iff {u w v : Text} : Matches .any u w v ↔ ∃ c, c ≠ '\x00' ∧ w = [c] := by
  apply Iff.intro
  · intro hx
    cases hx
    exact ⟨_, ‹_›, rfl⟩
  · intro hx
    obtain ⟨c, hc, rfl⟩ := hx
    exact .any u v hc

theorem matches_seq_iff {r s : Regex} {u x v : Text} : Matches (.seq r s) u x v ↔
    ∃ w w', x = w ++ w' ∧ Matches r u w (w' ++ v) ∧ Matches s (u ++ w) w' v := by
  apply Iff.intro
  · intro hx
    cases hx
    exact ⟨_, _, rfl, ‹_›, ‹_›⟩
  · intro hx
    obtain ⟨w, w', rfl, hw, hw'⟩ := hx
    exact .seq hw hw'

theorem matches_alt_iff {r s : Regex} {u w v : Text} :
    Matches (.alt r s) u w v ↔ Matches r u w v ∨ Matches s u w v := by
  apply Iff.intro
  · intro hx
    cases hx
    · exact Or.inl ‹_›
    · exact Or.inr ‹_›
  · intro hx
    rcases hx with h | h
    · exact .altLeft s h
    · exact .altRight r h

theorem not_matches_empty {u w v : Text} : ¬ Matches .empty u w v := by
  intro hx
  cases hx

@[simp] theorem matches_seq_eps_iff {r : Regex} {u w v : Text} :
    Matches (.seq r .eps) u w v ↔ Matches r u w v := by
  rw [matches_seq_iff]
  apply Iff.intro
  · intro hx
    obtain ⟨x, y, rfl, hx, hy⟩ := hx
    obtain rfl := matches_eps_iff.mp hy
    simpa using hx
  · intro h
    exact ⟨w, [], by simp, by simpa using h, .eps _ v⟩

theorem matches_bol_seq_iff {r : Regex} {w v : Text} :
    Matches (.seq .bol r) [] w v ↔ Matches r [] w v := by
  rw [matches_seq_iff]
  apply Iff.intro
  · intro hx
    obtain ⟨x, y, rfl, hx, hy⟩ := hx
    obtain ⟨-, rfl⟩ := matches_bol_iff.mp hx
    simpa using hy
  · intro h
    exact ⟨[], w, rfl, .bol _, by simpa using h⟩

def iterate (f : Text → List Text) : ℕ → Text → List Text
  | 0, t => [t]
  | k + 1, t => t :: ((f t).filter (fun u => u.length < t.length)).flatMap (iterate f k)

/-- What is left of `t` after a match at its start, in a subject of length `n`. -/
def rests (n : ℕ) : Regex → Text → List Text
  | .empty, _ => []
  | .eps, t => [t]
  | .bol, t => if t.length = n then [t] else []
  | .eol, t => if t = [] then [t] else []
  | .any, [] => []
  | .any, c :: t => if c = '\x00' then [] else [t]
  | .char _, [] => []
  | .char d, c :: t => if c = d then [t] else []
  | .seq r s, t => (rests n r t).flatMap (rests n s)
  | .alt r s, t => rests n r t ++ rests n s t
  | .star r, t => iterate (rests n r) t.length t

def regexMatch (r : Regex) (t : Text) : Bool := (rests t.length r t).contains []

def Lists (n : ℕ) (r : Regex) (f : Text → List Text) : Prop :=
  ∀ u t v, n = u.length + t.length → (v ∈ f t ↔ ∃ w, t = w ++ v ∧ Matches r u w v)

theorem star_of_mem_iterate {n : ℕ} {r : Regex} {f : Text → List Text} (hf : Lists n r f)
    {k : ℕ} {u t v : Text} (hn : n = u.length + t.length) (hv : v ∈ iterate f k t) :
    ∃ w, t = w ++ v ∧ Matches (.star r) u w v := by
  induction k generalizing u t with
  | zero =>
    rw [iterate, List.mem_singleton] at hv
    exact ⟨[], by simp [hv], .starNil r u v⟩
  | succ k ih =>
    rw [iterate, List.mem_cons, List.mem_flatMap] at hv
    rcases hv with rfl | ⟨t', ht', hv⟩
    · exact ⟨[], rfl, .starNil r u v⟩
    · rw [List.mem_filter] at ht'
      obtain ⟨w, rfl, hw⟩ := (hf u t t' hn).mp ht'.1
      have hne : w ≠ [] := by
        intro hx
        subst hx
        simp at ht'
      obtain ⟨w', rfl, hw'⟩ := ih (u := u ++ w) (by simp [hn, Nat.add_assoc]) hv
      exact ⟨w ++ w', by simp, .starCons hne hw hw'⟩

theorem mem_iterate_of_star {n : ℕ} {r : Regex} {f : Text → List Text} (hf : Lists n r f)
    {k : ℕ} {u w v : Text} (hn : n = u.length + (w ++ v).length) (hk : (w ++ v).length ≤ k)
    (h : Matches (.star r) u w v) : v ∈ iterate f k (w ++ v) := by
  induction k generalizing u w with
  | zero =>
    have hnil : w ++ v = [] := List.eq_nil_of_length_eq_zero (Nat.le_zero.mp hk)
    obtain ⟨rfl, rfl⟩ := List.append_eq_nil_iff.mp hnil
    exact List.mem_singleton.mpr rfl
  | succ k ih =>
    rw [iterate, List.mem_cons, List.mem_flatMap]
    cases h with
    | starNil => exact Or.inl rfl
    | @starCons _ _ a b _ hne ha hb =>
      have hpos := List.length_pos_of_ne_nil hne
      simp only [List.append_assoc, List.length_append] at hn hk ⊢
      refine Or.inr ⟨b ++ v, ?_, ?_⟩
      · have hmem : b ++ v ∈ f (a ++ (b ++ v)) :=
          (hf u _ _ (by simp [hn])).mpr ⟨a, rfl, ha⟩
        refine List.mem_filter.mpr ⟨hmem, ?_⟩
        simp only [List.length_append, decide_eq_true_eq]
        omega
      · exact ih (by simp only [List.length_append]; omega)
          (by simp only [List.length_append]; omega) hb

section Rests

variable {n : ℕ}

theorem lists_eps : Lists n .eps (rests n .eps) := by
  intro u t v _
  rw [rests, List.mem_singleton]
  simp [eq_comm]

theorem lists_bol : Lists n .bol (rests n .bol) := by
  intro u t v hn
  have hstart : t.length = n ↔ u = [] := by
    rw [← List.length_eq_zero_iff]
    omega
  simp only [rests, hstart, matches_bol_iff]
  by_cases hu : u = []
  · simp [hu, eq_comm]
  · simp [hu]

theorem lists_eol : Lists n .eol (rests n .eol) := by
  intro u t v _
  simp only [rests, matches_eol_iff]
  by_cases ht : t = []
  · simp [ht]
  · rw [if_neg ht]
    apply Iff.intro
    · exact fun h => absurd h List.not_mem_nil
    · intro hx
      obtain ⟨w, hw, rfl, rfl⟩ := hx
      exact absurd hw ht

theorem lists_any : Lists n .any (rests n .any) := by
  intro u t v _
  cases t with
  | nil => simp [rests, matches_any_iff]
  | cons c t =>
    rw [rests]
    by_cases hc : c = '\x00'
    · simp [hc, matches_any_iff]
    · simp [hc, matches_any_iff, eq_comm]

theorem lists_char (d : Char) : Lists n (.char d) (rests n (.char d)) := by
  intro u t v _
  cases t with
  | nil => simp [rests]
  | cons c t =>
    rw [rests]
    by_cases hc : c = d
    · simp [hc, eq_comm]
    · simp [hc]

theorem Lists.seq {r s : Regex} (hr : Lists n r (rests n r)) (hs : Lists n s (rests n s)) :
    Lists n (.seq r s) (rests n (.seq r s)) := by
  intro u t v hn
  rw [rests, List.mem_flatMap]
  apply Iff.intro
  · intro hx
    obtain ⟨t', ht', hv⟩ := hx
    obtain ⟨w, rfl, hw⟩ := (hr u t t' hn).mp ht'
    obtain ⟨w', rfl, hw'⟩ := (hs (u ++ w) t' v (by simp [hn, Nat.add_assoc])).mp hv
    exact ⟨w ++ w', by simp, .seq hw hw'⟩
  · intro hx
    obtain ⟨x, rfl, h⟩ := hx
    obtain ⟨w, w', rfl, hw, hw'⟩ := matches_seq_iff.mp h
    refine ⟨w' ++ v, (hr u _ _ hn).mpr ⟨w, by simp, hw⟩, ?_⟩
    exact (hs (u ++ w) _ _ (by simp [hn, Nat.add_assoc])).mpr ⟨w', rfl, hw'⟩

theorem Lists.alt {r s : Regex} (hr : Lists n r (rests n r)) (hs : Lists n s (rests n s)) :
    Lists n (.alt r s) (rests n (.alt r s)) := by
  intro u t v hn
  rw [rests, List.mem_append, hr u t v hn, hs u t v hn, ← exists_or]
  refine exists_congr fun w => ?_
  rw [matches_alt_iff, and_or_left]

theorem Lists.star {r : Regex} (hr : Lists n r (rests n r)) :
    Lists n (.star r) (rests n (.star r)) := by
  intro u t v hn
  apply Iff.intro
  · exact star_of_mem_iterate hr hn
  · intro hx
    obtain ⟨w, rfl, h⟩ := hx
    exact mem_iterate_of_star hr hn le_rfl h

end Rests

theorem lists_rests (n : ℕ) (r : Regex) : Lists n r (rests n r) := by
  induction r with
  | empty =>
    intro u t v _
    simp [rests, not_matches_empty]
  | eps => exact lists_eps
  | bol => exact lists_bol
  | eol => exact lists_eol
  | any => exact lists_any
  | char d => exact lists_char d
  | seq r s ihr ihs => exact ihr.seq ihs
  | alt r s ihr ihs => exact ihr.alt ihs
  | star r ih => exact ih.star

theorem regexMatch_iff {r : Regex} {t : Text} : regexMatch r t = true ↔ Matches r [] t [] := by
  rw [regexMatch, List.contains_iff_mem, lists_rests t.length r [] t [] (by simp)]
  simp

def chars (t : Text) (r : Regex) : Regex := t.foldr (fun c s => .seq (.char c) s) r

def alternatives (rs : List Regex) : Regex := rs.foldr .alt .empty

theorem matches_chars_iff {t : Text} {r : Regex} {u x v : Text} :
    Matches (chars t r) u x v ↔ ∃ w, x = t ++ w ∧ Matches r (u ++ t) w v := by
  induction t generalizing u x with
  | nil => simp [chars]
  | cons c t ih =>
    have hc : chars (c :: t) r = .seq (.char c) (chars t r) := rfl
    rw [hc, matches_seq_iff]
    apply Iff.intro
    · intro hx
      obtain ⟨w, w', rfl, hw, hw'⟩ := hx
      obtain ⟨y, rfl, hy⟩ := ih.mp hw'
      rw [matches_char_iff] at hw
      subst hw
      exact ⟨y, by simp, by simpa using hy⟩
    · intro hx
      obtain ⟨w, rfl, hw⟩ := hx
      exact ⟨[c], t ++ w, by simp, .char c _ _, ih.mpr ⟨w, rfl, by simpa using hw⟩⟩

theorem matches_alternatives_iff {rs : List Regex} {u w v : Text} :
    Matches (alternatives rs) u w v ↔ ∃ r ∈ rs, Matches r u w v := by
  induction rs with
  | nil => simp [alternatives, not_matches_empty]
  | cons r rs ih =>
    have hc : alternatives (r :: rs) = .alt r (alternatives rs) := rfl
    rw [hc, matches_alt_iff, ih]
    simp

theorem matches_star_any_iff {u w v : Text} : Matches (.star .any) u w v ↔ '\x00' ∉ w := by
  induction w generalizing u with
  | nil => simpa using Matches.starNil .any u v
  | cons c w ih =>
    rw [List.mem_cons, not_or]
    apply Iff.intro
    · intro h
      generalize hx : c :: w = x at h
      cases h with
      | starNil => cases hx
      | starCons _ ha hb =>
        obtain ⟨d, hd, rfl⟩ := matches_any_iff.mp ha
        obtain ⟨rfl, rfl⟩ := List.cons.inj hx
        exact ⟨Ne.symm hd, ih.mp hb⟩
    · intro hx
      obtain ⟨hc, hw⟩ := hx
      exact Matches.starCons (List.cons_ne_nil c []) (.any u _ (Ne.symm hc)) (ih.mpr hw)

theorem matches_plus_any_iff {u w v : Text} :
    Matches Regex.any.plus u w v ↔ w ≠ [] ∧ '\x00' ∉ w := by
  rw [Regex.plus, matches_seq_iff]
  apply Iff.intro
  · intro hx
    obtain ⟨a, b, rfl, ha, hb⟩ := hx
    obtain ⟨c, hc, rfl⟩ := matches_any_iff.mp ha
    exact ⟨by simp, by simpa [Ne.symm hc] using matches_star_any_iff.mp hb⟩
  · intro hx
    obtain ⟨hne, hw⟩ := hx
    obtain ⟨c, w, rfl⟩ := List.exists_cons_of_ne_nil hne
    obtain ⟨hc, hw⟩ := not_or.mp (List.mem_cons.not.mp hw)
    exact ⟨[c], w, rfl, .any u _ (Ne.symm hc), matches_star_any_iff.mpr hw⟩

end PosixRegex
