import SystemStats.StringUtils
import Mathlib.Data.List.DropRight

/-!
# Trimming and unquoting

A text is blank outside and trimmed inside in exactly one way, and `trimString`
finds the inner part: the two searches meet in order, so the computed length
does not go below zero. `removeQuotes` then takes one pair of quotes off.
-/

namespace SystemStats.Trimming
open TextLines StringUtils

def Blank (p : Text) : Prop := ∀ c ∈ p, c ∈ whitespace

structure Trimmed (t : Text) : Prop where
  head : ∀ c ∈ t.head?, c ∉ whitespace
  last : ∀ c ∈ t.getLast?, c ∉ whitespace

def TrimsTo (s t : Text) : Prop := ∃ p q, s = p ++ t ++ q ∧ Blank p ∧ Blank q ∧ Trimmed t

def Delimited (t : Text) : Prop := ∃ x, t = '"' :: (x ++ ['"'])

theorem Blank.append {p q : Text} (hp : Blank p) (hq : Blank q) : Blank (p ++ q) := by
  intro c hc
  rcases List.mem_append.mp hc with h | h
  · exact hp c h
  · exact hq c h

theorem trimmed_quoted (x : Text) : Trimmed ('"' :: (x ++ ['"'])) := by
  have hquote : '"' ∉ whitespace := by decide
  refine ⟨fun c hc => ?_, fun c hc => ?_⟩
  · obtain rfl : '"' = c := by simpa using hc
    exact hquote
  · rw [← List.cons_append, List.getLast?_append] at hc
    obtain rfl : '"' = c := by simpa using hc
    exact hquote

theorem trimString_blank {s : Text} (hs : Blank s) : trimString s = [] := by
  rw [trimString, findFirstNotOf_eq_none hs]

theorem trimString_bounds {p t q : Text} (hp : Blank p) (hq : Blank q) (ht : Trimmed t)
    (hne : t ≠ []) :
    findFirstNotOf whitespace (p ++ t ++ q) = some p.length ∧
      findLastNotOf whitespace (p ++ t ++ q) = some (p.length + (t.length - 1)) := by
  constructor
  · obtain ⟨a, t', rfl⟩ := List.exists_cons_of_ne_nil hne
    rw [List.append_assoc, List.cons_append]
    exact findFirstNotOf_append hp (ht.head a rfl) _
  · have hsplit := List.dropLast_append_getLast hne
    have hlast := ht.last (t.getLast hne) (List.getLast?_eq_some_getLast hne)
    have hfind := findLastNotOf_append (p ++ t.dropLast) hlast hq
    rw [List.length_append, List.length_dropLast] at hfind
    have hall : p ++ t ++ q = p ++ t.dropLast ++ t.getLast hne :: q := by
      conv_lhs => rw [← hsplit]
      simp only [List.append_assoc, List.singleton_append]
    rw [hall, hfind]

theorem trimString_eq {p t q : Text} (hp : Blank p) (hq : Blank q) (ht : Trimmed t) :
    trimString (p ++ t ++ q) = t := by
  by_cases hne : t = []
  · subst hne
    rw [List.append_nil]
    exact trimString_blank (hp.append hq)
  · obtain ⟨hfirst, hlast⟩ := trimString_bounds hp hq ht hne
    have hpos : 0 < t.length := List.length_pos_of_ne_nil hne
    have hlength : p.length + (t.length - 1) - p.length + 1 = t.length := by omega
    simp only [trimString, hfirst, hlast, hlength, substr]
    rw [List.append_assoc, List.drop_left, List.take_left]

theorem exists_trimsTo (s : Text) : ∃ t, TrimsTo s t := by
  set r := s.dropWhile (· ∈ whitespace) with hr
  set t := r.rdropWhile (· ∈ whitespace) with ht
  refine ⟨t, s.takeWhile (· ∈ whitespace), r.rtakeWhile (· ∈ whitespace), ?_, ?_, ?_, ?_, ?_⟩
  · rw [List.append_assoc, List.rdropWhile_append_rtakeWhile, List.takeWhile_append_dropWhile]
  · exact fun c hc => by simpa using List.mem_takeWhile_imp hc
  · exact fun c hc => by simpa using List.mem_rtakeWhile_imp hc
  · intro c hc
    obtain ⟨u, hu⟩ : t <+: r := List.rdropWhile_prefix _ r
    have hhead : r.head? = some c := by rw [← hu, List.head?_append, hc, Option.some_or]
    have hstop := List.head?_dropWhile_not (fun c => decide (c ∈ whitespace)) s
    rw [← hr, hhead] at hstop
    simpa using hstop
  · intro c hc
    have hne : t ≠ [] := by
      intro hnil
      rw [hnil] at hc
      cases hc
    rw [List.getLast?_eq_some_getLast hne, Option.mem_some_iff] at hc
    subst hc
    simpa using List.rdropWhile_last_not (fun c => decide (c ∈ whitespace)) r hne

theorem trimsTo_iff {s t : Text} : TrimsTo s t ↔ t = trimString s := by
  have hunique : ∀ {t}, TrimsTo s t → t = trimString s := by
    intro t hx
    obtain ⟨p, q, rfl, hp, hq, ht⟩ := hx
    exact (trimString_eq hp hq ht).symm
  refine ⟨hunique, fun h => ?_⟩
  obtain ⟨t', ht'⟩ := exists_trimsTo s
  rwa [h, ← hunique ht']

theorem trimsTo_trimString (s : Text) : TrimsTo s (trimString s) := trimsTo_iff.mpr rfl

theorem trimString_trimmed (s : Text) : Trimmed (trimString s) := by
  obtain ⟨p, q, -, -, -, ht⟩ := trimsTo_trimString s
  exact ht

theorem trimString_of_trimmed {t : Text} (ht : Trimmed t) : trimString t = t := by
  have hnil : Blank [] := nofun
  simpa using trimString_eq hnil hnil ht

theorem trimString_append {p q : Text} (hp : Blank p) (hq : Blank q) (s : Text) :
    trimString (p ++ s ++ q) = trimString s := by
  obtain ⟨p', q', hs, hp', hq', ht⟩ := trimsTo_trimString s
  have hsplit : p ++ s ++ q = (p ++ p') ++ trimString s ++ (q' ++ q) := by
    conv_lhs => rw [hs]
    simp only [List.append_assoc]
  rw [hsplit, trimString_eq (hp.append hp') (hq'.append hq) ht]

theorem delimited_iff {t : Text} :
    t.length ≥ 2 ∧ t.head? = some '"' ∧ t.getLast? = some '"' ↔ Delimited t := by
  apply Iff.intro
  · intro hx
    obtain ⟨hlength, hhead, hlast⟩ := hx
    obtain ⟨r, rfl⟩ := List.head?_eq_some_iff.mp hhead
    have hne : r ≠ [] := by
      intro hnil
      subst hnil
      exact absurd hlength (by decide)
    rw [List.getLast?_cons, List.getLast?_eq_some_getLast hne, Option.getD_some,
      Option.some_inj] at hlast
    refine ⟨r.dropLast, ?_⟩
    rw [← hlast, List.dropLast_append_getLast]
  · intro hx
    obtain ⟨x, rfl⟩ := hx
    refine ⟨?_, rfl, ?_⟩
    · simp
    · rw [← List.cons_append, List.getLast?_append]
      rfl

theorem removeQuotes_of_quoted {s x : Text} (h : trimString s = '"' :: (x ++ ['"'])) :
    removeQuotes s = x := by
  have hdelimited := delimited_iff.mpr ⟨x, h⟩
  have hlength : ('"' :: (x ++ ['"'])).length - 2 = x.length := by simp
  rw [removeQuotes, if_pos hdelimited, h, hlength, substr, List.drop_succ_cons, List.drop_zero,
    List.take_left]

theorem removeQuotes_of_not_delimited {s : Text} (h : ¬ Delimited (trimString s)) :
    removeQuotes s = trimString s := by
  rw [removeQuotes, if_neg (delimited_iff.not.mpr h)]

theorem removeQuotes_trimString (s : Text) : removeQuotes (trimString s) = removeQuotes s := by
  rw [removeQuotes, trimString_of_trimmed (trimString_trimmed s), removeQuotes]

theorem trim_unquote :
    (∀ s t : Text, TrimsTo s t ↔ t = trimString s) ∧
    (∀ s : Text, trimString (trimString s) = trimString s) ∧
    (∀ p s q : Text, Blank p → Blank q → trimString (p ++ s ++ q) = trimString s) ∧
    (∀ p x q : Text, Blank p → Blank q → removeQuotes (p ++ '"' :: (x ++ ['"']) ++ q) = x) ∧
    (∀ s : Text, ¬ Delimited (trimString s) → removeQuotes s = trimString s) ∧
    ∀ s : Text, removeQuotes (trimString s) = removeQuotes s := by
  refine ⟨fun s t => trimsTo_iff, fun s => trimString_of_trimmed (trimString_trimmed s),
    fun p s q hp hq => trimString_append hp hq s, fun p x q hp hq => ?_,
    fun s => removeQuotes_of_not_delimited, removeQuotes_trimString⟩
  exact removeQuotes_of_quoted (trimString_eq hp hq (trimmed_quoted x))

end SystemStats.Trimming
