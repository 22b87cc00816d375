import SystemStats.DecimalText
import Mathlib.Data.List.TakeWhile

/-!
# Formatted input of the C and C++ libraries

`extractWord` and `extractUInt64` are `operator>>` of `std::istream`, `fgets`
reads one bounded line, and `sscanf` runs a parsed format over a text. Each
returns what it stores together with its success: a failed stream extraction
leaves no rest, and `sscanf` returns the conversions made before the first
one that fails.
-/

namespace FormattedInput
open TextLines DecimalText

def extractWord (s : Text) : Option (Text × Text) :=
  let s := s.dropWhile isSpace
  let w := s.takeWhile (fun c => !isSpace c)
  if w = [] then none else some (w, s.dropWhile (fun c => !isSpace c))

/-- The stored value and the rest of the stream, `none` when `failbit` is set.
A stream that ends before any character leaves `old` in place. -/
def extractUInt64 (old : UInt64) (s : Text) : UInt64 × Option Text :=
  let s := s.dropWhile isSpace
  if s = [] then (old, none)
  else match readInteger s with
    | none => (0, none)
    | some (negative, n, rest) =>
      if n < 2 ^ 64 then (if negative then -UInt64.ofNat n else UInt64.ofNat n, some rest)
      else (UInt64.ofNat (2 ^ 64 - 1), none)

theorem extractWord_append {w rest : Text} (hne : w ≠ []) (hw : ∀ c ∈ w, isSpace c = false)
    (hr : Stops (fun c => !isSpace c) rest) : extractWord (w ++ rest) = some (w, rest) := by
  have hw' : ∀ c ∈ w, (!isSpace c) = true := fun c hc => by simp [hw c hc]
  have hs : Stops isSpace (w ++ rest) := by
    obtain ⟨c, cs, rfl⟩ := List.exists_cons_of_ne_nil hne
    simpa [Stops] using hw c List.mem_cons_self
  simp only [extractWord]
  rw [hs.dropWhile, hr.takeWhile_append hw', hr.dropWhile_append hw', if_neg hne]

theorem dropWhile_isSpace_replicate (k : ℕ) (t : Text) :
    (List.replicate k ' ' ++ t).dropWhile isSpace = t.dropWhile isSpace := by
  rw [List.dropWhile_append_of_pos]
  intro c hc
  rw [List.eq_of_mem_replicate hc]
  rfl

theorem extractUInt64_decimal (old : UInt64) (k : ℕ) {n : ℕ} (hn : n < 2 ^ 64) {rest : Text}
    (hr : Stops Char.isDigit rest) :
    extractUInt64 old (List.replicate k ' ' ++ (decimal n ++ rest)) =
      (UInt64.ofNat n, some rest) := by
  have hs : Stops isSpace (decimal n ++ rest) := decimalInt_stops_space (n : ℤ) rest
  simp only [extractUInt64]
  rw [dropWhile_isSpace_replicate, hs.dropWhile, readInteger_decimal n hr,
    if_neg (by simp [decimal_ne_nil])]
  simp only [hn, Bool.false_eq_true, ↓reduceIte]

def lineThrough : Text → Text
  | [] => []
  | c :: cs => if c = '\n' then ['\n'] else c :: lineThrough cs

def fgets (size : ℕ) (stream : Text) : Option Text :=
  if stream = [] then none else some ((lineThrough stream).take (size - 1))

def cString (buffer : Text) : Text := buffer.takeWhile (· != '\x00')

theorem lineThrough_append {l : Text} (hl : '\n' ∉ l) (rest : Text) :
    lineThrough (l ++ '\n' :: rest) = l ++ ['\n'] := by
  induction l with
  | nil => rfl
  | cons c cs ih =>
    obtain ⟨hc, hcs⟩ := not_or.mp (List.mem_cons.not.mp hl)
    rw [List.cons_append, lineThrough, if_neg (Ne.symm hc), ih hcs, List.cons_append]

theorem prefix_of_lineThrough (t : Text) : lineThrough t <+: t := by
  induction t with
  | nil => exact List.prefix_rfl
  | cons c cs ih =>
    rw [lineThrough]
    split_ifs with hc
    · rw [hc]
      exact List.cons_prefix_cons.mpr ⟨rfl, List.nil_prefix⟩
    · exact List.cons_prefix_cons.mpr ⟨rfl, ih⟩

theorem mem_of_fgets {size : ℕ} {stream line : Text} (h : fgets size stream = some line) {c : Char}
    (hc : c ∈ line) : c ∈ stream := by
  rw [fgets] at h
  split_ifs at h
  obtain rfl := Option.some.inj h
  exact (prefix_of_lineThrough stream).mem (List.mem_of_mem_take hc)

theorem cString_of_not_mem {t : Text} (h : '\x00' ∉ t) : cString t = t := by
  have ht : ∀ c ∈ t, (c != '\x00') = true := by
    intro c hc
    have hne : c ≠ '\x00' := fun he => h (he ▸ hc)
    simpa using hne
  exact List.takeWhile_eq_self_iff.mpr ht

def int32 (v : ℤ) : Option ℤ := if -2 ^ 31 ≤ v ∧ v < 2 ^ 31 then some v else none

def InRange (v : ℤ) : Prop := -2 ^ 31 ≤ v ∧ v < 2 ^ 31

instance (v : ℤ) : Decidable (InRange v) := inferInstanceAs (Decidable (_ ∧ _))

theorem int32_eq_some_iff {v w : ℤ} : int32 v = some w ↔ InRange v ∧ v = w := by
  rw [int32]
  by_cases h : -2 ^ 31 ≤ v ∧ v < 2 ^ 31
  · rw [if_pos h, Option.some_inj, InRange, and_iff_right h]
  · rw [if_neg h]
    exact ⟨fun h' => (by cases h'), fun h' => absurd h'.1 h⟩

theorem int32_succ_of_nonneg {v : ℤ} (h : 0 ≤ v) :
    int32 (v + 1) = if v + 1 < 2 ^ 31 then some (v + 1) else none := by
  rw [int32]
  exact if_congr ⟨And.right, fun hlt => ⟨by omega, hlt⟩⟩ rfl rfl

inductive NumberKind
  | int
  | long
  | ulong
  deriving DecidableEq, Repr

inductive Directive
  | space
  | char
  | number (kind : NumberKind)
  deriving DecidableEq, Repr

def parseFormat : Text → Option (List Directive)
  | [] => some []
  | ' ' :: t => (parseFormat t).map (.space :: ·)
  | '%' :: 'c' :: t => (parseFormat t).map (.char :: ·)
  | '%' :: 'd' :: t => (parseFormat t).map (.number .int :: ·)
  | '%' :: 'l' :: 'd' :: t => (parseFormat t).map (.number .long :: ·)
  | '%' :: 'l' :: 'u' :: t => (parseFormat t).map (.number .ulong :: ·)
  | _ => none

inductive Conversion
  | char (c : Char)
  | number (v : ℤ)
  deriving DecidableEq, Repr

def clampLong (v : ℤ) : ℤ := max (-2 ^ 63) (min v (2 ^ 63 - 1))

/-- The stored number. Out of range, `strtol` and `strtoul` saturate, and `%d`
keeps the low half of what `strtol` returns. -/
def NumberKind.convert (negative : Bool) (n : ℕ) : NumberKind → ℤ
  | .int => (clampLong (if negative then -n else n)).bmod (2 ^ 32)
  | .long => clampLong (if negative then -n else n)
  | .ulong =>
    if n < 2 ^ 64 then (if negative then (2 ^ 64 - n) % 2 ^ 64 else n) else 2 ^ 64 - 1

def sscanf : List Directive → Text → List Conversion
  | [], _ => []
  | .space :: ds, s => sscanf ds (s.dropWhile isSpace)
  | .char :: _, [] => []
  | .char :: ds, c :: s => .char c :: sscanf ds s
  | .number kind :: ds, s =>
    match readInteger (s.dropWhile isSpace) with
    | none => []
    | some (negative, n, rest) => .number (kind.convert negative n) :: sscanf ds rest

theorem sscanf_numbers (fields : List (NumberKind × ℤ)) {rest : Text}
    (hr : Stops Char.isDigit rest) (ds : List Directive) :
    sscanf (fields.flatMap (fun f => [.space, .number f.1]) ++ ds)
        (fields.flatMap (fun f => ' ' :: decimalInt f.2) ++ rest) =
      fields.map (fun f => .number (f.1.convert (decide (f.2 < 0)) f.2.natAbs)) ++
        sscanf ds rest := by
  induction fields with
  | nil => rfl
  | cons f fields ih =>
    set text := fields.flatMap (fun f => ' ' :: decimalInt f.2) ++ rest with htext
    have hstop : Stops Char.isDigit text := by
      cases fields with
      | nil => simpa [htext] using hr
      | cons g gs => simp [htext, Stops]
    have hspace := decimalInt_stops_space f.2 text
    have hblank : (' ' :: (decimalInt f.2 ++ text)).dropWhile isSpace = decimalInt f.2 ++ text := by
      rw [List.dropWhile_cons_of_pos (by rfl), hspace.dropWhile]
    simp only [List.flatMap_cons, List.cons_append, List.append_assoc, List.nil_append,
      List.map_cons, sscanf]
    rw [← htext, hblank, hspace.dropWhile, readInteger_decimalInt f.2 hstop, ← ih]

end FormattedInput
