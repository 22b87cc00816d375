import SystemStats.OsInfo
import SystemStats.Trimming

/-!
# The name of the operating system

A line assigns the variable when, blanks aside, it starts with the key. The loop
takes the first line that has the key anywhere, so a line that only mentions it
and comes first decides the name.
-/

namespace SystemStats.OsName
open TextLines StringUtils OsInfo Trimming

def assignedText (line : Text) : Option Text :=
  let line := line.dropWhile (fun c => decide (c ∈ whitespace))
  if OS_NAME_PREFIX.toList.isPrefixOf line then some (line.drop OS_NAME_PREFIX.length) else none

def foundText (line : Text) : Option Text :=
  (find OS_NAME_PREFIX line).map (fun pos => line.drop (pos + OS_NAME_PREFIX.length))

def nameOf (value : Option Text) : Text := value.elim [] (fun v => removeQuotes (trimString v))

def prettyName (content : Text) : Text := nameOf ((lines content).findSome? assignedText)

def assigningLines (content : Text) : List Text :=
  (lines content).filter (fun line => (assignedText line).isSome)

def quotedLine (v : Text) : Text := OS_NAME_PREFIX.toList ++ '"' :: (v ++ ['"'])

/-- If the first line with the key does not assign the variable, the text behind
the key happens to spell the documented name. -/
def Undisturbed (content : Text) : Prop :=
  ∀ line, (lines content).find? (fun line => (foundText line).isSome) = some line →
    assignedText line = none → nameOf (foundText line) = prettyName content

/-- Inserting the line anywhere leaves the name as it is. -/
def Silent (line : Text) : Prop :=
  ∀ content content' before after, lines content = before ++ line :: after →
    lines content' = before ++ after → readOSName (some content) = readOSName (some content')

theorem foundText_of_assigned {line v : Text} (h : assignedText line = some v) :
    foundText line = some v := by
  set p := line.takeWhile (fun c => decide (c ∈ whitespace)) with hp
  set t := line.dropWhile (fun c => decide (c ∈ whitespace)) with ht
  have hline : p ++ t = line := List.takeWhile_append_dropWhile
  rw [assignedText, ← ht] at h
  split_ifs at h with hprefix
  have hblank : 'P' ∉ p := by
    intro hc
    have hmem : 'P' ∈ whitespace := by simpa using List.mem_takeWhile_imp hc
    exact absurd hmem (by decide)
  have hfind : find OS_NAME_PREFIX (p ++ t) = some p.length :=
    findText_append hblank (List.isPrefixOf_iff_prefix.mp hprefix)
  rw [hline] at hfind
  rw [foundText, hfind, Option.map_some, ← h, ← List.drop_drop, ← hline, List.drop_left]

theorem scanOSName_eq (ls : List Text) : scanOSName ls = nameOf (ls.findSome? foundText) := by
  induction ls with
  | nil => rfl
  | cons line rest ih =>
    rw [scanOSName, List.findSome?_cons]
    cases hfind : find OS_NAME_PREFIX line with
    | none => simp [foundText, hfind, ih]
    | some pos => simp [foundText, hfind, nameOf]

theorem nameOf_quoted (v : Text) : nameOf (some ('"' :: (v ++ ['"']))) = v := by
  rw [nameOf, Option.elim_some, removeQuotes_trimString]
  exact removeQuotes_of_quoted (trimString_of_trimmed (trimmed_quoted v))

theorem assignedText_quotedLine (v : Text) :
    assignedText (quotedLine v) = some ('"' :: (v ++ ['"'])) := by
  rfl

theorem nameOf_found_iff (ls : List Text) :
    nameOf (ls.findSome? foundText) = nameOf (ls.findSome? assignedText) ↔
      ∀ line, ls.find? (fun line => (foundText line).isSome) = some line →
        assignedText line = none →
        nameOf (foundText line) = nameOf (ls.findSome? assignedText) := by
  induction ls with
  | nil => simp
  | cons line rest ih =>
    rw [List.findSome?_cons, List.findSome?_cons]
    cases hfound : foundText line with
    | none =>
      have hassigned : assignedText line = none := by
        cases h : assignedText line with
        | none => rfl
        | some v => rw [foundText_of_assigned h] at hfound; cases hfound
      rw [hassigned, List.find?_cons_of_neg (by simp [hfound])]
      exact ih
    | some v =>
      rw [List.find?_cons_of_pos (by simp [hfound])]
      simp only [Option.some_inj, forall_eq', hfound]
      cases hassigned : assignedText line with
      | none => simp
      | some w =>
        rw [foundText_of_assigned hassigned] at hfound
        simp [Option.some.inj hfound]

theorem readOSName_eq_prettyName_iff (content : Text) :
    readOSName (some content) = prettyName content ↔ Undisturbed content := by
  rw [readOSName, scanOSName_eq]
  exact nameOf_found_iff (lines content)

theorem prettyName_congr {content content' : Text}
    (h : assigningLines content = assigningLines content') :
    prettyName content = prettyName content' := by
  have hfilter (ls : List Text) : (ls.filter (fun line => (assignedText line).isSome)).findSome?
      assignedText = ls.findSome? assignedText := by
    induction ls with
    | nil => rfl
    | cons line rest ih =>
      rw [List.filter_cons, List.findSome?_cons]
      cases hline : assignedText line with
      | none => simpa using ih
      | some v => simp [hline]
  rw [prettyName, prettyName, ← hfilter, ← hfilter (lines content')]
  exact congrArg (fun ls => nameOf (ls.findSome? assignedText)) h

theorem prettyName_quotedLine {content : Text} {before after : List Text} {v : Text}
    (hlines : lines content = before ++ quotedLine v :: after)
    (hbefore : ∀ line ∈ before, assignedText line = none) : prettyName content = v := by
  have hnone : before.findSome? assignedText = none := List.findSome?_eq_none_iff.mpr hbefore
  rw [prettyName, hlines, List.findSome?_append, hnone, Option.none_or, List.findSome?_cons,
    assignedText_quotedLine]
  exact nameOf_quoted v

theorem scanOSName_quotedLine (v : Text) (rest : List Text) :
    scanOSName (quotedLine v :: rest) = v := by
  have hfound := foundText_of_assigned (assignedText_quotedLine v)
  rw [scanOSName_eq, List.findSome?_cons, hfound]
  exact nameOf_quoted v

theorem scanOSName_insert {line : Text} (h : foundText line = none) (before after : List Text) :
    scanOSName (before ++ line :: after) = scanOSName (before ++ after) := by
  rw [scanOSName_eq, scanOSName_eq, List.findSome?_append, List.findSome?_append,
    List.findSome?_cons, h]

theorem silent_iff {line : Text} (hline : '\n' ∉ line) :
    Silent line ↔ foundText line = none := by
  apply Iff.intro
  · intro hsilent
    cases hfound : foundText line with
    | none => rfl
    | some u =>
      have hname (v : Text) (hv : '\n' ∉ quotedLine v) : nameOf (some u) = v := by
        have hcontent : lines (unlines [line, quotedLine v]) = [line, quotedLine v] :=
          lines_unlines (by simp [hline, hv])
        have hcontent' : lines (unlines [quotedLine v]) = [quotedLine v] :=
          lines_unlines (by simp [hv])
        have h := hsilent (unlines [line, quotedLine v]) (unlines [quotedLine v]) []
          [quotedLine v] hcontent hcontent'
        rw [readOSName, readOSName, hcontent, hcontent', scanOSName_quotedLine, scanOSName_eq,
          List.findSome?_cons, hfound] at h
        exact h
      have hdistinct := (hname ['a'] (by decide)).symm.trans (hname ['b'] (by decide))
      exact absurd hdistinct (by decide)
  · intro h content content' before after hcontent hcontent'
    rw [readOSName, readOSName, hcontent, hcontent']
    exact scanOSName_insert h before after

/-- The name is the documented one exactly when no line that only mentions the
key comes first with another text behind it; the same condition decides whether
other lines matter and whether a quoted value is returned as it is. A line that
assigns nothing never matters exactly when it does not mention the key. -/
theorem readOSName_documented_iff (content : Text) :
    (readOSName (some content) = prettyName content ↔ Undisturbed content) ∧
    (∀ content', assigningLines content = assigningLines content' → Undisturbed content →
      (readOSName (some content') = readOSName (some content) ↔ Undisturbed content')) ∧
    (∀ before v after, lines content = before ++ quotedLine v :: after →
      (∀ line ∈ before, assignedText line = none) →
      (readOSName (some content) = v ↔ Undisturbed content)) ∧
    (∀ line, '\n' ∉ line → assignedText line = none → (Silent line ↔ foundText line = none)) := by
  have hname := readOSName_eq_prettyName_iff content
  refine ⟨hname, fun content' h hclean => ?_, fun before v after hlines hbefore => ?_,
    fun line hline _ => silent_iff hline⟩
  · rw [hname.mpr hclean, prettyName_congr h]
    exact readOSName_eq_prettyName_iff content'
  · rwa [prettyName_quotedLine hlines hbefore] at hname

def commentedRelease : Text :=
  ["# PRETTY_NAME=old\n", "PRETTY_NAME=\"Debian GNU/Linux\"\n"].flatMap String.toList

theorem commentedRelease_misread :
    prettyName commentedRelease = "Debian GNU/Linux".toList ∧
      readOSName (some commentedRelease) = "old".toList := by
  decide +kernel

end SystemStats.OsName
