import SystemStats.NulCursor
import SystemStats.ProcessScan

/-!
# The grammar of a stat line

`parseStatAt` is the parser with its cursor as an index into the line buffer. It
never steps past the terminator and agrees with `parseStat`. It accepts exactly
the lines of one grammar, and what an accepted line adds is a function of the
part behind the last parenthesis.
-/

namespace SystemStats.StatLine
open TextLines DecimalText FormattedInput NulCursor OsInfo

def pidChar (c : Char) : Bool := c != '\x00' && !isBlank c

def parseCommAt (lineBuf : Text) (line : ℕ) : Option (Option (Char × ℤ)) := do
  match ← lastIndexOf ')' lineBuf line none with
  | none => return none
  | some commEnd =>
    let line ← skipWhile isBlank lineBuf (commEnd + 1)
    if (← charAt lineBuf line) = '\x00' then return none
    else return scanFields (← textAt lineBuf line)

/-- `none` when the cursor reads behind the terminator, `some none` when the line
is skipped. -/
def parseStatAt (lineBuf : Text) : Option (Option (Char × ℤ)) := do
  let line ← skipWhile pidChar lineBuf 0
  if (← charAt lineBuf line) = '\x00' then return none
  else
    let line ← skipWhile isBlank lineBuf line
    if (← charAt lineBuf line) ≠ '(' then return none
    else parseCommAt lineBuf (line + 1)

theorem skipBlanks_append (u r : Text) :
    skipWhile isBlank (u ++ r) u.length = some (u ++ r.takeWhile isBlank).length :=
  skipWhile_append (by decide) u r

theorem split_takeWhile (p : Char → Bool) (u r : Text) :
    u ++ r = (u ++ r.takeWhile p) ++ r.dropWhile p := by
  rw [List.append_assoc, List.takeWhile_append_dropWhile]

theorem not_nul_of_dropWhile {p : Char → Bool} {r : Text} (hr : '\x00' ∉ r) {c : Char} {s : Text}
    (h : r.dropWhile p = c :: s) : c ≠ '\x00' ∧ '\x00' ∉ s := by
  have hsub : '\x00' ∉ c :: s := fun hmem => hr ((List.dropWhile_suffix p).mem (h ▸ hmem))
  obtain ⟨hc, hs⟩ := not_or.mp (List.mem_cons.not.mp hsub)
  exact ⟨Ne.symm hc, hs⟩

theorem parseFieldsAt_append {y : Text} (hy : '\x00' ∉ y) (v : Text) :
    (do
      let line ← skipWhile isBlank (v ++ y) v.length
      if (← charAt (v ++ y) line) = '\x00' then return none
      else return scanFields (← textAt (v ++ y) line)) =
    some (if y.dropWhile isBlank = [] then none else scanFields (y.dropWhile isBlank)) := by
  rw [skipBlanks_append, split_takeWhile isBlank v y]
  generalize v ++ y.takeWhile isBlank = w
  cases hrest : y.dropWhile isBlank with
  | nil =>
    rw [List.append_nil]
    simp [charAt_nil]
  | cons c s =>
    have hc := (not_nul_of_dropWhile hy hrest).1
    simp [charAt_cons, textAt_append, hc]

theorem parseCommAt_append {r : Text} (hr : '\x00' ∉ r) (u : Text) :
    parseCommAt (u ++ r) u.length = some (parseComm r) := by
  rw [parseCommAt, parseComm, lastIndexOf_append hr]
  cases hlast : strrchr ')' r with
  | none => rfl
  | some rest =>
    obtain ⟨x, y, rfl, -, rfl⟩ := strrchr_eq_some_iff.mp hlast
    have hy : '\x00' ∉ y := fun h => hr (by simp [h])
    have hsplit : u ++ (x ++ ')' :: y) = (u ++ x ++ [')']) ++ y := by simp
    have hindex : (u ++ (x ++ ')' :: y)).length - (')' :: y).length + 1 =
        (u ++ x ++ [')']).length := by
      simp only [List.length_append, List.length_cons, List.length_nil]
      omega
    have hfields := parseFieldsAt_append hy (u ++ x ++ [')'])
    rw [← hsplit, ← hindex] at hfields
    exact hfields

theorem parseOpenAt_append {r : Text} (hr : '\x00' ∉ r) (u : Text) :
    (do
      let line ← skipWhile isBlank (u ++ r) u.length
      if (← charAt (u ++ r) line) ≠ '(' then return none
      else parseCommAt (u ++ r) (line + 1)) =
    some (match r.dropWhile isBlank with
      | '(' :: line => parseComm line
      | _ => none) := by
  rw [skipBlanks_append, split_takeWhile isBlank u r]
  generalize u ++ r.takeWhile isBlank = w
  cases hrest : r.dropWhile isBlank with
  | nil =>
    rw [List.append_nil]
    simp [charAt_nil]
  | cons c s =>
    have hs := (not_nul_of_dropWhile hr hrest).2
    by_cases hopen : c = '('
    · subst hopen
      have hcomm := parseCommAt_append hs (w ++ ['('])
      rw [List.append_assoc, List.singleton_append, List.length_append, List.length_singleton]
        at hcomm
      simp [charAt_cons, hcomm]
    · simp [charAt_cons, hopen]

theorem dropWhile_pidChar {line : Text} (hnul : '\x00' ∉ line) :
    line.dropWhile pidChar = line.dropWhile (fun c => !isBlank c) := by
  refine dropWhile_congr fun c hc => ?_
  have hne : c ≠ '\x00' := fun h => hnul (h ▸ hc)
  simp [pidChar, hne]

theorem parseStatAt_eq {lineBuf : Text} (hnul : '\x00' ∉ lineBuf) :
    parseStatAt lineBuf = some (parseStat lineBuf) := by
  have hpid : skipWhile pidChar lineBuf 0 = some (lineBuf.takeWhile pidChar).length :=
    skipWhile_append (by decide) [] lineBuf
  obtain ⟨t, r, hline, ht, hr⟩ : ∃ t r, lineBuf = t ++ r ∧ lineBuf.takeWhile pidChar = t ∧
      lineBuf.dropWhile pidChar = r :=
    ⟨_, _, List.takeWhile_append_dropWhile.symm, rfl, rfl⟩
  have hstat : parseStat lineBuf = if r = [] then none else
      match r.dropWhile isBlank with
      | '(' :: line => parseComm line
      | _ => none := by
    rw [parseStat, cString_of_not_mem hnul, ← dropWhile_pidChar hnul]
    subst hr
    rfl
  have hnul' : '\x00' ∉ r := fun h => hnul (by simp [hline, h])
  have hopen := parseOpenAt_append hnul' t
  rw [hstat, parseStatAt, hpid, ht, hline]
  cases r with
  | nil =>
    rw [List.append_nil]
    simp [charAt_nil]
  | cons c s =>
    have hc : c ≠ '\x00' := fun h => hnul' (by simp [h])
    rw [if_neg (List.cons_ne_nil c s), ← hopen]
    simp [charAt_cons, hc]

def fieldKinds : List NumberKind :=
  List.replicate 5 .int ++ List.replicate 9 .ulong ++ [.long, .long, .ulong]

def fieldsOf (r : Text) : List Conversion := sscanf ((parseFormat statFormat).getD []) r

theorem parse_statFormat_eq : parseFormat statFormat =
    some (.char :: fieldKinds.flatMap (fun kind => [.space, .number kind])) := by
  rfl

theorem number_of_getElem {kinds : List NumberKind} {s : Text} {i : ℕ} {c : Conversion}
    (h : (sscanf (kinds.flatMap (fun kind => [.space, .number kind])) s)[i]? = some c) :
    ∃ v, c = .number v := by
  induction kinds generalizing s i with
  | nil => cases h
  | cons kind kinds ih =>
    simp only [List.flatMap_cons, List.cons_append, List.nil_append, sscanf] at h
    cases hread : readInteger ((s.dropWhile isSpace).dropWhile isSpace) with
    | none =>
      rw [hread] at h
      cases h
    | some result =>
      obtain ⟨negative, n, rest⟩ := result
      rw [hread] at h
      cases i with
      | zero => exact ⟨_, (Option.some.inj h).symm⟩
      | succ i => exact ih h

theorem scanFields_isSome_iff (r : Text) :
    (scanFields r).isSome = true ↔ 18 ≤ (fieldsOf r).length := by
  rw [scanFields, ← fieldsOf]
  by_cases hlength : (fieldsOf r).length < 18
  · simp [hlength]
  · have hfields : 18 ≤ (fieldsOf r).length := Nat.not_lt.mp hlength
    rw [if_neg hlength]
    simp only [hfields, iff_true]
    cases r with
    | nil => cases hfields
    | cons c s =>
      have hcons : fieldsOf (c :: s) = .char c ::
          sscanf (fieldKinds.flatMap (fun kind => [.space, .number kind])) s := by
        rw [fieldsOf, parse_statFormat_eq]
        rfl
      rw [hcons, List.length_cons] at hfields
      set tail := sscanf (fieldKinds.flatMap (fun kind => [.space, .number kind])) s with htail
      have hlast : tail[16]? = some tail[16] := List.getElem?_eq_getElem (by omega)
      obtain ⟨threads, hthreads⟩ := number_of_getElem hlast
      rw [hthreads] at hlast
      simp [hcons, hlast]

/-- `line = t w ( x ) w' r` -/
structure Parts (line t w x w' r : Text) : Prop where
  line_eq : line = t ++ (w ++ '(' :: (x ++ ')' :: (w' ++ r)))
  pid : ∀ c ∈ t, isBlank c = false
  blanks : w ≠ [] ∧ ∀ c ∈ w, isBlank c = true
  blanks_maximal : (∀ c ∈ w', isBlank c = true) ∧ Stops isBlank r
  rest : r ≠ [] ∧ ')' ∉ r
  fields : 18 ≤ (fieldsOf r).length

theorem parseStat_of_parts {line t w x w' r : Text} (hnul : '\x00' ∉ line)
    (h : Parts line t w x w' r) : parseStat line = scanFields r := by
  obtain ⟨hline, ht, ⟨hne, hw⟩, ⟨hw', hstop⟩, ⟨hr, hparen⟩, -⟩ := h
  have hpid : ∀ c ∈ t, (!isBlank c) = true := fun c hc => by rw [ht c hc, Bool.not_false]
  have hblank : Stops (fun c => !isBlank c) (w ++ '(' :: (x ++ ')' :: (w' ++ r))) := by
    obtain ⟨b, bs, rfl⟩ := List.exists_cons_of_ne_nil hne
    simpa [Stops] using hw b List.mem_cons_self
  have hopen : Stops isBlank ('(' :: (x ++ ')' :: (w' ++ r))) := by simp [Stops, isBlank]
  have hlast : ')' ∉ w' ++ r := by
    intro hmem
    rcases List.mem_append.mp hmem with hmem | hmem
    · exact absurd (hw' _ hmem) (by decide)
    · exact hparen hmem
  have hfields : parseComm (x ++ ')' :: (w' ++ r)) = scanFields r := by
    simp only [parseComm, strrchr_append x hlast, List.drop_succ_cons, List.drop_zero,
      hstop.dropWhile_append hw', if_neg hr]
  rw [parseStat, cString_of_not_mem hnul, hline, hblank.dropWhile_append hpid]
  simp only [hopen.dropWhile_append hw, hfields]
  simp

theorem parseComm_eq_some {line : Text} {result : Char × ℤ} (h : parseComm line = some result) :
    ∃ x y, line = x ++ ')' :: y ∧ ')' ∉ y ∧ y.dropWhile isBlank ≠ [] ∧
      scanFields (y.dropWhile isBlank) = some result := by
  rw [parseComm] at h
  cases hlast : strrchr ')' line with
  | none =>
    rw [hlast] at h
    cases h
  | some rest =>
    obtain ⟨x, y, rfl, hy, rfl⟩ := strrchr_eq_some_iff.mp hlast
    rw [hlast] at h
    simp only [List.drop_succ_cons, List.drop_zero] at h
    split_ifs at h with hempty
    exact ⟨x, y, rfl, hy, hempty, h⟩

theorem parts_of_parseStat {line : Text} (hnul : '\x00' ∉ line) {result : Char × ℤ}
    (h : parseStat line = some result) : ∃ t w x w' r, Parts line t w x w' r := by
  obtain ⟨t, u, hline, ht, hu⟩ : ∃ t u, line = t ++ u ∧ line.takeWhile (fun c => !isBlank c) = t ∧
      line.dropWhile (fun c => !isBlank c) = u :=
    ⟨_, _, List.takeWhile_append_dropWhile.symm, rfl, rfl⟩
  have hstop : Stops (fun c => !isBlank c) u := hu ▸ stops_dropWhile _ line
  rw [parseStat, cString_of_not_mem hnul, hu] at h
  split_ifs at h with hempty
  have hsplit : u.takeWhile isBlank ++ u.dropWhile isBlank = u := List.takeWhile_append_dropWhile
  split at h
  · rename_i s hopen
    obtain ⟨x, y, rfl, hy, hrest, hfields⟩ := parseComm_eq_some h
    have hsplit' : y.takeWhile isBlank ++ y.dropWhile isBlank = y :=
      List.takeWhile_append_dropWhile
    refine ⟨t, u.takeWhile isBlank, x, y.takeWhile isBlank, y.dropWhile isBlank, ?_, ?_, ⟨?_, ?_⟩,
      ⟨?_, stops_dropWhile _ y⟩, ⟨hrest, ?_⟩, ?_⟩
    · rw [hsplit', ← hopen, hsplit, hline]
    · intro c hc
      rw [← ht] at hc
      simpa using List.mem_takeWhile_imp hc
    · intro hnone
      obtain ⟨c, cs, rfl⟩ := List.exists_cons_of_ne_nil hempty
      have hc : isBlank c = true := by simpa using hstop c rfl
      rw [List.takeWhile_cons_of_pos hc] at hnone
      cases hnone
    · exact fun c hc => List.mem_takeWhile_imp hc
    · exact fun c hc => List.mem_takeWhile_imp hc
    · exact fun hmem => hy ((List.dropWhile_suffix isBlank).mem hmem)
    · exact (scanFields_isSome_iff _).mp (by rw [hfields, Option.isSome_some])
  · cases h

def keptLine (content : Text) : Text := (fgets 512 content).getD []

def Accepted (content : Text) : Prop :=
  ∃ result, parseStatAt (keptLine content) = some (some result)

def contribution (r : Text) (status : ProcessStatus) : ProcessStatus :=
  (scanFields r).elim status (fun (state, threads) => status.count state threads)

theorem not_nul_keptLine {content : Text} (hnul : '\x00' ∉ content) :
    '\x00' ∉ keptLine content := by
  intro hmem
  rw [keptLine] at hmem
  cases hline : fgets 512 content with
  | none => simp [hline] at hmem
  | some line =>
    rw [hline, Option.getD_some] at hmem
    exact hnul (mem_of_fgets hline hmem)

theorem accepted_iff {content : Text} (hnul : '\x00' ∉ content) :
    Accepted content ↔ ∃ result, parseStat (keptLine content) = some result := by
  rw [Accepted, parseStatAt_eq (not_nul_keptLine hnul)]
  simp only [Option.some_inj]

theorem readStat_keptLine (content : Text) (status : ProcessStatus) :
    readStat (some content) status = (parseStat (keptLine content)).elim status
      (fun (state, threads) => status.count state threads) := by
  rw [readStat, keptLine]
  cases fgets 512 content with
  | none => rfl
  | some lineBuf =>
    cases hparse : parseStat lineBuf with
    | none => simp [hparse]
    | some result => simp [hparse]

theorem stat_line_grammar {content : Text} (hnul : '\x00' ∉ content) :
    parseStatAt (keptLine content) ≠ none ∧
    (Accepted content ↔ ∃ t w x w' r, Parts (keptLine content) t w x w' r) ∧
    (∀ t w x w' r, Parts (keptLine content) t w x w' r →
      ∀ status, readStat (some content) status = contribution r status) ∧
    (¬ Accepted content → ∀ status, readStat (some content) status = status) := by
  have hkept := not_nul_keptLine hnul
  refine ⟨?_, ?_, fun t w x w' r h status => ?_, fun hno status => ?_⟩
  · rw [parseStatAt_eq hkept]
    exact Option.some_ne_none _
  · rw [accepted_iff hnul]
    apply Iff.intro
    · intro hx
      obtain ⟨result, hresult⟩ := hx
      exact parts_of_parseStat hkept hresult
    · intro hx
      obtain ⟨t, w, x, w', r, h⟩ := hx
      rw [parseStat_of_parts hkept h]
      exact Option.isSome_iff_exists.mp ((scanFields_isSome_iff r).mpr h.fields)
  · rw [readStat_keptLine, parseStat_of_parts hkept h, contribution]
  · have hnone : parseStat (keptLine content) = none :=
      Option.eq_none_iff_forall_ne_some.mpr fun result h =>
        hno ((accepted_iff hnul).mpr ⟨result, h⟩)
    rw [readStat_keptLine, hnone, Option.elim_none]

def nestedName : Text :=
  "42 (a) R 1 (b) \tS 1 42 42 0 -1 4194560 0 0 0 0 0 0 0 0 20 0 7 0\n".toList

theorem nestedName_accepted :
    Accepted nestedName ∧ ∀ status, readStat (some nestedName) status = contribution
      "S 1 42 42 0 -1 4194560 0 0 0 0 0 0 0 0 20 0 7 0\n".toList status := by
  have hnul : '\x00' ∉ nestedName := by decide +kernel
  have hparts : Parts (keptLine nestedName) ['4', '2'] [' '] "a) R 1 (b".toList [' ', '\t']
      "S 1 42 42 0 -1 4194560 0 0 0 0 0 0 0 0 20 0 7 0\n".toList := by
    refine ⟨by decide +kernel, ?_, ⟨by decide, ?_⟩, ⟨?_, ?_⟩, ⟨by decide, by decide +kernel⟩,
      by decide +kernel⟩ <;> simp [Stops, isBlank]
  obtain ⟨-, haccepted, hcontribution, -⟩ := stat_line_grammar hnul
  exact ⟨haccepted.mpr ⟨_, _, _, _, _, hparts⟩, hcontribution _ _ _ _ _ hparts⟩

end SystemStats.StatLine
