import Mathlib.Data.List.Basic
import Mathlib.Data.List.TakeDrop
import Mathlib.Tactic.Common

/-!
# Resumable output in bounded chunks

A table function is called again and again on one state until it returns an
empty chunk. `emit` writes the next rows of a snapshot, at most `capacity` of
them, cell by cell into the chunk it is given. A value that is not valid cannot
be built: it ends the call with an exception. `calls` is a fixed number of calls
and `drain` the calls up to the first empty chunk.
-/

namespace ChunkedScan

variable {α β : Type*}

/-- Cells by column and row, of which the first `cardinality` rows count. -/
structure Chunk (β : Type*) where
  cell : ℕ → ℕ → Option β
  cardinality : ℕ

namespace Chunk

def reset : Chunk β := ⟨fun _ _ => none, 0⟩

def setValue (out : Chunk β) (col row : ℕ) (v : β) : Chunk β :=
  { out with cell := fun c r => if c = col ∧ r = row then some v else out.cell c r }

def setFrom (row : ℕ) : ℕ → List β → Chunk β → Chunk β
  | _, [], out => out
  | col, v :: vs, out => setFrom row (col + 1) vs (out.setValue col row v)

def setRow (out : Chunk β) (row : ℕ) (vs : List β) : Chunk β := out.setFrom row 0 vs

def row (width : ℕ) (out : Chunk β) (r : ℕ) : List (Option β) :=
  (List.range width).map (fun c => out.cell c r)

def rows (width : ℕ) (out : Chunk β) : List (List (Option β)) :=
  (List.range out.cardinality).map (out.row width)

theorem setFrom_cell (r : ℕ) (vs : List β) (col : ℕ) (out : Chunk β) (c r' : ℕ) :
    (out.setFrom r col vs).cell c r' =
      if r' = r ∧ col ≤ c ∧ c < col + vs.length then vs[c - col]? else out.cell c r' := by
  induction vs generalizing col out with
  | nil =>
    have hno : ¬ (r' = r ∧ col ≤ c ∧ c < col + ([] : List β).length) := by
      simp only [List.length_nil]
      omega
    rw [setFrom, if_neg hno]
  | cons v vs ih =>
    rw [setFrom, ih]
    simp only [setValue, List.length_cons]
    by_cases hr : r' = r
    · rcases Nat.lt_trichotomy c col with hlt | rfl | hgt
      · rw [if_neg (by omega), if_neg (by omega), if_neg (by omega)]
      · rw [if_neg (by omega), if_pos ⟨rfl, hr⟩, if_pos (by omega), Nat.sub_self,
          List.getElem?_cons_zero]
      · obtain ⟨d, hd⟩ : ∃ d, c - col = d + 1 := ⟨c - col - 1, by omega⟩
        have hd' : c - (col + 1) = d := by omega
        rw [hd, List.getElem?_cons_succ, hd']
        by_cases hc : c < col + (vs.length + 1)
        · rw [if_pos (by omega), if_pos (by omega)]
        · rw [if_neg (by omega), if_neg (by omega), if_neg (by omega)]
    · rw [if_neg (by omega), if_neg (by omega), if_neg (by omega)]

theorem row_setRow_self (out : Chunk β) (r : ℕ) (vs : List β) :
    (out.setRow r vs).row vs.length r = vs.map some := by
  apply List.ext_getElem (by simp [row])
  intro c hc _
  have hlt : c < vs.length := by simpa [row] using hc
  simp [row, setRow, setFrom_cell, hlt]

theorem row_setRow_of_ne (out : Chunk β) {r r' : ℕ} (h : r' ≠ r) (vs : List β) (width : ℕ) :
    (out.setRow r vs).row width r' = out.row width r' := by
  simp [row, setRow, setFrom_cell, h]

def map {γ : Type*} (f : β → γ) (out : Chunk β) : Chunk γ :=
  ⟨fun c r => (out.cell c r).map f, out.cardinality⟩

theorem row_map {γ : Type*} (f : β → γ) (width r : ℕ) (out : Chunk β) :
    (out.map f).row width r = (out.row width r).map (Option.map f) := by
  rw [row, row, List.map_map]
  rfl

theorem rows_map {γ : Type*} (f : β → γ) (width : ℕ) (out : Chunk β) :
    (out.map f).rows width = (out.rows width).map (List.map (Option.map f)) := by
  rw [rows, rows, List.map_map]
  exact List.map_congr_left fun r _ => row_map f width r out

end Chunk

/-- How a call fails: by an access outside the snapshot or by the exception of a value.
A `drain` may also take too many calls. -/
inductive Fault
  | outOfRange
  | thrown
  | exhausted
  deriving DecidableEq, Repr

structure ScanState (α : Type*) where
  finished : Bool
  current_index : ℕ
  snapshot : List α
  deriving DecidableEq

def ScanState.init (snapshot : List α) : ScanState α := ⟨false, 0, snapshot⟩

def emitLoop (capacity : ℕ) (valid : β → Bool) (values : α → List β) (data : ScanState α)
    (count : ℕ) (out : Chunk β) : Except Fault (ScanState α × ℕ × Chunk β) :=
  if data.current_index < data.snapshot.length ∧ count < capacity then
    match data.snapshot[data.current_index]? with
    | none => .error .outOfRange
    | some info =>
      if (values info).all valid then
        emitLoop capacity valid values { data with current_index := data.current_index + 1 }
          (count + 1) (out.setRow count (values info))
      else .error .thrown
  else .ok (data, count, out)
termination_by capacity - count

def emit (capacity : ℕ) (valid : β → Bool) (values : α → List β) (data : ScanState α)
    (out : Chunk β) : Except Fault (ScanState α × Chunk β) :=
  if data.finished then .ok (data, out)
  else
    match emitLoop capacity valid values data 0 out with
    | .error fault => .error fault
    | .ok (data, count, out) =>
      let data := if data.current_index ≥ data.snapshot.length then
        { data with finished := true } else data
      .ok (data, { out with cardinality := count })

def emitOnce (valid : β → Bool) (values : List β) (finished : Bool) (out : Chunk β) :
    Except Fault (Bool × Chunk β) :=
  if finished then .ok (finished, out)
  else if values.all valid then .ok (true, { out.setRow 0 values with cardinality := 1 })
  else .error .thrown

variable {σ : Type*}

def calls (func : σ → Chunk β → Except Fault (σ × Chunk β)) (blank : ℕ → Chunk β) :
    ℕ → σ → Except Fault (List (Chunk β) × σ)
  | 0, data => .ok ([], data)
  | k + 1, data =>
    (calls func blank k data).bind fun (chunks, data) =>
      (func data (blank k)).map fun (data, out) => (chunks ++ [out], data)

def drain (func : σ → Chunk β → Except Fault (σ × Chunk β)) :
    ℕ → σ → Except Fault (List (Chunk β))
  | 0, _ => .error .exhausted
  | fuel + 1, data =>
    (func data .reset).bind fun (data, out) =>
      if out.cardinality = 0 then .ok [] else (drain func fuel data).map (out :: ·)

structure ScanState.Valid (data : ScanState α) : Prop where
  index_le : data.current_index ≤ data.snapshot.length
  at_end : data.finished = true → data.current_index = data.snapshot.length

theorem ScanState.valid_init (snapshot : List α) : (ScanState.init snapshot).Valid :=
  ⟨Nat.zero_le _, fun h => by cases h⟩

def ScanState.next (data : ScanState α) (capacity : ℕ) : List α :=
  (data.snapshot.drop data.current_index).take capacity

theorem ScanState.next_succ {data : ScanState α} (h : data.current_index < data.snapshot.length)
    (n : ℕ) : data.next (n + 1) = data.snapshot[data.current_index] ::
      { data with current_index := data.current_index + 1 }.next n := by
  rw [next, List.drop_eq_getElem_cons h, List.take_succ_cons]
  rfl

variable {width : ℕ} {valid : β → Bool} {values : α → List β}

theorem values_valid {l : List α} (h : ¬ ∃ a ∈ l, (values a).all valid = false) :
    ∀ a ∈ l, (values a).all valid = true := by
  intro a ha
  rw [← Bool.not_eq_false]
  exact fun hbad => h ⟨a, ha, hbad⟩

theorem emitLoop_spec (hwidth : ∀ a, (values a).length = width) (capacity : ℕ)
    (data : ScanState α) (count : ℕ) (out : Chunk β) (hcount : count ≤ capacity)
    (hindex : data.current_index ≤ data.snapshot.length)
    (hvalid : ∀ a ∈ data.next (capacity - count), (values a).all valid = true) :
    ∃ count' out', emitLoop capacity valid values data count out =
        .ok ({ data with current_index := data.current_index + (count' - count) }, count', out') ∧
      count' = count + min (capacity - count) (data.snapshot.length - data.current_index) ∧
      (List.range count').map (out'.row width) = (List.range count).map (out.row width) ++
        (data.next (capacity - count)).map (fun a => (values a).map some) := by
  -- One iteration moves one row from the snapshot to the chunk.
  induction hn : capacity - count generalizing data count out with
  | zero =>
    rw [emitLoop, if_neg (by omega)]
    exact ⟨count, out, by simp, by simp, by simp [ScanState.next]⟩
  | succ n ih =>
    rw [emitLoop]
    by_cases hlt : data.current_index < data.snapshot.length
    · set info := data.snapshot[data.current_index] with hinfo
      set data' : ScanState α := { data with current_index := data.current_index + 1 } with hdata'
      have hnext : data.next (n + 1) = info :: data'.next n := ScanState.next_succ hlt n
      rw [hn, hnext, List.forall_mem_cons] at hvalid
      have hroom : capacity - (count + 1) = n := by omega
      simp only [hlt, show count < capacity by omega, and_self, ↓reduceIte,
        List.getElem?_eq_getElem, ← hinfo, hvalid.1]
      obtain ⟨count', out', hrun, hcount', hrows⟩ :=
        ih data' (count + 1) (out.setRow count (values info)) (by omega) hlt
          (by rw [hroom]; exact hvalid.2) hroom
      refine ⟨count', out', ?_, ?_, ?_⟩
      · rw [hrun]
        have hidx : data.current_index + 1 + (count' - (count + 1)) =
            data.current_index + (count' - count) := by omega
        simp only [hdata', hidx]
      · simp only [hdata'] at hcount'
        omega
      · rw [hrows, List.range_succ, List.map_append, List.map_singleton]
        have hold : (List.range count).map ((out.setRow count (values info)).row width) =
            (List.range count).map (out.row width) := by
          apply List.map_congr_left
          intro r hr
          exact out.row_setRow_of_ne (Nat.ne_of_lt (List.mem_range.mp hr)) _ _
        have hnew : (out.setRow count (values info)).row width count = (values info).map some := by
          rw [← hwidth info]
          exact out.row_setRow_self count _
        rw [hold, hnew, hnext, List.map_cons, List.append_assoc, List.singleton_append]
    · rw [if_neg (by omega)]
      have hend : data.current_index = data.snapshot.length := by omega
      exact ⟨count, out, by simp, by simp [hend], by simp [ScanState.next, hend]⟩

theorem emitLoop_thrown (capacity : ℕ) (data : ScanState α) (count : ℕ) (out : Chunk β)
    (hbad : ∃ a ∈ data.next (capacity - count), (values a).all valid = false) :
    emitLoop capacity valid values data count out = .error .thrown := by
  induction hn : capacity - count generalizing data count out with
  | zero =>
    obtain ⟨a, ha, -⟩ := hbad
    rw [hn, ScanState.next, List.take_zero] at ha
    cases ha
  | succ n ih =>
    by_cases hlt : data.current_index < data.snapshot.length
    · set info := data.snapshot[data.current_index] with hinfo
      set data' : ScanState α := { data with current_index := data.current_index + 1 }
      have hnext : data.next (n + 1) = info :: data'.next n := ScanState.next_succ hlt n
      rw [emitLoop]
      simp only [hlt, show count < capacity by omega, and_self, ↓reduceIte,
        List.getElem?_eq_getElem, ← hinfo]
      by_cases hinfo' : (values info).all valid = true
      · rw [if_pos hinfo']
        have hroom : capacity - (count + 1) = n := by omega
        refine ih data' (count + 1) _ ?_ hroom
        obtain ⟨a, ha, hbad⟩ := hbad
        rw [hn, hnext, List.mem_cons] at ha
        rcases ha with rfl | ha
        · rw [hinfo'] at hbad
          cases hbad
        · exact ⟨a, hroom ▸ ha, hbad⟩
      · rw [if_neg hinfo']
    · obtain ⟨a, ha, -⟩ := hbad
      rw [ScanState.next, List.drop_eq_nil_of_le (Nat.le_of_not_lt hlt), List.take_nil] at ha
      cases ha

theorem emit_spec (hwidth : ∀ a, (values a).length = width) (capacity : ℕ)
    {data : ScanState α} (hdata : data.Valid) {blank : Chunk β} (hblank : blank.cardinality = 0)
    (hvalid : ∀ a ∈ data.next capacity, (values a).all valid = true) :
    ∃ data' out, emit capacity valid values data blank = .ok (data', out) ∧ data'.Valid ∧
      data'.snapshot = data.snapshot ∧
      data'.current_index = min (data.current_index + capacity) data.snapshot.length ∧
      out.cardinality = data'.current_index - data.current_index ∧
      out.rows width = (data.next capacity).map (fun a => (values a).map some) := by
  have hle := hdata.index_le
  rw [emit]
  by_cases hfin : data.finished = true
  · have hend := hdata.at_end hfin
    rw [if_pos hfin]
    exact ⟨data, blank, rfl, hdata, rfl, by omega, by omega,
      by simp [Chunk.rows, hblank, ScanState.next, hend]⟩
  · obtain ⟨count, out, hrun, hcount, hrows⟩ :=
      emitLoop_spec hwidth capacity data 0 blank (Nat.zero_le capacity) hle hvalid
    rw [if_neg hfin, hrun]
    simp only [Nat.sub_zero, Nat.zero_add] at hcount hrows ⊢
    have hidx : data.current_index + count = min (data.current_index + capacity)
        data.snapshot.length := by omega
    refine ⟨_, _, rfl, ⟨?_, ?_⟩, ?_, ?_, ?_, ?_⟩
    · split_ifs <;> simp only <;> omega
    · split_ifs with hend
      · intro _
        simp only at hend ⊢
        omega
      · intro h
        exact absurd h hfin
    · split_ifs <;> rfl
    · split_ifs <;> exact hidx
    · split_ifs <;> simp
    · exact hrows

theorem emit_thrown (capacity : ℕ) {data : ScanState α} (hdata : data.Valid) (blank : Chunk β)
    (hbad : ∃ a ∈ data.next capacity, (values a).all valid = false) :
    emit capacity valid values data blank = .error .thrown := by
  have hopen : ¬ data.finished = true := by
    intro hfin
    obtain ⟨a, ha, -⟩ := hbad
    rw [ScanState.next, hdata.at_end hfin, List.drop_length, List.take_nil] at ha
    cases ha
  rw [emit, if_neg hopen, emitLoop_thrown capacity data 0 blank hbad]

theorem ScanState.next_append_drop {data data' : ScanState α} {capacity : ℕ}
    (hsnap : data'.snapshot = data.snapshot)
    (hidx : data'.current_index = min (data.current_index + capacity) data.snapshot.length) :
    data.next capacity ++ data'.snapshot.drop data'.current_index =
      data.snapshot.drop data.current_index := by
  rw [hsnap, hidx, next]
  rcases Nat.le_total (data.current_index + capacity) data.snapshot.length with h | h
  · rw [Nat.min_eq_left h, ← List.drop_drop, List.take_append_drop]
  · rw [Nat.min_eq_right h, List.drop_length, List.append_nil, List.take_of_length_le]
    rw [List.length_drop]
    omega

theorem drain_emit (hwidth : ∀ a, (values a).length = width) {capacity : ℕ}
    (hcap : 1 ≤ capacity) {data : ScanState α} (hdata : data.Valid)
    (hvalid : ∀ a ∈ data.snapshot.drop data.current_index, (values a).all valid = true) {fuel : ℕ}
    (hfuel : data.snapshot.length < data.current_index + fuel) :
    ∃ chunks, drain (emit capacity valid values) fuel data = .ok chunks ∧
      chunks.flatMap (·.rows width) =
        (data.snapshot.drop data.current_index).map (fun a => (values a).map some) := by
  induction fuel generalizing data with
  | zero =>
    have := hdata.index_le
    omega
  | succ fuel ih =>
    obtain ⟨data', out, hcall, hdata', hsnap', hidx', hcard, hrows⟩ :=
      emit_spec hwidth capacity hdata (rfl : (Chunk.reset : Chunk β).cardinality = 0)
        fun a ha => hvalid a (List.mem_of_mem_take ha)
    have hle := hdata.index_le
    have hsplit := ScanState.next_append_drop hsnap' hidx'
    simp only [drain, hcall, Except.bind]
    split_ifs with hzero
    · have hend : data.current_index = data.snapshot.length := by omega
      exact ⟨[], rfl, by simp [hend]⟩
    · obtain ⟨chunks, hrun, hflat⟩ := ih hdata'
        (fun a ha => hvalid a (hsplit ▸ List.mem_append_right _ ha)) (by rw [hsnap']; omega)
      refine ⟨out :: chunks, by rw [hrun]; rfl, ?_⟩
      rw [List.flatMap_cons, hrows, hflat, ← List.map_append, hsplit]

theorem drain_thrown (hwidth : ∀ a, (values a).length = width) {capacity : ℕ}
    (hcap : 1 ≤ capacity) {data : ScanState α} (hdata : data.Valid)
    (hbad : ∃ a ∈ data.snapshot.drop data.current_index, (values a).all valid = false) {fuel : ℕ}
    (hfuel : data.snapshot.length < data.current_index + fuel) :
    drain (emit capacity valid values) fuel data = .error .thrown := by
  induction fuel generalizing data with
  | zero =>
    have := hdata.index_le
    omega
  | succ fuel ih =>
    by_cases hnext : ∃ a ∈ data.next capacity, (values a).all valid = false
    · rw [drain, emit_thrown capacity hdata .reset hnext]
      rfl
    · have hvalid := values_valid hnext
      obtain ⟨data', out, hcall, hdata', hsnap', hidx', hcard, -⟩ :=
        emit_spec hwidth capacity hdata (rfl : (Chunk.reset : Chunk β).cardinality = 0) hvalid
      obtain ⟨a, ha, hbad⟩ := hbad
      have hlt : data.current_index < data.snapshot.length := by
        by_contra hge
        rw [List.drop_eq_nil_of_le (Nat.le_of_not_lt hge)] at ha
        cases ha
      have hrest : a ∈ data'.snapshot.drop data'.current_index := by
        rw [← ScanState.next_append_drop hsnap' hidx', List.mem_append] at ha
        rcases ha with ha | ha
        · rw [hvalid a ha] at hbad
          cases hbad
        · exact ha
      have hmore := ih hdata' ⟨a, hrest, hbad⟩ (by rw [hsnap']; omega)
      simp only [drain, hcall, Except.bind, hmore, if_neg (show ¬ out.cardinality = 0 by omega)]
      rfl

theorem drain_emitOnce {vs : List β} (hvalid : vs.all valid = true) {fuel : ℕ} (hfuel : 2 ≤ fuel) :
    ∃ chunks, drain (emitOnce valid vs) fuel false = .ok chunks ∧
      chunks.flatMap (·.rows vs.length) = [vs.map some] := by
  obtain ⟨n, rfl⟩ : ∃ n, fuel = n + 2 := ⟨fuel - 2, by omega⟩
  refine ⟨[{ Chunk.reset.setRow 0 vs with cardinality := 1 }], ?_, ?_⟩
  · simp [drain, emitOnce, hvalid, Chunk.reset, Except.bind, Except.map]
  · simpa [Chunk.rows, Chunk.row] using Chunk.row_setRow_self .reset 0 vs

end ChunkedScan
