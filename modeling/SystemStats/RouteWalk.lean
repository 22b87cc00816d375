import SystemStats.NetworkStats
import SystemStats.OffsetWalk

/-!
# The walk over the routing-socket buffer

The loop jumps by the length that it reads in each header and checks none. It
ends exactly when no header on its way has length `0`; a buffer that consists of
whole records is then walked record by record.
-/

namespace SystemStats.RouteWalk
open TextLines NetworkStats OffsetWalk

def jump (buf : RouteBuffer) (offset : ℕ) : ℕ := (buf.header offset).ifm_msglen.toNat

def isInterface (ifm : IfMsgHdr) : Bool := ifm.ifm_type == RTM_IFINFO2

def NoZeroLength (buf : RouteBuffer) : Prop := Advances (jump buf) buf.len 0

structure Walked (buf : RouteBuffer) (offsets : List ℕ) (networks : List NetworkInfo) :
    Prop where
  progress : ∀ offset ∈ offsets, offset < offset + jump buf offset
  increasing : offsets.Pairwise (· < ·)
  rows_le : networks.length ≤ (offsets.map buf.header).countP isInterface
  records : ∀ msgs, buf.Holds 0 msgs → offsets.map buf.header = msgs

variable (D : DuckDB) (getnameinfo : SockAddr → Option Text) (buf : RouteBuffer)
  (ifaddr : List IfAddrs)

def Ends : Prop := ∃ fuel networks, walkBuffer D getnameinfo buf ifaddr fuel 0 = some networks

theorem walkBuffer_eq_visited (fuel offset : ℕ) :
    walkBuffer D getnameinfo buf ifaddr fuel offset =
      (visited (jump buf) buf.len fuel offset).map (fun offsets =>
        ((offsets.map buf.header).filter isInterface).filterMap
          (messageRow getnameinfo ifaddr)) := by
  induction fuel generalizing offset with
  | zero => rfl
  | succ fuel ih =>
    rw [walkBuffer, visited]
    split_ifs with hlt
    · have hrest := ih (offset + jump buf offset)
      rw [jump] at hrest ⊢
      cases hvisit : visited (jump buf) buf.len fuel
          (offset + (buf.header offset).ifm_msglen.toNat) with
      | none =>
        rw [hvisit, Option.map_none] at hrest
        simp [hrest, findAddress_eq]
      | some offsets =>
        rw [hvisit, Option.map_some] at hrest
        by_cases htype : (buf.header offset).ifm_type = RTM_IFINFO2
        · have hkeep : isInterface (buf.header offset) = true := beq_iff_eq.mpr htype
          cases hrow : messageRow getnameinfo ifaddr (buf.header offset) with
          | none => simp [htype, hrest, findAddress_eq, hkeep, hrow]
          | some row => simp [htype, hrest, findAddress_eq, hkeep, hrow]
        · have hkeep : isInterface (buf.header offset) = false := beq_eq_false_iff_ne.mpr htype
          simp [htype, hrest, hkeep]
    · rfl

theorem ends_iff : Ends D getnameinfo buf ifaddr ↔ NoZeroLength buf := by
  rw [NoZeroLength, ← exists_visited_iff, Ends]
  refine exists_congr fun fuel => ?_
  rw [walkBuffer_eq_visited]
  cases visited (jump buf) buf.len fuel 0 with
  | none => simp
  | some offsets => simp

variable {buf}

theorem visited_records {msgs : List IfMsgHdr} {fuel offset : ℕ} {offsets : List ℕ}
    (hbuf : buf.Holds offset msgs) (h : visited (jump buf) buf.len fuel offset = some offsets) :
    offsets.map buf.header = msgs := by
  induction fuel generalizing msgs offset offsets with
  | zero => cases h
  | succ fuel ih =>
    cases msgs with
    | nil =>
      have hend : offset = buf.len := hbuf
      rcases visited_succ h with ⟨hlt, -⟩ | ⟨-, rfl⟩
      · exact absurd hend (Nat.ne_of_lt hlt)
      · rfl
    | cons ifm rest =>
      obtain ⟨hlt, rfl, -, hrest⟩ := hbuf
      rcases visited_succ h with ⟨-, tail, htail, rfl⟩ | ⟨hend, -⟩
      · rw [List.map_cons, ih hrest htail]
      · exact absurd hlt hend

theorem walked_of_visited {fuel : ℕ} {offsets : List ℕ}
    (h : visited (jump buf) buf.len fuel 0 = some offsets) :
    Walked buf offsets (((offsets.map buf.header).filter isInterface).filterMap
      (messageRow getnameinfo ifaddr)) where
  progress offset hmem := Nat.lt_add_of_pos_right (pos_of_mem_visited h hmem)
  increasing := visited_increasing h
  rows_le := by
    rw [List.countP_eq_length_filter]
    exact List.length_filterMap_le _ _
  records _ hbuf := visited_records hbuf h

/-- The walk ends, and makes progress at every record, exactly when it comes to no
header of length `0`. -/
theorem walkBuffer_ends_iff (buf : RouteBuffer) :
    (Ends D getnameinfo buf ifaddr ↔ NoZeroLength buf) ∧
    ((∃ fuel offsets networks, visited (jump buf) buf.len fuel 0 = some offsets ∧
        walkBuffer D getnameinfo buf ifaddr fuel 0 = some networks ∧
        Walked buf offsets networks) ↔ NoZeroLength buf) := by
  refine ⟨ends_iff D getnameinfo buf ifaddr, fun hx => ?_, fun hlengths => ?_⟩
  · obtain ⟨fuel, offsets, networks, -, hwalk, -⟩ := hx
    exact (ends_iff D getnameinfo buf ifaddr).mp ⟨fuel, networks, hwalk⟩
  · obtain ⟨fuel, offsets, hvisit⟩ := exists_visited_iff.mpr hlengths
    refine ⟨fuel, offsets, _, hvisit, ?_, walked_of_visited getnameinfo ifaddr hvisit⟩
    rw [walkBuffer_eq_visited, hvisit, Option.map_some]

def zeroLength : RouteBuffer where
  len := 112
  header _ := ⟨0, RTM_IFINFO2, ⟨0, 0, 0, 0, 0, 0, 0⟩, []⟩

theorem zeroLength_never_ends : ¬ Ends .reference (fun _ => none) zeroLength [] := by
  intro hx
  obtain ⟨fuel, networks, hwalk⟩ := hx
  rw [walkBuffer_eq_visited, visited_stuck (by decide) rfl, Option.map_none] at hwalk
  cases hwalk

end SystemStats.RouteWalk
