import IClaustron.DynArray.FailedInsert
import IClaustron.DynArray.Slots
import Mathlib.Data.List.Perm.Subperm

/-!
# DynArray.OutOfRange — reads and writes that are not inside the data

What the three kinds of dynamic arrays do with a position and a size that reach behind the inserted
data. A read checks the wrapping sum of both. A write checks nothing, and stops at the end of the
last buffer. The lookup in the index may come to a node that is missing.

* `readLoop_over`, `write_room` — the loops over the buffers, up to their end.
* `findPosOrdered_behind` — the descent behind the last buffer.
* `out_of_range_iff` — which accesses out of range are refused, in every run without a missing index
  node.
-/

namespace IClaustron.DynArray

open Lib List Option

/-! ## Model -/

/-- The bytes of a list of buffers. -/
def chain : Nat → Mem → Option Ptr → List Byte
  | _, _, none => []
  | 0, _, some _ => []
  | fuel + 1, m, some p =>
    match buf? m p with
    | none => []
    | some b => b.buf ++ chain fuel m b.nextDynBuf

/-- The bytes of all buffers. -/
def allBytes (a : DynamicArray) : List Byte := chain a.mem.fresh a.mem a.sdArray.firstDynBuf

/-- The inserted data. -/
def stored (a : DynamicArray) : List Byte := (allBytes a).take a.totalSizeInBytes

/-- What the buffers have room for. -/
def room (a : DynamicArray) : Nat := (allBytes a).length

/-- A read or a write of an array. -/
inductive Access where
  | read (position size : Nat)
  | write (position : Nat) (data : List Byte)

def Access.position : Access → Nat
  | .read position _ => position
  | .write position _ => position

def Access.size : Access → Nat
  | .read _ size => size
  | .write _ data => data.length

/-- Position and size are 64-bit ones, and the range ends behind the data. -/
def Access.OutOfRange (access : Access) (a : DynamicArray) : Prop :=
  access.position < 2 ^ 64 ∧ access.size < 2 ^ 64 ∧
    access.position + access.size > a.totalSizeInBytes

/-- An error is returned, nothing is followed that is NULL, and the data is as it was. -/
def Refused (kind : Kind) (a : DynamicArray) : Access → Prop
  | .read position size =>
    ∃ ret data, readWith (findPosOf kind) a position size = some (ret, data) ∧ ret ≠ 0
  | .write position data =>
    ∃ a' ret, writeWith (findPosOf kind) a position data = some (a', ret) ∧ ret ≠ 0 ∧
      stored a' = stored a

/-- The lookup comes to a position for which the tree has a place, but no leaf. -/
def NoLeaf (a : DynamicArray) (pos : Nat) : Prop :=
  pos < span a.ordArray.indexLevels ∧ room a ≤ pos / span 1 * span 1

/-- The lookup of a position follows a NULL pointer in the index. -/
def Lost : Kind → DynamicArray → Nat → Prop
  | .simple, _, _ => False
  | .ordered, a, pos => NoLeaf a pos

/-- When an access out of range is refused. A read is, if the wrapping sum shows it or the lookup
comes through. A write is, if it starts behind the last buffer, or reaches its end with nothing but
the data that is there. -/
def Refuses (kind : Kind) (a : DynamicArray) : Access → Prop
  | .read position size => (position + size) % 2 ^ 64 > a.totalSizeInBytes ∨ ¬Lost kind a position
  | .write position data =>
    ¬Lost kind a position ∧
      (room a ≤ position ∨ room a < position + data.length ∧ (stored a).drop position <+: data)

variable {kind : Kind} {m : Mem} {a a' : DynamicArray} {bufs : List (Ptr × List Byte)}
  {bytes data : List Byte} {pos size : Nat}

/-! ## The bytes of the buffers -/

variable {bufPos fuel ret : Nat}

theorem chain_of_seg (h : BufSeg m bufs none) (hFuel : bufs.length ≤ fuel) :
    chain fuel m (headPtr bufs none) = flat bufs := by
  induction bufs generalizing fuel with
  | nil => cases fuel <;> rfl
  | cons x rest ih =>
    rcases x with ⟨p, c⟩
    rcases h with ⟨hBuf, -, hRest⟩
    cases fuel with
    | zero => cases hFuel
    | succ fuel =>
      change chain (fuel + 1) m (some p) = _
      simp only [chain, hBuf, flat_cons]
      rw [ih hRest (Nat.le_of_succ_le_succ hFuel)]

/-- Different buffers that are there are not more than the addresses that were given out. -/
theorem length_le_fresh (hBounded : m.Bounded) (hSeg : BufSeg m bufs none)
    (hNodup : (bufs.map Prod.fst).Nodup) : bufs.length ≤ m.fresh := by
  have hSubset : bufs.map Prod.fst ⊆ List.range m.fresh := by
    intro p hp
    rcases hSeg.buf_of_mem hp with ⟨b, hb⟩
    exact mem_range.mpr (hBounded p _ (buf?_eq_some.mp hb))
  have hLength := (hNodup.subperm hSubset).length_le
  rwa [length_map, length_range] at hLength

section

variable (h : SimpleInv a bufs bytes)

include h

theorem SimpleInv.allBytes_eq : allBytes a = flat bufs := by
  unfold allBytes
  rw [h.first]
  exact chain_of_seg h.seg (length_le_fresh h.bounded h.seg h.nodup)

theorem SimpleInv.room_eq : room a = bufSize * bufs.length := by
  unfold room
  rw [h.allBytes_eq]
  exact h.seg.length_flat

/-! ## Lookups -/

theorem findPosSimple_behind (hPos : room a ≤ pos) : findPosSimple a pos = some (1, none, 0) := by
  have hNone : (bufs.map Prod.fst)[pos / bufSize]? = none := by
    rw [getElem?_eq_none_iff, length_map, Nat.le_div_iff_mul_le (by decide), Nat.mul_comm,
      ← h.room_eq]
    exact hPos
  rw [findPosSimple, h.first, scanPos_spec h.seg (Nat.lt_succ_self _), hNone]

/-- Behind the last buffer the descent ends at the top, at a missing leaf, or with no buffer. -/
theorem findPosOrdered_behind {seq : Nat → List Ptr} {levels : Nat} {top : Ptr}
    {place : Ptr → Option (Nat × Nat)}
    (hIndexed : Indexed a (bufs.map Prod.fst) seq levels top place) (hPos : room a ≤ pos) :
    span a.ordArray.indexLevels ≤ pos ∧ findPosOrdered a pos = some (1, none, 0) ∨
      NoLeaf a pos ∧ findPosOrdered a pos = none ∨
      pos < span a.ordArray.indexLevels ∧ ¬NoLeaf a pos ∧
        findPosOrdered a pos = some (0, none, pos % bufSize) := by
  have hLength : (seq 0).length = bufs.length := by
    rw [hIndexed.seq_zero, length_map]
  have hBase := hIndexed.tree.base_lt
  -- a level ends in front of the position
  have hEnds : ∀ k ≤ levels,
      ((seq k).length ≤ pos / span k ↔ room a ≤ pos / span k * span k) := by
    intro k hk
    rw [← Nat.not_lt, hIndexed.tree.lt_length_iff hk, hLength, Nat.not_lt, h.room_eq]
    have hSpan : pos / span k * span k = bufSize * (pos / span k * indexSize ^ k) := by
      rw [Nat.mul_left_comm]
      rfl
    rw [hSpan]
    exact (Nat.mul_le_mul_left_iff (by decide)).symm
  unfold NoLeaf
  rw [hIndexed.indexLevels]
  rcases Nat.lt_or_ge pos (span levels) with hIn | hOver
  · refine .inr ?_
    rw [findPosOrdered_eq hIndexed hIn]
    by_cases hMissing : room a ≤ pos / span 1 * span 1
    · refine .inl ⟨⟨hIn, hMissing⟩, descend_lost hIndexed.tree (k := 0) hBase ?_⟩
      exact (hEnds 1 hBase).mpr hMissing
    · refine .inr ⟨hIn, fun hNo => hMissing hNo.2, ?_⟩
      rw [descend_found hIndexed.tree]
      · have hNone : (seq 0)[pos / bufSize]? = none := by
          have hZero := (hEnds 0 (Nat.zero_le _)).mpr
          rw [getElem?_eq_none_iff]
          rw [h.room_eq] at hPos
          rw [hLength, Nat.le_div_iff_mul_le (by decide), Nat.mul_comm]
          exact hPos
        rw [hNone]
      · intro k hk
        by_contra hEnd
        refine hMissing (((hEnds (k + 1) hk).mp (Nat.le_of_not_lt hEnd)).trans ?_)
        -- a node further up begins at or before the leaf
        have hSpan : span (k + 1) = span 1 * indexSize ^ k := by
          unfold span
          rw [pow_one, Nat.pow_succ', Nat.mul_assoc]
        rw [hSpan, ← Nat.div_div_eq_div_mul, Nat.mul_left_comm, Nat.mul_comm _ (span 1)]
        exact Nat.mul_le_mul_left _ (Nat.div_mul_le_self _ _)
  · exact .inl ⟨hOver, findPosOrdered_over hIndexed hOver⟩

end

/-! ## Buffers -/

/-- A read that reaches the end of the last buffer. -/
theorem readLoop_over {p : Ptr} {c : List Byte} {rest : List (Ptr × List Byte)}
    (h : BufSeg m ((p, c) :: rest) none) (hPos : bufPos < bufSize) (size : Nat)
    (hOver : (flat ((p, c) :: rest)).length < bufPos + size) (hFuel : size < fuel) :
    ∃ data, readLoop fuel m (some p) bufPos size = some (1, data) := by
  induction fuel generalizing p c rest bufPos size with
  | zero => cases hFuel
  | succ fuel ih =>
    rcases h with ⟨hBuf, hLength, hRest⟩
    rw [flat_cons, length_append, hLength] at hOver
    have hMin : min size (bufSize - bufPos) = bufSize - bufPos := by omega
    have hMore : bufSize - bufPos < size := by omega
    have hTail : ∃ data, readLoop fuel m (headPtr rest none) 0 (size - (bufSize - bufPos)) =
        some (1, data) := by
      cases rest with
      | nil =>
        rcases Nat.exists_eq_succ_of_ne_zero (by omega : fuel ≠ 0) with ⟨fuel, rfl⟩
        exact ⟨[], rfl⟩
      | cons x rest =>
        rcases x with ⟨q, d⟩
        exact ih hRest (by decide) _ (by omega) (by omega)
    rcases hTail with ⟨data, hTail⟩
    simp only [readLoop, hBuf, hMin, if_pos hMore, hTail, bind_eq_bind, bind_some]
    exact ⟨_, rfl⟩

/-- A write that reaches the end of the last buffer does what the part of it does that has room. -/
theorem writeLoop_over {p : Ptr} {c : List Byte} {rest : List (Ptr × List Byte)}
    (h : BufSeg m ((p, c) :: rest) none) (hNodup : (((p, c) :: rest).map Prod.fst).Nodup)
    (hPos : bufPos < bufSize) (hOver : (flat ((p, c) :: rest)).length < bufPos + data.length)
    (hFuel : data.length < fuel) :
    writeLoop fuel m (some p) bufPos data =
      (writeLoop fuel m (some p) bufPos
        (data.take ((flat ((p, c) :: rest)).length - bufPos))).map fun r => (r.1, 1) := by
  induction fuel generalizing m p c rest bufPos data with
  | zero => cases hFuel
  | succ fuel ih =>
    rcases h with ⟨hBuf, hLength, hRest⟩
    rw [map_cons, nodup_cons] at hNodup
    rw [flat_cons, length_append, hLength] at hOver ⊢
    have hMin : min data.length (bufSize - bufPos) = bufSize - bufPos := by omega
    have hMore : bufSize - bufPos < data.length := by omega
    have hTake : (data.take (bufSize + (flat rest).length - bufPos)).length =
        bufSize + (flat rest).length - bufPos := length_take_of_le (by omega)
    have hMin' : min (bufSize + (flat rest).length - bufPos) (bufSize - bufPos) =
        bufSize - bufPos := by omega
    -- the same bytes go into this buffer
    have hPart : (data.take (bufSize + (flat rest).length - bufPos)).take (bufSize - bufPos) =
        data.take (bufSize - bufPos) := by
      rw [take_take]
      congr 1
      omega
    simp only [writeLoop, hBuf, hTake, hMin, hMin', hPart, if_pos hMore, bind_eq_bind,
      bind_some]
    cases rest with
    | nil =>
      rcases Nat.exists_eq_succ_of_ne_zero (by omega : fuel ≠ 0) with ⟨fuel, rfl⟩
      rw [if_neg (by simp)]
      rfl
    | cons x rest =>
      rcases x with ⟨q, d⟩
      have hKeep : ∀ b, BufSeg (m.set p (.buf b)) ((q, d) :: rest) none := fun b => by
        refine hRest.congr fun q hq => buf?_congr (Heap.set_of_ne m _ ?_)
        rintro rfl
        exact hNodup.1 hq
      have hDrop : (data.drop (bufSize - bufPos)).length = data.length - (bufSize - bufPos) :=
        length_drop
      have hNext : bufSize - bufPos < bufSize + (flat ((q, d) :: rest)).length - bufPos := by
        rw [flat_cons, length_append, hRest.2.1]
        omega
      rw [if_pos hNext]
      have hZero : 0 < bufSize := by decide
      have hTail := fun b =>
        ih (hKeep b) hNodup.2 hZero (by rw [hDrop]; omega) (by rw [hDrop]; omega)
      rw [show headPtr ((q, d) :: rest) none = some q from rfl, hTail, drop_take]
      congr 3
      omega

variable {findPos : DynamicArray → Nat → Option (Nat × Option Ptr × Nat)}

/-- A write that starts in a buffer: it fails when it reaches the end of the last one, and writes
what has room. -/
theorem write_room (h : SimpleInv a bufs bytes) (hFind : LooksUp findPos a bufs)
    (hPos : pos < room a) (data : List Byte) :
    ∃ a' ret, writeWith findPos a pos data = some (a', ret) ∧
      (ret = 0 ↔ pos + data.length ≤ room a) ∧
      allBytes a' = overwrite (allBytes a) pos (data.take (room a - pos)) ∧
      a'.totalSizeInBytes = a.totalSizeInBytes := by
  rw [h.room_eq] at hPos
  obtain ⟨pre, p, c, rest, rfl, -, hp, hOff, hSeg⟩ := h.seg_at hPos
  have hFlat : (flat (pre ++ (p, c) :: rest)).length = _ := h.seg.length_flat
  rw [flat_append, length_append] at hFlat
  have hNodup := h.nodup
  rw [map_append, nodup_append] at hNodup
  have hRoom : room a - pos = (flat ((p, c) :: rest)).length - pos % bufSize := by
    rw [h.room_eq]
    omega
  have hMod : pos % bufSize < bufSize := Nat.mod_lt pos (by decide)
  have hFit : (data.take (room a - pos)).length ≤ data.length := by
    rw [length_take]
    exact Nat.min_le_right _ _
  have hPart : pos % bufSize + (data.take (room a - pos)).length ≤
      (flat ((p, c) :: rest)).length := by
    rw [length_take, hRoom]
    omega
  obtain ⟨m', tail, hRun, hSeg', hPtrs, hTail, hFrame, hFresh⟩ :=
    writeLoop_spec hSeg hNodup.2.1 hMod hPart (Nat.lt_succ_of_le hFit)
  -- the loop with all of the data
  obtain ⟨ret, hRet, hWrite⟩ : ∃ ret, (ret = 0 ↔ pos + data.length ≤ room a) ∧
      writePos a.mem (some p) (pos % bufSize) data = some (m', ret) := by
    unfold writePos
    by_cases hIn : pos + data.length ≤ room a
    · refine ⟨0, iff_of_true rfl hIn, ?_⟩
      rw [take_of_length_le (by omega)] at hRun
      exact hRun
    · refine ⟨1, iff_of_false one_ne_zero hIn, ?_⟩
      rw [writeLoop_over hSeg hNodup.2.1 hMod (by omega) (Nat.lt_succ_self _), ← hRoom, hRun]
      rfl
  have hHead : headPtr tail none = some p := by
    rcases tail with _ | ⟨⟨x, d⟩, xs⟩
    · cases hPtrs
    · rw [map_cons, map_cons, List.cons.injEq] at hPtrs
      exact congrArg some hPtrs.1
  have hCount : (pre ++ tail).length = (pre ++ (p, c) :: rest).length := by
    have hTailCount := congrArg List.length hPtrs
    rw [length_map, length_map] at hTailCount
    rw [length_append, length_append, hTailCount]
  refine ⟨{ a with mem := m' }, ret, ?_, hRet, ?_, rfl⟩
  · simp only [writeWith, hFind pos hPos, hp, hWrite, bind_eq_bind, bind_some]
    rfl
  · have hSeg₂ : BufSeg m' (pre ++ tail) none := by
      rw [bufSeg_append, hHead]
      refine ⟨(bufSeg_append.mp h.seg).1.congr fun q hq => buf?_congr (hFrame q fun hq' => ?_), hSeg'⟩
      exact hNodup.2.2 q hq q hq' rfl
    have hFirst : a.sdArray.firstDynBuf = headPtr (pre ++ tail) none := by
      rw [headPtr_append, hHead]
      exact h.first.trans (headPtr_append _ _ _)
    have hFuel : (pre ++ tail).length ≤ m'.fresh := by
      rw [hCount, hFresh]
      exact length_le_fresh h.bounded h.seg h.nodup
    rw [h.allBytes_eq]
    unfold allBytes
    dsimp only
    rw [hFirst, chain_of_seg hSeg₂ hFuel, flat_append, flat_append, hTail,
      overwrite_append_right (by omega)]
    congr 2
    omega

/-- A read that starts in a buffer and reaches the end of the last one. -/
theorem read_room (h : SimpleInv a bufs bytes) (hFind : LooksUp findPos a bufs)
    (hPos : pos < room a) (hOver : room a < pos + size)
    (hCheck : ¬(pos + size) % 2 ^ 64 > a.totalSizeInBytes) :
    ∃ data, readWith findPos a pos size = some (1, data) := by
  rw [h.room_eq] at hPos hOver
  obtain ⟨pre, p, c, rest, rfl, -, hp, hOff, hSeg⟩ := h.seg_at hPos
  have hFlat : (flat (pre ++ (p, c) :: rest)).length = _ := h.seg.length_flat
  rw [flat_append, length_append] at hFlat
  rcases readLoop_over hSeg (Nat.mod_lt pos (by decide)) size (by omega)
    (Nat.lt_succ_self size) with ⟨data, hRun⟩
  refine ⟨data, ?_⟩
  simp only [readWith, bind_eq_bind, if_neg hCheck, hFind pos hPos, bind_some, hp,
    readPos]
  exact hRun

/-! ## Simple and ordered arrays -/

theorem Holds.looksUp (h : Holds kind a bytes) :
    ∃ bufs, SimpleInv a bufs bytes ∧ LooksUp (findPosOf kind) a bufs := by
  cases kind with
  | simple =>
    rcases h with ⟨bufs, hSimple⟩
    exact ⟨bufs, hSimple, hSimple.looksUp_simple⟩
  | ordered =>
    rcases h with ⟨bufs, seq, levels, top, place, hSimple, hIndexed⟩
    exact ⟨bufs, hSimple, hIndexed.looksUp⟩

theorem not_lost (hPos : pos < room a) : ¬Lost kind a pos := by
  cases kind with
  | simple => exact id
  | ordered =>
    rintro ⟨-, hMissing⟩
    have hFloor := Nat.div_mul_le_self pos (span 1)
    omega

/-- Behind the last buffer no buffer is found. -/
theorem Holds.findPos_behind (h : Holds kind a bytes) (hPos : room a ≤ pos) :
    Lost kind a pos ∧ findPosOf kind a pos = none ∨
      ¬Lost kind a pos ∧ ∃ ret bufPos, findPosOf kind a pos = some (ret, none, bufPos) := by
  cases kind with
  | simple =>
    rcases h with ⟨bufs, hSimple⟩
    exact .inr ⟨id, 1, 0, findPosSimple_behind hSimple hPos⟩
  | ordered =>
    rcases h with ⟨bufs, seq, levels, top, place, hSimple, hIndexed⟩
    rcases findPosOrdered_behind hSimple hIndexed hPos with
      ⟨hOver, hFind⟩ | ⟨hNo, hFind⟩ | ⟨-, hLeaf, hFind⟩
    · exact .inr ⟨fun hNo => absurd hNo.1 (Nat.not_lt.mpr hOver), 1, 0, hFind⟩
    · exact .inl ⟨hNo, hFind⟩
    · exact .inr ⟨hLeaf, 0, _, hFind⟩

/-- Where no buffer is found, reading and writing fail. -/
theorem readWith_no_buffer (hFind : findPos a pos = some (ret, none, bufPos))
    (hCheck : ¬(pos + size) % 2 ^ 64 > a.totalSizeInBytes) :
    ∃ ret', readWith findPos a pos size = some (ret', []) ∧ ret' ≠ 0 := by
  unfold readWith
  rw [if_neg hCheck]
  by_cases hRet : ret = 0
  · refine ⟨1, ?_, one_ne_zero⟩
    simp [hFind, hRet, readPos, readLoop]
  · refine ⟨ret, ?_, hRet⟩
    simp [hFind, hRet]

theorem writeWith_no_buffer (hFind : findPos a pos = some (ret, none, bufPos)) (data : List Byte) :
    ∃ ret', writeWith findPos a pos data = some (a, ret') ∧ ret' ≠ 0 := by
  by_cases hRet : ret = 0
  · refine ⟨1, ?_, one_ne_zero⟩
    simp [writeWith, hFind, hRet, writePos, writeLoop]
  · refine ⟨ret, ?_, hRet⟩
    simp [writeWith, hFind, hRet]

/-- A read is refused by its check, or by the end of the last buffer, or by the lookup. -/
theorem read_refused_iff (h : Holds kind a bytes) (hFits : room a < 2 ^ 64)
    (hOut : (Access.read pos size).OutOfRange a) :
    Refused kind a (.read pos size) ↔ Refuses kind a (.read pos size) := by
  rcases h.looksUp with ⟨bufs, hSimple, hFind⟩
  have hRange : pos + size > a.totalSizeInBytes := hOut.2.2
  unfold Refused Refuses
  by_cases hCheck : (pos + size) % 2 ^ 64 > a.totalSizeInBytes
  · refine iff_of_true ⟨1, [], ?_, one_ne_zero⟩ (.inl hCheck)
    unfold readWith
    rw [if_pos hCheck]
  -- the sum wraps
  have hWraps : 2 ^ 64 ≤ pos + size := by
    by_contra hSmall
    rw [Nat.mod_eq_of_lt (Nat.lt_of_not_le hSmall)] at hCheck
    exact hCheck hRange
  rcases Nat.lt_or_ge pos (room a) with hPos | hPos
  · rcases read_room hSimple hFind hPos (by omega) hCheck with ⟨data, hRead⟩
    exact iff_of_true ⟨1, data, hRead, one_ne_zero⟩ (.inr (not_lost hPos))
  · rcases h.findPos_behind hPos with ⟨hLost, hNone⟩ | ⟨hLost, ret, bufPos, hNone⟩
    · refine iff_of_false ?_ ?_
      · rintro ⟨ret, data, hRead, -⟩
        unfold readWith at hRead
        rw [if_neg hCheck, hNone] at hRead
        cases hRead
      · rintro (hShown | hFound)
        · exact hCheck hShown
        · exact hFound hLost
    · rcases readWith_no_buffer hNone hCheck with ⟨ret', hRead, hRet⟩
      exact iff_of_true ⟨ret', [], hRead, hRet⟩ (.inr hLost)

/-- A write is refused by the lookup, or by the end of the last buffer. -/
theorem write_refused_iff (h : Holds kind a bytes) :
    Refused kind a (.write pos data) ↔ Refuses kind a (.write pos data) := by
  rcases h.looksUp with ⟨bufs, hSimple, hFind⟩
  unfold Refused Refuses
  rcases Nat.lt_or_ge pos (room a) with hPos | hPos
  · rcases write_room hSimple hFind hPos data with ⟨a', ret, hWrite, hRet, hBytes, hTotal⟩
    have hData : a.totalSizeInBytes ≤ room a := by
      rw [hSimple.room_eq, hSimple.total]
      exact hSimple.length_le
    -- when the end is reached, what has room is written
    have hStored : room a < pos + data.length →
        (stored a' = stored a ↔ (stored a).drop pos <+: data) := by
      intro hOver
      unfold stored
      rw [hTotal, hBytes]
      exact take_overwrite_over_iff hPos.le hData hOver.le
    constructor
    · rintro ⟨a₁, ret₁, hWrite₁, hRet₁, hSame⟩
      cases hWrite.symm.trans hWrite₁
      have hOver : room a < pos + data.length := by
        by_contra hIn
        exact hRet₁ (hRet.mpr (Nat.le_of_not_lt hIn))
      exact ⟨not_lost hPos, .inr ⟨hOver, (hStored hOver).mp hSame⟩⟩
    · rintro ⟨-, hBehind | ⟨hOver, hPrefix⟩⟩
      · exact absurd hPos (Nat.not_lt.mpr hBehind)
      · refine ⟨a', ret, hWrite, fun hZero => ?_, (hStored hOver).mpr hPrefix⟩
        exact absurd (hRet.mp hZero) (Nat.not_le.mpr hOver)
  · rcases h.findPos_behind hPos with ⟨hLost, hNone⟩ | ⟨hLost, ret, bufPos, hNone⟩
    · refine iff_of_false ?_ fun hFound => hFound.1 hLost
      rintro ⟨a', ret, hWrite, -⟩
      simp [writeWith, hNone] at hWrite
    · rcases writeWith_no_buffer hNone data with ⟨ret', hWrite, hRet⟩
      exact iff_of_true ⟨a, ret', hWrite, hRet, rfl⟩ ⟨hLost, .inl hPos⟩

/-! ## Pointer arrays -/

/-- The calls of a user of a pointer array; an insert comes with the outcomes of its allocations. -/
inductive PtrCall where
  | insert (ok : Nat → Bool) (object : Nat)
  | remove (index object : Nat)
  | get (index : Nat)

def applyPtr (a : DynamicArray) : PtrCall → Option DynamicArray
  | .insert ok object => (insertPtr ok a object).map Prod.fst
  | .remove index object => (removePtr a index object).map Prod.fst
  | .get index => (getPtr a index).map fun _ => a

/-- The allocations behind those of the data buffers succeed. -/
def PtrNodesAvailable (a : DynamicArray) : PtrCall → Prop
  | .insert ok object => NodesAvailable a (.insert ok (toBytes entrySize object))
  | _ => True

/-- A read or a write of an entry, and `get_ptr`. A write takes an entry whatever its size says. -/
inductive PtrAccess where
  | read (position size : Nat)
  | write (position size entry : Nat)
  | get (index : Nat)

/-- Position and size, or the index, are 64-bit ones, and the range ends behind the data. -/
def PtrAccess.OutOfRange (a : DynamicArray) : PtrAccess → Prop
  | .read position size | .write position size _ =>
    position < 2 ^ 64 ∧ size < 2 ^ 64 ∧ position + size > a.totalSizeInBytes
  | .get index => index < 2 ^ 64 ∧ getMaxIndex a ≤ index

/-- An error is returned, nothing is followed that is NULL, and the data is as it was. -/
def PtrAccess.Refused (a : DynamicArray) : PtrAccess → Prop
  | .read position size => ∃ ret data, readPtrArray a position size = some (ret, data) ∧ ret ≠ 0
  | .write position _ entry =>
    ∃ a' ret, writePtrArray a position (toBytes entrySize entry) = some (a', ret) ∧ ret ≠ 0 ∧
      stored a' = stored a
  | .get index => ∃ ret object, getPtr a index = some (ret, object) ∧ ret ≠ 0

/-- The bytes at a position are those of an entry that is free. -/
def FreeAt (a : DynamicArray) (pos : Nat) : Prop :=
  pos < room a ∧ highestBitSet ≤ ofBytes (((allBytes a).drop pos).take entrySize)

/-- When an access out of range is refused: the tree has no place for its position. `get_ptr` also
refuses what is a free entry at its wrapping position. -/
def PtrAccess.Refuses (a : DynamicArray) : PtrAccess → Prop
  | .read position _ | .write position _ _ => span a.ordArray.indexLevels ≤ position
  | .get index =>
    span a.ordArray.indexLevels ≤ index * entrySize % 2 ^ 64 ∨
      FreeAt a (index * entrySize % 2 ^ 64)

/-! ### Runs -/

/-- An entry is written as an ordered array writes it. -/
theorem writeWith_of_ptr (hRun : writePtrArray a pos data = some (a', ret)) :
    writeWith findPosOrdered a pos data = some (a', ret) := by
  unfold writePtrArray at hRun
  unfold writeWith
  rcases bind_eq_some_iff.mp hRun with ⟨⟨found, dynBuf, bufPos⟩, hFind, hRest⟩
  rw [hFind]
  dsimp only at hRest
  simp only [bind_eq_bind, bind_some]
  by_cases hFound : found ≠ 0
  · rw [if_pos hFound] at hRest ⊢
    exact hRest
  · rw [if_neg hFound] at hRest ⊢
    rcases bind_eq_some_iff.mp hRest with ⟨p, hPtr, hRest⟩
    rcases bind_eq_some_iff.mp hRest with ⟨b, hBuf, hRest⟩
    split_ifs at hRest with hFit
    cases hRest
    subst hPtr
    -- all of it goes into one buffer
    have hMin : min data.length (bufSize - bufPos) = data.length := by omega
    simp only [writePos, writeLoop, hBuf, hMin, bind_eq_bind, bind_some,
      lt_irrefl, if_false, take_length]

section

variable (h : Good .ordered a)

include h

theorem Good.writeEntry {value : Nat} (hRun : DynArray.writeEntry a pos value = some a') :
    Good .ordered a' := by
  rcases bind_eq_some_iff.mp hRun with ⟨⟨a₁, ret⟩, hWrite, hRest⟩
  dsimp only at hRest
  split_ifs at hRest
  obtain rfl : a₁ = a' := Option.some.inj hRest
  refine h.step (c := .write pos (toBytes entrySize value)) trivial ?_
  have hWith : writeWith (findPosOf .ordered) a pos (toBytes entrySize value) = some (a₁, ret) :=
    writeWith_of_ptr hWrite
  simp [DynArray.step, call, hWith]

theorem Good.insertPtr {ok : Nat → Bool} {object : Nat} {r : DynamicArray × Nat × Nat}
    (hNodes : NodesAvailable a (.insert ok (toBytes entrySize object)))
    (hRun : DynArray.insertPtr ok a object = some r) : Good .ordered r.1 := by
  rcases bind_eq_some_iff.mp hRun with ⟨first, -, hRest⟩
  dsimp only at hRest
  split_ifs at hRest with hFirst
  · rcases bind_eq_some_iff.mp hRest with ⟨⟨a₁, ret⟩, hInsert, hRest⟩
    have hGood : Good .ordered a₁ := by
      refine h.step hNodes ?_
      have hOf : insertOf .ordered ok a (toBytes entrySize object) = some (a₁, ret) := hInsert
      simp [DynArray.step, call, hOf]
    dsimp only at hRest
    split_ifs at hRest with hRet
    · cases hRest
      exact hGood
    · cases hRest
      exact hGood
  · rcases bind_eq_some_iff.mp hRest with ⟨position, -, hRest⟩
    split_ifs at hRest
    rcases bind_eq_some_iff.mp hRest with ⟨a₁, hWrite₁, hRest⟩
    rcases bind_eq_some_iff.mp hRest with ⟨a₂, hWrite₂, hRest⟩
    cases hRest
    exact (h.writeEntry hWrite₁).writeEntry hWrite₂

theorem Good.removePtr {index object : Nat} {r : DynamicArray × Nat}
    (hRun : DynArray.removePtr a index object = some r) : Good .ordered r.1 := by
  unfold DynArray.removePtr at hRun
  dsimp only at hRun
  split_ifs at hRun with hIndex
  · cases hRun
    exact h
  · rcases bind_eq_some_iff.mp hRun with ⟨entry, -, hRest⟩
    split_ifs at hRest
    rcases bind_eq_some_iff.mp hRest with ⟨first, -, hRest⟩
    rcases bind_eq_some_iff.mp hRest with ⟨a₁, hWrite₁, hRest⟩
    rcases bind_eq_some_iff.mp hRest with ⟨a₂, hWrite₂, hRest⟩
    cases hRest
    exact (h.writeEntry hWrite₁).writeEntry hWrite₂

theorem Good.applyPtr {c : PtrCall} (hNodes : PtrNodesAvailable a c)
    (hStep : DynArray.applyPtr a c = some a') : Good .ordered a' := by
  cases c with
  | insert ok object =>
    rcases map_eq_some_iff.mp hStep with ⟨r, hRun, rfl⟩
    exact h.insertPtr hNodes hRun
  | remove index object =>
    rcases map_eq_some_iff.mp hStep with ⟨r, hRun, rfl⟩
    exact h.removePtr hRun
  | get index =>
    rcases map_eq_some_iff.mp hStep with ⟨r, -, rfl⟩
    exact h

end

theorem good_createPtr (hNew : createPtrArray (fun _ => true) Heap.empty = some a) :
    Good .ordered a := by
  unfold createPtrArray at hNew
  rcases bind_eq_some_iff.mp hNew with ⟨a₀, hCreate, hRest⟩
  rcases bind_eq_some_iff.mp hRest with ⟨⟨a₁, ret⟩, hInsert, hRest⟩
  dsimp only at hRest
  split_ifs at hRest
  obtain rfl : a₁ = a := Option.some.inj hRest
  have hGood : Good .ordered a₀ := good_create hCreate
  refine hGood.step (c := .insert (fun _ => true) (toBytes entrySize 0)) (fun _ _ => rfl) ?_
  have hOf : insertOf .ordered (fun _ => true) a₀ (toBytes entrySize 0) = some (a₁, ret) := hInsert
  simp [DynArray.step, call, hOf]

theorem good_ptrRun {a₀ : DynamicArray} {calls : List PtrCall}
    (hNew : createPtrArray (fun _ => true) Heap.empty = some a₀)
    (hRun : Run.exec applyPtr a₀ calls = some a)
    (hNodes : Run.Along applyPtr PtrNodesAvailable a₀ calls) : Good .ordered a :=
  Run.invariant_along applyPtr PtrNodesAvailable (Good .ordered)
    (fun _ _ _ hOk hStep hGood => hGood.applyPtr hOk hStep) hNodes hRun (good_createPtr hNew)

/-! ### Accesses -/

/-- An entry in a buffer. -/
theorem readPtrArray_room (h : SimpleInv a bufs bytes) (hFind : LooksUp findPosOrdered a bufs)
    (hPos : pos < room a) : readPtrArray a pos size =
      if pos % bufSize + size ≤ bufSize then some (0, ((allBytes a).drop pos).take size)
      else none := by
  rw [h.room_eq] at hPos
  obtain ⟨pre, p, c, rest, rfl, -, hp, hOff, hSeg⟩ := h.seg_at hPos
  simp only [readPtrArray, hFind pos hPos, hp, hSeg.1, bind_eq_bind, bind_some,
    ne_eq, not_true_eq_false, if_false]
  have hMod : pos % bufSize < bufSize := Nat.mod_lt pos (by decide)
  have hLength : c.length = bufSize := hSeg.2.1
  have hDrop : (flat (pre ++ (p, c) :: rest)).drop pos = c.drop (pos % bufSize) ++ flat rest := by
    have hPre : (flat pre).length ≤ pos := by omega
    have hRest : pos - (flat pre).length = pos % bufSize := by omega
    rw [flat_append, drop_append, drop_of_length_le hPre, nil_append, hRest, flat_cons,
      drop_append_of_le_length (by omega)]
  split_ifs with hFit
  · have hPart : size ≤ (c.drop (pos % bufSize)).length := by
      rw [length_drop]
      omega
    rw [h.allBytes_eq, hDrop, take_append_of_le_length hPart]
  · rfl

/-- The lookup fails above the tree only; behind the last buffer it finds nothing. -/
theorem findPosOrdered_over_iff (h : OrdInv a bytes) (pos : Nat) :
    span a.ordArray.indexLevels ≤ pos ∧ findPosOrdered a pos = some (1, none, 0) ∨
      pos < span a.ordArray.indexLevels ∧ room a ≤ pos ∧ (findPosOrdered a pos = none ∨
        ∃ bufPos, findPosOrdered a pos = some (0, none, bufPos)) ∨
      pos < span a.ordArray.indexLevels ∧ pos < room a := by
  rcases h with ⟨bufs, seq, levels, top, place, hSimple, hIndexed⟩
  rcases Nat.lt_or_ge pos (room a) with hPos | hPos
  · refine .inr (.inr ⟨?_, hPos⟩)
    by_contra hOver
    have hIn := hIndexed.looksUp pos (hSimple.room_eq ▸ hPos)
    have hOver : span a.ordArray.indexLevels ≤ pos := Nat.le_of_not_lt hOver
    rw [hIndexed.indexLevels] at hOver
    rw [findPosOrdered_over hIndexed hOver] at hIn
    cases hIn
  · rcases findPosOrdered_behind hSimple hIndexed hPos with
      ⟨hOver, hFind⟩ | ⟨hNo, hFind⟩ | ⟨hIn, -, hFind⟩
    · exact .inl ⟨hOver, hFind⟩
    · exact .inr (.inl ⟨hNo.1, hPos, .inl hFind⟩)
    · exact .inr (.inl ⟨hIn, hPos, .inr ⟨_, hFind⟩⟩)

theorem OrdInv.readPtrArray_cases (h : OrdInv a bytes) (pos size : Nat) :
    span a.ordArray.indexLevels ≤ pos ∧ readPtrArray a pos size = some (1, []) ∨
      pos < span a.ordArray.indexLevels ∧ room a ≤ pos ∧ readPtrArray a pos size = none ∨
      pos < span a.ordArray.indexLevels ∧ pos < room a ∧ readPtrArray a pos size =
        if pos % bufSize + size ≤ bufSize then some (0, ((allBytes a).drop pos).take size)
        else none := by
  rcases findPosOrdered_over_iff h pos with
    ⟨hOver, hFind⟩ | ⟨hIn, hBehind, hFind | ⟨bufPos, hFind⟩⟩ | ⟨hIn, hPos⟩
  · exact .inl ⟨hOver, by simp [readPtrArray, hFind]⟩
  · exact .inr (.inl ⟨hIn, hBehind, by simp [readPtrArray, hFind]⟩)
  · exact .inr (.inl ⟨hIn, hBehind, by simp [readPtrArray, hFind]⟩)
  · rcases h with ⟨bufs, seq, levels, top, place, hSimple, hIndexed⟩
    exact .inr (.inr ⟨hIn, hPos, readPtrArray_room hSimple hIndexed.looksUp hPos⟩)

theorem OrdInv.writePtrArray_refused_iff (h : OrdInv a bytes) :
    (∃ a' ret, writePtrArray a pos data = some (a', ret) ∧ ret ≠ 0 ∧ stored a' = stored a) ↔
      span a.ordArray.indexLevels ≤ pos := by
  have hFound : ∀ {p bufPos a₁ ret}, findPosOrdered a pos = some (0, p, bufPos) →
      writePtrArray a pos data = some (a₁, ret) → ret = 0 := by
    intro p bufPos a₁ ret hFind hWrite
    simp only [writePtrArray, hFind, bind_eq_bind, bind_some, ne_eq,
      not_true_eq_false, if_false] at hWrite
    rcases bind_eq_some_iff.mp hWrite with ⟨q, -, hRest⟩
    rcases bind_eq_some_iff.mp hRest with ⟨b, -, hRest⟩
    split_ifs at hRest
    cases hRest
    rfl
  rcases findPosOrdered_over_iff h pos with
    ⟨hOver, hFind⟩ | ⟨hIn, -, hFind | ⟨bufPos, hFind⟩⟩ | ⟨hIn, hPos⟩
  · refine iff_of_true ⟨a, 1, ?_, one_ne_zero, rfl⟩ hOver
    simp [writePtrArray, hFind]
  · refine iff_of_false ?_ (Nat.not_le.mpr hIn)
    rintro ⟨a', ret, hWrite, -⟩
    simp [writePtrArray, hFind] at hWrite
  · refine iff_of_false ?_ (Nat.not_le.mpr hIn)
    rintro ⟨a', ret, hWrite, hRet, -⟩
    exact hRet (hFound hFind hWrite)
  · refine iff_of_false ?_ (Nat.not_le.mpr hIn)
    rintro ⟨a', ret, hWrite, hRet, -⟩
    rcases h with ⟨bufs, seq, levels, top, place, hSimple, hIndexed⟩
    exact hRet (hFound (hIndexed.looksUp pos (hSimple.room_eq ▸ hPos)) hWrite)

/-- The wrapping position of an entry lets it end in its buffer. -/
theorem entry_fits (index : Nat) :
    index * entrySize % 2 ^ 64 % bufSize + entrySize ≤ bufSize := by
  simp only [entrySize, bufSize]
  omega

/-- What is read at a position in the buffers decides the code of `get_ptr`. -/
theorem OrdInv.getPtr_refused_iff (h : OrdInv a bytes) {index : Nat} :
    (∃ ret object, getPtr a index = some (ret, object) ∧ ret ≠ 0) ↔
      span a.ordArray.indexLevels ≤ index * entrySize % 2 ^ 64 ∨
        FreeAt a (index * entrySize % 2 ^ 64) := by
  have hFit := entry_fits index
  unfold getPtr FreeAt
  dsimp only
  generalize index * entrySize % 2 ^ 64 = pos at hFit ⊢
  rcases h.readPtrArray_cases pos entrySize with
    ⟨hOver, hRead⟩ | ⟨hIn, hBehind, hRead⟩ | ⟨hIn, hPos, hRead⟩
  · rw [hRead]
    exact iff_of_true ⟨errorIndexOutOfBound, 0, rfl, by decide⟩ (.inl hOver)
  · rw [hRead]
    refine iff_of_false ?_ ?_
    · rintro ⟨ret, object, hGet, -⟩
      cases hGet
    · rintro (hOver | ⟨hPos, -⟩)
      · exact absurd hIn (Nat.not_lt.mpr hOver)
      · exact absurd hPos (Nat.not_lt.mpr hBehind)
  · rw [hRead, if_pos hFit]
    simp only [bind_eq_bind, bind_some, ne_eq, not_true_eq_false, if_false]
    by_cases hFree : ofBytes (((allBytes a).drop pos).take entrySize) ≥ highestBitSet
    · rw [if_pos hFree]
      exact iff_of_true ⟨errorIndexError, 0, rfl, by decide⟩ (.inr ⟨hPos, hFree⟩)
    · rw [if_neg hFree]
      refine iff_of_false ?_ ?_
      · rintro ⟨ret, object, hGet, hRet⟩
        cases hGet
        exact hRet rfl
      · rintro (hOver | ⟨-, hFree'⟩)
        · exact absurd hIn (Nat.not_lt.mpr hOver)
        · exact hFree hFree'

/-! ## Every run -/

/-- A state that a run reaches in which no index node is missing; the buffers are in a 64-bit
memory. -/
def Reached (kind : Kind) (a : DynamicArray) : Prop :=
  room a < 2 ^ 64 ∧ ∃ a₀ calls, createOf kind = some a₀ ∧
    Run.exec (step kind) a₀ calls = some a ∧ Run.Along (step kind) NodesAvailable a₀ calls

/-- The same for a pointer array. -/
def PtrReached (a : DynamicArray) : Prop :=
  room a < 2 ^ 64 ∧ ∃ a₀ calls, createPtrArray (fun _ => true) Heap.empty = some a₀ ∧
    Run.exec applyPtr a₀ calls = some a ∧ Run.Along applyPtr PtrNodesAvailable a₀ calls

theorem access_refused_iff (h : Holds kind a bytes) (hFits : room a < 2 ^ 64) {access : Access}
    (hOut : access.OutOfRange a) : Refused kind a access ↔ Refuses kind a access := by
  cases access with
  | read position size => exact read_refused_iff h hFits hOut
  | write position data => exact write_refused_iff h

theorem PtrAccess.refused_iff (h : OrdInv a bytes) {access : PtrAccess}
    (hOut : access.OutOfRange a) : access.Refused a ↔ access.Refuses a := by
  cases access with
  | read position size =>
    unfold PtrAccess.Refused PtrAccess.Refuses
    rcases h.readPtrArray_cases position size with
      ⟨hOver, hRead⟩ | ⟨hIn, -, hRead⟩ | ⟨hIn, -, hRead⟩
    · exact iff_of_true ⟨1, [], hRead, one_ne_zero⟩ hOver
    · refine iff_of_false ?_ (Nat.not_le.mpr hIn)
      rintro ⟨ret, data, hRun, -⟩
      rw [hRead] at hRun
      cases hRun
    · refine iff_of_false ?_ (Nat.not_le.mpr hIn)
      rintro ⟨ret, data, hRun, hRet⟩
      rw [hRead] at hRun
      split_ifs at hRun
      cases hRun
      exact hRet rfl
  | write position size entry => exact h.writePtrArray_refused_iff
  | get index => exact h.getPtr_refused_iff

/-- In every run in which no index node is missing: which accesses that are not inside the data
return an error, follow no NULL pointer and leave the data as it is. -/
theorem out_of_range_iff (access : Access) (ptrAccess : PtrAccess) :
    (∀ kind a, Reached kind a → access.OutOfRange a →
      (Refused kind a access ↔ Refuses kind a access)) ∧
    ∀ a, PtrReached a → ptrAccess.OutOfRange a →
      (ptrAccess.Refused a ↔ ptrAccess.Refuses a) := by
  constructor
  · rintro kind a ⟨hFits, a₀, calls, hNew, hRun, hNodes⟩ hOut
    rcases (good_run hNew hRun hNodes).holds with ⟨bytes, hBytes⟩
    exact access_refused_iff hBytes hFits hOut
  · rintro a ⟨-, a₀, calls, hNew, hRun, hNodes⟩ hOut
    rcases (good_ptrRun hNew hRun hNodes).holds with ⟨bytes, hBytes⟩
    exact PtrAccess.refused_iff hBytes hOut

/-- An array with one buffer. -/
theorem room_of_length_le (h : OrdInv a bytes) (hPos : bytes ≠ []) (hLe : bytes.length ≤ bufSize) :
    room a = bufSize := by
  rcases h with ⟨bufs, -, -, -, -, hSimple, -⟩
  have hSize := hSimple.size
  have hUsed := hSimple.used_le
  have hLength := length_pos_iff.mpr hPos
  have hLast := hSimple.used_pos
  rw [hSimple.room_eq]
  simp only [bufSize] at hSize hUsed hLe ⊢
  omega

/-- A read over the end of an ordered array with five bytes is refused, and so is a read behind the
index of a pointer array. -/
theorem out_of_range_iff_filled :
    (∃ a, Reached .ordered a ∧ stored a = [1, 2, 3, 4, 5] ∧ Refused .ordered a (.read 3 4)) ∧
      ∃ a, PtrReached a ∧ (PtrAccess.get 16384).Refused a := by
  have hSmall : bufSize < 2 ^ 64 := by decide
  constructor
  · rcases insertOrdered_first [1, 2, 3, 4, 5] (by decide) with
      ⟨a₀, a, -, hNew, hInsert, h, -⟩
    have hRoom := room_of_length_le h (cons_ne_nil _ _) (by decide)
    have hStep : step .ordered a₀ (.insert (fun _ => true) [1, 2, 3, 4, 5]) = some a := by
      show ((insertOrdered (fun _ => true) a₀ _).bind _).map Prod.fst = some a
      rw [hInsert]
      rfl
    have hReached : Reached .ordered a := by
      refine ⟨hRoom ▸ hSmall, a₀, [.insert (fun _ => true) [1, 2, 3, 4, 5]], hNew, ?_,
        fun _ _ => ⟨fun _ _ => rfl, trivial⟩⟩
      rw [Run.exec_cons, hStep]
      rfl
    rcases h with ⟨bufs, -, -, -, -, hSimple, -⟩
    have hTotal : a.totalSizeInBytes = 5 := hSimple.total
    have hOut : (Access.read 3 4).OutOfRange a := by
      refine ⟨by decide, by decide, ?_⟩
      rw [hTotal]
      decide
    refine ⟨a, hReached, ?_, ?_⟩
    · unfold stored
      rw [hSimple.allBytes_eq, hTotal]
      exact hSimple.bytes_eq.symm
    · refine ((out_of_range_iff (.read 3 4) (.get 0)).1 _ a hReached hOut).mpr (.inl ?_)
      rw [hTotal]
      decide
  · rcases insertOrdered_first (toBytes entrySize 0) (by decide) with
      ⟨a₀, a, -, hNew, hInsert, h, -, hOrd, -⟩
    have hCreate : createPtrArray (fun _ => true) Heap.empty = some a := by
      have hNew' : createOrdered (fun _ => true) Heap.empty = some a₀ := hNew
      simp [createPtrArray, hNew', hInsert]
    have hReached : PtrReached a := by
      refine ⟨?_, a, [], hCreate, rfl, trivial⟩
      rw [room_of_length_le h (by decide) (by decide)]
      exact hSmall
    have hOut : (PtrAccess.get 16384).OutOfRange a := by
      refine ⟨by decide, ?_⟩
      rcases h with ⟨bufs, -, -, -, -, hSimple, -⟩
      unfold getMaxIndex
      rw [hSimple.total]
      decide
    refine ⟨a, hReached, ((out_of_range_iff (.read 0 1) (.get 16384)).2 a hReached hOut).mpr (.inl ?_)⟩
    rw [hOrd]
    decide

/-- A new simple array has one buffer, and no data. -/
theorem new_simple : ∃ a, Reached .simple a ∧ room a = bufSize ∧ a.totalSizeInBytes = 0 := by
  rcases @createSimple_spec (fun _ => true) (fun _ => rfl) Heap.empty Heap.bounded_empty
    with ⟨a, hNew, hSimple, -⟩
  have hRoom : room a = bufSize := hSimple.room_eq
  have hSmall : bufSize < 2 ^ 64 := by decide
  exact ⟨a, ⟨hRoom ▸ hSmall, a, [], hNew, rfl, trivial⟩, hRoom, hSimple.total⟩

/-- A write of one byte into a new array is not. -/
theorem write_behind_data : ¬∀ kind a, Reached kind a → ∀ access : Access, access.OutOfRange a →
    Refused kind a access := by
  intro hAll
  rcases new_simple with ⟨a, hReached, hRoom, hTotal⟩
  have hOut : (Access.write 0 [1]).OutOfRange a := by
    refine ⟨by decide, by decide, ?_⟩
    rw [hTotal]
    exact Nat.zero_lt_one
  rcases hReached.2 with ⟨a₀, calls, hNew, hRun, hNodes⟩
  rcases (good_run hNew hRun hNodes).holds with ⟨bytes, hBytes⟩
  rcases (access_refused_iff hBytes hReached.1 hOut).mp (hAll .simple a hReached _ hOut) with
    ⟨-, hBehind | ⟨hOver, -⟩⟩
  · rw [hRoom] at hBehind
    exact absurd hBehind (by decide)
  · rw [hRoom] at hOver
    exact absurd hOver (by decide)

end IClaustron.DynArray
