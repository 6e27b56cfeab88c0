import Mathlib.Algebra.Ring.Nat
import Mathlib.Data.Nat.Size
import Mathlib.Tactic.SplitIfs

/-!
# Comm.SizeRanges — the statistics of a connection by sizes

Model of ic_count_highest_bit in util/ic_bitmap.c, and of what handle_return_write and
read_socket_connection in comm/ic_connection.c count for a buffer that has been sent or received.

* `ranges_never_agree` — for no size the index of the sender is one of the sixteen.

Scope limits: the sums of squares and the error code of the connection are left out.
-/

namespace IClaustron.Comm.SizeRanges

/-! ## Model -/

/-- The loop of `ic_count_highest_bit`, with `left` rounds to go. The test is a bitwise or. -/
def countLoop (bitVar : UInt32) : Nat → Nat → Nat → Nat
  | 0, _, bitInx => bitInx
  | left + 1, i, bitInx =>
    countLoop bitVar left (i + 1)
      (if bitVar ||| ((1 : UInt32) <<< UInt32.ofNat i) ≠ 0 then i + 1 else bitInx)

/-- `ic_count_highest_bit`. -/
def icCountHighestBit (bitVar : UInt32) : UInt32 := UInt32.ofNat (countLoop bitVar 32 0 0)

/-- The index that `handle_return_write` uses. -/
def sentRange (bufSize : UInt32) : UInt32 := icCountHighestBit (bufSize ||| 32) - 6

/-- The loop of `read_socket_connection`, with `left` rounds to go. -/
def recRangeLoop (retCode : Nat) : Nat → Nat → Nat → Nat
  | 0, i, _ => i
  | left + 1, i, rangeLimit =>
    if retCode < rangeLimit then i else recRangeLoop retCode left (i + 1) (rangeLimit <<< 1)

/-- The index that `read_socket_connection` uses. -/
def recRange (retCode : Nat) : Nat := recRangeLoop retCode 15 0 32

/-- `ic_connect_stat`. -/
structure ConnectStat where
  numSentBuffers : UInt64
  numSentBytes : UInt64
  numRecBuffers : UInt64
  numRecBytes : UInt64
  numSentBufRange : Vector UInt32 16
  numRecBufRange : Vector UInt32 16

/-- One more buffer in a range; `none` is a write behind the sixteen entries. -/
def countInRange (range : Vector UInt32 16) (i : Nat) : Option (Vector UInt32 16) :=
  if h : i < 16 then some (range.set i (range[i] + 1)) else none

/-- `handle_return_write` for a buffer that has been sent as a whole. -/
def countSent (stat : ConnectStat) (bufSize : UInt32) : Option ConnectStat := do
  let range ← countInRange stat.numSentBufRange (sentRange bufSize).toNat
  return { stat with
    numSentBuffers := stat.numSentBuffers + 1
    numSentBytes := stat.numSentBytes + bufSize.toUInt64
    numSentBufRange := range }

/-- `read_socket_connection` for `ret_code` bytes that have been received. -/
def countReceived (stat : ConnectStat) (retCode : Nat) : Option ConnectStat := do
  let range ← countInRange stat.numRecBufRange (recRange retCode)
  return { stat with
    numRecBuffers := stat.numRecBuffers + 1
    numRecBytes := stat.numRecBytes + UInt64.ofNat retCode
    numRecBufRange := range }

/-! ### The ranges -/

/-- The ranges of the comment: 0 to 31 bytes, 32 to 63 bytes and so forth, and in the last one 512
kBytes and more. -/
structure IsRange (i size : Nat) : Prop where
  inside : i < 16
  lower : i ≠ 0 → 2 ^ (i + 4) ≤ size
  upper : i ≠ 15 → size < 2 ^ (i + 5)

/-- What is asked of the two classifications for one size. -/
structure RangesAgree (bufSize : UInt32) : Prop where
  inside : (sentRange bufSize).toNat < 16
  same : bufSize.toNat < 2 ^ 31 → (sentRange bufSize).toNat = recRange bufSize.toNat
  isRange : IsRange (sentRange bufSize).toNat bufSize.toNat
  highest : (icCountHighestBit bufSize).toNat = bufSize.toNat.size

/-! ## Received buffers -/

/-- The limit of a round is the one of its range. -/
theorem recRangeLoop_isRange {retCode left i : Nat} (hLeft : left + i = 15)
    (hLower : i ≠ 0 → 2 ^ (i + 4) ≤ retCode) :
    IsRange (recRangeLoop retCode left i (2 ^ (i + 5))) retCode := by
  induction left generalizing i with
  | zero =>
    have hi : i = 15 := by omega
    rw [recRangeLoop]
    exact ⟨by omega, hLower, fun hLast => absurd hi hLast⟩
  | succ left ih =>
    rw [recRangeLoop]
    split_ifs with hSmall
    · exact ⟨by omega, hLower, fun _ => hSmall⟩
    · have hNext : 2 ^ (i + 5) <<< 1 = 2 ^ (i + 1 + 5) := by
        rw [Nat.shiftLeft_eq, ← Nat.pow_add]
      rw [hNext]
      exact ih (by omega) fun _ => Nat.not_lt.mp hSmall

theorem recRange_isRange (retCode : Nat) : IsRange (recRange retCode) retCode :=
  recRangeLoop_isRange rfl fun h => absurd rfl h

/-- A received buffer is counted. -/
theorem countReceived_isSome (stat : ConnectStat) (retCode : Nat) :
    (countReceived stat retCode).isSome := by
  unfold countReceived countInRange
  rw [dif_pos (recRange_isRange retCode).inside]
  rfl

/-! ## Sent buffers -/

/-- The number that is tested is never zero. -/
theorem or_shift_ne_zero (bitVar : UInt32) {i : Nat} (hi : i < 32) :
    bitVar ||| ((1 : UInt32) <<< UInt32.ofNat i) ≠ 0 := by
  have hShift : ∀ i : Fin 32, (1 : UInt32) <<< UInt32.ofNat i ≠ 0 := by decide
  intro hZero
  exact hShift ⟨i, hi⟩ (UInt32.or_eq_zero_iff.mp hZero).2

theorem countLoop_last (bitVar : UInt32) {left i bitInx : Nat} (h : left + i < 32) :
    countLoop bitVar (left + 1) i bitInx = left + i + 1 := by
  induction left generalizing i bitInx with
  | zero =>
    rw [countLoop, if_pos (or_shift_ne_zero bitVar (by omega)), countLoop, Nat.zero_add]
  | succ left ih =>
    rw [countLoop, ih (by omega)]
    omega

/-- Every number is said to have bit 31. -/
theorem icCountHighestBit_eq (bitVar : UInt32) : icCountHighestBit bitVar = 32 := by
  unfold icCountHighestBit
  rw [countLoop_last bitVar (by decide)]
  rfl

theorem sentRange_eq (bufSize : UInt32) : sentRange bufSize = 26 := by
  unfold sentRange
  rw [icCountHighestBit_eq]
  rfl

/-- A sent buffer is counted behind the sixteen entries. -/
theorem countSent_outside (stat : ConnectStat) (bufSize : UInt32) : countSent stat bufSize = none := by
  unfold countSent countInRange
  rw [sentRange_eq, dif_neg (by decide)]
  rfl

theorem highest_iff (bitVar : UInt32) :
    (icCountHighestBit bitVar).toNat = bitVar.toNat.size ↔ 2 ^ 31 ≤ bitVar.toNat := by
  have hLt : bitVar.toNat < 2 ^ 32 := bitVar.toNat_lt
  have hLe : bitVar.toNat.size ≤ 32 := Nat.size_le.mpr hLt
  have hEq : (icCountHighestBit bitVar).toNat = 32 := by
    rw [icCountHighestBit_eq]
    rfl
  rw [hEq, ← Nat.lt_size]
  omega

/-- Whatever the size is, the sender does not count in one of the sixteen ranges; the receiver
counts in the range of the comment; and the highest bit is right for the numbers that have bit 31
only. -/
theorem ranges_never_agree (bufSize : UInt32) (stat : ConnectStat) :
    ¬ RangesAgree bufSize ∧ countSent stat bufSize = none ∧
    IsRange (recRange bufSize.toNat) bufSize.toNat ∧
    (countReceived stat bufSize.toNat).isSome ∧
    ((icCountHighestBit bufSize).toNat = bufSize.toNat.size ↔ 2 ^ 31 ≤ bufSize.toNat) := by
  refine ⟨fun h => ?_, countSent_outside stat bufSize, recRange_isRange _,
    countReceived_isSome stat _, highest_iff bufSize⟩
  have hInside := h.inside
  rw [sentRange_eq] at hInside
  exact absurd hInside (by decide)

/-- A buffer of 100 bytes is one of the range from 64 to 127 bytes, with the index 2. -/
theorem hundred_bytes_outside : IsRange 2 100 ∧ recRange 100 = 2 ∧ sentRange 100 = 26 ∧
    ¬ RangesAgree 100 := by
  have hSent : sentRange 100 = 26 := by decide
  refine ⟨⟨by decide, fun _ => by decide, fun _ => by decide⟩, by decide, hSent, fun h => ?_⟩
  have hInside := h.inside
  rw [hSent] at hInside
  exact absurd hInside (by decide)

end IClaustron.Comm.SizeRanges
