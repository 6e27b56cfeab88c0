import IClaustron.Lib.Run
import Mathlib.Data.Nat.Basic

/-!
# Apid.AdaptiveSend — the statistics of the adaptive send algorithm

Model of api/ic_apid_adaptive_send.ic. The times of the last sends to a node are kept in an
array. Each send is compared with the send that the algorithm would have waited for, some
sends back; how far it looks back follows from the means of these waits. When the array is
full, its last entries are moved to its start.

* `runs_iff` — which sequences of calls stay in the array.
* `full_look_back` — a sequence of calls that does not.

Scope limits: `num_waits` and `first_buffered_timer`, which only the decision to wait looks
at.
-/

namespace IClaustron.Apid.AdaptiveSend

open Lib Option

/-- IC_MAX_SEND_TIMERS. -/
def maxSendTimers : Nat := 16

/-- IC_MAX_SENDS_TRACKED. -/
def maxSendsTracked : Nat := 8

/-- The array `last_send_timers`. -/
abbrev Timers := Vector UInt64 maxSendTimers

/-- The part of `IC_SEND_NODE_CONNECTION` with the statistics. -/
structure SendNodeConnection where
  maxWaitInNanos : UInt64
  maxNumWaits : UInt32
  numStats : UInt32
  totCurrWaitTime : UInt64
  totWaitTimePlusOne : UInt64
  lastSendTimerIndex : UInt32
  lastSendTimers : Timers
  deriving DecidableEq

/-- A connection after it has been set up. -/
def initial (maxWaitInNanos : UInt64) : SendNodeConnection where
  maxWaitInNanos := maxWaitInNanos
  maxNumWaits := 0
  numStats := 0
  totCurrWaitTime := 0
  totWaitTimePlusOne := 0
  lastSendTimerIndex := 1
  lastSendTimers := Vector.replicate maxSendTimers 0

/-- A read outside of the array is not defined. -/
def readTimer (timers : Timers) (i : UInt32) : Option UInt64 := timers[i.toNat]?

/-- A write outside of the array is not defined. -/
def writeTimer (timers : Timers) (i : UInt32) (time : UInt64) : Option Timers :=
  if h : i.toNat < maxSendTimers then some (timers.set i.toNat time h) else none

/-- The loop that moves the last entries to the start of the array. -/
def compress : Nat → UInt32 → Timers → Option (UInt32 × Timers)
  | 0, lastSendTimerIndex, timers => some (lastSendTimerIndex, timers)
  | left + 1, lastSendTimerIndex, timers => do
    let lastSendTimerIndex := lastSendTimerIndex - 1
    let newSendTimerIndex := lastSendTimerIndex - UInt32.ofNat maxSendsTracked
    let time ← readTimer timers lastSendTimerIndex
    let timers ← writeTimer timers newSendTimerIndex time
    compress left lastSendTimerIndex timers

namespace SendNodeConnection

variable (c : SendNodeConnection)

/-- The entry that the current look-back leads to. -/
def timerIndex1 : UInt32 := c.lastSendTimerIndex - c.maxNumWaits

/-- The entry that a look-back that is longer by one leads to. -/
def timerIndex2 : UInt32 := c.lastSendTimerIndex - (c.maxNumWaits + 1)

/-- The index after the last one, with the array compressed when it is full. -/
def nextTimerIndex : Option (UInt32 × Timers) :=
  let lastSendTimerIndex := c.lastSendTimerIndex + 1
  if lastSendTimerIndex = UInt32.ofNat maxSendTimers then
    compress maxSendsTracked lastSendTimerIndex c.lastSendTimers
  else some (lastSendTimerIndex, c.lastSendTimers)

/-- `adaptive_send_algorithm_statistics`. -/
def statistics (currentTime : UInt64) : Option SendNodeConnection := do
  let startTime1 ← readTimer c.lastSendTimers c.timerIndex1
  let startTime2 ← readTimer c.lastSendTimers c.timerIndex2
  let next ← c.nextTimerIndex
  let timers ← writeTimer next.2 next.1 currentTime
  return { c with
    totCurrWaitTime := c.totCurrWaitTime + (currentTime - startTime1)
    totWaitTimePlusOne := c.totWaitTimePlusOne + (currentTime - startTime2)
    numStats := c.numStats + 1
    lastSendTimerIndex := next.1
    lastSendTimers := timers }

/-- The new look-back for the two means. -/
def adjustedNumWaits (meanCurrWaitTime meanWaitTimePlusOne : UInt64) : UInt32 :=
  let limit := c.maxWaitInNanos / 2
  let fewer :=
    if limit < meanCurrWaitTime ∧ 0 < c.maxNumWaits then c.maxNumWaits - 1 else c.maxNumWaits
  if meanWaitTimePlusOne < limit ∧ fewer < UInt32.ofNat maxSendsTracked then fewer + 1 else fewer

/-- The part of `adaptive_send_algorithm_adjust` behind the statistics; a division by zero is not
defined. -/
def adjustNumWaits : Option SendNodeConnection :=
  if c.numStats = 0 then none
  else
    some { c with
      maxNumWaits := c.adjustedNumWaits (c.totCurrWaitTime / c.numStats.toUInt64)
        (c.totWaitTimePlusOne / c.numStats.toUInt64)
      totCurrWaitTime := 0
      totWaitTimePlusOne := 0
      numStats := 0 }

/-- `adaptive_send_algorithm_adjust`. -/
def adjust (currentTime : UInt64) : Option SendNodeConnection := do
  let c ← c.statistics currentTime
  c.adjustNumWaits

end SendNodeConnection

/-! ## Sequences of calls -/

/-- A call, with what the clock says. -/
inductive Call where
  | statistics (currentTime : UInt64)
  | adjust (currentTime : UInt64)
  deriving DecidableEq

def Call.time : Call → UInt64
  | statistics currentTime => currentTime
  | adjust currentTime => currentTime

/-- A connection with the times of all its sends, the last one first. -/
structure State where
  conn : SendNodeConnection
  sends : List UInt64
  deriving DecidableEq

/-- A call is made; `none` when it does something that is not defined. -/
def step (s : State) (call : Call) : Option State :=
  (match call with
    | .statistics currentTime => s.conn.statistics currentTime
    | .adjust currentTime => s.conn.adjust currentTime).map (⟨·, call.time :: s.sends⟩)

def start (maxWaitInNanos : UInt64) : State := ⟨initial maxWaitInNanos, []⟩

/-- What a call should do: both indices are in the array, and lead to the sends that were made so many
sends ago (0 before the first sends); the index that is written is in the array; and nothing is
divided by zero. -/
structure CallOk (s : State) (call : Call) : Prop where
  first : readTimer s.conn.lastSendTimers s.conn.timerIndex1 =
    some (s.sends.getD s.conn.maxNumWaits.toNat 0)
  second : readTimer s.conn.lastSendTimers s.conn.timerIndex2 =
    some (s.sends.getD (s.conn.maxNumWaits.toNat + 1) 0)
  written : ∃ next, s.conn.nextTimerIndex = some next ∧ next.1.toNat < maxSendTimers
  divisor : ∀ currentTime, call = .adjust currentTime → s.conn.numStats + 1 ≠ 0

/-- The longest look-back, with an array that has just been compressed. -/
def SendNodeConnection.Tight (c : SendNodeConnection) : Prop :=
  c.maxNumWaits.toNat = maxSendsTracked ∧ c.lastSendTimerIndex.toNat = maxSendsTracked

/-- A call finds its sends in the array, and the number of statistics has not come around. -/
def Fits (s : State) (call : Call) : Prop :=
  ¬ s.conn.Tight ∧ ∀ currentTime, call = .adjust currentTime → s.conn.numStats.toNat ≠ 2 ^ 32 - 1

/-! ## The array -/

theorem readTimer_of_lt (timers : Timers) {i : UInt32} (h : i.toNat < maxSendTimers) :
    ∃ time, readTimer timers i = some time :=
  ⟨_, Vector.getElem?_eq_getElem h⟩

/-- A write changes one entry. -/
theorem writeTimer_of_lt (timers : Timers) (time : UInt64) {i : UInt32}
    (h : i.toNat < maxSendTimers) : ∃ timers', writeTimer timers i time = some timers' ∧
      timers'[i.toNat]? = some time ∧ ∀ j, j ≠ i.toNat → timers'[j]? = timers[j]? := by
  unfold writeTimer
  rw [dif_pos h]
  refine ⟨_, rfl, ?_, ?_⟩
  · simp [h]
  · intro j hj
    rw [Vector.getElem?_set_ne h hj.symm]

theorem toNat_pred {i : UInt32} {n : Nat} (h : i.toNat = n + 1) : (i - 1).toNat = n := by
  have hLe : (1 : UInt32) ≤ i := by
    rw [UInt32.le_iff_toNat_le, h]
    exact Nat.succ_le_succ (Nat.zero_le n)
  rw [UInt32.toNat_sub_of_le _ _ hLe, h]
  rfl

theorem toNat_sub_tracked {i : UInt32} {n : Nat} (h : i.toNat = maxSendsTracked + n) :
    (i - UInt32.ofNat maxSendsTracked).toNat = n := by
  have hLe : UInt32.ofNat maxSendsTracked ≤ i := by
    rw [UInt32.le_iff_toNat_le, h]
    exact Nat.le_add_right _ _
  rw [UInt32.toNat_sub_of_le _ _ hLe, h]
  exact Nat.add_sub_cancel_left ..

/-- The loop moves the entries behind the first eight, from the last one on. -/
theorem compress_spec (left : Nat) (i : UInt32) (timers : Timers) (hLeft : left ≤ maxSendsTracked)
    (hi : i.toNat = maxSendsTracked + left) :
    ∃ i' timers', compress left i timers = some (i', timers') ∧ i'.toNat = maxSendsTracked ∧
      (∀ j, j < left → timers'[j]? = timers[j + maxSendsTracked]?) ∧
      ∀ j, left ≤ j → timers'[j]? = timers[j]? := by
  induction left generalizing i timers with
  | zero => exact ⟨i, timers, rfl, hi, fun j hj => absurd hj (Nat.not_lt_zero j), fun _ _ => rfl⟩
  | succ left ih =>
    have hLast : (i - 1).toNat = maxSendsTracked + left := toNat_pred hi
    have hNew := toNat_sub_tracked hLast
    have hSmall : maxSendsTracked + left < maxSendTimers := by
      unfold maxSendsTracked maxSendTimers at *
      omega
    rcases readTimer_of_lt timers (hLast ▸ hSmall) with ⟨time, hRead⟩
    rcases writeTimer_of_lt timers time
        (by rw [hNew]; exact Nat.lt_of_le_of_lt (Nat.le_add_left _ _) hSmall) with
      ⟨timers₁, hWrite, hSet, hOther⟩
    rw [hNew] at hSet hOther
    rcases ih (i - 1) timers₁ (Nat.le_of_succ_le hLeft) hLast with
      ⟨i', timers', hRest, hi', hMoved, hKept⟩
    refine ⟨i', timers', ?_, hi', ?_, ?_⟩
    · unfold compress
      simp only [hRead, hWrite, bind_eq_bind, bind_some]
      exact hRest
    · intro j hj
      rcases Nat.lt_succ_iff_lt_or_eq.mp hj with hj | rfl
      · -- what is read here has not been written by the rounds before
        rw [hMoved j hj, hOther]
        omega
      · rw [hKept j le_rfl, hSet, ← hRead, readTimer, hLast, Nat.add_comm]
    · intro j hj
      rw [hKept j (Nat.le_of_succ_le hj), hOther j (Nat.ne_of_gt hj)]

/-! ## The invariant -/

/-- The entry at a distance from the last index is the send so many sends ago, and the look-back is
shorter than the array, unless the connection is tight. -/
structure Inv (s : State) : Prop where
  last_lt : s.conn.lastSendTimerIndex.toNat < maxSendTimers
  tracked : s.conn.maxNumWaits.toNat ≤ maxSendsTracked
  room : s.conn.maxNumWaits.toNat < s.conn.lastSendTimerIndex.toNat ∨ s.conn.Tight
  entries : ∀ k ≤ s.conn.lastSendTimerIndex.toNat,
    s.conn.lastSendTimers[s.conn.lastSendTimerIndex.toNat - k]? = some (s.sends.getD k 0)

theorem start_inv (maxWaitInNanos : UInt64) : Inv (start maxWaitInNanos) where
  last_lt := show (1 : UInt32).toNat < maxSendTimers by decide
  tracked := show (0 : UInt32).toNat ≤ maxSendsTracked by decide
  room := .inl (show (0 : UInt32).toNat < (1 : UInt32).toNat by decide)
  entries := by
    intro k _
    show (Vector.replicate maxSendTimers (0 : UInt64))[1 - k]? = some 0
    rw [Vector.getElem?_replicate, if_pos]
    exact Nat.lt_of_le_of_lt (Nat.sub_le 1 k) (by decide)

variable {s : State}

theorem Inv.read (h : Inv s) {i : UInt32} {k : Nat} (hk : k ≤ s.conn.lastSendTimerIndex.toNat)
    (hi : i.toNat = s.conn.lastSendTimerIndex.toNat - k) :
    readTimer s.conn.lastSendTimers i = some (s.sends.getD k 0) := by
  rw [readTimer, hi]
  exact h.entries k hk

theorem Inv.toNat_plus_one (h : Inv s) :
    (s.conn.maxNumWaits + 1).toNat = s.conn.maxNumWaits.toNat + 1 := by
  have := h.tracked
  unfold maxSendsTracked at this
  rw [UInt32.toNat_add]
  exact Nat.mod_eq_of_lt (show s.conn.maxNumWaits.toNat + 1 < 2 ^ 32 by omega)

theorem Inv.first (h : Inv s) : readTimer s.conn.lastSendTimers s.conn.timerIndex1 =
    some (s.sends.getD s.conn.maxNumWaits.toNat 0) := by
  have hLe : s.conn.maxNumWaits.toNat ≤ s.conn.lastSendTimerIndex.toNat := by
    rcases h.room with hRoom | ⟨hMax, hLast⟩
    · exact Nat.le_of_lt hRoom
    · rw [hMax, hLast]
  exact h.read hLe (UInt32.toNat_sub_of_le _ _ (UInt32.le_iff_toNat_le.mpr hLe))

/-- One entry more is there unless the connection is tight. -/
theorem Inv.second (h : Inv s) (hFits : ¬ s.conn.Tight) :
    readTimer s.conn.lastSendTimers s.conn.timerIndex2 =
      some (s.sends.getD (s.conn.maxNumWaits.toNat + 1) 0) := by
  have hRoom := h.room.resolve_right hFits
  refine h.read hRoom ?_
  rw [← h.toNat_plus_one]
  refine UInt32.toNat_sub_of_le _ _ (UInt32.le_iff_toNat_le.mpr ?_)
  rw [h.toNat_plus_one]
  exact hRoom

/-- The entry in front of the first one. -/
theorem second_of_tight {c : SendNodeConnection} (h : c.Tight) :
    readTimer c.lastSendTimers c.timerIndex2 = none := by
  have hMax : c.maxNumWaits = 8 := UInt32.toNat_inj.mp h.1
  have hLast : c.lastSendTimerIndex = 8 := UInt32.toNat_inj.mp h.2
  unfold readTimer SendNodeConnection.timerIndex2
  rw [hMax, hLast]
  exact Vector.getElem?_eq_none (by decide)

/-- The next index is in the array, with the sends in front of it. -/
theorem Inv.next (h : Inv s) : ∃ i timers, s.conn.nextTimerIndex = some (i, timers) ∧
    i.toNat < maxSendTimers ∧
    (i.toNat = s.conn.lastSendTimerIndex.toNat + 1 ∨ i.toNat = maxSendsTracked) ∧
    ∀ k < i.toNat, timers[i.toNat - (k + 1)]? = some (s.sends.getD k 0) := by
  have hLast := h.last_lt
  have hNext : (s.conn.lastSendTimerIndex + 1).toNat = s.conn.lastSendTimerIndex.toNat + 1 := by
    unfold maxSendTimers at hLast
    rw [UInt32.toNat_add]
    exact Nat.mod_eq_of_lt (show s.conn.lastSendTimerIndex.toNat + 1 < 2 ^ 32 by omega)
  unfold SendNodeConnection.nextTimerIndex
  dsimp only
  split_ifs with hFull
  · have hEnd : (s.conn.lastSendTimerIndex + 1).toNat = maxSendsTracked + maxSendsTracked := by
      rw [hFull]
      rfl
    rcases compress_spec maxSendsTracked _ s.conn.lastSendTimers le_rfl hEnd with
      ⟨i, timers, hCompress, hi, hMoved, -⟩
    refine ⟨i, timers, hCompress, ?_, .inr hi, ?_⟩
    · rw [hi]
      decide
    · intro k hk
      rw [hi] at hk ⊢
      rw [hMoved _ (by omega), ← h.entries k (by omega)]
      congr 1
      omega
  · refine ⟨_, _, rfl, ?_, .inl hNext, ?_⟩
    · refine Nat.lt_of_le_of_ne (hNext ▸ hLast) fun hEq => hFull (UInt32.toNat_inj.mp ?_)
      rw [hEq]
      rfl
    · intro k hk
      rw [hNext] at hk ⊢
      rw [Nat.add_sub_add_right]
      exact h.entries k (Nat.le_of_lt_succ hk)

/-- A longer look-back that is still tracked has room when the last index has gone on, and is tight
when the array has been compressed. -/
theorem Inv.of_entries {c : SendNodeConnection} {sends : List UInt64}
    (hLast : c.lastSendTimerIndex.toNat < maxSendTimers)
    (hTracked : c.maxNumWaits.toNat ≤ maxSendsTracked)
    (hRoom : c.maxNumWaits.toNat < c.lastSendTimerIndex.toNat ∨
      c.lastSendTimerIndex.toNat = maxSendsTracked)
    (hEntries : ∀ k ≤ c.lastSendTimerIndex.toNat,
      c.lastSendTimers[c.lastSendTimerIndex.toNat - k]? = some (sends.getD k 0)) :
    Inv ⟨c, sends⟩ where
  last_lt := hLast
  tracked := hTracked
  room := by
    rcases hRoom with hRoom | hEnd
    · exact .inl hRoom
    · rcases Nat.lt_or_eq_of_le hTracked with hLt | hEq
      · exact .inl (hEnd ▸ hLt)
      · exact .inr ⟨hEq, hEnd⟩
  entries := hEntries

/-- What the statistics do to a connection that is not tight. -/
theorem Inv.statistics (h : Inv s) (hFits : ¬ s.conn.Tight) (currentTime : UInt64) :
    ∃ c, s.conn.statistics currentTime = some c ∧ Inv ⟨c, currentTime :: s.sends⟩ ∧
      c.maxNumWaits = s.conn.maxNumWaits ∧ c.numStats = s.conn.numStats + 1 ∧
      (s.conn.maxNumWaits.toNat + 1 < c.lastSendTimerIndex.toNat ∨
        c.lastSendTimerIndex.toNat = maxSendsTracked) := by
  rcases h.next with ⟨i, timers, hNext, hi, hIndex, hEntries⟩
  rcases writeTimer_of_lt timers currentTime hi with ⟨timers', hWrite, hNew, hOld⟩
  have hRoom : s.conn.maxNumWaits.toNat + 1 < i.toNat ∨ i.toNat = maxSendsTracked := by
    rcases hIndex with hIndex | hIndex
    · rw [hIndex]
      exact .inl (Nat.succ_lt_succ (h.room.resolve_right hFits))
    · exact .inr hIndex
  have hStep : s.conn.statistics currentTime = some { s.conn with
      totCurrWaitTime := s.conn.totCurrWaitTime +
        (currentTime - s.sends.getD s.conn.maxNumWaits.toNat 0)
      totWaitTimePlusOne := s.conn.totWaitTimePlusOne +
        (currentTime - s.sends.getD (s.conn.maxNumWaits.toNat + 1) 0)
      numStats := s.conn.numStats + 1
      lastSendTimerIndex := i
      lastSendTimers := timers' } := by
    unfold SendNodeConnection.statistics
    simp only [h.first, h.second hFits, hNext, hWrite, bind_eq_bind, bind_some]
    rfl
  refine ⟨_, hStep, Inv.of_entries hi h.tracked (hRoom.imp_left Nat.lt_of_succ_lt) ?_, rfl, rfl,
    hRoom⟩
  rintro (_ | k) hk
  · exact hNew
  · show timers'[i.toNat - (k + 1)]? = some (s.sends.getD k 0)
    change k + 1 ≤ i.toNat at hk
    rw [hOld _ (by omega)]
    exact hEntries k hk

theorem toNat_adjustedNumWaits (h : Inv s) {c : SendNodeConnection}
    (hMax : c.maxNumWaits = s.conn.maxNumWaits) (mean mean' : UInt64) :
    (c.adjustedNumWaits mean mean').toNat ≤ s.conn.maxNumWaits.toNat + 1 ∧
      (c.adjustedNumWaits mean mean').toNat ≤ maxSendsTracked := by
  have hTracked := h.tracked
  have hFewer : ∀ w : UInt32, w.toNat ≤ s.conn.maxNumWaits.toNat →
      (if mean' < c.maxWaitInNanos / 2 ∧ w < UInt32.ofNat maxSendsTracked then w + 1 else w).toNat ≤
          s.conn.maxNumWaits.toNat + 1 ∧
        (if mean' < c.maxWaitInNanos / 2 ∧ w < UInt32.ofNat maxSendsTracked then w + 1
          else w).toNat ≤ maxSendsTracked := by
    intro w hw
    split_ifs with hMore
    · have hLt : w.toNat < maxSendsTracked := UInt32.lt_iff_toNat_lt.mp hMore.2
      have hAdd : (w + 1).toNat = w.toNat + 1 := by
        unfold maxSendsTracked at hLt
        rw [UInt32.toNat_add]
        exact Nat.mod_eq_of_lt (show w.toNat + 1 < 2 ^ 32 by omega)
      rw [hAdd]
      exact ⟨Nat.succ_le_succ hw, hLt⟩
    · exact ⟨Nat.le_succ_of_le hw, Nat.le_trans hw hTracked⟩
  unfold SendNodeConnection.adjustedNumWaits
  dsimp only
  rw [hMax]
  refine hFewer _ ?_
  split_ifs with hLess
  · have hPos : (1 : UInt32) ≤ s.conn.maxNumWaits :=
      UInt32.le_iff_toNat_le.mpr (UInt32.lt_iff_toNat_lt.mp hLess.2)
    rw [UInt32.toNat_sub_of_le _ _ hPos]
    exact Nat.sub_le _ _
  · exact le_rfl

/-- One is added to the number of statistics; it comes around at 2^32. -/
theorem numStats_ne_zero {n : UInt32} : n + 1 ≠ 0 ↔ n.toNat ≠ 2 ^ 32 - 1 := by
  rw [ne_eq, ne_eq, ← UInt32.toNat_inj, UInt32.toNat_add]
  have hLt := n.toNat_lt
  show ¬ (n.toNat + 1) % 2 ^ 32 = 0 ↔ _
  omega

theorem Inv.adjust (h : Inv s) (hFits : ¬ s.conn.Tight)
    (hStats : s.conn.numStats.toNat ≠ 2 ^ 32 - 1) (currentTime : UInt64) :
    ∃ c, s.conn.adjust currentTime = some c ∧ Inv ⟨c, currentTime :: s.sends⟩ := by
  rcases h.statistics hFits currentTime with ⟨c, hStatistics, hInv, hMax, hNum, hRoom⟩
  unfold SendNodeConnection.adjust
  simp only [hStatistics, bind_eq_bind, bind_some]
  unfold SendNodeConnection.adjustNumWaits
  rw [if_neg (hNum ▸ numStats_ne_zero.mpr hStats)]
  have hWaits := toNat_adjustedNumWaits h hMax (c.totCurrWaitTime / c.numStats.toUInt64)
    (c.totWaitTimePlusOne / c.numStats.toUInt64)
  refine ⟨_, rfl, Inv.of_entries hInv.last_lt hWaits.2 ?_ hInv.entries⟩
  exact hRoom.imp_left (Nat.lt_of_le_of_lt hWaits.1)

/-! ## Runs -/

/-- A call that fits is made, and keeps the invariant. -/
theorem Inv.step (h : Inv s) {call : Call} (hFits : Fits s call) :
    ∃ s', step s call = some s' ∧ Inv s' := by
  cases call with
  | statistics currentTime =>
    rcases h.statistics hFits.1 currentTime with ⟨c, hStep, hInv, -⟩
    refine ⟨_, ?_, hInv⟩
    unfold AdaptiveSend.step
    dsimp only
    rw [hStep]
    rfl
  | adjust currentTime =>
    rcases h.adjust hFits.1 (hFits.2 currentTime rfl) currentTime with ⟨c, hStep, hInv⟩
    refine ⟨_, ?_, hInv⟩
    unfold AdaptiveSend.step
    dsimp only
    rw [hStep]
    rfl

theorem Inv.callOk_iff (h : Inv s) (call : Call) : CallOk s call ↔ Fits s call := by
  constructor
  · intro hOk
    refine ⟨fun hTight => ?_, fun currentTime hCall => numStats_ne_zero.mp (hOk.divisor _ hCall)⟩
    have hSecond := hOk.second
    rw [second_of_tight hTight] at hSecond
    cases hSecond
  · intro hFits
    rcases h.next with ⟨i, timers, hNext, hi, -⟩
    constructor
    · exact h.first
    · exact h.second hFits.1
    · exact ⟨_, hNext, hi⟩
    · exact fun currentTime hCall => numStats_ne_zero.mpr (hFits.2 currentTime hCall)

/-- The calls find their sends in the array exactly if none of them comes when the look-back is longest
and the array has just been compressed, and no adjustment after 2^32 - 1 statistics. -/
theorem runs_iff (maxWaitInNanos : UInt64) (calls : List Call) :
    Run.Runs step CallOk (start maxWaitInNanos) calls ↔
      Run.Meets step Fits (start maxWaitInNanos) calls :=
  Run.runs_iff_meets step Inv (fun _ call h => h.callOk_iff call) (fun _ _ h hFits => h.step hFits)
    calls (start_inv maxWaitInNanos)

/-- Fifteen adjustments without any wait make the connection tight; the next call reads in front of the
array. -/
theorem full_look_back : ¬ Run.Runs step CallOk (start 2) (List.replicate 16 (.adjust 0)) := by
  intro h
  rcases Run.exec_of_runs step h with ⟨s', hRun⟩
  have hNone : Run.exec step (start 2) (List.replicate 16 (.adjust 0)) = none := by
    decide +kernel
  rw [hNone] at hRun
  cases hRun

end IClaustron.Apid.AdaptiveSend
