import IClaustron.Apid.MessageCodec
import Mathlib.Logic.Function.Basic
import Mathlib.Order.Basic

/-!
# Apid.Fragmentation — messages that are sent in fragments

Model of `send_message` and `send_fragmented_message` of api/ic_apid_send_message.ic. A message
has up to four segments. The first one is sent with each fragment; of the others a fragment takes
as much as it may, and the pointer is moved behind it.

* `sendMessage_fits` — a fragment is written, or `fill_ndb_message_header` stops the process.
* `sendFrom_data` — the words that are sent of a segment: after each full fragment the pointer
  is 240 bytes further, and not 240 words.
* `preserved_iff` — which messages are sent as they should be.
* `second_fragment_repeats` — a segment of 241 words.

Scope limits: how `ndb_send` puts the page into the queue of the node; only its return code is
looked at. A fragment for which `send_message` fails has not been sent. The main message is copied
before its size is looked at; a size that stops the process does so here before the copy.
-/

namespace IClaustron.Apid.Fragmentation

open List Function
open MessageCodec (Link Outgoing fillNdbMessageHeader numberMessages totMessageSize
  ndbMaxMainMessageSize maxModuleId ndbMaxModuleId)

/-- IC_MAX_SEGMENT_SIZE_PER_FRAGMENT, in words. -/
def maxSegmentSizePerFragment : Nat := 240

/-- ONLY_FRAGMENT, FIRST_FRAGMENT, IN_THE_MIDDLE_FRAGMENT and LAST_FRAGMENT. -/
inductive FragmentFlag where
  | only
  | first
  | inTheMiddle
  | last
  deriving DecidableEq

/-- A pointer into the memory of a segment, as an offset in bytes, or NULL; and a size in words. -/
structure Segment where
  ptr : Option Nat
  size : UInt32
  deriving DecidableEq

/-- Arrays of segments by their numbers. -/
abbrev Segments := Nat → Segment

def FragmentFlag.code : FragmentFlag → UInt32
  | .only => 0
  | .first => 1
  | .inTheMiddle => 2
  | .last => 3

/-- The arguments of `send_message` that change from one fragment to the next. -/
structure Fragment where
  segments : Segments
  flag : FragmentFlag

/-- A word in the memory of a segment. -/
def readWord (bytes : Nat → UInt8) (offset : Nat) : UInt32 :=
  (bytes offset).toUInt32 + (bytes (offset + 1)).toUInt32 * 256 +
    (bytes (offset + 2)).toUInt32 * 65536 + (bytes (offset + 3)).toUInt32 * 16777216

def readWords (bytes : Nat → UInt8) (offset n : Nat) : List UInt32 :=
  (List.range n).map fun i => readWord bytes (offset + 4 * i)

/-- What is copied of a segment. -/
def Segment.data (bytes : Nat → UInt8) (seg : Segment) : List UInt32 :=
  seg.ptr.elim [] fun offset => readWords bytes offset seg.size.toNat

/-! ## Sending -/

/-- IC_ERROR_MEM_ALLOC and IC_ERROR_NODE_DOWN. -/
def errorMemAlloc : Nat := 7005
def errorNodeDown : Nat := 7021

/-- The other arguments of `send_message`, and what belongs to the connection. -/
structure Call where
  byteOrder : Bool
  link : Link
  threadId : UInt32
  messageId : UInt32
  receiverModuleId : UInt32

/-- What a `send_message` meets: whether it gets a page, the return code of
`map_id_to_send_node_connection`, the counter of the node, whether `ndb_send` finds the node down, the
number it gives to the message, and its return code when the node is up. -/
structure Outcome where
  page : Bool
  mapped : Nat
  sequenceId : UInt32
  nodeDown : Bool
  number : UInt32
  result : Nat

/-- The arguments of `fill_ndb_message_header`, with IC_NDB_NORMAL_PRIO. -/
def Fragment.message (c : Call) (memory : Nat → Nat → UInt8) (numSegments : Nat) (f : Fragment) :
    MessageCodec.Message where
  messageId := c.messageId
  messagePriority := 0
  senderModuleId := c.threadId
  receiverModuleId := c.receiverModuleId
  main := (f.segments 0).data (memory 0)
  segments := (List.range (numSegments - 1)).map fun i => (f.segments (i + 1)).data (memory (i + 1))
  fragmentFlag := f.flag.code

/-- How a `send_message` ends: with these words in the queue of the node, with an error, or in a failed
ic_require. -/
inductive Ret where
  | sent (words : List UInt32)
  | failed (code : Nat)
  | aborted

/-- `send_message`. -/
def sendMessage (c : Call) (memory : Nat → Nat → UInt8) (numSegments : Nat) (o : Outcome)
    (f : Fragment) : Ret :=
  if !o.page then .failed errorMemAlloc
  else if o.mapped ≠ 0 then .failed o.mapped
  else match fillNdbMessageHeader c.byteOrder c.link o.sequenceId
      (f.message c memory numSegments) with
    | none => .aborted
    | some words =>
      if o.nodeDown then .failed errorNodeDown
      else match numberMessages c.link o.number [words] with
        | none => .aborted
        | some (pages, _) => if o.result = 0 then .sent pages.flatten else .failed o.result

/-- `init_segment_ptrs`. -/
def initSegmentPtrs (first : Segment) : Segments := fun k => if k = 0 then first else ⟨none, 0⟩

/-- The first words of a segment that is too large, and what is left of it. -/
def Segment.head (seg : Segment) : Segment := ⟨seg.ptr, UInt32.ofNat maxSegmentSizePerFragment⟩

def Segment.rest (seg : Segment) : Segment :=
  ⟨seg.ptr.map (· + maxSegmentSizePerFragment), seg.size - UInt32.ofNat maxSegmentSizePerFragment⟩

/-- How `send_fragmented_message` ends. -/
inductive Ending where
  | done
  | failed (code : Nat)
  | aborted

/-- A fragment, and the words it was sent in. -/
structure Sent where
  fragment : Fragment
  words : List UInt32

/-- A fragment is sent; when `send_message` fails, nothing more is. -/
def thenSend (ret : Ret) (fragment : Fragment) (next : Ending × List Sent) : Ending × List Sent :=
  match ret with
  | .sent words => (next.1, ⟨fragment, words⟩ :: next.2)
  | .failed code => (.failed code, [])
  | .aborted => (.aborted, [])

variable {seg : Segment} {bytes : Nat → UInt8} {size : Nat}

theorem toNat_rest (h : ¬ seg.size.toNat < maxSegmentSizePerFragment) :
    seg.rest.size.toNat = seg.size.toNat - maxSegmentSizePerFragment := by
  have hLe : UInt32.ofNat maxSegmentSizePerFragment ≤ seg.size :=
    UInt32.le_iff_toNat_le.mpr (Nat.le_of_not_lt h)
  exact UInt32.toNat_sub_of_le _ _ hLe

/-- The loops of `send_fragmented_message`, from one segment on. `sent` is the number of the messages
sent before, and `send` is `send_message` for each of them. -/
def sendFrom (send : Nat → Fragment → Ret) (numSegments sent : Nat) (segments loc : Segments)
    (currentSegment : Nat) (first : Bool) (h : currentSegment < numSegments) : Ending × List Sent :=
  if hSize : (segments currentSegment).size.toNat < maxSegmentSizePerFragment then
    if hLast : currentSegment + 1 = numSegments then
      let fragment : Fragment := ⟨update loc currentSegment (segments currentSegment),
        if first then .only else .last⟩
      thenSend (send sent fragment) fragment (.done, [])
    else
      sendFrom send numSegments sent segments
        (update loc currentSegment (segments currentSegment)) (currentSegment + 1) first
        (Nat.lt_of_le_of_ne h hLast)
  else
    let fragment : Fragment := ⟨update loc currentSegment (segments currentSegment).head,
      if first then .first else .inTheMiddle⟩
    thenSend (send sent fragment) fragment
      (sendFrom send numSegments (sent + 1)
        (update segments currentSegment (segments currentSegment).rest)
        (initSegmentPtrs (segments 0)) currentSegment false h)
  termination_by (numSegments - currentSegment, (segments currentSegment).size.toNat)
  decreasing_by
    · exact Prod.Lex.left _ _ (Nat.sub_lt_sub_left h (Nat.lt_succ_self _))
    · refine Prod.Lex.right _ ?_
      rw [update_self, toNat_rest hSize]
      unfold maxSegmentSizePerFragment at *
      omega

/-- A message with two to four segments of any sizes. -/
structure Message where
  numSegments : Nat
  sizes : Nat → UInt32
  two_le : 2 ≤ numSegments
  le_four : numSegments ≤ 4

def Message.segments (m : Message) : Segments := fun k => ⟨some 0, m.sizes k⟩

/-- `send_fragmented_message`: how it ends, and the messages that were sent. -/
def sendFragmentedMessage (c : Call) (m : Message) (memory : Nat → Nat → UInt8)
    (outcomes : Nat → Outcome) : Ending × List Sent :=
  sendFrom (fun n f => sendMessage c memory m.numSegments (outcomes n) f) m.numSegments 0 m.segments
    (initSegmentPtrs (m.segments 0)) 1 true m.two_le

/-- The words are those that `fill_ndb_message_header` and `ndb_send` write for the fragment. -/
def Sent.Written (c : Call) (m : Message) (memory : Nat → Nat → UInt8) (s : Sent) : Prop :=
  ∃ sequenceId number next words,
    fillNdbMessageHeader c.byteOrder c.link sequenceId
      (s.fragment.message c memory m.numSegments) = some words ∧
    numberMessages c.link number [words] = some ([s.words], next)

/-- What should be sent. The words of a segment are compared when no message has failed. -/
structure Preserved (c : Call) (m : Message) (memory : Nat → Nat → UInt8)
    (sent : Ending × List Sent) : Prop where
  running : sent.1 ≠ .aborted
  written : ∀ s ∈ sent.2, s.Written c m memory
  first : ∀ s ∈ sent.2, s.fragment.segments 0 = m.segments 0
  bounded : ∀ s ∈ sent.2, ∀ k, 0 < k →
    (s.fragment.segments k).size.toNat ≤ maxSegmentSizePerFragment
  data : sent.1 = .done → ∀ k, 0 < k → k < m.numSegments →
    sent.2.flatMap (fun s => (s.fragment.segments k).data (memory k)) =
      (m.segments k).data (memory k)
  flags : sent.1 = .done → sent.2.map (fun s => s.fragment.flag) = [.only] ∨
    ∃ n, sent.2.map (fun s => s.fragment.flag) = .first :: (List.replicate n .inTheMiddle ++ [.last])

/-! ## Flags and sizes -/

variable {send : Nat → Fragment → Ret} {numSegments sent : Nat} {segments loc : Segments}
  {currentSegment : Nat} {first : Bool} {h : currentSegment < numSegments}

def Ret.ending : Ret → Ending
  | .sent _ => .done
  | .failed code => .failed code
  | .aborted => .aborted

theorem thenSend_done {ret : Ret} {f : Fragment} {next : Ending × List Sent}
    (h : (thenSend ret f next).1 = .done) :
    next.1 = .done ∧ ∃ words, (thenSend ret f next).2 = ⟨f, words⟩ :: next.2 := by
  cases ret with
  | sent words => exact ⟨h, words, rfl⟩
  | failed code => cases h
  | aborted => cases h

theorem mem_thenSend {ret : Ret} {f : Fragment} {s : Sent} {next : Ending × List Sent}
    (h : s ∈ (thenSend ret f next).2) : (s.fragment = f ∧ ret = .sent s.words) ∨ s ∈ next.2 := by
  cases ret with
  | sent words =>
    rcases mem_cons.mp h with rfl | h
    · exact .inl ⟨rfl, rfl⟩
    · exact .inr h
  | failed code => cases h
  | aborted => cases h

/-- The last fragment is the one in which the last segment comes to its end. -/
theorem sendFrom_flags (hDone : (sendFrom send numSegments sent segments loc currentSegment first
      h).1 = .done) :
    let flags := (sendFrom send numSegments sent segments loc currentSegment first h).2.map
      fun s => s.fragment.flag
    (first = true ∧ (flags = [.only] ∨
      ∃ n, flags = .first :: (List.replicate n .inTheMiddle ++ [.last]))) ∨
    (first = false ∧ ∃ n, flags = List.replicate n .inTheMiddle ++ [.last]) := by
  fun_induction sendFrom send numSegments sent segments loc currentSegment first h with
  | case1 sent segments loc currentSegment first h hSize hLast fragment =>
    rcases thenSend_done hDone with ⟨-, words, hSent⟩
    dsimp only
    rw [hSent]
    cases first with
    | true => exact .inl ⟨rfl, .inl rfl⟩
    | false => exact .inr ⟨rfl, 0, rfl⟩
  | case2 sent segments loc currentSegment first h hSize hLast ih => exact ih hDone
  | case3 sent segments loc currentSegment first h hSize fragment ih =>
    rcases thenSend_done hDone with ⟨hNext, words, hSent⟩
    rcases ih hNext with ⟨hFirst, -⟩ | ⟨-, n, hFlags⟩
    · cases hFirst
    · dsimp only at hFlags ⊢
      rw [hSent, map_cons, hFlags]
      cases first with
      | true => exact .inl ⟨rfl, .inr ⟨n, rfl⟩⟩
      | false => exact .inr ⟨rfl, n + 1, rfl⟩

/-- The first segment is the one of the message, and of the others there is no more than fits. -/
structure Fits (first : Segment) (loc : Segments) : Prop where
  first : loc 0 = first
  bounded : ∀ k, 0 < k → (loc k).size.toNat ≤ maxSegmentSizePerFragment

theorem Fits.init (first : Segment) : Fits first (initSegmentPtrs first) := by
  refine ⟨rfl, fun k hk => ?_⟩
  rw [initSegmentPtrs, if_neg (Nat.ne_of_gt hk)]
  exact Nat.zero_le _

theorem Fits.update {first : Segment} (h : Fits first loc) (hPos : 0 < currentSegment)
    (hSize : seg.size.toNat ≤ maxSegmentSizePerFragment) :
    Fits first (update loc currentSegment seg) := by
  constructor
  · rw [update_of_ne (Nat.ne_of_lt hPos)]
    exact h.first
  · intro k hk
    by_cases hEq : k = currentSegment
    · rw [hEq, update_self]
      exact hSize
    · rw [update_of_ne hEq]
      exact h.bounded k hk

/-- All that is sent fits, and was sent by some `send_message`. -/
theorem sendFrom_sent (hPos : 0 < currentSegment) (hLoc : Fits (segments 0) loc) :
    ∀ s ∈ (sendFrom send numSegments sent segments loc currentSegment first h).2,
      Fits (segments 0) s.fragment.segments ∧ ∃ n, send n s.fragment = .sent s.words := by
  fun_induction sendFrom send numSegments sent segments loc currentSegment first h with
  | case1 sent segments loc currentSegment first h hSize hLast fragment =>
    intro s hs
    rcases mem_thenSend hs with ⟨hFragment, hRet⟩ | hs
    · rw [hFragment]
      exact ⟨hLoc.update hPos (Nat.le_of_lt hSize), sent, hRet⟩
    · cases hs
  | case2 sent segments loc currentSegment first h hSize hLast ih =>
    exact ih (Nat.succ_pos _) (hLoc.update hPos (Nat.le_of_lt hSize))
  | case3 sent segments loc currentSegment first h hSize fragment ih =>
    intro s hs
    rcases mem_thenSend hs with ⟨hFragment, hRet⟩ | hs
    · rw [hFragment]
      exact ⟨hLoc.update hPos (Nat.le_refl _), sent, hRet⟩
    · have hSame : update segments currentSegment (segments currentSegment).rest 0 =
          segments 0 := update_of_ne (Nat.ne_of_lt hPos) _ _
      rw [← hSame]
      refine ih hPos ?_ s hs
      rw [hSame]
      exact Fits.init _

/-- The call ends as its last `send_message` does. -/
theorem sendFrom_ending (hPos : 0 < currentSegment) (hLoc : Fits (segments 0) loc) :
    ∃ n f, Fits (segments 0) f.segments ∧
      (sendFrom send numSegments sent segments loc currentSegment first h).1 = (send n f).ending := by
  fun_induction sendFrom send numSegments sent segments loc currentSegment first h with
  | case1 sent segments loc currentSegment first h hSize hLast fragment =>
    refine ⟨sent, fragment, hLoc.update hPos (Nat.le_of_lt hSize), ?_⟩
    cases send sent fragment <;> rfl
  | case2 sent segments loc currentSegment first h hSize hLast ih =>
    exact ih (Nat.succ_pos _) (hLoc.update hPos (Nat.le_of_lt hSize))
  | case3 sent segments loc currentSegment first h hSize fragment ih =>
    have hSame : update segments currentSegment (segments currentSegment).rest 0 =
        segments 0 := update_of_ne (Nat.ne_of_lt hPos) _ _
    rcases hRet : send sent fragment with words | code | -
    · rw [hSame] at ih
      exact ih hPos (Fits.init _)
    · refine ⟨sent, fragment, hLoc.update hPos (Nat.le_refl _), ?_⟩
      rw [hRet]
      rfl
    · refine ⟨sent, fragment, hLoc.update hPos (Nat.le_refl _), ?_⟩
      rw [hRet]
      rfl

/-! ## Words -/

/-- The words that are sent of a segment: the pointer goes on by bytes. -/
def chunks (bytes : Nat → UInt8) (offset size : Nat) : List UInt32 :=
  if size < maxSegmentSizePerFragment then readWords bytes offset size
  else
    readWords bytes offset maxSegmentSizePerFragment ++
      chunks bytes (offset + maxSegmentSizePerFragment) (size - maxSegmentSizePerFragment)
  termination_by size
  decreasing_by
    unfold maxSegmentSizePerFragment at *
    omega

def Segment.chunks (bytes : Nat → UInt8) (seg : Segment) : List UInt32 :=
  seg.ptr.elim [] fun offset => Fragmentation.chunks bytes offset seg.size.toNat

theorem Segment.chunks_of_lt (h : seg.size.toNat < maxSegmentSizePerFragment) :
    seg.chunks bytes = seg.data bytes := by
  unfold Segment.chunks Segment.data
  cases seg.ptr with
  | none => rfl
  | some offset =>
    show Fragmentation.chunks bytes offset seg.size.toNat = _
    rw [Fragmentation.chunks, if_pos h]
    rfl

theorem Segment.chunks_of_le (h : ¬ seg.size.toNat < maxSegmentSizePerFragment) :
    seg.chunks bytes = seg.head.data bytes ++ seg.rest.chunks bytes := by
  unfold Segment.chunks
  rw [toNat_rest h]
  unfold Segment.data Segment.head Segment.rest
  cases seg.ptr with
  | none => rfl
  | some offset =>
    show Fragmentation.chunks bytes offset seg.size.toNat = _
    rw [Fragmentation.chunks, if_neg h]
    rfl

/-- What goes out of a segment from here on: what stands in the array for one that has been put in,
and all chunks of one that has not. -/
theorem sendFrom_data (memory : Nat → Nat → UInt8) (hPos : 0 < currentSegment)
    (hLoc : ∀ k, 0 < k → currentSegment ≤ k → loc k = ⟨none, 0⟩)
    (hDone : (sendFrom send numSegments sent segments loc currentSegment first h).1 = .done)
    {k : Nat} (hk : 0 < k) (hkNum : k < numSegments) :
    (sendFrom send numSegments sent segments loc currentSegment first h).2.flatMap
        (fun s => (s.fragment.segments k).data (memory k)) =
      if k < currentSegment then (loc k).data (memory k) else (segments k).chunks (memory k) := by
  have hNone : Segment.data (memory k) ⟨none, 0⟩ = [] := rfl
  fun_induction sendFrom send numSegments sent segments loc currentSegment first h with
  | case1 sent segments loc currentSegment first h hSize hLast fragment =>
    rcases thenSend_done hDone with ⟨-, words, hSent⟩
    rw [hSent, flatMap_cons, flatMap_nil, append_nil]
    dsimp only [fragment]
    by_cases hLt : k < currentSegment
    · rw [if_pos hLt, update_of_ne (Nat.ne_of_lt hLt)]
    · rw [if_neg hLt]
      have hEq : k = currentSegment := by omega
      rw [hEq, update_self, Segment.chunks_of_lt hSize]
  | case2 sent segments loc currentSegment first h hSize hLast ih =>
    rw [ih (Nat.succ_pos _) ?_ hDone]
    · by_cases hEq : k = currentSegment
      · rw [hEq, if_pos (Nat.lt_succ_self _), if_neg (Nat.lt_irrefl _), update_self,
          Segment.chunks_of_lt hSize]
      · rw [update_of_ne hEq]
        by_cases hLt : k < currentSegment
        · rw [if_pos hLt, if_pos (Nat.lt_succ_of_lt hLt)]
        · rw [if_neg hLt, if_neg (by omega)]
    · intro j hj hLe
      rw [update_of_ne (by omega)]
      exact hLoc j hj (by omega)
  | case3 sent segments loc currentSegment first h hSize fragment ih =>
    rcases thenSend_done hDone with ⟨hNext, words, hSent⟩
    have hEmpty : ∀ j, 0 < j → initSegmentPtrs (segments 0) j = ⟨none, 0⟩ :=
      fun j hj => if_neg (Nat.ne_of_gt hj)
    rw [hSent, flatMap_cons, ih hPos (fun j hj _ => hEmpty j hj) hNext]
    dsimp only [fragment]
    by_cases hEq : k = currentSegment
    · rw [hEq, if_neg (Nat.lt_irrefl _), if_neg (Nat.lt_irrefl _), update_self,
        update_self, Segment.chunks_of_le hSize]
    · rw [update_of_ne hEq, update_of_ne hEq]
      by_cases hLt : k < currentSegment
      · rw [if_pos hLt, if_pos hLt, hEmpty k hk, hNone, append_nil]
      · rw [if_neg hLt, if_neg hLt, hLoc k hk (by omega), hNone, nil_append]

/-- Up to 240 words the chunks are the words. -/
theorem chunks_of_le (h : size ≤ maxSegmentSizePerFragment) :
    chunks bytes 0 size = readWords bytes 0 size := by
  rw [chunks]
  split_ifs with hLt
  · rfl
  · have hEq : size = maxSegmentSizePerFragment := Nat.le_antisymm h (Nat.le_of_not_lt hLt)
    rw [hEq, Nat.sub_self, chunks, if_pos (by decide)]
    exact append_nil _

theorem getElem?_readWords (bytes : Nat → UInt8) (offset : Nat) {n i : Nat} (h : i < n) :
    (readWords bytes offset n)[i]? = some (readWord bytes (offset + 4 * i)) := by
  unfold readWords
  rw [getElem?_map, getElem?_range h]
  rfl

theorem length_readWords (bytes : Nat → UInt8) (offset n : Nat) :
    (readWords bytes offset n).length = n := by
  simp [readWords]

theorem head?_chunks (bytes : Nat → UInt8) (offset : Nat) (h : 0 < size) :
    (chunks bytes offset size)[0]? = some (readWord bytes offset) := by
  rw [chunks]
  split_ifs
  · exact getElem?_readWords bytes offset h
  · rw [getElem?_append_left (by rw [length_readWords]; decide)]
    exact getElem?_readWords bytes offset (by decide)

/-- A memory in which the word behind the first fragment is another one than the word that is read for
it. -/
def marked (offset : Nat) : UInt8 := if offset = 4 * maxSegmentSizePerFragment then 1 else 0

theorem chunks_ne (h : maxSegmentSizePerFragment < size) :
    chunks marked 0 size ≠ readWords marked 0 size := by
  intro hEq
  have hAt : (chunks marked 0 size)[maxSegmentSizePerFragment]? =
      (readWords marked 0 size)[maxSegmentSizePerFragment]? := by rw [hEq]
  rw [getElem?_readWords _ _ h, chunks, if_neg (Nat.not_lt.mpr (Nat.le_of_lt h)),
    getElem?_append_right (Nat.le_of_eq (length_readWords _ _ _)), length_readWords,
    Nat.sub_self, head?_chunks _ _ (Nat.sub_pos_of_lt h)] at hAt
  have hWords : readWord marked (0 + maxSegmentSizePerFragment) ≠
      readWord marked (0 + 4 * maxSegmentSizePerFragment) := by decide
  exact hWords (Option.some.inj hAt)

/-! ## One fragment -/

/-- What the ic_requires of `fill_ndb_message_header` ask for: a main message of up to 25 words, and
module ids in their range. -/
structure Allowed (c : Call) (first : Segment) : Prop where
  main : first.size.toNat ≤ ndbMaxMainMessageSize
  sender : c.threadId ≤ maxModuleId
  receiver : c.receiverModuleId ≤ ndbMaxModuleId

variable {c : Call} {memory : Nat → Nat → UInt8} {o : Outcome} {f : Fragment} {segment : Segment}

theorem length_data (bytes : Nat → UInt8) {offset : Nat} (h : seg.ptr = some offset) :
    (seg.data bytes).length = seg.size.toNat := by
  rw [Segment.data, h]
  exact length_readWords _ _ _

theorem length_data_le (bytes : Nat → UInt8) (seg : Segment) :
    (seg.data bytes).length ≤ seg.size.toNat := by
  rcases hPtr : seg.ptr with - | offset
  · rw [Segment.data, hPtr]
    exact Nat.zero_le _
  · exact Nat.le_of_eq (length_data bytes hPtr)

/-- The message is filled in exactly if no ic_require fails. -/
theorem fill_isSome_iff (hNum : numSegments ≤ 4) (hFits : Fits segment f.segments)
    (hPtr : segment.ptr = some 0) (sequenceId : UInt32) :
    (fillNdbMessageHeader c.byteOrder c.link sequenceId (f.message c memory numSegments)).isSome ↔
      Allowed c segment := by
  have hSegments : ¬ 3 < (f.message c memory numSegments).segments.length := by
    simp only [Fragment.message, length_map, length_range]
    omega
  have hMain : (f.message c memory numSegments).main.length = segment.size.toNat := by
    have hFirst := hFits.first
    rw [Fragment.message, hFirst]
    exact length_data _ hPtr
  have hPriority : (0 : UInt32) ≤ MessageCodec.ndbMaxPrioLevel := by decide
  rw [fillNdbMessageHeader, if_neg hSegments, hMain]
  by_cases hAllowed : Allowed c segment
  · rw [if_pos ⟨hPriority, hAllowed.main, hAllowed.sender, hAllowed.receiver⟩]
    exact iff_of_true rfl hAllowed
  · rw [if_neg fun h => hAllowed ⟨h.2.1, h.2.2.1, h.2.2.2⟩]
    exact iff_of_false Bool.false_ne_true hAllowed

theorem flag_lt (flag : FragmentFlag) : flag.code < 4 := by
  cases flag <;> decide

theorem length_flatten_le {n : Nat} {lists : List (List UInt32)} (h : ∀ l ∈ lists, l.length ≤ n) :
    lists.flatten.length ≤ lists.length * n := by
  induction lists with
  | nil => exact Nat.zero_le _
  | cons l lists ih =>
    rw [flatten_cons, length_append, length_cons, Nat.succ_mul, Nat.add_comm]
    exact Nat.add_le_add (ih fun l' h' => h l' (mem_cons_of_mem l h')) (h l mem_cons_self)

/-- The total size has room in the header. -/
theorem totMessageSize_le (hNum : numSegments ≤ 4) (hFits : Fits segment f.segments)
    (hAllowed : Allowed c segment) :
    totMessageSize c.link (f.message c memory numSegments) ≤ 0xFFFF := by
  let m := f.message c memory numSegments
  have hMain : m.main.length ≤ 25 := by
    show ((f.segments 0).data (memory 0)).length ≤ 25
    rw [hFits.first]
    exact Nat.le_trans (length_data_le _ _) hAllowed.main
  have hCount : m.segments.length ≤ 3 := by
    simp only [m, Fragment.message, length_map, length_range]
    omega
  have hWords : m.segments.flatten.length ≤ m.segments.length * 240 := by
    refine length_flatten_le fun words hWords => ?_
    rcases mem_map.mp hWords with ⟨k, -, rfl⟩
    exact Nat.le_trans (length_data_le _ _) (hFits.bounded _ (Nat.succ_pos k))
  have hNumber : (if c.link.useMessageId then [(0 : UInt32)] else []).length ≤ 1 := by
    split_ifs <;> decide
  have hChecksum : (if c.link.useChecksum then 1 else 0) ≤ 1 := by
    split_ifs <;> decide
  -- 25 words, three segments of 240 words and the header stay below 2 ^ 16
  show totMessageSize c.link m ≤ 0xFFFF
  rw [totMessageSize, MessageCodec.payload]
  simp only [length_append, length_map]
  omega

/-- A fragment that fits goes out in the words that were written for it, if nothing fails. -/
theorem sendMessage_fits (hNum : numSegments ≤ 4) (hFits : Fits segment f.segments)
    (hPtr : segment.ptr = some 0) (hAllowed : Allowed c segment) :
    ∃ words next page,
      fillNdbMessageHeader c.byteOrder c.link o.sequenceId (f.message c memory numSegments) =
        some words ∧
      numberMessages c.link o.number [words] = some ([page], next) ∧
      sendMessage c memory numSegments o f =
        if !o.page then .failed errorMemAlloc
        else if o.mapped ≠ 0 then .failed o.mapped
        else if o.nodeDown then .failed errorNodeDown
        else if o.result = 0 then .sent page else .failed o.result := by
  rcases Option.isSome_iff_exists.mp ((fill_isSome_iff hNum hFits hPtr o.sequenceId).mpr hAllowed)
    with ⟨words, hWords⟩
  -- the page holds this message only
  let out : Outgoing c.byteOrder c.link := ⟨f.message c memory numSegments, o.sequenceId, words,
    hWords, flag_lt f.flag, totMessageSize_le hNum hFits hAllowed⟩
  have hPage : MessageCodec.pageWords [out] = words := append_nil words
  rcases MessageCodec.numberMessages_pages [[out]] o.number with ⟨next, hNumbered⟩
  rw [map_singleton, hPage] at hNumbered
  refine ⟨words, next, _, hWords, hNumbered, ?_⟩
  rw [sendMessage, hWords]
  dsimp only
  rw [hNumbered]
  dsimp only
  rw [MessageCodec.numberedPages, MessageCodec.numberedPages, flatten_singleton]

/-- An ic_require stops the process. -/
theorem sendMessage_aborted (hNum : numSegments ≤ 4) (hFits : Fits segment f.segments)
    (hPtr : segment.ptr = some 0) (hAllowed : ¬ Allowed c segment) (hPage : o.page = true)
    (hMapped : o.mapped = 0) : sendMessage c memory numSegments o f = .aborted := by
  have hFill : fillNdbMessageHeader c.byteOrder c.link o.sequenceId
      (f.message c memory numSegments) = none :=
    Option.not_isSome_iff_eq_none.mp fun h =>
      hAllowed ((fill_isSome_iff hNum hFits hPtr o.sequenceId).mp h)
  rw [sendMessage, hFill, hPage, hMapped]
  rfl

/-! ## Messages -/

/-- What `send_message` meets when nothing fails. -/
def noFailure : Outcome := ⟨true, 0, 0, false, 0, 0⟩

variable {outcomes : Nat → Outcome}

theorem Ret.ending_aborted {ret : Ret} (h : ret.ending = .aborted) : ret = .aborted := by
  cases ret with
  | sent words => cases h
  | failed code => cases h
  | aborted => rfl

theorem data_sent (c : Call) (m : Message) (memory : Nat → Nat → UInt8)
    (hDone : (sendFragmentedMessage c m memory outcomes).1 = .done) {k : Nat} (hk : 0 < k)
    (hkNum : k < m.numSegments) :
    (sendFragmentedMessage c m memory outcomes).2.flatMap
        (fun s => (s.fragment.segments k).data (memory k)) =
      chunks (memory k) 0 (m.sizes k).toNat := by
  have hLoc : ∀ j, 0 < j → 1 ≤ j → initSegmentPtrs (m.segments 0) j = ⟨none, 0⟩ :=
    fun j hj _ => if_neg (Nat.ne_of_gt hj)
  unfold sendFragmentedMessage at hDone ⊢
  rw [sendFrom_data memory Nat.one_pos hLoc hDone hk hkNum, if_neg (Nat.not_lt.mpr hk)]
  rfl

theorem ending_eq (c : Call) (m : Message) (memory : Nat → Nat → UInt8)
    (outcomes : Nat → Outcome) : ∃ n f, Fits (m.segments 0) f.segments ∧
      (sendFragmentedMessage c m memory outcomes).1 =
        (sendMessage c memory m.numSegments (outcomes n) f).ending :=
  sendFrom_ending Nat.one_pos (Fits.init _)

/-- What a message must be: what the ic_requires ask for, and no segment but the first is larger than
one fragment. -/
structure Sendable (c : Call) (m : Message) : Prop where
  allowed : Allowed c (m.segments 0)
  segments : ∀ k, 0 < k → k < m.numSegments → (m.sizes k).toNat ≤ maxSegmentSizePerFragment

theorem preserved_of_sendable (c : Call) (m : Message) (h : Sendable c m)
    (memory : Nat → Nat → UInt8) (outcomes : Nat → Outcome) :
    Preserved c m memory (sendFragmentedMessage c m memory outcomes) := by
  have hSent : ∀ s ∈ (sendFragmentedMessage c m memory outcomes).2,
      Fits (m.segments 0) s.fragment.segments ∧
        ∃ n, sendMessage c memory m.numSegments (outcomes n) s.fragment = .sent s.words :=
    sendFrom_sent Nat.one_pos (Fits.init _)
  constructor
  · -- an allowed fragment fails no ic_require
    intro hAborted
    rcases ending_eq c m memory outcomes with ⟨n, f, hFits, hEnding⟩
    have hRet := Ret.ending_aborted (hEnding.symm.trans hAborted)
    rcases sendMessage_fits m.le_four hFits rfl h.allowed with ⟨-, -, page, -, -, hSend⟩
    rw [hSend] at hRet
    split_ifs at hRet
  · intro s hs
    rcases hSent s hs with ⟨hFits, n, hRet⟩
    rcases sendMessage_fits m.le_four hFits rfl h.allowed with
      ⟨words, next, page, hWords, hNumbered, hSend⟩
    rw [hSend] at hRet
    split_ifs at hRet
    cases hRet
    exact ⟨_, _, next, words, hWords, hNumbered⟩
  · exact fun s hs => (hSent s hs).1.first
  · exact fun s hs => (hSent s hs).1.bounded
  · -- one chunk holds the segment
    intro hDone k hk hkNum
    rw [data_sent c m memory hDone hk hkNum, chunks_of_le (h.segments k hk hkNum)]
    rfl
  · intro hDone
    rcases sendFrom_flags hDone with ⟨-, hFlags⟩ | ⟨hFirst, -⟩
    · exact hFlags
    · cases hFirst

theorem done_of_allowed (c : Call) (m : Message) (memory : Nat → Nat → UInt8)
    (h : Allowed c (m.segments 0)) :
    (sendFragmentedMessage c m memory fun _ => noFailure).1 = .done := by
  rcases ending_eq c m memory fun _ => noFailure with ⟨n, f, hFits, hEnding⟩
  rcases sendMessage_fits m.le_four hFits rfl h with ⟨-, -, page, -, -, hSend⟩
  rw [hEnding, hSend]
  rfl

theorem aborted_of_not_allowed (c : Call) (m : Message) (memory : Nat → Nat → UInt8)
    (h : ¬ Allowed c (m.segments 0)) :
    (sendFragmentedMessage c m memory fun _ => noFailure).1 = .aborted := by
  rcases ending_eq c m memory fun _ => noFailure with ⟨n, f, hFits, hEnding⟩
  rw [hEnding, sendMessage_aborted m.le_four hFits rfl h rfl rfl]
  rfl

theorem not_preserved_of_lt (c : Call) (m : Message) {k : Nat} (hk : 0 < k)
    (hkNum : k < m.numSegments) (hSize : maxSegmentSizePerFragment < (m.sizes k).toNat) :
    ¬ Preserved c m (fun _ => marked)
      (sendFragmentedMessage c m (fun _ => marked) fun _ => noFailure) := by
  intro h
  have hAllowed : Allowed c (m.segments 0) := by
    -- a message that aborts is not preserved either
    by_contra hNot
    exact h.running (aborted_of_not_allowed c m _ hNot)
  have hDone := done_of_allowed c m (fun _ => marked) hAllowed
  have hData := h.data hDone k hk hkNum
  rw [data_sent c m (fun _ => marked) hDone hk hkNum] at hData
  exact chunks_ne hSize hData

/-- A message arrives as it was, whatever its words and whichever of its fragments fails to be sent,
exactly if its main part and the module ids are allowed and none of its other segments is larger than one
fragment. -/
theorem preserved_iff (c : Call) (m : Message) :
    (∀ memory outcomes, Preserved c m memory (sendFragmentedMessage c m memory outcomes)) ↔
      Sendable c m := by
  constructor
  · intro h
    constructor
    · by_contra hNot
      exact (h (fun _ _ => 0) _).running (aborted_of_not_allowed c m _ hNot)
    · intro k hk hkNum
      by_contra hSize
      exact not_preserved_of_lt c m hk hkNum (Nat.lt_of_not_le hSize) (h (fun _ => marked) _)
  · exact fun h => preserved_of_sendable c m h

/-- A message with a main part of 25 words and a segment of 241 words. -/
def oneWordTooMany : Message where
  numSegments := 2
  sizes := fun k => if k = 0 then 25 else 241
  two_le := Nat.le_refl 2
  le_four := by decide

/-- A call with module ids in their range. -/
def someCall : Call := ⟨false, ⟨true, true⟩, 3, 32, 249⟩

/-- The 241st word of the segment is sent as its 61st one. -/
theorem second_fragment_repeats :
    ¬ Preserved someCall oneWordTooMany (fun _ => marked)
      (sendFragmentedMessage someCall oneWordTooMany (fun _ => marked) fun _ => noFailure) :=
  not_preserved_of_lt someCall oneWordTooMany Nat.one_pos (by decide) (by decide)

end IClaustron.Apid.Fragmentation
