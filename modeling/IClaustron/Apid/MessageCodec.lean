import IClaustron.Lib.Fields
import IClaustron.Apid.Receive
import Mathlib.Tactic.Ring

/-!
# Apid.MessageCodec — NDB messages from the sender to the receiver

Model of fill_ndb_message_header and of the numbering of messages in ndb_send, both in
api/ic_apid_send_message.ic, and of create_ndb_message in api/ic_apid_exec_message.ic.

* `headerWord1_eq` — the first word is laid out as the comment in the code says.
* `message_codec_iff` — which of the messages on the pages of one call of ndb_send are accepted
  and read back.

Scope limits: the message number of the node and the counter of the node connection are inputs.
The cluster and node ids of a message are those of its connection; they are not in the message.
-/

namespace IClaustron.Apid.MessageCodec

open Lib Receive List

/-! ## Sending -/

/-- IC_NDB_MAX_PRIO_LEVEL. -/
def ndbMaxPrioLevel : UInt32 := 1

/-- IC_NDB_MAX_MAIN_MESSAGE_SIZE. -/
def ndbMaxMainMessageSize : Nat := 25

/-- IC_MAX_MODULE_ID. -/
def maxModuleId : UInt32 := 8192

/-- IC_NDB_MAX_MODULE_ID. -/
def ndbMaxModuleId : UInt32 := 4096

/-- The arguments of `fill_ndb_message_header`. The first segment is the main message. -/
structure Message where
  messageId : UInt32
  messagePriority : UInt32
  senderModuleId : UInt32
  receiverModuleId : UInt32
  main : List UInt32
  segments : List (List UInt32)
  fragmentFlag : UInt32
deriving DecidableEq

/-- What the link configuration says. -/
structure Link where
  useMessageId : Bool
  useChecksum : Bool
deriving DecidableEq

def flagWord (b : Bool) : UInt32 := if b then 1 else 0

/-- The first header word, for a message of `tot` words. -/
def headerWord1 (byteOrder : Bool) (link : Link) (m : Message) (tot : Nat) : UInt32 :=
  let word : UInt32 := if byteOrder then 0x81000081 else 0
  let word := word ||| ((m.fragmentFlag &&& 2) <<< (1 - 1))
  let word := word ||| ((m.fragmentFlag &&& 1) <<< 25)
  let word := word ||| (flagWord link.useMessageId <<< 2)
  let word := word ||| (flagWord link.useChecksum <<< 4)
  let word := word ||| (m.messagePriority <<< 5)
  let word := word ||| (UInt32.ofNat tot <<< 8)
  word ||| (UInt32.ofNat m.main.length <<< 26)

def headerWord2 (m : Message) : UInt32 :=
  m.messageId ||| (UInt32.ofNat m.segments.length <<< 26)

def headerWord3 (m : Message) : UInt32 :=
  m.senderModuleId ||| (m.receiverModuleId <<< 16)

/-- The words after the header: the message number, the main message, the lengths of the
segments and the segments. -/
def payload (link : Link) (sequenceId : UInt32) (m : Message) : List UInt32 :=
  (if link.useMessageId then [sequenceId] else []) ++ m.main ++
    m.segments.map (fun seg => UInt32.ofNat seg.length) ++ m.segments.flatten

/-- `tot_message_size`. -/
def totMessageSize (link : Link) (m : Message) : Nat :=
  3 + (payload link 0 m).length + if link.useChecksum then 1 else 0

def xorWords (words : List UInt32) : UInt32 := words.foldl (· ^^^ ·) 0

/-- `fill_ndb_message_header`; `sequenceId` is the counter of the node. -/
def fillNdbMessageHeader (byteOrder : Bool) (link : Link) (sequenceId : UInt32) (m : Message) :
    Option (List UInt32) :=
  if 3 < m.segments.length then none
  else if m.messagePriority ≤ ndbMaxPrioLevel ∧ m.main.length ≤ ndbMaxMainMessageSize ∧
      m.senderModuleId ≤ maxModuleId ∧ m.receiverModuleId ≤ ndbMaxModuleId then
    let words := [headerWord1 byteOrder link m (totMessageSize link m), headerWord2 m,
      headerWord3 m] ++ payload link sequenceId m
    some (if link.useChecksum then words ++ [xorWords words] else words)
  else none

/-- The loop of `fill_in_message_id_in_ndb_message` over the messages on a page. -/
def fillInPage (useChecksum : Bool) :
    Nat → UInt32 → List UInt32 → Option (List UInt32 × UInt32)
  | _, messageId, [] => some ([], messageId)
  | 0, _, _ :: _ => none
  | fuel + 1, messageId, word1 :: rest =>
    let messageSize := getMessageSize word1
    if messageSize = 0 ∨ rest.length + 1 < messageSize then none
    else
      let message := (word1 :: rest).take messageSize
      let message :=
        if useChecksum then message.modify (messageSize - 1) (· ^^^ messageId) else message
      (fillInPage useChecksum fuel (messageId + 1) ((word1 :: rest).drop messageSize)).map
        fun (words, messageId) => (message ++ words, messageId)

/-- `fill_in_message_id_in_ndb_message`. -/
def fillInMessageId (useChecksum : Bool) :
    UInt32 → List (List UInt32) → Option (List (List UInt32) × UInt32)
  | messageId, [] => some ([], messageId)
  | messageId, page :: pages => do
    let (page, messageId) ← fillInPage useChecksum page.length messageId page
    let (pages, messageId) ← fillInMessageId useChecksum messageId pages
    some (page :: pages, messageId)

/-- The part of `ndb_send` that numbers the messages. -/
def numberMessages (link : Link) (messageId : UInt32) (pages : List (List UInt32)) :
    Option (List (List UInt32) × UInt32) :=
  if link.useMessageId then fillInMessageId link.useChecksum messageId pages
  else some (pages, messageId)

/-! ## Receiving -/

/-- IC_NDB_MESSAGE, with the place and the length of each segment. -/
structure NdbMessage where
  messagePriority : UInt32
  fragmentationBits : UInt32
  messageId : UInt32
  traceNum : UInt32
  senderModuleId : UInt32
  receiverModuleId : UInt32
  messageNumber : UInt32
  numSegments : Nat
  segments : List (Nat × Nat)
deriving DecidableEq

/-- The words as the other byte order has them, from the word `1` to the end of the message. -/
def swapRest (words : List UInt32) (messageSize : Nat) : List UInt32 :=
  words.mapIdx fun i w => if 0 < i ∧ i < messageSize then swapEndianWord w else w

/-- The places of the segments that follow each other from `start`. -/
def segmentsFrom : Nat → List Nat → List (Nat × Nat)
  | _, [] => []
  | start, n :: ns => (start, n) :: segmentsFrom (start + n) ns

/-- The first part of `create_ndb_message`: `word1`, and the words in the buffer. The other byte
order is changed in the buffer from the word 1 on, and only in `word1` for the first word. -/
def switchByteOrder (byteOrder : Bool) (words : List UInt32) : UInt32 × List UInt32 :=
  let word1 := words.getD 0 0
  if (word1 &&& 1 != 0) != byteOrder then
    let word1 := swapEndianWord word1
    (word1, swapRest words (getMessageSize word1))
  else (word1, words)

/-- `create_ndb_message`: the words of the message, whose byte order may be changed, its fields,
and whether it is accepted. -/
def createNdbMessage (byteOrder : Bool) (words : List UInt32) :
    Option (List UInt32 × NdbMessage × Bool) :=
  let (word1, words) := switchByteOrder byteOrder words
  let word2 := words.getD 1 0
  let word3 := words.getD 2 0
  let mainSize := ((word1 >>> 26) &&& 0x1F).toNat
  if mainSize ≤ ndbMaxMainMessageSize then
    let messageNumberUsed := word1 &&& 4 != 0
    let chksumUsed := word1 &&& 0x10 != 0
    let numSegments := ((word2 >>> 26) &&& 3).toNat
    let start := if messageNumberUsed then 4 else 3
    let sizes := (List.range numSegments).map fun i => (words.getD (start + mainSize + i) 0).toNat
    let message : NdbMessage := {
      messagePriority := (word1 >>> 5) &&& 3
      fragmentationBits := (((word1 >>> 1) &&& 1) <<< 1) + ((word1 >>> 25) &&& 1)
      messageId := word2 &&& 0x7FFFF
      traceNum := (word2 >>> 20) &&& 0x3F
      senderModuleId := word3 &&& 0xFFFF
      receiverModuleId := word3 >>> 16
      messageNumber := if messageNumberUsed then words.getD 3 0 else 0
      numSegments := numSegments + 1
      segments := (start, mainSize) :: segmentsFrom (start + mainSize + numSegments) sizes }
    some (words, message, !chksumUsed || xorWords (words.take (getMessageSize word1)) == 0)
  else none

/-! ## The documented layout of the first word -/

def bit (b : Bool) : Nat := if b then 1 else 0

/-- The two fragment bits, the higher one first. -/
def fragmentHigh (m : Message) : Nat := m.fragmentFlag.toNat / 2 % 2
def fragmentLow (m : Message) : Nat := m.fragmentFlag.toNat % 2

/-- The layout in the comment of `fill_ndb_message_header`, bit 0 first. -/
def word1Layout (byteOrder : Bool) (link : Link) (m : Message) (tot : Nat) : List (Nat × Nat) :=
  [(1, bit byteOrder), (1, fragmentHigh m), (1, bit link.useMessageId), (1, 0),
    (1, bit link.useChecksum), (2, m.messagePriority.toNat), (1, bit byteOrder), (16, tot),
    (1, bit byteOrder), (1, fragmentLow m), (5, m.main.length), (1, bit byteOrder)]

/-! ## Round trip -/

/-- A message with the words that `fill_ndb_message_header` wrote. The fragment flag is a number
between 0 and 3, and the total size is one that the 16 bits for it can hold. -/
structure Outgoing (byteOrder : Bool) (link : Link) where
  message : Message
  sequenceId : UInt32
  words : List UInt32
  filled : fillNdbMessageHeader byteOrder link sequenceId message = some words
  fragment : message.fragmentFlag < 4
  fits : totMessageSize link message ≤ 0xFFFF

variable {sender receiver : Bool} {link : Link}

/-- The words on a page. -/
def pageWords (page : List (Outgoing sender link)) : List UInt32 := page.flatMap Outgoing.words

/-- The words of a message as a machine with the given byte order loads them. -/
def loadedAs (sender receiver : Bool) (words : List UInt32) : List UInt32 :=
  if sender = receiver then words else words.map swapEndianWord

/-- The fields are those of the message, with the message number that the connection gave it. -/
structure Returns (link : Link) (number : UInt32) (m : Message) (words : List UInt32)
    (r : NdbMessage) : Prop where
  priority : r.messagePriority = m.messagePriority
  fragment : r.fragmentationBits = m.fragmentFlag
  message_id : r.messageId = m.messageId
  trace : r.traceNum = 0
  sender : r.senderModuleId = m.senderModuleId
  receiver : r.receiverModuleId = m.receiverModuleId
  number : r.messageNumber = if link.useMessageId then number else 0
  num_segments : r.numSegments = m.segments.length + 1
  segments : r.segments.map (fun (start, size) => (words.drop start).take size) =
    m.main :: m.segments
  sizes : r.segments.map Prod.snd = (m.main :: m.segments).map List.length

/-- The message is accepted, and read back. -/
def RoundTrip (receiver : Bool) (link : Link) (number : UInt32) (m : Message)
    (words : List UInt32) : Prop :=
  ∃ words' r, createNdbMessage receiver words = some (words', r, true) ∧
    Returns link number m words' r

def Outgoing.layout (o : Outgoing sender link) : List (Nat × Nat) :=
  word1Layout sender link o.message (totMessageSize link o.message)

/-- The first word as the comment lays it out. -/
def Outgoing.documented (o : Outgoing sender link) : UInt32 := UInt32.ofNat (pack o.layout)

/-- What it takes: the message number has 19 bits; the number that the message got when it was
filled in is the one that the connection gives it; and with a checksum, what the connection adds
to the checksum is what the change of byte order adds to it, which is nothing for equal byte
orders. -/
structure Codable (receiver : Bool) (number : UInt32) (o : Outgoing sender link) : Prop where
  message_id : o.message.messageId < 0x80000
  sequence_id : link.useMessageId → o.sequenceId = number
  checksum : link.useChecksum → (if link.useMessageId then number else 0) =
    if sender = receiver then 0 else o.documented ^^^ swapEndianWord o.documented

/-! ## The words of the header -/

theorem bit_le (b : Bool) : bit b ≤ 1 := by
  cases b <;> decide

@[simp] theorem toNat_flagWord (b : Bool) : (flagWord b).toNat = bit b := by
  cases b <;> rfl

/-- The byte order is set in bits 0, 7, 24 and 31. -/
theorem toNat_byteOrderWord (b : Bool) : (if b then (0x81000081 : UInt32) else 0).toNat =
    bit b <<< 31 ||| bit b <<< 24 ||| bit b <<< 7 ||| bit b := by
  cases b <;> rfl

theorem fragmentHigh_le (m : Message) : fragmentHigh m ≤ 1 := by
  unfold fragmentHigh
  omega

theorem fragmentLow_le (m : Message) : fragmentLow m ≤ 1 := by
  unfold fragmentLow
  omega

/-- The order in which the code adds the fields, and their order in the word. -/
theorem or_fields (b31 b24 b7 b0 high low number checksum priority total main : Nat) :
    b31 ||| b24 ||| b7 ||| b0 ||| high ||| low ||| number ||| checksum ||| priority ||| total |||
      main = b31 ||| (main ||| (low ||| (b24 ||| (total ||| (b7 ||| (priority ||| (checksum |||
      (number ||| (high ||| b0))))))))) := by
  ac_rfl

theorem word1Layout_fits (byteOrder : Bool) (link : Link) {m : Message} {tot : Nat}
    (hMain : m.main.length ≤ 25) (hTot : tot ≤ 65535) (hPrio : m.messagePriority.toNat ≤ 1) :
    ∀ f ∈ word1Layout byteOrder link m tot, f.2 < 2 ^ f.1 := by
  have hB := bit_le byteOrder
  have hC := bit_le link.useChecksum
  have hI := bit_le link.useMessageId
  have hHigh := fragmentHigh_le m
  have hLow := fragmentLow_le m
  simp only [word1Layout, forall_mem_cons, not_mem_nil, false_imp_iff, implies_true,
    and_true]
  refine ⟨?_, ?_, ?_, ?_, ?_, ?_, ?_, ?_, ?_, ?_, ?_, ?_⟩
  all_goals omega

theorem pack_word1Layout (byteOrder : Bool) (link : Link) (m : Message) (tot : Nat) :
    pack (word1Layout byteOrder link m tot) = bit byteOrder * 2 ^ 31 + (m.main.length * 2 ^ 26 +
      (fragmentLow m * 2 ^ 25 + (bit byteOrder * 2 ^ 24 + (tot * 2 ^ 8 + (bit byteOrder * 2 ^ 7 +
      (m.messagePriority.toNat * 2 ^ 5 + (bit link.useChecksum * 2 ^ 4 +
      (bit link.useMessageId * 2 ^ 2 + (fragmentHigh m * 2 ^ 1 + bit byteOrder))))))))) := by
  simp only [word1Layout, pack]
  ring

theorem headerWord1_eq (byteOrder : Bool) (link : Link) {m : Message} {tot : Nat}
    (hMain : m.main.length ≤ 25) (hTot : tot ≤ 65535) (hPrio : m.messagePriority.toNat ≤ 1) :
    (headerWord1 byteOrder link m tot).toNat = pack (word1Layout byteOrder link m tot) := by
  have hB := bit_le byteOrder
  have hC := bit_le link.useChecksum
  have hI := bit_le link.useMessageId
  have hHigh := fragmentHigh_le m
  have hLow := fragmentLow_le m
  -- each shift fits
  have h1 : ((m.fragmentFlag &&& 2) <<< (1 - 1)).toNat = fragmentHigh m <<< 1 := by
    rw [toNat_shiftLeft_fits _ _ (n := 0) rfl (by omega)]
    · rw [Nat.shiftLeft_zero, toNat_and_bit _ _ (n := 1) rfl, Nat.shiftLeft_eq]
      rfl
    · rw [toNat_and_bit _ _ (n := 1) rfl]
      omega
  have h25 : ((m.fragmentFlag &&& 1) <<< 25).toNat = fragmentLow m <<< 25 := by
    rw [toNat_shiftLeft_fits _ _ (n := 25) rfl (by omega)]
    · rw [toNat_and_low _ _ (m := 1) rfl]
      rfl
    · rw [toNat_and_low _ _ (m := 1) rfl]
      omega
  have h2 : (flagWord link.useMessageId <<< 2).toNat = bit link.useMessageId <<< 2 := by
    rw [toNat_shiftLeft_fits _ _ (n := 2) rfl (by omega), toNat_flagWord]
    rw [toNat_flagWord]
    omega
  have h4 : (flagWord link.useChecksum <<< 4).toNat = bit link.useChecksum <<< 4 := by
    rw [toNat_shiftLeft_fits _ _ (n := 4) rfl (by omega), toNat_flagWord]
    rw [toNat_flagWord]
    omega
  have h5 : (m.messagePriority <<< 5).toNat = m.messagePriority.toNat <<< 5 := by
    refine toNat_shiftLeft_fits _ _ rfl (by omega) ?_
    omega
  have hTotNat : (UInt32.ofNat tot).toNat = tot := UInt32.toNat_ofNat_of_lt' (by
    show tot < 2 ^ 32
    omega)
  have h8 : (UInt32.ofNat tot <<< 8).toNat = tot <<< 8 := by
    rw [toNat_shiftLeft_fits _ _ (n := 8) rfl (by omega), hTotNat]
    rw [hTotNat]
    omega
  have hMainNat : (UInt32.ofNat m.main.length).toNat = m.main.length :=
    UInt32.toNat_ofNat_of_lt' (by
      show m.main.length < 2 ^ 32
      omega)
  have h26 : (UInt32.ofNat m.main.length <<< 26).toNat = m.main.length <<< 26 := by
    rw [toNat_shiftLeft_fits _ _ (n := 26) rfl (by omega), hMainNat]
    rw [hMainNat]
    omega
  have hOr : (headerWord1 byteOrder link m tot).toNat = bit byteOrder <<< 31 |||
      (m.main.length <<< 26 ||| (fragmentLow m <<< 25 ||| (bit byteOrder <<< 24 ||| (tot <<< 8 |||
      (bit byteOrder <<< 7 ||| (m.messagePriority.toNat <<< 5 ||| (bit link.useChecksum <<< 4 |||
      (bit link.useMessageId <<< 2 ||| (fragmentHigh m <<< 1 ||| bit byteOrder))))))))) := by
    simp only [headerWord1]
    rw [UInt32.toNat_or, UInt32.toNat_or, UInt32.toNat_or, UInt32.toNat_or, UInt32.toNat_or,
      UInt32.toNat_or, UInt32.toNat_or, h26, h8, h5, h4, h2, h25, h1, toNat_byteOrderWord]
    exact or_fields _ _ _ _ _ _ _ _ _ _ _
  rw [hOr, pack_word1Layout]
  -- from the highest field to the lowest, each is above those after it
  rw [← shiftLeft_or (i := 31), ← shiftLeft_or (i := 26), ← shiftLeft_or (i := 25),
    ← shiftLeft_or (i := 24), ← shiftLeft_or (i := 8), ← shiftLeft_or (i := 7),
    ← shiftLeft_or (i := 5), ← shiftLeft_or (i := 4), ← shiftLeft_or (i := 2),
    ← shiftLeft_or (i := 1)]
  all_goals omega

/-! ## The words of a message -/

def Outgoing.word1 (o : Outgoing sender link) : UInt32 :=
  headerWord1 sender link o.message (totMessageSize link o.message)

theorem length_payload (sequenceId : UInt32) (m : Message) :
    (payload link sequenceId m).length = (payload link 0 m).length := by
  unfold payload
  cases link.useMessageId <;> simp

namespace Outgoing

variable (o : Outgoing sender link)

/-- The words after the first one, without the checksum. -/
def body : List UInt32 :=
  headerWord2 o.message :: headerWord3 o.message :: payload link o.sequenceId o.message

/-- What `fill_ndb_message_header` checked, and the words it wrote. -/
structure Accepted : Prop where
  segments : o.message.segments.length ≤ 3
  priority : o.message.messagePriority.toNat ≤ 1
  main : o.message.main.length ≤ 25
  sender : o.message.senderModuleId.toNat ≤ 8192
  receiver : o.message.receiverModuleId.toNat ≤ 4096
  words : o.words = o.word1 :: o.body ++
    if link.useChecksum then [xorWords (o.word1 :: o.body)] else []

theorem accepted : o.Accepted := by
  have hFilled := o.filled
  unfold fillNdbMessageHeader at hFilled
  split at hFilled
  · cases hFilled
  next hSegments =>
    split at hFilled
    next hOk =>
      obtain ⟨hPriority, hMain, hSender, hReceiver⟩ := hOk
      refine ⟨Nat.not_lt.mp hSegments, UInt32.le_iff_toNat_le.mp hPriority, hMain,
        UInt32.le_iff_toNat_le.mp hSender, UInt32.le_iff_toNat_le.mp hReceiver, ?_⟩
      rw [← Option.some.inj hFilled]
      cases link.useChecksum
      · simp [word1, body]
      · simp [word1, body]
    · cases hFilled

theorem length_words : o.words.length = totMessageSize link o.message := by
  rw [o.accepted.words, totMessageSize, ← length_payload o.sequenceId]
  cases link.useChecksum
  · simp [body]
    omega
  · simp [body]
    omega

theorem length_pos : 0 < o.words.length := by
  rw [o.accepted.words]
  simp

theorem documented_eq : o.documented = o.word1 := by
  rw [documented, layout, word1,
    ← headerWord1_eq sender link o.accepted.main o.fits o.accepted.priority, UInt32.ofNat_toNat]

/-- Each field of the first word is what was written there. -/
theorem word1_read (i : Nat) (hi : i < 12) :
    o.word1.toNat / 2 ^ offset o.layout i % 2 ^ (o.layout.get ⟨i, hi⟩).1 = (o.layout.get ⟨i, hi⟩).2 := by
  rw [word1, headerWord1_eq sender link o.accepted.main o.fits o.accepted.priority]
  exact pack_read (word1Layout_fits sender link o.accepted.main o.fits o.accepted.priority) hi

theorem getMessageSize_word1 : getMessageSize o.word1 = o.words.length := by
  unfold getMessageSize
  rw [toNat_field _ _ _ (n := 8) (m := 16) rfl (by omega) rfl, o.length_words]
  exact o.word1_read 7 (by omega)

theorem mainSize_word1 : ((o.word1 >>> 26) &&& 0x1F).toNat = o.message.main.length := by
  rw [toNat_field _ _ _ (n := 26) (m := 5) rfl (by omega) rfl]
  exact o.word1_read 10 (by omega)

theorem priority_word1 : (o.word1 >>> 5) &&& 3 = o.message.messagePriority := by
  apply UInt32.toNat_inj.mp
  rw [toNat_field _ _ _ (n := 5) (m := 2) rfl (by omega) rfl]
  exact o.word1_read 5 (by omega)

/-- A bit of the first word that is tested. -/
theorem flag_word1 (i : Nat) (hi : i < 12) (mask : UInt32) (b : Bool)
    (hMask : mask.toNat = 2 ^ offset o.layout i) (hField : o.layout.get ⟨i, hi⟩ = (1, bit b)) :
    (o.word1 &&& mask != 0) = b := by
  have hRead := o.word1_read i hi
  rw [hField, Nat.pow_one] at hRead
  rw [flag_eq _ _ hMask, hRead]
  cases b <;> rfl

theorem messageNumberUsed_word1 : (o.word1 &&& 4 != 0) = link.useMessageId :=
  o.flag_word1 2 (by omega) 4 _ rfl rfl

theorem chksumUsed_word1 : (o.word1 &&& 0x10 != 0) = link.useChecksum :=
  o.flag_word1 4 (by omega) 0x10 _ rfl rfl

theorem byteOrder_word1 : (o.word1 &&& 1 != 0) = sender :=
  o.flag_word1 0 (by omega) 1 _ rfl rfl

theorem fragmentation_word1 : (((o.word1 >>> 1) &&& 1) <<< 1) + ((o.word1 >>> 25) &&& 1) =
    o.message.fragmentFlag := by
  have hFlag : o.message.fragmentFlag.toNat < 4 := UInt32.lt_iff_toNat_lt.mp o.fragment
  have hHigh : ((o.word1 >>> 1) &&& 1).toNat = fragmentHigh o.message := by
    rw [toNat_field _ _ _ (n := 1) (m := 1) rfl (by omega) rfl]
    exact o.word1_read 1 (by omega)
  have hLow : ((o.word1 >>> 25) &&& 1).toNat = fragmentLow o.message := by
    rw [toNat_field _ _ _ (n := 25) (m := 1) rfl (by omega) rfl]
    exact o.word1_read 9 (by omega)
  have hHighLe := fragmentHigh_le o.message
  apply UInt32.toNat_inj.mp
  rw [UInt32.toNat_add, toNat_shiftLeft_fits _ _ (n := 1) rfl (by omega) (by omega), hHigh, hLow,
    Nat.shiftLeft_eq]
  unfold fragmentHigh fragmentLow
  omega

/-- The first word with its bytes in the other order has the same lowest bit: bit 24. -/
theorem byteOrder_swapped : (swapEndianWord o.word1 &&& 1 != 0) = sender := by
  have hRead : o.word1.toNat / 2 ^ 24 % 2 ^ 1 = bit sender := o.word1_read 8 (by omega)
  have hSwap : (swapEndianWord o.word1).toNat / 2 ^ 0 % 2 = bit sender := by
    rw [show swapEndianWord o.word1 = swapBytes o.word1 from rfl, toNat_swapBytes]
    omega
  rw [flag_eq _ _ (n := 0) rfl, hSwap]
  cases sender <;> rfl

/-! The second and the third word. -/

theorem toNat_messageId_word2 :
    (headerWord2 o.message &&& 0x7FFFF).toNat = o.message.messageId.toNat % 2 ^ 19 := by
  have hSegments := o.accepted.segments
  have hNat : (UInt32.ofNat o.message.segments.length).toNat = o.message.segments.length :=
    UInt32.toNat_ofNat_of_lt' (by
      show _ < 2 ^ 32
      omega)
  have hShift : (o.message.segments.length <<< 26) % 2 ^ 19 = 0 := by
    rw [Nat.shiftLeft_eq]
    omega
  rw [toNat_and_low _ _ (m := 19) rfl, headerWord2, UInt32.toNat_or,
    toNat_shiftLeft_fits _ _ (n := 26) rfl (by omega) (by omega), hNat, Nat.or_mod_two_pow,
    hShift, Nat.or_zero]

section

variable (h : o.message.messageId.toNat < 2 ^ 19)

include h

theorem toNat_word2 :
    (headerWord2 o.message).toNat =
      pack [(20, o.message.messageId.toNat), (6, 0), (2, o.message.segments.length)] := by
  have hSegments := o.accepted.segments
  have hNat : (UInt32.ofNat o.message.segments.length).toNat = o.message.segments.length :=
    UInt32.toNat_ofNat_of_lt' (by
      show _ < 2 ^ 32
      omega)
  rw [headerWord2, UInt32.toNat_or, toNat_shiftLeft_fits _ _ (n := 26) rfl (by omega) (by omega),
    hNat, Nat.or_comm, shiftLeft_or _ (by omega)]
  simp only [pack]
  omega

theorem messageId_word2 : headerWord2 o.message &&& 0x7FFFF = o.message.messageId := by
  apply UInt32.toNat_inj.mp
  rw [o.toNat_messageId_word2, Nat.mod_eq_of_lt h]

theorem word2_fits :
    ∀ f ∈ [(20, o.message.messageId.toNat), (6, 0), (2, o.message.segments.length)],
      f.2 < 2 ^ f.1 := by
  have hSegments := o.accepted.segments
  simp only [forall_mem_cons, not_mem_nil, false_imp_iff, implies_true, and_true]
  refine ⟨?_, ?_, ?_⟩
  all_goals omega

theorem trace_word2 : (headerWord2 o.message >>> 20) &&& 0x3F = 0 := by
  apply UInt32.toNat_inj.mp
  rw [toNat_field _ _ _ (n := 20) (m := 6) rfl (by omega) rfl, o.toNat_word2 h]
  exact pack_read (o.word2_fits h) (i := 1) (by simp)

theorem numSegments_word2 :
    ((headerWord2 o.message >>> 26) &&& 3).toNat = o.message.segments.length := by
  rw [toNat_field _ _ _ (n := 26) (m := 2) rfl (by omega) rfl, o.toNat_word2 h]
  exact pack_read (o.word2_fits h) (i := 2) (by simp)

end

theorem toNat_word3 : (headerWord3 o.message).toNat =
    o.message.receiverModuleId.toNat * 2 ^ 16 + o.message.senderModuleId.toNat := by
  have hSender := o.accepted.sender
  have hReceiver := o.accepted.receiver
  rw [headerWord3, UInt32.toNat_or, toNat_shiftLeft_fits _ _ (n := 16) rfl (by omega) (by omega),
    Nat.or_comm, shiftLeft_or _ (by omega)]

theorem sender_word3 : headerWord3 o.message &&& 0xFFFF = o.message.senderModuleId := by
  have hSender := o.accepted.sender
  apply UInt32.toNat_inj.mp
  rw [toNat_and_low _ _ (m := 16) rfl, o.toNat_word3]
  omega

theorem receiver_word3 : headerWord3 o.message >>> 16 = o.message.receiverModuleId := by
  have hSender := o.accepted.sender
  apply UInt32.toNat_inj.mp
  rw [UInt32.toNat_shiftRight, o.toNat_word3, Nat.shiftRight_eq_div_pow]
  show _ / 2 ^ 16 = _
  omega

end Outgoing

/-! ## The checksum -/

theorem foldl_xor (a : UInt32) (words : List UInt32) :
    words.foldl (· ^^^ ·) a = a ^^^ xorWords words := by
  unfold xorWords
  induction words generalizing a with
  | nil => simp
  | cons w words ih =>
    rw [foldl_cons, foldl_cons, ih, ih (0 ^^^ w), UInt32.zero_xor, UInt32.xor_assoc]

theorem xorWords_cons (w : UInt32) (words : List UInt32) :
    xorWords (w :: words) = w ^^^ xorWords words := by
  rw [xorWords, foldl_cons, foldl_xor, UInt32.zero_xor]

theorem xorWords_concat (words : List UInt32) (w : UInt32) :
    xorWords (words ++ [w]) = xorWords words ^^^ w := by
  rw [xorWords, foldl_append, foldl_xor, xorWords_cons, show xorWords [] = 0 from rfl,
    UInt32.xor_zero]
  rfl

/-- With another first word, and a number added to the checksum, what remains are the two. -/
theorem xorWords_changed (word first : UInt32) (body : List UInt32) (number : UInt32) :
    xorWords (first :: body ++ [xorWords (word :: body) ^^^ number]) =
      first ^^^ word ^^^ number := by
  rw [xorWords_concat, xorWords_cons, xorWords_cons]
  calc first ^^^ xorWords body ^^^ (word ^^^ xorWords body ^^^ number)
      = first ^^^ word ^^^ number ^^^ (xorWords body ^^^ xorWords body) := by ac_rfl
    _ = first ^^^ word ^^^ number := by rw [UInt32.xor_self, UInt32.xor_zero]

/-! ## Numbering -/

/-- What the connection adds to the checksum. -/
def added (link : Link) (number : UInt32) : UInt32 := if link.useMessageId then number else 0

/-- The words of a message after `ndb_send` gave it a number. -/
def Outgoing.numbered (o : Outgoing sender link) (number : UInt32) : List UInt32 :=
  o.word1 :: o.body ++
    if link.useChecksum then [xorWords (o.word1 :: o.body) ^^^ added link number] else []

theorem Outgoing.words_eq_cons (o : Outgoing sender link) :
    ∃ rest, o.words = o.word1 :: rest := by
  rw [o.accepted.words]
  exact ⟨_, rfl⟩

/-- Without message numbers on the link nothing is changed. -/
theorem Outgoing.numbered_of_not (o : Outgoing sender link) (number : UInt32)
    (h : link.useMessageId = false) : o.numbered number = o.words := by
  rw [Outgoing.numbered, o.accepted.words, added, h]
  simp

theorem modify_concat {α : Type} (l : List α) (x : α) (f : α → α) :
    (l ++ [x]).modify l.length f = l ++ [f x] := by
  induction l with
  | nil => rfl
  | cons y l ih => rw [cons_append, length_cons, modify_succ_cons, ih,
      cons_append]

/-- With them, the number is added to the checksum. -/
theorem Outgoing.numbered_of_use (o : Outgoing sender link) (number : UInt32)
    (h : link.useMessageId = true) : (if link.useChecksum then
      o.words.modify (o.words.length - 1) (· ^^^ number) else o.words) = o.numbered number := by
  rw [Outgoing.numbered, o.accepted.words, added, h]
  cases link.useChecksum with
  | false => simp
  | true =>
    simp only [if_true, length_append, length_singleton, Nat.add_sub_cancel]
    exact modify_concat _ _ _

theorem fillInPage_cons (o : Outgoing sender link) (h : link.useMessageId = true) (fuel : Nat)
    (messageId : UInt32) (rest : List UInt32) :
    fillInPage link.useChecksum (fuel + 1) messageId (o.words ++ rest) =
      (fillInPage link.useChecksum fuel (messageId + 1) rest).map
        fun (words, next) => (o.numbered messageId ++ words, next) := by
  have hSize := o.getMessageSize_word1
  have hPos := o.length_pos
  have hNumbered := o.numbered_of_use messageId h
  obtain ⟨tail, hWords⟩ := o.words_eq_cons
  have hLength : o.words.length = tail.length + 1 := by
    rw [hWords, length_cons]
  have hEnough : ¬(getMessageSize o.word1 = 0 ∨
      (tail ++ rest).length + 1 < getMessageSize o.word1) := by
    rw [hSize, hLength, length_append]
    omega
  have hCons : o.words ++ rest = o.word1 :: (tail ++ rest) := by
    rw [hWords, cons_append]
  have hTake : (o.word1 :: (tail ++ rest)).take (getMessageSize o.word1) = o.words := by
    rw [← hCons, hSize, take_left]
  have hDrop : (o.word1 :: (tail ++ rest)).drop (getMessageSize o.word1) = rest := by
    rw [← hCons, hSize, drop_left]
  rw [hCons, fillInPage, if_neg hEnough, hTake, hDrop, hSize]
  simp only [hNumbered]

theorem pageWords_cons (o : Outgoing sender link) (page : List (Outgoing sender link)) :
    pageWords (o :: page) = o.words ++ pageWords page := by
  rw [pageWords, flatMap_cons]
  rfl

/-- The page after its messages got their numbers, from `messageId` on. -/
def numberedPage : UInt32 → List (Outgoing sender link) → List UInt32
  | _, [] => []
  | messageId, o :: page => o.numbered messageId ++ numberedPage (messageId + 1) page

theorem fillInPage_pageWords (h : link.useMessageId = true) (page : List (Outgoing sender link))
    {fuel : Nat} (messageId : UInt32) (hFuel : page.length ≤ fuel) :
    fillInPage link.useChecksum fuel messageId (pageWords page) =
      some (numberedPage messageId page, messageId + UInt32.ofNat page.length) := by
  induction page generalizing fuel messageId with
  | nil => cases fuel <;> simp [pageWords, fillInPage, numberedPage]
  | cons o page ih =>
    cases fuel with
    | zero => simp at hFuel
    | succ fuel =>
      have hNext : messageId + 1 + UInt32.ofNat page.length =
          messageId + UInt32.ofNat (o :: page).length := by
        rw [length_cons, UInt32.ofNat_add, UInt32.add_assoc, UInt32.add_comm 1]
        rfl
      rw [pageWords_cons, fillInPage_cons o h, ih (messageId + 1) (by simpa using hFuel), hNext]
      rfl

theorem length_le_pageWords (page : List (Outgoing sender link)) :
    page.length ≤ (pageWords page).length := by
  induction page with
  | nil => simp
  | cons o page ih =>
    have hPos := o.length_pos
    rw [pageWords_cons, length_append, length_cons]
    omega

/-- The pages after their messages got their numbers. -/
def numberedPages : UInt32 → List (List (Outgoing sender link)) → List (List UInt32)
  | _, [] => []
  | messageId, page :: pages =>
    numberedPage messageId page :: numberedPages (messageId + UInt32.ofNat page.length) pages

theorem fillInMessageId_pages (h : link.useMessageId = true)
    (pages : List (List (Outgoing sender link))) (messageId : UInt32) :
    fillInMessageId link.useChecksum messageId (pages.map pageWords) =
      some (numberedPages messageId pages, messageId + UInt32.ofNat pages.flatten.length) := by
  induction pages generalizing messageId with
  | nil => simp [fillInMessageId, numberedPages]
  | cons page pages ih =>
    have hNext : messageId + UInt32.ofNat page.length + UInt32.ofNat pages.flatten.length =
        messageId + UInt32.ofNat (page :: pages).flatten.length := by
      rw [flatten_cons, length_append, UInt32.ofNat_add, UInt32.add_assoc]
    rw [map_cons, fillInMessageId,
      fillInPage_pageWords h page messageId (length_le_pageWords page)]
    simp only [Option.bind_eq_bind, Option.bind_some]
    rw [ih, hNext]
    rfl

theorem numberedPage_of_not (h : link.useMessageId = false)
    (page : List (Outgoing sender link)) (messageId : UInt32) :
    numberedPage messageId page = pageWords page := by
  induction page generalizing messageId with
  | nil => rfl
  | cons o page ih =>
    rw [numberedPage, o.numbered_of_not messageId h, ih, pageWords_cons]

theorem numberedPages_of_not (h : link.useMessageId = false)
    (pages : List (List (Outgoing sender link))) (messageId : UInt32) :
    numberedPages messageId pages = pages.map pageWords := by
  induction pages generalizing messageId with
  | nil => rfl
  | cons page pages ih => rw [numberedPages, numberedPage_of_not h, ih, map_cons]

/-- `ndb_send` gives the messages their numbers, one after the other over all pages. -/
theorem numberMessages_pages (pages : List (List (Outgoing sender link))) (messageId : UInt32) :
    ∃ next, numberMessages link messageId (pages.map pageWords) =
      some (numberedPages messageId pages, next) := by
  unfold numberMessages
  cases hUse : link.useMessageId with
  | true => exact ⟨_, fillInMessageId_pages hUse pages messageId⟩
  | false => exact ⟨messageId, by rw [numberedPages_of_not hUse]; rfl⟩

theorem Outgoing.length_numbered (o : Outgoing sender link) (number : UInt32) :
    (o.numbered number).length = o.words.length := by
  rw [Outgoing.numbered, o.accepted.words]
  cases link.useChecksum <;> simp

theorem length_numberedPage (page : List (Outgoing sender link)) (messageId : UInt32) :
    (numberedPage messageId page).length = (pageWords page).length := by
  induction page generalizing messageId with
  | nil => rfl
  | cons o page ih =>
    rw [numberedPage, length_append, ih, o.length_numbered, pageWords_cons,
      length_append]

theorem numberedPage_append (front back : List (Outgoing sender link)) (messageId : UInt32) :
    numberedPage messageId (front ++ back) =
      numberedPage messageId front ++
        numberedPage (messageId + UInt32.ofNat front.length) back := by
  induction front generalizing messageId with
  | nil => simp [numberedPage]
  | cons o front ih =>
    rw [cons_append, numberedPage, numberedPage, ih, append_assoc, length_cons,
      UInt32.ofNat_add, UInt32.add_assoc, UInt32.add_comm (UInt32.ofNat front.length)]
    rfl

/-- The words of one message, from where it is on its page. -/
theorem numberedPage_message (front : List (Outgoing sender link)) (o : Outgoing sender link)
    (back : List (Outgoing sender link)) (messageId : UInt32) :
    ((numberedPage messageId (front ++ o :: back)).drop (pageWords front).length).take
      o.words.length = o.numbered (messageId + UInt32.ofNat front.length) := by
  rw [numberedPage_append, ← length_numberedPage front messageId, drop_left, numberedPage,
    ← o.length_numbered, take_left]

theorem numberedPages_page (before : List (List (Outgoing sender link)))
    (page : List (Outgoing sender link)) (after : List (List (Outgoing sender link)))
    (messageId : UInt32) :
    (numberedPages messageId (before ++ page :: after))[before.length]? =
      some (numberedPage (messageId + UInt32.ofNat before.flatten.length) page) := by
  induction before generalizing messageId with
  | nil => simp [numberedPages]
  | cons first before ih =>
    rw [cons_append, numberedPages, length_cons, getElem?_cons_succ, ih,
      flatten_cons, length_append, UInt32.ofNat_add, UInt32.add_assoc]

/-! ## Receiving a message -/

theorem swapEndianWord_swapEndianWord (w : UInt32) : swapEndianWord (swapEndianWord w) = w :=
  swapBytes_swapBytes w

/-- The first word stays as it was loaded, the others are as the sender wrote them. -/
theorem switchByteOrder_loadedAs {word : UInt32} {rest : List UInt32}
    (hSize : getMessageSize word = rest.length + 1) (hOrder : (word &&& 1 != 0) = sender)
    (hSwapped : (swapEndianWord word &&& 1 != 0) = sender) :
    switchByteOrder receiver (loadedAs sender receiver (word :: rest)) =
      (word, (if sender = receiver then word else swapEndianWord word) :: rest) := by
  by_cases hSame : sender = receiver
  · rw [loadedAs, if_pos hSame, if_pos hSame, switchByteOrder]
    simp [hOrder, hSame]
  · have hRest : swapRest (swapEndianWord word :: rest.map swapEndianWord) (rest.length + 1) =
        swapEndianWord word :: rest := by
      apply ext_getElem
      · simp [swapRest]
      · intro i hi hi'
        cases i with
        | zero => simp [swapRest]
        | succ i =>
          have hLt : i < rest.length := by simpa using hi'
          simp [swapRest, hLt, swapEndianWord_swapEndianWord]
    rw [loadedAs, if_neg hSame, if_neg hSame, switchByteOrder, map_cons]
    simp only [getD_cons_zero, hSwapped, swapEndianWord_swapEndianWord, hSize, hRest]
    rw [if_pos]
    simpa using hSame

/-- The segments that follow each other are where `segmentsFrom` looks for them. -/
theorem segmentsFrom_read (front : List UInt32) (segments : List (List UInt32))
    (back : List UInt32) :
    (segmentsFrom front.length (segments.map List.length)).map
      (fun (start, size) => ((front ++ segments.flatten ++ back).drop start).take size) =
        segments := by
  induction segments generalizing front with
  | nil => rfl
  | cons segment segments ih =>
    have hRest := ih (front ++ segment)
    rw [length_append, append_assoc front] at hRest
    rw [map_cons, segmentsFrom, map_cons, flatten_cons, hRest]
    dsimp only
    rw [append_assoc, drop_left, append_assoc, take_left]

theorem segmentsFrom_sizes (start : Nat) (sizes : List Nat) :
    (segmentsFrom start sizes).map Prod.snd = sizes := by
  induction sizes generalizing start with
  | nil => rfl
  | cons n sizes ih => rw [segmentsFrom, map_cons, ih]

theorem getD_range (front words back : List UInt32) :
    (List.range words.length).map (fun i => (front ++ words ++ back).getD (front.length + i) 0) =
      words := by
  apply ext_getElem
  · simp
  · intro i hi hi'
    have hMiddle : (front ++ (words ++ back))[front.length + i]? = some words[i] := by
      rw [getElem?_append_right (Nat.le_add_right _ _), Nat.add_sub_cancel_left,
        getElem?_append_left hi', getElem?_eq_getElem hi']
    simp [hMiddle]

/-- Whatever is received, the message number has 19 bits. -/
theorem messageId_lt {words words' : List UInt32} {r : NdbMessage} {accepted : Bool}
    (h : createNdbMessage receiver words = some (words', r, accepted)) :
    r.messageId.toNat < 2 ^ 19 := by
  simp only [createNdbMessage] at h
  split at h
  · injection h with h
    injection h with hWords h
    injection h with hMessage hAccepted
    rw [← hMessage, toNat_and_low _ _ (m := 19) rfl]
    exact Nat.mod_lt _ (by decide)
  · cases h

namespace Outgoing

variable (o : Outgoing sender link)

/-- The first word in the buffer of the receiver. -/
def first (receiver : Bool) : UInt32 :=
  if sender = receiver then o.word1 else swapEndianWord o.word1

/-- The header in the buffer of the receiver. -/
def front (receiver : Bool) : List UInt32 :=
  [o.first receiver, headerWord2 o.message, headerWord3 o.message] ++
    if link.useMessageId then [o.sequenceId] else []

/-- The words in the buffer of the receiver. -/
def received (receiver : Bool) (number : UInt32) : List UInt32 :=
  o.front receiver ++ o.message.main ++
    o.message.segments.map (fun segment => UInt32.ofNat segment.length) ++
    o.message.segments.flatten ++
    if link.useChecksum then [xorWords (o.word1 :: o.body) ^^^ added link number] else []

theorem received_eq (number : UInt32) : o.received receiver number =
    o.first receiver :: o.body ++
      if link.useChecksum then [xorWords (o.word1 :: o.body) ^^^ added link number] else [] := by
  simp [received, front, body, payload]

theorem length_front : (o.front receiver).length = if link.useMessageId then 4 else 3 := by
  unfold front
  cases link.useMessageId <;> rfl

theorem length_received (number : UInt32) :
    (o.received receiver number).length = o.words.length := by
  rw [received_eq, o.accepted.words]
  cases link.useChecksum <;> simp

theorem switchByteOrder_numbered (number : UInt32) :
    switchByteOrder receiver (loadedAs sender receiver (o.numbered number)) =
      (o.word1, o.received receiver number) := by
  have hSize : getMessageSize o.word1 = (o.body ++ if link.useChecksum then
      [xorWords (o.word1 :: o.body) ^^^ added link number] else []).length + 1 := by
    rw [o.getMessageSize_word1, ← o.length_numbered number]
    rfl
  rw [received_eq]
  exact switchByteOrder_loadedAs hSize o.byteOrder_word1 o.byteOrder_swapped

theorem length_segment_lt {segment : List UInt32} (h : segment ∈ o.message.segments) :
    segment.length < 2 ^ 32 := by
  have hFlatten : segment.length ≤ o.message.segments.flatten.length :=
    (sublist_flatten_of_mem h).length_le
  have hLe := o.fits
  unfold totMessageSize payload at hLe
  simp only [length_append] at hLe
  omega

/-- The lengths of the segments are read back. -/
theorem sizes_received (number : UInt32) :
    (List.range o.message.segments.length).map (fun i => ((o.received receiver number).getD
      ((if link.useMessageId then 4 else 3) + o.message.main.length + i) 0).toNat) =
        o.message.segments.map List.length := by
  have hRange := getD_range (o.front receiver ++ o.message.main)
    (o.message.segments.map fun segment => UInt32.ofNat segment.length)
    (o.message.segments.flatten ++
      if link.useChecksum then [xorWords (o.word1 :: o.body) ^^^ added link number] else [])
  rw [← append_assoc, length_append, length_front, length_map] at hRange
  have hNat : (o.message.segments.map fun segment => UInt32.ofNat segment.length).map
      UInt32.toNat = o.message.segments.map List.length := by
    rw [map_map]
    apply map_congr_left
    intro segment hMem
    exact UInt32.toNat_ofNat_of_lt' (o.length_segment_lt hMem)
  rw [← hNat, ← hRange, map_map]
  rfl

/-- The fields that the receiver finds. -/
def fields : NdbMessage where
  messagePriority := o.message.messagePriority
  fragmentationBits := o.message.fragmentFlag
  messageId := o.message.messageId
  traceNum := 0
  senderModuleId := o.message.senderModuleId
  receiverModuleId := o.message.receiverModuleId
  messageNumber := if link.useMessageId then o.sequenceId else 0
  numSegments := o.message.segments.length + 1
  segments := ((if link.useMessageId then 4 else 3), o.message.main.length) ::
    segmentsFrom ((if link.useMessageId then 4 else 3) + o.message.main.length +
      o.message.segments.length) (o.message.segments.map List.length)

/-- What is left of the checksum. -/
def remainder (receiver : Bool) (number : UInt32) : UInt32 :=
  o.first receiver ^^^ o.word1 ^^^ added link number

section

variable (number : UInt32)

include number

theorem checksum_received : (!link.useChecksum ||
    xorWords ((o.received receiver number).take (getMessageSize o.word1)) == 0) =
      (!link.useChecksum || o.remainder receiver number == 0) := by
  have hTake : (o.received receiver number).take (getMessageSize o.word1) =
      o.received receiver number := by
    apply take_of_length_le
    rw [o.getMessageSize_word1, o.length_received]
  rw [hTake, received_eq]
  cases hUse : link.useChecksum with
  | false => rfl
  | true =>
    rw [if_pos rfl, xorWords_changed]
    rfl

theorem word2_getD :
    (o.received receiver number).getD 1 0 = headerWord2 o.message := rfl

theorem word3_getD :
    (o.received receiver number).getD 2 0 = headerWord3 o.message := rfl

theorem messageNumber_received :
    (if link.useMessageId then (o.received receiver number).getD 3 0 else 0) =
      if link.useMessageId then o.sequenceId else 0 := by
  cases hUse : link.useMessageId with
  | false => rfl
  | true => simp [received, front, hUse]

theorem createNdbMessage_numbered (h : o.message.messageId.toNat < 2 ^ 19) :
    createNdbMessage receiver (loadedAs sender receiver (o.numbered number)) =
      some (o.received receiver number, o.fields,
        !link.useChecksum || o.remainder receiver number == 0) := by
  have hMain : o.message.main.length ≤ ndbMaxMainMessageSize := o.accepted.main
  have hMessageId := o.messageId_word2 h
  have hTrace := o.trace_word2 h
  have hSegments := o.numSegments_word2 h
  simp only [createNdbMessage, o.switchByteOrder_numbered, o.mainSize_word1, word2_getD,
    word3_getD]
  rw [if_pos hMain]
  simp only [o.messageNumberUsed_word1, o.chksumUsed_word1, hSegments, o.sizes_received,
    o.priority_word1, o.fragmentation_word1, hMessageId, hTrace, o.sender_word3,
    o.receiver_word3, messageNumber_received, checksum_received]
  rfl

/-- The fields are those of the message, if it was filled in with the number it gets. -/
theorem returns_fields (h : link.useMessageId → o.sequenceId = number) :
    Returns link number o.message (o.received receiver number) o.fields where
  priority := rfl
  fragment := rfl
  message_id := rfl
  trace := rfl
  sender := rfl
  receiver := rfl
  number := by
    cases hUse : link.useMessageId with
    | false => simp [fields, hUse]
    | true => simp [fields, hUse, h hUse]
  num_segments := rfl
  segments := by
    have hLength : (o.front receiver).length = _ := o.length_front
    -- the segments follow their lengths
    have hSegments := segmentsFrom_read (o.front receiver ++ o.message.main ++
        o.message.segments.map fun segment => UInt32.ofNat segment.length) o.message.segments
      (if link.useChecksum then [xorWords (o.word1 :: o.body) ^^^ added link number] else [])
    have hMain : ((o.received receiver number).drop (o.front receiver).length).take
        o.message.main.length = o.message.main := by
      simp only [received, append_assoc]
      rw [drop_left, take_left]
    rw [length_append, length_append, length_map, hLength] at hSegments
    rw [hLength] at hMain
    rw [fields, map_cons]
    exact congrArg₂ List.cons hMain hSegments
  sizes := by
    rw [fields, map_cons, segmentsFrom_sizes, map_cons]

/-- Nothing is left of the checksum if the number makes up for the change of byte order. -/
theorem remainder_eq_zero_iff : o.remainder receiver number = 0 ↔
    added link number =
      if sender = receiver then 0 else o.documented ^^^ swapEndianWord o.documented := by
  have hFirst : o.word1 ^^^ o.first receiver =
      if sender = receiver then 0 else o.word1 ^^^ swapEndianWord o.word1 := by
    unfold first
    split
    · rw [UInt32.xor_self]
    · rfl
  rw [documented_eq, remainder, UInt32.xor_eq_zero_iff, UInt32.xor_comm (o.first receiver), hFirst]
  exact eq_comm

theorem roundTrip_iff : RoundTrip receiver link number o.message
    (loadedAs sender receiver (o.numbered number)) ↔ Codable receiver number o := by
  constructor
  · rintro ⟨words, r, hCreate, hReturns⟩
    have hId : o.message.messageId.toNat < 2 ^ 19 := by
      rw [← hReturns.message_id]
      exact messageId_lt hCreate
    rw [o.createNdbMessage_numbered number hId] at hCreate
    injection hCreate with hCreate
    injection hCreate with hWords hCreate
    injection hCreate with hFields hChecked
    refine ⟨UInt32.lt_iff_toNat_lt.mpr hId, ?_, ?_⟩
    · intro hUse
      have hNumber := hReturns.number
      rw [← hFields, fields, hUse] at hNumber
      exact hNumber
    · intro hUse
      rw [hUse, Bool.not_true, Bool.false_or] at hChecked
      exact (o.remainder_eq_zero_iff number).mp (by simpa using hChecked)
  · intro hCodable
    refine ⟨o.received receiver number, o.fields, ?_,
      o.returns_fields number hCodable.sequence_id⟩
    rw [o.createNdbMessage_numbered number (UInt32.lt_iff_toNat_lt.mp hCodable.message_id)]
    cases hUse : link.useChecksum with
    | false => rfl
    | true =>
      have hZero := (o.remainder_eq_zero_iff number).mpr (hCodable.checksum hUse)
      simp [hZero]

end

end Outgoing

/-! ## The result -/

/-- The number of a message that has these pages and messages before it. -/
def numberOf (messageId : UInt32) (before : List (List (Outgoing sender link)))
    (front : List (Outgoing sender link)) : UInt32 :=
  messageId + UInt32.ofNat before.flatten.length + UInt32.ofNat front.length

/-- Any message on the pages of one call of `ndb_send`, received on a machine with the same or the
other byte order. -/
theorem message_codec_iff (receiver : Bool) (messageId : UInt32)
    (before : List (List (Outgoing sender link))) (front : List (Outgoing sender link))
    (o : Outgoing sender link) (back : List (Outgoing sender link))
    (after : List (List (Outgoing sender link))) :
    ∃ pages page next,
      numberMessages link messageId ((before ++ (front ++ o :: back) :: after).map pageWords) =
        some (pages, next) ∧
      pages[before.length]? = some page ∧
      (RoundTrip receiver link (numberOf messageId before front) o.message
        (loadedAs sender receiver
          ((page.drop (pageWords front).length).take o.words.length)) ↔
        Codable receiver (numberOf messageId before front) o) := by
  have hPage := numberedPages_page before (front ++ o :: back) after messageId
  obtain ⟨next, hNumber⟩ :=
    numberMessages_pages (before ++ (front ++ o :: back) :: after) messageId
  refine ⟨_, _, next, hNumber, hPage, ?_⟩
  rw [numberedPage_message]
  exact o.roundTrip_iff _

/-- The second message on a link with message numbers and checksums. -/
def secondMessage : Outgoing false ⟨true, true⟩ where
  message := ⟨59, 0, 4002, 4002, [1, 2, 3], [], 0⟩
  sequenceId := 1
  words := [0x0C000814, 59, 0x0FA20FA2, 1, 1, 2, 3, 60950412]
  filled := by decide
  fragment := by decide
  fits := by decide

/-- Its number is added to the checksum a second time: the receiver finds an error. -/
theorem checksum_error : ∃ pages page next,
    numberMessages ⟨true, true⟩ 1 ([[secondMessage]].map pageWords) = some (pages, next) ∧
      pages[0]? = some page ∧
      ¬RoundTrip false ⟨true, true⟩ 1 secondMessage.message page := by
  refine ⟨[[0x0C000814, 59, 0x0FA20FA2, 1, 1, 2, 3, 60950413]], _, 2, by decide, rfl, ?_⟩
  rintro ⟨words, r, hCreate, hReturns⟩
  have hRejected : (createNdbMessage false [0x0C000814, 59, 0x0FA20FA2, 1, 1, 2, 3, 60950413]).map
      (fun x => x.2.2) = some false := by
    decide
  rw [hCreate] at hRejected
  cases hRejected

end IClaustron.Apid.MessageCodec
