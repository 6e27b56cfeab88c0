import IClaustron.Lib.Run
import IClaustron.Lib.Words

/-!
# Apid.Receive — from the socket to the thread connections

Model of ndb_receive_node in api/ic_apid_rec_thread.ic, and of the message execution in
api/ic_apid_exec_message.ic as far as it is about pages. The receive thread reads a page of
bytes, cuts it into messages and links a message object for each of them into the queue of the
thread connection that it is addressed to. A short message is copied, a longer one stays in the
page.

Scope limits: one node connection. Pages and message objects are numbered in the order in which
they are taken from their pools, so that a page that is taken again is another page. Module ids
beyond the thread connections, packed messages and NULL pointers stop the program.
-/

namespace IClaustron.Apid.Receive

open Lib

/-! ## Constants -/

/-- MIN_NDB_HEADER_SIZE. -/
def minNdbHeaderSize : Nat := 12

/-- IC_STD_CACHE_LINE_SIZE. -/
def stdCacheLineSize : Nat := 128

/-- IC_NDB_MIN_MODULE_ID_FOR_THREADS. -/
def ndbMinModuleIdForThreads : Nat := 32768

/-- IC_NDB_PACKED_MODULE_ID. -/
def ndbPackedModuleId : Nat := 2047

/-- IC_MAX_THREAD_CONNECTIONS. -/
def maxThreadConnections : Nat := 256

/-- MAX_NDB_RECEIVE_LOOPS. -/
def maxNdbReceiveLoops : Nat := 16

/-! ## Words -/

/-- The first word of a memory. The byte order of the machine is `ic_glob_byte_order`: false is
the order with the lowest byte first. -/
def loadWord (byteOrder : Bool) : List UInt8 → UInt32
  | a :: b :: c :: d :: _ => if byteOrder then bytesWord a b c d else bytesWord d c b a
  | _ => 0

/-- `ic_swap_endian_word`. -/
def swapEndianWord (w : UInt32) : UInt32 :=
  bytesWord w.toUInt8 (w >>> 8).toUInt8 (w >>> 16).toUInt8 (w >>> 24).toUInt8

/-- `get_message_size`, in words. -/
def getMessageSize (word1 : UInt32) : Nat := ((word1 >>> 8) &&& 0xFFFF).toNat

/-- `read_message_early`: the size of a message in words and its receiver module id. -/
def readMessageEarly (byteOrder : Bool) (bytes : List UInt8) : Nat × Nat :=
  let word1 := loadWord byteOrder bytes
  let word3 := loadWord byteOrder (bytes.drop 8)
  if (word1 &&& 1 != 0) != byteOrder then
    (getMessageSize (swapEndianWord word1), (swapEndianWord word3 >>> 16).toNat)
  else (getMessageSize word1, (word3 >>> 16).toNat)

/-! ## Pages and message objects -/

/-- What a pointer to a page can be: a receive page, an address in its buffer, or the buffer of
a message object. -/
inductive Addr where
  | page (p : Nat)
  | data (p off : Nat)
  | own (m : Nat)
deriving DecidableEq

/-- The buffer of a message object: its own, or a place in a receive page. -/
inductive Buf where
  | own (bytes : List UInt8)
  | data (p off : Nat)
deriving DecidableEq

/-- A page object of the message pool. -/
structure Message where
  sockBuf : Buf
  refCount : Nat
deriving DecidableEq

/-- IC_TEMP_THREAD_CONNECTION, with its list of message objects. -/
structure TempThreadConnection where
  received : List Nat
  lastLong : Option Nat
  numMessagesOnPage : Nat
deriving DecidableEq

def TempThreadConnection.empty : TempThreadConnection := ⟨[], none, 0⟩

/-- What IC_RECEIVE_NODE_CONNECTION keeps between two calls. -/
structure RecNode where
  readSize : Nat
  readHeaderFlag : Bool
  bufPage : Option Nat
deriving DecidableEq

def RecNode.empty : RecNode := ⟨0, false, none⟩

/-- `mem` is what has been written to the buffer of a page, `refCount` its reference count.
`pages` and `msgs` count the pages and message objects taken so far, and `returned` are the
arguments of the calls that return a receive page. For each thread connection: `received` is
its queue, `executing` what is left of the list that it has taken from its queue, and `executed`
what it has executed so far. -/
structure State where
  connected : Bool
  recNode : RecNode
  mem : Nat → List UInt8
  refCount : Nat → Nat
  pages : Nat
  returned : List Addr
  msg : Nat → Message
  msgs : Nat
  temp : Nat → TempThreadConnection
  listModules : List Nat
  received : Nat → List Nat
  executing : Nat → List Nat
  executed : Nat → List Nat

def startState : State where
  connected := true
  recNode := .empty
  mem := fun _ => []
  refCount := fun _ => 0
  pages := 0
  returned := []
  msg := fun _ => ⟨.own [], 0⟩
  msgs := 0
  temp := fun _ => .empty
  listModules := []
  received := fun _ => []
  executing := fun _ => []
  executed := fun _ => []

/-! ## Receiving -/

/-- The local variables of `ndb_receive_node` in its loop over messages. `off` is the place of
`read_ptr` in the page, and `pageModules` the part of `list_page_modules_received` in use. -/
structure Local where
  off : Nat
  readSize : Nat
  readHeaderFlag : Bool
  messageSize : Nat
  receiverModuleId : Nat
  anyMessageReceived : Bool
  pageModules : List Nat
deriving DecidableEq

def Local.start (r : RecNode) : Local :=
  ⟨0, r.readSize, r.readHeaderFlag, 0, maxThreadConnections, false, []⟩

/-- `page_ref_count_handling` for the message object `m` in the page `p`. -/
def pageRefCountHandling (s : State) (l : Local) (t p m : Nat) : State × Local :=
  let temp := s.temp t
  if temp.numMessagesOnPage = 0 then
    ({ s with
        refCount := Function.update s.refCount p (s.refCount p + 1)
        temp := Function.update s.temp t { temp with numMessagesOnPage := 1, lastLong := some m } },
      { l with pageModules := l.pageModules ++ [t] })
  else ({ s with temp := Function.update s.temp t { temp with lastLong := some m } }, l)

/-- `put_message_on_temp_list`. -/
def putMessageOnTempList (s : State) (t m : Nat) : State :=
  let temp := s.temp t
  { s with
    listModules := if temp.received = [] then s.listModules ++ [t] else s.listModules
    temp := Function.update s.temp t { temp with received := temp.received ++ [m] } }

/-- A message for the thread connection `t` gets a message object. -/
def receiveMessage (s : State) (l : Local) (p t : Nat) : State × Local :=
  let m := s.msgs
  let s := { s with msgs := m + 1 }
  let (s, l) :=
    if l.messageSize ≤ stdCacheLineSize then
      let bytes := ((s.mem p).drop l.off).take l.messageSize
      ({ s with msg := Function.update s.msg m ⟨.own bytes, 0⟩ }, l)
    else
      let (s, l) := pageRefCountHandling s l t p m
      ({ s with msg := Function.update s.msg m ⟨.data p l.off, 0⟩ }, l)
  (putMessageOnTempList s t m, l)

/-- The header of the next message is read, unless it was read before, and its size is
converted from words to bytes. -/
def Local.readHeader (l : Local) (byteOrder : Bool) (bytes : List UInt8) : Local :=
  let l :=
    if l.readHeaderFlag then l
    else
      let header := readMessageEarly byteOrder (bytes.drop l.off)
      { l with messageSize := header.1, receiverModuleId := header.2, readHeaderFlag := true }
  { l with messageSize := l.messageSize * 4 % 2 ^ 32 }

/-- The next message starts after this one. -/
def Local.advance (l : Local) : Local :=
  { l with
    anyMessageReceived := true
    readHeaderFlag := false
    readSize := l.readSize - l.messageSize
    off := l.off + l.messageSize }

/-- The loop over the messages in a page. `failAt` is the number of message objects that the
pool has left, if it runs out of them. The result is false if it does. -/
def messageLoop (byteOrder : Bool) (p : Nat) :
    Nat → Option Nat → State → Local → Option (State × Local × Bool)
  | 0, _, _, _ => none
  | fuel + 1, failAt, s, l =>
    if l.readSize < minNdbHeaderSize then some (s, l, true)
    else
      let l := l.readHeader byteOrder (s.mem p)
      if l.readSize < l.messageSize then some (s, l, true)
      else if l.receiverModuleId ≠ ndbPackedModuleId ∧
          ndbMinModuleIdForThreads ≤ l.receiverModuleId then
        if failAt = some 0 then some (s, l, false)
        else
          let t := l.receiverModuleId - ndbMinModuleIdForThreads
          if t < maxThreadConnections then
            let (s, l) := receiveMessage s l p t
            messageLoop byteOrder p fuel (failAt.map (· - 1)) s l.advance
          else none
      else if l.receiverModuleId ≠ ndbPackedModuleId then
        messageLoop byteOrder p fuel failAt s l.advance
      else none

/-- What is left of the page is the first part of a message. It is copied to a new page, unless
no message has been received. -/
def keepTail (s : State) (l : Local) (p : Nat) (newPage : Bool) : Option State :=
  if 0 < l.readSize then
    if l.anyMessageReceived then
      if newPage then
        some { s with
          pages := s.pages + 1
          mem := Function.update s.mem s.pages ((s.mem p).take l.readSize)
          recNode := ⟨l.readSize, l.readHeaderFlag, some s.pages⟩ }
      else none
    else some s
  else some { s with recNode := .empty }

/-- The reference count of the last long message of each thread connection is set. -/
def markLastLong : List Nat → State → Option State
  | [], s => some s
  | t :: ts, s =>
    match (s.temp t).lastLong with
    | none => none
    | some m =>
      markLastLong ts { s with
        msg := Function.update s.msg m { s.msg m with refCount := 1 }
        temp := Function.update s.temp t { s.temp t with numMessagesOnPage := 0 } }

/-- The page is returned if no message refers to it. -/
def handOver (s : State) (pageModules : List Nat) (p : Nat) : Option State :=
  if pageModules = [] then some { s with returned := s.returned ++ [.page p] }
  else markLastLong pageModules s

/-- What happens in one round of the outer loop: whether the pool has a page to read into, the
bytes that are read or none for an error, the message object at which the message pool runs out,
and whether the pool has a page for the rest. -/
structure Round where
  page : Bool
  chunk : Option (List UInt8)
  failAt : Option Nat
  newPage : Bool
deriving DecidableEq

inductive Result where
  | ok | readError | memAlloc
deriving DecidableEq

/-- The page to read into: a new one, or the one with the first part of a message. -/
def readPage (s : State) (readSize : Nat) : Option (State × Nat) :=
  if readSize = 0 then
    some ({ s with pages := s.pages + 1, mem := Function.update s.mem s.pages [] }, s.pages)
  else s.recNode.bufPage.map fun p => (s, p)

/-- The outer loop, for the rounds that it takes. The Boolean is `any_message_received`. -/
def receiveLoop (byteOrder : Bool) (pageSize : Nat) :
    List Round → Nat → State → Local → Option (State × Result × Bool)
  | [], _, _, _ => none
  | r :: rs, loopCount, s, l =>
    if l.readSize = 0 ∧ r.page = false then
      if rs = [] then some (s, .memAlloc, l.anyMessageReceived) else none
    else do
      let (s, p) ← readPage s l.readSize
      match r.chunk with
      | none => if rs = [] then some (s, .readError, l.anyMessageReceived) else none
      | some chunk =>
        if 0 < chunk.length ∧ l.readSize + chunk.length ≤ pageSize then do
          let s := { s with
            mem := Function.update s.mem p ((s.mem p).take l.readSize ++ chunk) }
          let l := { l with off := 0, readSize := l.readSize + chunk.length, pageModules := [] }
          let readMore := l.readSize = pageSize
          let (s, l, done) ← messageLoop byteOrder p (l.readSize + 2 + r.failAt.getD 0) r.failAt s l
          if done then
            match keepTail s l p r.newPage with
            | none => if rs = [] then some (s, .memAlloc, l.anyMessageReceived) else none
            | some s => do
              let s ← handOver s l.pageModules p
              if readMore ∧ loopCount < maxNdbReceiveLoops then
                receiveLoop byteOrder pageSize rs (loopCount + 1) s l
              else if rs = [] then some (s, .ok, l.anyMessageReceived) else none
          else if rs = [] then some (s, .memAlloc, l.anyMessageReceived) else none
        else none

/-! ## Posting and polling -/

/-- The loop of `post_ndb_messages`. -/
def postLoop : List Nat → State → Option State
  | [], s => some { s with listModules := [] }
  | t :: ts, s =>
    if (s.temp t).received = [] then none
    else
      postLoop ts { s with
        temp := Function.update s.temp t { s.temp t with received := [], lastLong := none }
        received := Function.update s.received t (s.received t ++ (s.temp t).received) }

/-- `post_ndb_messages`. -/
def postNdbMessages (s : State) : Option State := postLoop s.listModules s

/-- `ndb_receive_node`. -/
def ndbReceiveNode (byteOrder : Bool) (pageSize : Nat) (rounds : List Round) (s : State) :
    Option (State × Result) := do
  let (s, result, anyMessageReceived) ←
    receiveLoop byteOrder pageSize rounds 0 s (.start s.recNode)
  if result = .readError ∧ anyMessageReceived = true then
    (postNdbMessages s).map fun s => (s, result)
  else some (s, result)

/-- The page that the code takes `sock_buf` for. -/
def Message.messagePage (m : Message) (n : Nat) : Addr :=
  match m.sockBuf with
  | .own _ => .own n
  | .data p off => .data p off

/-- `execute_message`. The check of the message, and its execution, give `ok`. -/
def executeMessage (s : State) (n : Nat) (ok : Bool) : State :=
  let m := s.msg n
  if ok ∧ 0 < m.refCount then
    let s := { s with msg := Function.update s.msg n { m with refCount := m.refCount - 1 } }
    if m.refCount - 1 = 0 then { s with returned := s.returned ++ [m.messagePage n] } else s
  else s

inductive Label where
  /-- The receive thread receives from the node connection. -/
  | receive (rounds : List Round)
  /-- The node connection is set up again after an error. -/
  | connect
  /-- `get_thread_messages`. -/
  | poll (t : Nat)
  /-- The next message in `ic_poll_messages`. -/
  | execute (t : Nat) (ok : Bool)
deriving DecidableEq

def step (byteOrder : Bool) (pageSize : Nat) (s : State) : Label → Option State
  | .receive rounds =>
    if s.connected then do
      let (s, result) ← ndbReceiveNode byteOrder pageSize rounds s
      if result = .ok then postNdbMessages s else some { s with connected := false }
    else none
  | .connect => if s.connected then none else some { s with connected := true, recNode := .empty }
  | .poll t =>
    if s.executing t = [] then
      some { s with
        executing := Function.update s.executing t (s.received t)
        received := Function.update s.received t [] }
    else none
  | .execute t ok =>
    match s.executing t with
    | [] => none
    | n :: rest =>
      let s := executeMessage s n ok
      some { s with
        executing := Function.update s.executing t rest
        executed := Function.update s.executed t (s.executed t ++ [n]) }

end IClaustron.Apid.Receive
