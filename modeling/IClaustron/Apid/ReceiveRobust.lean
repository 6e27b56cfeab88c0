import IClaustron.Apid.ReceiveFraming
import Mathlib.Data.List.Perm.Subperm

/-!
# Apid.ReceiveRobust — any bytes on a node connection

The receive thread as a machine that takes one read, one round of the loop over messages or one
posting at a time. Every access of ndb_receive_node (api/ic_apid_rec_thread.ic) to a page or to an
array stands for a check, and an access that goes wrong leads to a fault.

* `receive_safe_iff` — the runs that are safe.
* `headers_not_checked` — headers that stop the receive thread.

Scope limits: one node connection, and thread connections that stay. As before, a page that is
taken again is another page.
-/

namespace IClaustron.Apid.ReceiveRobust

open Lib Receive List Option Function

/-! ## Machine -/

/-- The thread connections that exist. -/
abbrev Threads := Fin maxThreadConnections → Bool

/-- The index is that of an existing thread connection. -/
def Threads.has (thd : Threads) (t : Nat) : Bool :=
  if h : t < maxThreadConnections then thd ⟨t, h⟩ else false

inductive Fault where
  /-- A NULL pointer is used. -/
  | nullPointer
  /-- Bytes of a page are read that were not received. -/
  | beyondPage
  /-- An array of thread connections is used with another index. -/
  | unknownThread
  /-- A list of modules is written behind its end. -/
  | listFull
  /-- `abort`, for a packed message. -/
  | abort
  /-- The loop over messages does not go on. -/
  | endless
deriving DecidableEq

inductive Phase where
  /-- Between two calls of `ndb_receive_node`. -/
  | idle
  /-- Before a page is read. -/
  | reading (l : Local)
  /-- In the loop over the messages of the page `p`. -/
  | inPage (l : Local) (p : Nat) (readMore : Bool)
  | faulty (f : Fault)
deriving DecidableEq

/-- `loopCount` counts the reads of a call, `iterations` the rounds of the loop over messages since
the last read, and `queued` are the messages so far, each with its thread connection and size. -/
structure Machine where
  s : State
  phase : Phase
  loopCount : Nat
  iterations : Nat
  queued : List (Nat × Nat)

def start : Machine := ⟨startState, .idle, 0, 0, []⟩

inductive Label where
  /-- `ndb_receive_node` is called. -/
  | call
  /-- A page is taken, if the pool has one, and the connection is read. -/
  | read (page : Bool) (chunk : Option (List UInt8))
  /-- A message in the page, and whether the pool has an object for it. -/
  | iterate (object : Bool)
  /-- The part behind the loop over messages, and whether the pool has a page for the rest. -/
  | rest (newPage : Bool)
  /-- The node connection is set up again after an error. -/
  | connect
  | poll (t : Nat)
  | execute (t : Nat) (ok : Bool)
deriving DecidableEq

namespace Machine

def fault (m : Machine) (f : Fault) : Machine := { m with phase := .faulty f }

/-- `post_ndb_messages`, at the end of a call that leaves the connection up or not. -/
def post (m : Machine) (thd : Threads) (connected : Bool) : Machine :=
  if m.s.listModules.all thd.has then
    match postNdbMessages m.s with
    | some s => { m with s := { s with connected := connected }, phase := .idle }
    | none => m.fault .nullPointer
  else m.fault .unknownThread

/-- The call returns an error, and nothing is posted. -/
def fail (m : Machine) : Machine := { m with s := { m.s with connected := false }, phase := .idle }

/-- One round of the outer loop up to its read. -/
def read (m : Machine) (thd : Threads) (pageSize : Nat) (l : Local) (page : Bool)
    (chunk : Option (List UInt8)) : Option Machine :=
  if l.readSize = 0 ∧ page = false then some m.fail
  else
    match readPage m.s l.readSize with
    | none => some (m.fault .nullPointer)
    | some (s, p) =>
      match chunk with
      | none =>
        if l.anyMessageReceived then some ({ m with s := s }.post thd false)
        else some { m with s := s }.fail
      | some chunk =>
        if 0 < chunk.length ∧ l.readSize + chunk.length ≤ pageSize then
          some { m with
            s := { s with mem := update s.mem p ((s.mem p).take l.readSize ++ chunk) }
            phase := .inPage
              { l with off := 0, readSize := l.readSize + chunk.length, pageModules := [] } p
              (decide (l.readSize + chunk.length = pageSize))
            iterations := 0 }
        else none

end Machine

/-- What the loop over messages finds next in a page. -/
inductive Next where
  /-- No complete message. -/
  | ended (l : Local)
  | message (l : Local)

def lookAt (byteOrder : Bool) (bytes : List UInt8) (l : Local) : Next :=
  if l.readSize < minNdbHeaderSize then .ended l
  else
    let l := l.readHeader byteOrder bytes
    if l.readSize < l.messageSize then .ended l else .message l

/-- A message for a thread connection. -/
def isNormal (moduleId : Nat) : Prop :=
  moduleId ≠ ndbPackedModuleId ∧ ndbMinModuleIdForThreads ≤ moduleId

instance (moduleId : Nat) : Decidable (isNormal moduleId) := inferInstanceAs (Decidable (_ ∧ _))

namespace Machine

/-- A complete message; `l` has its header, and `l₀` is how the round began. -/
def message (m : Machine) (thd : Threads) (l₀ l : Local) (p : Nat) (readMore object : Bool) :
    Machine :=
  let m := { m with iterations := m.iterations + 1 }
  if (m.s.mem p).length < l.off + max minNdbHeaderSize l.messageSize then m.fault .beyondPage
  else if isNormal l.receiverModuleId then
    let t := l.receiverModuleId - ndbMinModuleIdForThreads
    if thd.has t = false then m.fault .unknownThread
    else if object = false then m.fail
    else if maxThreadConnections < m.s.listModules.length ∨
        maxThreadConnections < l.pageModules.length then m.fault .listFull
    else
      let (s, l) := receiveMessage m.s l p t
      { m with
        s := s
        phase := .inPage l.advance p readMore
        queued := m.queued ++ [(t, l.messageSize)] }
  else if l.receiverModuleId = ndbPackedModuleId then m.fault .abort
  -- the next round begins with the same header at the same place
  else if l₀.readHeaderFlag = false ∧ l.messageSize = 0 then m.fault .endless
  else { m with phase := .inPage l.advance p readMore }

/-- What comes behind the loop over messages. -/
def rest (m : Machine) (thd : Threads) (l : Local) (p : Nat) (readMore newPage : Bool) : Machine :=
  if (m.s.mem p).length < l.readSize then m.fault .beyondPage
  else
    match keepTail m.s l p newPage with
    | none => m.fail
    | some s =>
      match handOver s l.pageModules p with
      | none => m.fault .nullPointer
      | some s =>
        if readMore ∧ m.loopCount < maxNdbReceiveLoops then
          { m with s := s, phase := .reading l, loopCount := m.loopCount + 1 }
        else { m with s := s }.post thd true

def step (thd : Threads) (byteOrder : Bool) (pageSize : Nat) (m : Machine) :
    Label → Option Machine
  | .call =>
    if m.phase = .idle ∧ m.s.connected then
      some { m with phase := .reading (.start m.s.recNode), loopCount := 0 }
    else none
  | .read page chunk =>
    match m.phase with
    | .reading l => m.read thd pageSize l page chunk
    | _ => none
  | .iterate object =>
    match m.phase with
    | .inPage l₀ p readMore =>
      match lookAt byteOrder (m.s.mem p) l₀ with
      | .message l => some (m.message thd l₀ l p readMore object)
      | .ended _ => none
    | _ => none
  | .rest newPage =>
    match m.phase with
    | .inPage l₀ p readMore =>
      match lookAt byteOrder (m.s.mem p) l₀ with
      | .message _ => none
      | .ended l => some (m.rest thd l p readMore newPage)
    | _ => none
  | .connect =>
    if m.phase = .idle then
      (Receive.step byteOrder pageSize m.s .connect).map fun s => { m with s := s }
    else none
  | .poll t => (Receive.step byteOrder pageSize m.s (.poll t)).map fun s => { m with s := s }
  | .execute t ok =>
    (Receive.step byteOrder pageSize m.s (.execute t ok)).map fun s => { m with s := s }

end Machine

/-! ## What should hold -/

/-- No fault was reached, every message that was queued fits into a page and is for an existing
thread connection, and the loops of a call end. -/
structure Safe (thd : Threads) (byteOrder : Bool) (pageSize : Nat) (m : Machine) : Prop where
  noFault : ∀ f, m.phase ≠ .faulty f
  queued : ∀ q ∈ m.queued, thd.has q.1 = true ∧ minNdbHeaderSize ≤ q.2 ∧ q.2 ≤ pageSize
  reads : m.loopCount ≤ maxNdbReceiveLoops
  rounds : m.iterations ≤ pageSize + 1
  goesOn : m.phase ≠ .idle → ∃ a m', m.step thd byteOrder pageSize a = some m'

/-- A complete message with this header, read in this round (`fresh`) or before. -/
def MessageOk (thd : Threads) (object fresh : Bool) (l : Local) : Prop :=
  if isNormal l.receiverModuleId then
    thd.has (l.receiverModuleId - ndbMinModuleIdForThreads) = true ∧
      (object = true → minNdbHeaderSize ≤ l.messageSize)
  else l.receiverModuleId ≠ ndbPackedModuleId ∧ (fresh = true → l.messageSize ≠ 0)

/-- A message for a thread connection has an existing receiver and at least the size of its
header, another message is not packed and does not have size zero, and a page that is full has a
complete message, unless it was kept from an earlier read. -/
def Condition (thd : Threads) (byteOrder : Bool) (m : Machine) : Label → Prop
  | .iterate object => ∀ l₀ p readMore, m.phase = .inPage l₀ p readMore →
      ∀ l, lookAt byteOrder (m.s.mem p) l₀ = .message l →
        MessageOk thd object (!l₀.readHeaderFlag) l
  | .read _ _ => ∀ l, m.phase = .reading l → l.readSize ≠ 0 → m.s.recNode.bufPage ≠ none
  | _ => True

/-! ## The invariant -/

/-- The list of modules has the thread connections with something to post, and they exist. -/
structure ListsOk (thd : Threads) (s : State) : Prop where
  listed : Listed s
  has : ∀ t ∈ s.listModules, thd.has t = true

/-- What is kept between two calls. -/
structure KeptOk (pageSize : Nat) (s : State) : Prop where
  lt : ∀ p, s.recNode.bufPage = some p → p < s.pages
  size : ∀ p, s.recNode.bufPage = some p → s.recNode.readSize ≤ (s.mem p).length
  le : s.recNode.readSize ≤ pageSize
  zero : s.recNode.readSize = 0 → s.recNode.bufPage = none

/-- Before a page is read. -/
structure ReadingOk (pageSize : Nat) (s : State) (l : Local) : Prop where
  le : l.readSize ≤ pageSize
  zero : l.readSize = 0 → s.recNode.bufPage = none
  size : ∀ p, s.recNode.bufPage = some p → l.readSize ≤ (s.mem p).length
  recNode_le : s.recNode.readSize ≤ l.readSize

/-- A thread connection that has a long message in the page. -/
structure OnPage (thd : Threads) (s : State) (t : Nat) : Prop where
  has : thd.has t = true
  num : (s.temp t).numMessagesOnPage ≠ 0
  lastLong : (s.temp t).lastLong ≠ none

/-- In the loop over messages: the bytes from `off` on are those that are left. -/
structure InPageOk (thd : Threads) (pageSize : Nat) (s : State) (l : Local) (p iterations : Nat) :
    Prop where
  bytes : l.off + l.readSize = (s.mem p).length
  le : (s.mem p).length ≤ pageSize
  lt : p < s.pages
  nodup : l.pageModules.Nodup
  onPage : ∀ t ∈ l.pageModules, OnPage thd s t
  own : l.anyMessageReceived = false →
    s.recNode.readSize ≤ l.readSize ∧ ∀ q, s.recNode.bufPage = some q → q = p
  -- only a round whose header was read before can leave `off` where it is
  progress : iterations ≤ l.off + if l.readHeaderFlag then 0 else 1

def PhaseOk (thd : Threads) (pageSize : Nat) (m : Machine) : Prop :=
  match m.phase with
  | .idle => True
  | .reading l => ReadingOk pageSize m.s l
  | .inPage l p _ => InPageOk thd pageSize m.s l p m.iterations
  | .faulty _ => False

/-- What holds in every phase. -/
structure Settled (thd : Threads) (pageSize : Nat) (m : Machine) : Prop where
  lists : ListsOk thd m.s
  kept : KeptOk pageSize m.s
  queued : ∀ q ∈ m.queued, thd.has q.1 = true ∧ minNdbHeaderSize ≤ q.2 ∧ q.2 ≤ pageSize
  reads : m.loopCount ≤ maxNdbReceiveLoops
  rounds : m.iterations ≤ pageSize + 1

structure Inv (thd : Threads) (pageSize : Nat) (m : Machine) : Prop extends
  Settled thd pageSize m where
  phase : PhaseOk thd pageSize m

variable {thd : Threads} {byteOrder : Bool} {pageSize : Nat} {m m' : Machine}

variable {n p t : Nat} {l l₀ : Local} {bytes : List UInt8} {readMore : Bool}

theorem Threads.lt_of_has (h : thd.has t = true) : t < maxThreadConnections := by
  unfold Threads.has at h
  split at h
  · next hLt => exact hLt
  · cases h

/-- A list of thread connections without repetitions has room in its array. -/
theorem length_le_of_has {ts : List Nat} (hNodup : ts.Nodup) (hHas : ∀ t ∈ ts, thd.has t = true) :
    ts.length ≤ maxThreadConnections := by
  have hSub : ts ⊆ List.range maxThreadConnections :=
    fun t ht => mem_range.mpr (Threads.lt_of_has (hHas t ht))
  have hLen := (hNodup.subperm hSub).length_le
  rwa [length_range] at hLen

/-! ### Fields that steps leave alone -/

/-- Two states that the receive thread cannot tell apart. -/
structure Same (s s' : State) : Prop where
  recNode : s'.recNode = s.recNode
  mem : s'.mem = s.mem
  pages : s'.pages = s.pages
  temp : s'.temp = s.temp
  listModules : s'.listModules = s.listModules

variable {s s' : State}

theorem ListsOk.congr (h : ListsOk thd s) (hModules : s'.listModules = s.listModules)
    (hReceived : ∀ t, (s'.temp t).received = (s.temp t).received) : ListsOk thd s' := by
  constructor
  · constructor
    · rw [hModules]
      exact h.listed.nodup
    · intro t
      rw [hModules, hReceived]
      exact h.listed.mem_iff t
  · rw [hModules]
    exact h.has

theorem KeptOk.congr (h : KeptOk pageSize s) (hRec : s'.recNode = s.recNode)
    (hMem : s'.mem = s.mem) (hPages : s'.pages = s.pages) : KeptOk pageSize s' := by
  constructor
  · rw [hRec, hPages]
    exact h.lt
  · rw [hRec, hMem]
    exact h.size
  · rw [hRec]
    exact h.le
  · rw [hRec]
    exact h.zero

theorem ReadingOk.congr (h : ReadingOk pageSize s l) (hRec : s'.recNode = s.recNode)
    (hMem : s'.mem = s.mem) : ReadingOk pageSize s' l := by
  constructor
  · exact h.le
  · rw [hRec]
    exact h.zero
  · rw [hRec, hMem]
    exact h.size
  · rw [hRec]
    exact h.recNode_le

theorem ListsOk.same (h : ListsOk thd s) (hSame : Same s s') : ListsOk thd s' :=
  h.congr hSame.listModules fun t => by rw [hSame.temp]

theorem KeptOk.same (h : KeptOk pageSize s) (hSame : Same s s') : KeptOk pageSize s' :=
  h.congr hSame.recNode hSame.mem hSame.pages

theorem InPageOk.same (h : InPageOk thd pageSize s l p n) (hSame : Same s s') :
    InPageOk thd pageSize s' l p n := by
  constructor
  · rw [hSame.mem]
    exact h.bytes
  · rw [hSame.mem]
    exact h.le
  · rw [hSame.pages]
    exact h.lt
  · exact h.nodup
  · intro t ht
    have hOn := h.onPage t ht
    constructor
    · exact hOn.has
    · rw [hSame.temp]
      exact hOn.num
    · rw [hSame.temp]
      exact hOn.lastLong
  · rw [hSame.recNode]
    exact h.own
  · exact h.progress

/-- The other threads do not change what the receive thread works with. -/
theorem Inv.same (h : Inv thd pageSize m) (hSame : Same m.s s') :
    Inv thd pageSize { m with s := s' } := by
  constructor
  · exact ⟨h.lists.same hSame, h.kept.same hSame, h.queued, h.reads, h.rounds⟩
  · have hPhase := h.phase
    unfold PhaseOk at hPhase ⊢
    cases hAt : m.phase with
    | idle => exact trivial
    | reading l =>
      rw [hAt] at hPhase
      exact ReadingOk.congr hPhase hSame.recNode hSame.mem
    | inPage l p readMore =>
      rw [hAt] at hPhase
      exact InPageOk.same hPhase hSame
    | faulty f =>
      rw [hAt] at hPhase
      exact hPhase

/-- A state between two calls. -/
theorem Settled.idle (h : Settled thd pageSize m) (hLists : ListsOk thd s')
    (hKept : KeptOk pageSize s') :
    Inv thd pageSize { m with s := s', phase := .idle } where
  lists := hLists
  kept := hKept
  phase := trivial
  queued := h.queued
  reads := h.reads
  rounds := h.rounds

theorem Settled.fail (h : Settled thd pageSize m) : Inv thd pageSize m.fail :=
  h.idle (h.lists.same ⟨rfl, rfl, rfl, rfl, rfl⟩) (h.kept.same ⟨rfl, rfl, rfl, rfl, rfl⟩)

/-! ### Posting -/

/-- Posting finds a thread connection and its messages for each entry of the list. -/
theorem Settled.post (h : Settled thd pageSize m) (hLists : ListsOk thd s')
    (hKept : KeptOk pageSize s') (connected : Bool) :
    Inv thd pageSize ({ m with s := s' }.post thd connected) := by
  have hAll : s'.listModules.all thd.has = true := all_eq_true.mpr hLists.has
  rcases postLoop_posted hLists.listed.nodup (fun t ht => (hLists.listed.mem_iff t).mp ht) with
    ⟨s₁, hRun, hPosted, hTemp⟩
  have hEq : { m with s := s' }.post thd connected =
      { m with s := { s₁ with connected := connected }, phase := .idle } := by
    have hPost : postNdbMessages s' = some s₁ := hRun
    unfold Machine.post
    simp only [hAll, if_true, hPost]
  have hEmpty : ∀ t, (s₁.temp t).received = [] := by
    intro t
    rw [hTemp]
    split
    · rfl
    · next hNot =>
      by_contra hne
      exact hNot ((hLists.listed.mem_iff t).mpr hne)
  rw [hEq]
  apply h.idle
  · constructor
    · constructor
      · show s₁.listModules.Nodup
        rw [hPosted.listModules]
        exact nodup_nil
      · intro t
        show t ∈ s₁.listModules ↔ (s₁.temp t).received ≠ []
        rw [hPosted.listModules, hEmpty]
        simp
    · show ∀ t ∈ s₁.listModules, thd.has t = true
      rw [hPosted.listModules]
      intro t ht
      cases ht
  · exact hKept.congr hPosted.recNode hPosted.mem hPosted.pages

/-! ### Reading -/

theorem Inv.call (h : Inv thd pageSize m) :
    Inv thd pageSize { m with phase := .reading (.start m.s.recNode), loopCount := 0 } where
  lists := h.lists
  kept := h.kept
  phase := ⟨h.kept.le, h.kept.zero, h.kept.size, Nat.le_refl _⟩
  queued := h.queued
  reads := Nat.zero_le _
  rounds := h.rounds

/-- The page to read into: a new one, or the one that is kept. -/
theorem readPage_cases (hRead : readPage s n = some (s', p)) :
    n = 0 ∧ p = s.pages ∧ s' = { s with
        pages := s.pages + 1, mem := update s.mem s.pages [] } ∨
      n ≠ 0 ∧ s.recNode.bufPage = some p ∧ s' = s := by
  unfold readPage at hRead
  split at hRead
  · next hZero =>
    left
    cases hRead
    exact ⟨hZero, rfl, rfl⟩
  · next hPos =>
    right
    rcases map_eq_some_iff.mp hRead with ⟨q, hq, hEq⟩
    cases hEq
    exact ⟨hPos, hq, rfl⟩

/-- Taking a page keeps the lists and what is kept. -/
theorem Inv.readPage (h : Inv thd pageSize m) (hRead : Receive.readPage m.s n = some (s', p)) :
    ListsOk thd s' ∧ KeptOk pageSize s' := by
  rcases readPage_cases hRead with ⟨-, -, hEq⟩ | ⟨-, -, hEq⟩
  · rw [hEq]
    constructor
    · exact ⟨⟨h.lists.listed.nodup, h.lists.listed.mem_iff⟩, h.lists.has⟩
    · constructor
      · intro q hq
        exact Nat.lt_succ_of_lt (h.kept.lt q hq)
      · intro q hq
        have hNew : q ≠ m.s.pages := Nat.ne_of_lt (h.kept.lt q hq)
        show m.s.recNode.readSize ≤ (update m.s.mem m.s.pages [] q).length
        rw [update_of_ne hNew]
        exact h.kept.size q hq
      · exact h.kept.le
      · exact h.kept.zero
  · rw [hEq]
    exact ⟨h.lists, h.kept⟩

/-- A chunk is written behind what is in the page. -/
theorem Inv.chunk (h : Inv thd pageSize m) (hReading : ReadingOk pageSize m.s l)
    (hRead : Receive.readPage m.s l.readSize = some (s', p)) {chunk : List UInt8}
    (hRoom : l.readSize + chunk.length ≤ pageSize) (readMore : Bool) :
    Inv thd pageSize { m with
      s := { s' with mem := update s'.mem p ((s'.mem p).take l.readSize ++ chunk) }
      phase := .inPage
        { l with off := 0, readSize := l.readSize + chunk.length, pageModules := [] } p readMore
      iterations := 0 } := by
  rcases h.readPage hRead with ⟨hLists, hKept⟩
  have hRec : s'.recNode = m.s.recNode := by
    rcases readPage_cases hRead with ⟨-, -, hEq⟩ | ⟨-, -, hEq⟩
    · rw [hEq]
    · rw [hEq]
  have hLe : s'.recNode.readSize ≤ l.readSize + chunk.length := by
    rw [hRec]
    exact Nat.le_trans hReading.recNode_le (Nat.le_add_right _ _)
  have hTaken : ((s'.mem p).take l.readSize).length = l.readSize := by
    rw [length_take]
    apply Nat.min_eq_left
    rcases readPage_cases hRead with ⟨hZero, -, -⟩ | ⟨-, hPage, hEq⟩
    · rw [hZero]
      exact Nat.zero_le _
    · rw [hEq]
      exact hReading.size p hPage
  have hLen : ((s'.mem p).take l.readSize ++ chunk).length = l.readSize + chunk.length := by
    rw [length_append, hTaken]
  have hLt : p < s'.pages := by
    rcases readPage_cases hRead with ⟨-, hp, hEq⟩ | ⟨-, hPage, hEq⟩
    · rw [hEq, hp]
      exact Nat.lt_succ_self _
    · rw [hEq]
      exact h.kept.lt p hPage
  constructor
  · constructor
    · exact ⟨⟨hLists.listed.nodup, hLists.listed.mem_iff⟩, hLists.has⟩
    · constructor
      · exact hKept.lt
      · intro q hq
        show s'.recNode.readSize ≤ (update s'.mem p _ q).length
        by_cases hqp : q = p
        · rw [hqp, update_self, hLen]
          exact hLe
        · rw [update_of_ne hqp]
          exact hKept.size q hq
      · exact hKept.le
      · exact hKept.zero
    · exact h.queued
    · exact h.reads
    · exact Nat.zero_le _
  · constructor
    · show 0 + (l.readSize + chunk.length) = (update s'.mem p _ p).length
      rw [update_self, hLen, Nat.zero_add]
    · show (update s'.mem p _ p).length ≤ pageSize
      rw [update_self, hLen]
      exact hRoom
    · exact hLt
    · exact nodup_nil
    · intro t ht
      cases ht
    · intro _
      refine ⟨hLe, ?_⟩
      intro q hq
      have hOld : m.s.recNode.bufPage = some q := by
        rw [← hRec]
        exact hq
      rcases readPage_cases hRead with ⟨hZero, -, -⟩ | ⟨-, hPage, -⟩
      · rw [hReading.zero hZero] at hOld
        cases hOld
      · rw [hPage] at hOld
        exact (Option.some.inj hOld).symm
    · exact Nat.zero_le _

/-- A round of the outer loop up to its read, when there is a page to read into. -/
theorem Inv.read (h : Inv thd pageSize m) (hAt : m.phase = .reading l)
    (hPage : l.readSize ≠ 0 → m.s.recNode.bufPage ≠ none) {page : Bool}
    {chunk : Option (List UInt8)} (hStep : m.read thd pageSize l page chunk = some m') :
    Inv thd pageSize m' := by
  have hReading : ReadingOk pageSize m.s l := by
    have hPhase := h.phase
    unfold PhaseOk at hPhase
    rw [hAt] at hPhase
    exact hPhase
  unfold Machine.read at hStep
  split at hStep
  · cases hStep
    exact h.fail
  · cases hRead : Receive.readPage m.s l.readSize with
    | none =>
      unfold Receive.readPage at hRead
      split at hRead
      · cases hRead
      · next hPos => exact absurd (map_eq_none_iff.mp hRead) (hPage hPos)
    | some sp =>
      rcases sp with ⟨s', p⟩
      rw [hRead] at hStep
      dsimp only at hStep
      cases chunk with
      | none =>
        have hNext := h.readPage hRead
        dsimp only at hStep
        split at hStep
        · cases hStep
          exact h.post hNext.1 hNext.2 false
        · cases hStep
          exact h.idle (hNext.1.same ⟨rfl, rfl, rfl, rfl, rfl⟩)
            (hNext.2.same ⟨rfl, rfl, rfl, rfl, rfl⟩)
      | some bytes =>
        dsimp only at hStep
        split at hStep
        · next hRoom =>
          cases hStep
          exact h.chunk hReading hRead hRoom.2 _
        · cases hStep

/-! ### Messages -/

/-- The local variables that reading a header leaves alone. -/
structure SamePlace (l l' : Local) : Prop where
  off : l'.off = l.off
  readSize : l'.readSize = l.readSize
  pageModules : l'.pageModules = l.pageModules
  any : l'.anyMessageReceived = l.anyMessageReceived

theorem samePlace_readHeader (l : Local) (byteOrder : Bool) (bytes : List UInt8) :
    SamePlace l (l.readHeader byteOrder bytes) := by
  unfold Local.readHeader
  dsimp only
  split
  · exact ⟨rfl, rfl, rfl, rfl⟩
  · exact ⟨rfl, rfl, rfl, rfl⟩

theorem lookAt_message (h : lookAt byteOrder bytes l₀ = .message l) :
    SamePlace l₀ l ∧ minNdbHeaderSize ≤ l.readSize ∧ l.messageSize ≤ l.readSize := by
  unfold lookAt at h
  dsimp only at h
  split at h
  · cases h
  · next hHeader =>
    split at h
    · cases h
    · next hSize =>
      cases h
      have hSame := samePlace_readHeader l₀ byteOrder bytes
      refine ⟨hSame, ?_, Nat.not_lt.mp hSize⟩
      rw [hSame.readSize]
      exact Nat.not_lt.mp hHeader

theorem lookAt_ended (h : lookAt byteOrder bytes l₀ = .ended l) : SamePlace l₀ l := by
  unfold lookAt at h
  dsimp only at h
  split at h
  · cases h
    exact ⟨rfl, rfl, rfl, rfl⟩
  · split at h
    · cases h
      exact samePlace_readHeader l₀ byteOrder bytes
    · cases h

/-- A message adds its thread connection to those of the page, if it is long and the first. -/
theorem receiveMessage_onPage (s : State) (l : Local) (p t : Nat) :
    ((receiveMessage s l p t).2.pageModules = l.pageModules ∧
        ((receiveMessage s l p t).1.temp t).numMessagesOnPage = (s.temp t).numMessagesOnPage ∨
      (s.temp t).numMessagesOnPage = 0 ∧
        (receiveMessage s l p t).2.pageModules = l.pageModules ++ [t] ∧
        ((receiveMessage s l p t).1.temp t).numMessagesOnPage ≠ 0) ∧
    (((receiveMessage s l p t).1.temp t).lastLong = (s.temp t).lastLong ∧
        (receiveMessage s l p t).2.pageModules = l.pageModules ∨
      ((receiveMessage s l p t).1.temp t).lastLong ≠ none) := by
  unfold receiveMessage pageRefCountHandling
  by_cases hshort : l.messageSize ≤ stdCacheLineSize
  · simp [hshort, putMessageOnTempList]
  · by_cases hfirst : (s.temp t).numMessagesOnPage = 0
    · simp [hshort, hfirst, putMessageOnTempList]
    · simp [hshort, hfirst, putMessageOnTempList]

theorem ListsOk.receiveMessage (h : ListsOk thd s) (l : Local) (p : Nat) (ht : thd.has t = true) :
    ListsOk thd (receiveMessage s l p t).1 := by
  constructor
  · exact h.listed.receiveMessage l p t
  · rw [(receiveMessage_log s l p t).2.2]
    intro u hu
    split at hu
    · rcases mem_append.mp hu with hOld | hNew
      · exact h.has u hOld
      · rw [mem_singleton.mp hNew]
        exact ht
    · exact h.has u hu

/-- The thread connections with a long message in the page, with this message. -/
theorem onPage_receiveMessage (hNodup : l.pageModules.Nodup)
    (hOn : ∀ u ∈ l.pageModules, OnPage thd s u) (ht : thd.has t = true) :
    (receiveMessage s l p t).2.pageModules.Nodup ∧
      ∀ u ∈ (receiveMessage s l p t).2.pageModules, OnPage thd (receiveMessage s l p t).1 u := by
  have hSpec := receiveMessage_spec s l p t
  rcases receiveMessage_onPage s l p t with ⟨hModules, hLast⟩
  have hOther : ∀ u ∈ l.pageModules, u ≠ t → OnPage thd (receiveMessage s l p t).1 u := by
    intro u hu hne
    have hOld := hOn u hu
    constructor
    · exact hOld.has
    · rw [hSpec.temp_other u hne]
      exact hOld.num
    · rw [hSpec.temp_other u hne]
      exact hOld.lastLong
  rcases hModules with ⟨hSame, hNum⟩ | ⟨hZero, hAppend, hNum⟩
  · rw [hSame]
    refine ⟨hNodup, ?_⟩
    intro u hu
    by_cases hut : u = t
    · have hOld := hOn u hu
      rw [hut] at hOld ⊢
      constructor
      · exact ht
      · rw [hNum]
        exact hOld.num
      · rcases hLast with ⟨hEq, -⟩ | hSome
        · rw [hEq]
          exact hOld.lastLong
        · exact hSome
    · exact hOther u hu hut
  · have hNew : t ∉ l.pageModules := fun hIn => (hOn t hIn).num hZero
    have hSome : ((receiveMessage s l p t).1.temp t).lastLong ≠ none := by
      rcases hLast with ⟨-, hEq⟩ | hSome
      · rw [hAppend] at hEq
        have hLen := congrArg List.length hEq
        rw [length_append, length_singleton] at hLen
        omega
      · exact hSome
    rw [hAppend]
    constructor
    · rw [nodup_append]
      refine ⟨hNodup, pairwise_singleton _ t, ?_⟩
      intro u hu v hv hEq
      rw [mem_singleton.mp hv] at hEq
      rw [hEq] at hu
      exact hNew hu
    · intro u hu
      rcases mem_append.mp hu with hOld | hSelf
      · apply hOther u hOld
        intro hEq
        rw [hEq] at hOld
        exact hNew hOld
      · rw [mem_singleton.mp hSelf]
        exact ⟨ht, hNum, hSome⟩

theorem Inv.inPageOk (h : Inv thd pageSize m) (hAt : m.phase = .inPage l p readMore) :
    InPageOk thd pageSize m.s l p m.iterations := by
  have hPhase := h.phase
  unfold PhaseOk at hPhase
  rw [hAt] at hPhase
  exact hPhase

/-- The place behind a message, and the bound of the rounds. -/
theorem InPageOk.advance (h : InPageOk thd pageSize s l₀ p n) (hPlace : SamePlace l₀ l)
    (hSize : l.messageSize ≤ l.readSize) (hProgress : l₀.readHeaderFlag = true ∨ l.messageSize ≠ 0)
    {l' : Local} (hOff : l'.off = l.off) (hReadSize : l'.readSize = l.readSize)
    (hMessageSize : l'.messageSize = l.messageSize) (hNodup : l'.pageModules.Nodup)
    (hOn : ∀ t ∈ l'.pageModules, OnPage thd s' t) (hMem : s'.mem = s.mem)
    (hPages : s'.pages = s.pages) : InPageOk thd pageSize s' l'.advance p (n + 1) := by
  have hBytes := h.bytes
  have hRounds := h.progress
  rw [← hPlace.off, ← hPlace.readSize] at hBytes
  rw [← hPlace.off] at hRounds
  constructor
  · show l'.off + l'.messageSize + (l'.readSize - l'.messageSize) = (s'.mem p).length
    rw [hMem, hOff, hReadSize, hMessageSize]
    omega
  · rw [hMem]
    exact h.le
  · rw [hPages]
    exact h.lt
  · exact hNodup
  · exact hOn
  · intro hAny
    cases hAny
  · show n + 1 ≤ l'.off + l'.messageSize + 1
    rw [hOff, hMessageSize]
    rcases hProgress with hFlag | hPos
    · rw [hFlag] at hRounds
      simp only [if_true] at hRounds
      omega
    · split at hRounds
      · omega
      · omega

/-- A round of the loop over messages, with a message that is as it should be. -/
theorem Inv.message (h : Inv thd pageSize m) {object : Bool} (hAt : m.phase = .inPage l₀ p readMore)
    (hLook : lookAt byteOrder (m.s.mem p) l₀ = .message l)
    (hOk : MessageOk thd object (!l₀.readHeaderFlag) l) :
    Inv thd pageSize (m.message thd l₀ l p readMore object) := by
  have hPage := h.inPageOk hAt
  rcases lookAt_message hLook with ⟨hPlace, hHeader, hSize⟩
  have hBytes := hPage.bytes
  have hLe := hPage.le
  have hRounds := hPage.progress
  rw [← hPlace.off, ← hPlace.readSize] at hBytes
  rw [← hPlace.off] at hRounds
  have hTwelve : minNdbHeaderSize = 12 := rfl
  have hRound : m.iterations + 1 ≤ pageSize + 1 := by
    split at hRounds
    · omega
    · omega
  have hSettled : Settled thd pageSize { m with iterations := m.iterations + 1 } :=
    ⟨h.lists, h.kept, h.queued, h.reads, hRound⟩
  have hReceived : ¬ (m.s.mem p).length < l.off + max minNdbHeaderSize l.messageSize := by omega
  unfold MessageOk at hOk
  unfold Machine.message
  dsimp only
  rw [if_neg hReceived]
  split at hOk
  · next hNormal =>
    rw [if_pos hNormal, if_neg (by rw [hOk.1]; exact Bool.noConfusion)]
    split
    · exact hSettled.fail
    · next hObject =>
      have hObject : object = true := Bool.not_eq_false _ ▸ hObject
      have hNodup := hPage.nodup
      have hOn := hPage.onPage
      rw [← hPlace.pageModules] at hNodup hOn
      have hListed := length_le_of_has h.lists.listed.nodup h.lists.has
      have hModules := length_le_of_has hNodup fun t ht => (hOn t ht).has
      rw [if_neg (by omega)]
      have hSpec := receiveMessage_spec m.s l p (l.receiverModuleId - ndbMinModuleIdForThreads)
      have hLocal := receiveMessage_local m.s l p (l.receiverModuleId - ndbMinModuleIdForThreads)
      rcases onPage_receiveMessage (p := p) hNodup hOn hOk.1 with ⟨hNodup', hOn'⟩
      have hMin := hOk.2 hObject
      constructor
      · constructor
        · exact h.lists.receiveMessage l p hOk.1
        · exact h.kept.congr hSpec.framed.recNode hSpec.framed.mem hSpec.framed.pages
        · intro q hq
          rcases mem_append.mp hq with hOld | hNew
          · exact h.queued q hOld
          · rw [mem_singleton.mp hNew]
            refine ⟨hOk.1, ?_, ?_⟩
            · show minNdbHeaderSize ≤ (receiveMessage m.s l p _).2.messageSize
              rw [hLocal.2.2]
              exact hMin
            · show (receiveMessage m.s l p _).2.messageSize ≤ pageSize
              rw [hLocal.2.2]
              omega
        · exact h.reads
        · exact hRound
      · exact hPage.advance hPlace hSize (Or.inr (by omega)) hLocal.1 hLocal.2.1 hLocal.2.2 hNodup'
          hOn' hSpec.framed.mem hSpec.framed.pages
  · next hOther =>
    have hProgress : l₀.readHeaderFlag = true ∨ l.messageSize ≠ 0 := by
      cases hFlag : l₀.readHeaderFlag with
      | true => exact Or.inl rfl
      | false =>
        rw [hFlag] at hOk
        exact Or.inr (hOk.2 rfl)
    rw [if_neg hOther, if_neg hOk.1]
    split
    · next hEndless =>
      rcases hProgress with hFlag | hPos
      · rw [hEndless.1] at hFlag
        cases hFlag
      · exact absurd hEndless.2 hPos
    · constructor
      · exact ⟨h.lists, h.kept, h.queued, h.reads, hRound⟩
      · refine hPage.advance hPlace hSize hProgress rfl rfl rfl ?_ ?_ rfl rfl
        · rw [hPlace.pageModules]
          exact hPage.nodup
        · rw [hPlace.pageModules]
          exact hPage.onPage

/-! ### The rest of a page -/

/-- What is left of the page is kept, or it is the page that is kept already. -/
theorem keepTail_ok (h : Settled thd pageSize m) (hPage : InPageOk thd pageSize m.s l p n)
    {newPage : Bool} (hTail : keepTail m.s l p newPage = some s') :
    s'.temp = m.s.temp ∧ s'.listModules = m.s.listModules ∧ KeptOk pageSize s' ∧
      ReadingOk pageSize s' l := by
  have hBytes := hPage.bytes
  have hLe := hPage.le
  unfold keepTail at hTail
  split at hTail
  · next hPos =>
    split at hTail
    · split at hTail
      · cases hTail
        have hLen : (update m.s.mem m.s.pages ((m.s.mem p).take l.readSize)
            m.s.pages).length = l.readSize := by
          rw [update_self, length_take]
          omega
        refine ⟨rfl, rfl, ?_, ?_⟩
        · constructor
          · intro q hq
            cases hq
            exact Nat.lt_succ_self _
          · intro q hq
            cases hq
            exact Nat.le_of_eq hLen.symm
          · show l.readSize ≤ pageSize
            omega
          · intro hZero
            exact absurd hZero (Nat.ne_of_gt hPos)
        · constructor
          · omega
          · intro hZero
            exact absurd hZero (Nat.ne_of_gt hPos)
          · intro q hq
            cases hq
            exact Nat.le_of_eq hLen.symm
          · exact Nat.le_refl _
      · cases hTail
    · next hAny =>
      cases hTail
      have hOwn := hPage.own (Bool.not_eq_true _ ▸ hAny)
      refine ⟨rfl, rfl, h.kept, ?_⟩
      constructor
      · omega
      · intro hZero
        exact absurd hZero (Nat.ne_of_gt hPos)
      · intro q hq
        rw [hOwn.2 q hq]
        omega
      · exact hOwn.1
  · next hNone =>
    cases hTail
    refine ⟨rfl, rfl, ?_, ?_⟩
    · constructor
      · intro q hq
        cases hq
      · intro q hq
        cases hq
      · exact Nat.zero_le _
      · intro _
        rfl
    · constructor
      · omega
      · intro _
        rfl
      · intro q hq
        cases hq
      · exact Nat.zero_le _

/-- Every thread connection with a long message in the page has a last one. -/
theorem handOver_ok (hOn : ∀ t ∈ l.pageModules, OnPage thd s t) :
    ∃ s', handOver s l.pageModules p = some s' ∧ s'.recNode = s.recNode ∧ s'.mem = s.mem ∧
      s'.pages = s.pages ∧ s'.listModules = s.listModules ∧
      ∀ t, (s'.temp t).received = (s.temp t).received := by
  unfold handOver
  split
  · exact ⟨_, rfl, rfl, rfl, rfl, rfl, fun _ => rfl⟩
  · have hLast : HasLastLong s l.pageModules := fun t ht => (hOn t ht).lastLong
    rcases markLastLong_sameLog hLast with ⟨s', hRun, hLog⟩
    exact ⟨s', hRun, hLog.recNode, hLog.mem, hLog.pages, hLog.listModules, hLog.received⟩

theorem Inv.rest (h : Inv thd pageSize m) (hAt : m.phase = .inPage l₀ p readMore)
    (hLook : lookAt byteOrder (m.s.mem p) l₀ = .ended l) (newPage : Bool) :
    Inv thd pageSize (m.rest thd l p readMore newPage) := by
  have hStart := h.inPageOk hAt
  have hPlace := lookAt_ended hLook
  have hPage : InPageOk thd pageSize m.s l p
      (l.off + if l.readHeaderFlag then 0 else 1) := by
    constructor
    · rw [hPlace.off, hPlace.readSize]
      exact hStart.bytes
    · exact hStart.le
    · exact hStart.lt
    · rw [hPlace.pageModules]
      exact hStart.nodup
    · rw [hPlace.pageModules]
      exact hStart.onPage
    · rw [hPlace.any, hPlace.readSize]
      exact hStart.own
    · exact Nat.le_refl _
  have hBytes := hPage.bytes
  unfold Machine.rest
  rw [if_neg (by omega)]
  cases hTail : keepTail m.s l p newPage with
  | none => exact h.toSettled.fail
  | some s₁ =>
    rcases keepTail_ok h.toSettled hPage hTail with ⟨hTemp, hModules, hKept, hReading⟩
    have hOn : ∀ t ∈ l.pageModules, OnPage thd s₁ t := by
      intro t ht
      have hOld := hPage.onPage t ht
      constructor
      · exact hOld.has
      · rw [hTemp]
        exact hOld.num
      · rw [hTemp]
        exact hOld.lastLong
    rcases handOver_ok (p := p) hOn with ⟨s₂, hHand, hRec, hMem, hPages, hModules', hReceived⟩
    dsimp only
    rw [hHand]
    dsimp only
    have hLists : ListsOk thd s₂ := by
      apply h.lists.congr
      · rw [hModules', hModules]
      · intro t
        rw [hReceived, hTemp]
    have hKept' := hKept.congr hRec hMem hPages
    split
    · next hMore =>
      constructor
      · exact ⟨hLists, hKept', h.queued, hMore.2, h.rounds⟩
      · exact hReading.congr hRec hMem
    · exact h.toSettled.post hLists hKept' true

/-! ## Runs -/

theorem same_execute {rest : List Nat} (s : State) (ok : Bool) :
    Same s { executeMessage s n ok with
      executing := update (executeMessage s n ok).executing t rest
      executed := update (executeMessage s n ok).executed t
        ((executeMessage s n ok).executed t ++ [n]) } := by
  rcases executeMessage_eq s n ok with ⟨count, returned, hEq⟩
  rw [hEq]
  exact ⟨rfl, rfl, rfl, rfl, rfl⟩

/-- A step that meets the condition keeps the invariant. -/
theorem step_inv (m : Machine) (a : Label) (m' : Machine) (hOk : Condition thd byteOrder m a)
    (hStep : m.step thd byteOrder pageSize a = some m') (h : Inv thd pageSize m) :
    Inv thd pageSize m' := by
  cases a with
  | call =>
    simp only [Machine.step, ite_none_right_eq_some, Option.some.injEq] at hStep
    rw [← hStep.2]
    exact h.call
  | read page chunk =>
    simp only [Machine.step] at hStep
    split at hStep
    · next l hAt => exact h.read hAt (hOk l hAt) hStep
    · cases hStep
  | iterate object =>
    simp only [Machine.step] at hStep
    split at hStep
    · next l₀ p readMore hAt =>
      split at hStep
      · next l hLook =>
        cases hStep
        exact h.message hAt hLook (hOk l₀ p readMore hAt l hLook)
      · cases hStep
    · cases hStep
  | rest newPage =>
    simp only [Machine.step] at hStep
    split at hStep
    · next l₀ p readMore hAt =>
      split at hStep
      · cases hStep
      · next l hLook =>
        cases hStep
        exact h.rest hAt hLook newPage
    · cases hStep
  | connect =>
    simp only [Machine.step, ite_none_right_eq_some] at hStep
    rcases map_eq_some_iff.mp hStep.2 with ⟨s', hConnect, hEq⟩
    simp only [Receive.step, ite_none_left_eq_some, Option.some.injEq] at hConnect
    rw [← hEq, ← hConnect.2]
    constructor
    · refine ⟨h.lists.congr rfl fun _ => rfl, ?_, h.queued, h.reads, h.rounds⟩
      constructor
      · intro q hq
        cases hq
      · intro q hq
        cases hq
      · exact Nat.zero_le _
      · intro _
        rfl
    · unfold PhaseOk
      rw [hStep.1]
      exact trivial
  | poll t =>
    rcases map_eq_some_iff.mp hStep with ⟨s', hPoll, hEq⟩
    simp only [Receive.step, ite_none_right_eq_some, Option.some.injEq] at hPoll
    rw [← hEq, ← hPoll.2]
    exact h.same ⟨rfl, rfl, rfl, rfl, rfl⟩
  | execute t ok =>
    rcases map_eq_some_iff.mp hStep with ⟨s', hExecute, hEq⟩
    simp only [Receive.step] at hExecute
    split at hExecute
    · cases hExecute
    · next n rest hNext =>
      cases hExecute
      rw [← hEq]
      exact h.same (same_execute m.s ok)

theorem not_safe_fault (m : Machine) (f : Fault) : ¬Safe thd byteOrder pageSize (m.fault f) :=
  fun h => h.noFault f rfl

/-- A message that is not as it should be is a fault, or it is queued. -/
theorem message_unsafe {object : Bool} (hBad : ¬MessageOk thd object (!l₀.readHeaderFlag) l) :
    ¬Safe thd byteOrder pageSize (m.message thd l₀ l p readMore object) := by
  unfold MessageOk at hBad
  unfold Machine.message
  dsimp only
  split
  · exact not_safe_fault _ _
  · split at hBad
    · next hNormal =>
      rw [if_pos hNormal]
      split
      · exact not_safe_fault _ _
      · next hHas =>
        have hHas' : thd.has (l.receiverModuleId - ndbMinModuleIdForThreads) = true :=
          Bool.not_eq_false _ ▸ hHas
        have hShort : object = true ∧ ¬minNdbHeaderSize ≤ l.messageSize := by
          by_contra hNot
          refine hBad ⟨hHas', ?_⟩
          intro hObject
          by_contra hLess
          exact hNot ⟨hObject, hLess⟩
        rw [if_neg (by rw [hShort.1]; exact Bool.noConfusion)]
        split
        · exact not_safe_fault _ _
        · intro hSafe
          have hQueued := (hSafe.queued _ (mem_append_right _ mem_cons_self)).2.1
          have hLocal := receiveMessage_local m.s l p
            (l.receiverModuleId - ndbMinModuleIdForThreads)
          apply hShort.2
          rw [← hLocal.2.2]
          exact hQueued
    · next hOther =>
      rw [if_neg hOther]
      split
      · exact not_safe_fault _ _
      · next hNotPacked =>
        have hZero : l₀.readHeaderFlag = false ∧ l.messageSize = 0 := by
          by_contra hNot
          refine hBad ⟨hNotPacked, ?_⟩
          intro hFresh hSize
          exact hNot ⟨Bool.not_eq_true' _ ▸ hFresh, hSize⟩
        rw [if_pos hZero]
        exact not_safe_fault _ _

/-- Any other step leads to a fault, or queues a message that is too short. -/
theorem step_unsafe (m : Machine) (a : Label) (m' : Machine) (hBad : ¬Condition thd byteOrder m a)
    (hStep : m.step thd byteOrder pageSize a = some m') :
    ¬Safe thd byteOrder pageSize m' := by
  cases a with
  | read page chunk =>
    simp only [Condition, not_forall] at hBad
    rcases hBad with ⟨l, hAt, hSize, hNone⟩
    have hPage : m.s.recNode.bufPage = none := not_not.mp hNone
    simp only [Machine.step, hAt, Machine.read, hSize, false_and, if_false, readPage, hPage,
      map_none, Option.some.injEq] at hStep
    rw [← hStep]
    exact not_safe_fault _ _
  | iterate object =>
    simp only [Condition, not_forall] at hBad
    rcases hBad with ⟨l₀, p, readMore, hAt, l, hLook, hBad⟩
    simp only [Machine.step, hAt, hLook, Option.some.injEq] at hStep
    rw [← hStep]
    exact message_unsafe hBad
  | call | rest _ | connect | poll _ | execute _ _ => exact absurd trivial hBad

theorem Inv.goesOn (h : Inv thd pageSize m) (hBusy : m.phase ≠ .idle) :
    ∃ a m', m.step thd byteOrder pageSize a = some m' := by
  cases hAt : m.phase with
  | idle => exact absurd hAt hBusy
  | reading l =>
    refine ⟨.read true none, ?_⟩
    simp only [Machine.step, hAt, Machine.read, Bool.true_eq_false, and_false, if_false]
    split
    · exact ⟨_, rfl⟩
    · split
      · exact ⟨_, rfl⟩
      · exact ⟨_, rfl⟩
  | inPage l p readMore =>
    cases hLook : lookAt byteOrder (m.s.mem p) l with
    | ended l' =>
      refine ⟨.rest true, ?_⟩
      simp only [Machine.step, hAt, hLook]
      exact ⟨_, rfl⟩
    | message l' =>
      refine ⟨.iterate true, ?_⟩
      simp only [Machine.step, hAt, hLook]
      exact ⟨_, rfl⟩
  | faulty f =>
    have hPhase := h.phase
    unfold PhaseOk at hPhase
    rw [hAt] at hPhase
    exact hPhase.elim

theorem Inv.safe (h : Inv thd pageSize m) : Safe thd byteOrder pageSize m where
  noFault := by
    intro f hAt
    have hPhase := h.phase
    unfold PhaseOk at hPhase
    rw [hAt] at hPhase
    exact hPhase
  queued := h.queued
  reads := h.reads
  rounds := h.rounds
  goesOn := h.goesOn

theorem start_inv : Inv thd pageSize start := by
  constructor
  · constructor
    · constructor
      · exact ⟨nodup_nil, fun t => by simp [start, startState, TempThreadConnection.empty]⟩
      · intro t ht
        cases ht
    · constructor
      · intro q hq
        cases hq
      · intro q hq
        cases hq
      · exact Nat.zero_le _
      · intro _
        rfl
    · intro q hq
      cases hq
    · exact Nat.zero_le _
    · exact Nat.zero_le _
  · exact trivial

/-- A run on a node connection is safe exactly if each complete message that is found is as it
should be, and no page gets full without one. -/
theorem receive_safe_iff (thd : Threads) (byteOrder : Bool) (pageSize : Nat) (as : List Label) :
    Run.Always (Machine.step thd byteOrder pageSize) (Safe thd byteOrder pageSize) start as ↔
      Run.Along (Machine.step thd byteOrder pageSize) (Condition thd byteOrder) start as :=
  Run.always_iff_along _ _ (Inv thd pageSize) _ (fun _ h => h.safe) step_inv
    (fun m a m' hBad hStep _ => step_unsafe m a m' hBad hStep) as start_inv

/-! ## Headers that stop the receive thread -/

theorem not_always_of_fault {as : List Label} {f : Fault}
    (hRun : (Run.exec (Machine.step thd byteOrder pageSize) start as).map Machine.phase =
      some (.faulty f)) :
    ¬Run.Always (Machine.step thd byteOrder pageSize) (Safe thd byteOrder pageSize) start as := by
  intro hAlways
  rcases map_eq_some_iff.mp hRun with ⟨m, hExec, hAt⟩
  exact (hAlways as m prefix_rfl hExec).noFault f hAt

/-- The receive thread reads some bytes, and looks for a message. -/
def firstMessage (bytes : List UInt8) : List Label :=
  [.call, .read true (some bytes), .iterate true]

/-- With thread connections everywhere and pages of 64 bytes, a run is always safe. -/
def AlwaysSafe (as : List Label) : Prop :=
  Run.Always (Machine.step (fun _ => true) false 64) (Safe (fun _ => true) false 64) start as

/-- A header of size zero, one for a thread connection that cannot exist, and one of a message that
is longer than a page of 64 bytes. -/
theorem headers_not_checked :
    ¬AlwaysSafe (firstMessage (List.replicate 12 0)) ∧
      ¬AlwaysSafe (firstMessage [0, 3, 0, 0, 0, 0, 0, 0, 0, 0, 255, 255]) ∧
      ¬AlwaysSafe
        [.call, .read true (some ([0, 20, 0, 0, 0, 0, 0, 0, 0, 0, 0, 128] ++ List.replicate 52 0)),
          .rest true, .read true none] := by
  refine ⟨?_, ?_, ?_⟩
  · exact not_always_of_fault (f := .endless) (by decide)
  · exact not_always_of_fault (f := .unknownThread) (by decide)
  · exact not_always_of_fault (f := .nullPointer) (by decide)

end IClaustron.Apid.ReceiveRobust
