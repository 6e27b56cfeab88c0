import IClaustron.Lib.Cells
import IClaustron.Lib.Search
import Mathlib.Data.List.Nodup

/-!
# Comm.PollSet — the poll set

Model of comm/ic_poll_set.c: the members of a poll set and the results of a poll, with all
implementations (epoll, event ports, kqueue, IO completion and poll) and what they tell the kernel.

* `Inv.fdAt_add`, `fdAt_clear`, `fdAt_swapRemove` — the file descriptors of the slots after a call.
* `Inv.registered_inj` — the kernel tells the file descriptors apart by the data it was given.
* `Inv.step` — every successful call keeps the invariant.
* `poll_set_ok` — array, counter and kernel describe the same connections in every run, and the
  ready connections are reported once.

Scope limits: memory is there. The kernel has no error but a file descriptor that it does not know
any more and, for `epoll_ctl`, one that it knows already.
-/

namespace IClaustron.Comm

open Lib Lib.Cells Option Function
open List hiding set

/-! ## Model -/

/-- MAX_POLL_SET_CONNECTIONS. -/
def maxPollSetConnections : Nat := 1024

/-- IC_ERROR_POLL_SET_FULL. -/
def errorPollSetFull : Nat := 7026
/-- IC_ERROR_NOT_FOUND_IN_POLL_SET. -/
def errorNotFoundInPollSet : Nat := 7027
/-- EEXIST. -/
def fileExists : Nat := 17
/-- POLLIN. -/
def pollIn : Nat := 1

/-- IC_POLL_CONNECTION. -/
structure PollConnection where
  fd : Nat
  index : Nat
  userObj : Nat

inductive Impl where
  | epoll
  | eventports
  | kqueue
  | ioCompletion
  | poll
  deriving DecidableEq

/-- IC_INT_POLL_SET. A connection is known by the address `next` it was allocated at, and is gone
from `conns` when it was freed. The kernel side is `pollFds`, the file descriptors of
`poll_fd_array`, or `registered`, the file descriptors that the kernel watches with their data: the
index, or with kqueue the address of the connection. -/
structure PollSet where
  impl : Impl
  conns : Nat → Option PollConnection
  next : Nat
  pollConnections : Nat → Option Nat
  readyConnections : Nat → Option Nat
  numPollConnections : Nat
  numReadyConnections : Nat
  pollScanOngoing : Bool
  pollFds : Nat → Nat
  registered : List (Nat × Nat)

/-- `ic_create_poll_set`. -/
def createPollSet (impl : Impl) : PollSet where
  impl
  conns := fun _ => none
  next := 1
  pollConnections := fun _ => none
  readyConnections := fun _ => none
  numPollConnections := 0
  numReadyConnections := 0
  pollScanOngoing := false
  pollFds := fun _ => 0
  registered := []

/-- `use_compact_array`. -/
def PollSet.useCompactArray (s : PollSet) : Bool := s.impl = .poll

/-- `add_poll_set_member`: the return code, the index and the poll set. -/
def addPollSetMember (s : PollSet) (fd userObj : Nat) : Option (Nat × Nat × PollSet) :=
  if s.numPollConnections = maxPollSetConnections then some (errorPollSetFull, 0, s)
  else do
    let empty ←
      if s.useCompactArray then some (some s.numPollConnections)
      else firstIndex (fun i => some (s.pollConnections i).isNone) maxPollSetConnections 0
    -- without an empty slot the index is still MAX_POLL_SET_CONNECTIONS
    let index := empty.getD maxPollSetConnections
    if index < maxPollSetConnections then
      some (0, index, { s with
        conns := update s.conns s.next (some ⟨fd, index, userObj⟩)
        next := s.next + 1
        pollConnections := update s.pollConnections index (some s.next)
        numPollConnections := s.numPollConnections + 1 })
    else none

/-- Whether a ready connection has this file descriptor. -/
def readyHas (s : PollSet) (fd i : Nat) : Option Bool := do
  let p ← s.readyConnections i
  let conn ← s.conns p
  some (conn.fd = fd)

/-- Whether a slot is taken by a connection with this file descriptor. -/
def slotHas (s : PollSet) (fd i : Nat) : Option Bool :=
  match s.pollConnections i with
  | none => some false
  | some p => do
    let conn ← s.conns p
    some (conn.fd = fd)

/-- The first loop of `remove_poll_set_member`. -/
def removeReady (s : PollSet) (fd : Nat) : Option PollSet :=
  if s.pollScanOngoing then do
    match ← firstIndex (readyHas s fd) s.numReadyConnections 0 with
    | none => some s
    | some i =>
      let last := s.numReadyConnections - 1
      some { s with
        readyConnections := swapRemove s.readyConnections i last
        numReadyConnections := last }
  else some s

/-- `remove_poll_set_member`: the return code, the index and the poll set. -/
def removePollSetMember (s : PollSet) (fd : Nat) : Option (Nat × Nat × PollSet) := do
  let s ← removeReady s fd
  match ← firstIndex (slotHas s fd) maxPollSetConnections 0 with
  | none => some (errorNotFoundInPollSet, 0, s)
  | some found =>
    let p ← s.pollConnections found
    let last := s.numPollConnections - 1
    some (0, found, { s with
      conns := update s.conns p none
      numPollConnections := last
      pollConnections :=
        if s.useCompactArray then swapRemove s.pollConnections found last
        else update s.pollConnections found none })

/-- `port_associate` and EV_ADD: the file descriptor is watched with this data from now on. -/
def PollSet.associate (s : PollSet) (fd data : Nat) : PollSet :=
  { s with registered := (fd, data) :: s.registered.filter (·.1 ≠ fd) }

/-- `epoll_poll_set_add_connection` and its siblings. epoll refuses a file descriptor that it watches
already, and the member is taken out again by its file descriptor. The one for IO completion does
nothing. -/
def addConnection (s : PollSet) (fd userObj : Nat) : Option (Nat × PollSet) :=
  if s.impl = .ioCompletion then some (0, s)
  else do
    let (ret, index, s) ← addPollSetMember s fd userObj
    if ret ≠ 0 then some (ret, s)
    else
      match s.impl with
      | .poll => some (0, { s with pollFds := update s.pollFds index fd })
      | .epoll =>
        if fd ∈ s.registered.map Prod.fst then do
          let (_, _, s) ← removePollSetMember s fd
          some (fileExists, s)
        else some (0, { s with registered := (fd, index) :: s.registered })
      | .kqueue => do
        let p ← s.pollConnections index
        some (0, s.associate fd p)
      | _ => some (0, s.associate fd index)

/-- `epoll_poll_set_remove_connection` and its siblings. That the kernel does not know the file
descriptor any more is no error. -/
def removeConnection (s : PollSet) (fd : Nat) : Option (Nat × PollSet) :=
  if s.impl = .ioCompletion then some (0, s)
  else do
    let (ret, index, s) ← removePollSetMember s fd
    if ret ≠ 0 then some (ret, s)
    else if s.impl = .poll then
      let num := s.numPollConnections
      some (0, { s with
        pollFds := update (update s.pollFds index (s.pollFds num)) num 0 })
    else some (0, { s with registered := s.registered.filter (·.1 ≠ fd) })

/-- A connection becomes the next one of the ready connections. -/
def pushReady (s : PollSet) (index : Nat) : Option PollSet := do
  let p ← s.pollConnections index
  let _ ← s.conns p
  some { s with
    readyConnections := update s.readyConnections s.numReadyConnections (some p)
    numReadyConnections := s.numReadyConnections + 1 }

/-- The loop of `poll_check_poll_set`. -/
def pollLoop (revents : Nat → Nat) : Nat → Nat → PollSet → Option PollSet
  | 0, _, s => some s
  | left + 1, i, s =>
    if revents i = pollIn then do
      let s ← pushReady s i
      pollLoop revents left (i + 1) s
    else pollLoop revents left (i + 1) s

/-- `poll_check_poll_set`, when poll does not fail. `revents` is what it finds, and it returns for
how many entries it has found something. -/
def pollCheckPollSet (s : PollSet) (revents : Nat → Nat) : Option PollSet := do
  let s := { s with numReadyConnections := 0, pollScanOngoing := true }
  let num := ((List.range s.numPollConnections).filter (revents · ≠ 0)).length
  if num > 0 then do
    let s ← pollLoop revents s.numPollConnections 0 s
    if s.numReadyConnections = num then some s else none
  else some s

/-- The loop of `epoll_check_poll_set`, over the data of the events. -/
def epollLoop : List Nat → PollSet → Option PollSet
  | [], s => some s
  | index :: events, s => do
    let s ← pushReady s index
    epollLoop events s

/-- `epoll_check_poll_set`, when epoll_wait does not fail. The number of ready connections is set
after the loop. -/
def epollCheckPollSet (s : PollSet) (events : List Nat) : Option PollSet := do
  let s ← epollLoop events { s with numReadyConnections := 0 }
  some { s with pollScanOngoing := true }

/-- The loop of `eventports_check_poll_set`, over the data of the events. What was reported is not
watched any more, and is associated again. -/
def eventportsLoop : List Nat → PollSet → Option PollSet
  | [], s => some s
  | index :: events, s => do
    let s ← pushReady s index
    let p ← s.pollConnections index
    let conn ← s.conns p
    eventportsLoop events (s.associate conn.fd index)

/-- `eventports_check_poll_set`, when port_getn finds these events. -/
def eventportsCheckPollSet (s : PollSet) (events : List (Nat × Nat)) : Option PollSet := do
  let s ← eventportsLoop (events.map Prod.snd)
    { s with numReadyConnections := 0, registered := s.registered.filter (!events.contains ·) }
  some { s with pollScanOngoing := true }

/-- The loop of `kqueue_check_poll_set`, over the data of the events. -/
def kqueueLoop : List Nat → PollSet → Option PollSet
  | [], s => some s
  | udata :: events, s => do
    let conn ← s.conns udata
    if conn.index < maxPollSetConnections then do
      let s ← pushReady s conn.index
      kqueueLoop events s
    else none

/-- `kqueue_check_poll_set`, when kevent does not fail. -/
def kqueueCheckPollSet (s : PollSet) (events : List Nat) : Option PollSet := do
  let s ← kqueueLoop events { s with numReadyConnections := 0 }
  some { s with pollScanOngoing := true }

/-- `ic_check_poll_set`, where the kernel reports what it watches. The one for IO completion does
nothing. -/
def checkPollSet (s : PollSet) (events : List (Nat × Nat)) : Option PollSet :=
  match s.impl with
  | .epoll => epollCheckPollSet s (events.map Prod.snd)
  | .eventports => eventportsCheckPollSet s events
  | .kqueue => kqueueCheckPollSet s (events.map Prod.snd)
  | .ioCompletion => some s
  | .poll => none

/-- `get_next_connection`. -/
def getNextConnection (s : PollSet) : Option (Option Nat × PollSet) :=
  if !s.pollScanOngoing then none
  else if s.numReadyConnections = 0 then some (none, { s with pollScanOngoing := false })
  else
    let num := s.numReadyConnections - 1
    some (s.readyConnections num, { s with numReadyConnections := num })

/-! ## Runs -/

/-- The file descriptor of a slot. -/
def PollSet.fdAt (s : PollSet) (i : Nat) : Option Nat := do
  let p ← s.pollConnections i
  let conn ← s.conns p
  some conn.fd

/-- What the kernel is given for the connection of a slot. -/
def PollSet.dataAt (s : PollSet) (i : Nat) : Option Nat :=
  if s.impl = .kqueue then s.pollConnections i else some i

/-- The connection that the data of an event stands for. -/
def PollSet.target (s : PollSet) (data : Nat) : Option Nat :=
  if s.impl = .kqueue then some data else s.pollConnections data

/-- The connections with another file descriptor. -/
def Other (s : PollSet) (fd p : Nat) : Prop := (s.conns p).map PollConnection.fd ≠ some fd

instance (s : PollSet) (fd : Nat) : DecidablePred (Other s fd) :=
  fun _ => inferInstanceAs (Decidable (_ ≠ some fd))

/-- A poll set with the connections that the last poll found ready. Since then some of them were
`reported`, some were `removed` before they could be, and the others are `waiting`. -/
structure World where
  set : PollSet
  ready : List Nat
  reported : List Nat
  waiting : List Nat
  removed : List Nat

/-- A new poll set. -/
def World.new (impl : Impl) : World := ⟨createPollSet impl, [], [], [], []⟩

inductive Op where
  | add (fd userObj : Nat)
  | remove (fd : Nat)
  /-- poll, and what it finds for each entry -/
  | pollCheck (revents : Nat → Nat)
  /-- epoll_wait, port_getn or kevent, and the file descriptors it finds with their data -/
  | check (events : List (Nat × Nat))
  | next

/-- The kernel reports what it watches, each file descriptor at most once. -/
def Delivers (s : PollSet) (events : List (Nat × Nat)) : Prop :=
  events.Nodup ∧ ∀ event ∈ events, event ∈ s.registered

instance (s : PollSet) (events : List (Nat × Nat)) : Decidable (Delivers s events) :=
  inferInstanceAs (Decidable (_ ∧ ∀ event ∈ events, event ∈ s.registered))

/-- After a poll all connections that are ready wait to be reported. -/
def World.polled (set : PollSet) (ready : List Nat) : World := ⟨set, ready, [], ready, []⟩

/-- A successful call. -/
def step (w : World) : Op → Option World
  | .add fd userObj => do
    let (ret, set) ← addConnection w.set fd userObj
    if ret = 0 then some { w with set } else none
  | .remove fd => do
    let (ret, set) ← removeConnection w.set fd
    if ret = 0 then
      some { w with
        set
        waiting := w.waiting.filter (Other w.set fd)
        removed := w.removed ++ w.waiting.filter fun p => ¬Other w.set fd p }
    else none
  | .pollCheck revents =>
    if w.set.impl = .poll then do
      let set ← pollCheckPollSet w.set revents
      let found := (List.range w.set.numPollConnections).filter (revents · ≠ 0)
      some (.polled set (found.filterMap w.set.pollConnections))
    else none
  | .check events =>
    if Delivers w.set events then do
      let set ← checkPollSet w.set events
      some (.polled set (events.filterMap fun event => w.set.target event.2))
    else none
  | .next => do
    let (conn, set) ← getNextConnection w.set
    match conn with
    | some p => some { w with set, reported := w.reported ++ [p], waiting := w.waiting.erase p }
    | none => some { w with set }

/-- The caller adds no file descriptor that is in the poll set. -/
def NotTwice (w : World) : Op → Prop
  | .add fd _ => ¬Holds w.set.fdAt fd
  | _ => True

/-- What successful calls can lead to. -/
inductive Reach (impl : Impl) : World → Prop
  | start : Reach impl (.new impl)
  | step {w w' : World} {op : Op} :
    Reach impl w → NotTwice w op → step w op = some w' → Reach impl w'

/-- Array, counter and kernel describe the same connections. -/
structure Consistent (s : PollSet) : Prop where
  bound : ∀ {i p}, s.pollConnections i = some p → i < maxPollSetConnections ∧ (s.fdAt i).isSome
  distinct : Inj s.fdAt
  count : s.numPollConnections = (occupied maxPollSetConnections s.pollConnections).card
  noGaps : s.impl = .poll → ∀ i, (s.pollConnections i).isSome ↔ i < s.numPollConnections
  pollKernel : s.impl = .poll → ∀ i < s.numPollConnections, s.fdAt i = some (s.pollFds i)
  kernel : s.impl ≠ .poll → ∀ fd data, (fd, data) ∈ s.registered ↔
    ∃ i, s.fdAt i = some fd ∧ s.dataAt i = some data
  index : s.impl ≠ .poll → ∀ {i p conn}, s.pollConnections i = some p →
    s.conns p = some conn → conn.index = i
  ioCompletion : s.impl = .ioCompletion → ∀ i, s.pollConnections i = none

/-- No connection is ready twice, and each ready one was reported once, was removed before that, or
waits. One that is reported waits until then and is in the poll set, and all of them have been
reported or removed when there is no next one. -/
structure Reports (w : World) : Prop where
  distinct : w.ready.Nodup
  once : (w.reported ++ w.waiting ++ w.removed).Perm w.ready
  member : ∀ p ∈ w.waiting, Holds w.set.pollConnections p
  next : ∀ {p set}, getNextConnection w.set = some (some p, set) → p ∈ w.waiting
  done : ∀ {set}, getNextConnection w.set = some (none, set) → w.waiting = []

/-! ## Invariant -/

structure Inv (w : World) : Prop where
  consistent : Consistent w.set
  distinct : w.ready.Nodup
  once : (w.reported ++ w.waiting ++ w.removed).Perm w.ready
  fresh : ∀ {p conn}, w.set.conns p = some conn → p < w.set.next
  pending : Stack w.set.numReadyConnections w.set.readyConnections w.waiting
  member : ∀ p ∈ w.waiting, Holds w.set.pollConnections p
  scan : w.set.pollScanOngoing = false → w.set.numReadyConnections = 0

variable {s s' : PollSet} {w w' : World} {fd userObj index found i p : Nat}

theorem fdAt_eq_some : s.fdAt i = some fd ↔
    ∃ p conn, s.pollConnections i = some p ∧ s.conns p = some conn ∧ conn.fd = fd := by
  simp only [PollSet.fdAt, bind_eq_bind, bind_eq_some_iff, Option.some.injEq]
  constructor
  · rintro ⟨p, hSlot, conn, hConn, hFd⟩
    exact ⟨p, conn, hSlot, hConn, hFd⟩
  · rintro ⟨p, conn, hSlot, hConn, hFd⟩
    exact ⟨p, hSlot, conn, hConn, hFd⟩

theorem fdAt_eq_none (hSlot : s.pollConnections i = none) : s.fdAt i = none := by
  unfold PollSet.fdAt
  rw [hSlot]
  rfl

theorem fdAt_congr (hSlot : s'.pollConnections i = s.pollConnections i)
    (hConns : ∀ p, s.pollConnections i = some p → s'.conns p = s.conns p) :
    s'.fdAt i = s.fdAt i := by
  unfold PollSet.fdAt
  rw [hSlot]
  cases h : s.pollConnections i with
  | none => rfl
  | some p => simp only [bind_eq_bind, bind_some, hConns p h]

theorem Consistent.live (h : Consistent s) (hSlot : s.pollConnections i = some p) :
    ∃ conn, s.conns p = some conn ∧ s.fdAt i = some conn.fd := by
  obtain ⟨fd, hFd⟩ := isSome_iff_exists.mp (h.bound hSlot).2
  obtain ⟨p', conn, hSlot', hConn, hEq⟩ := fdAt_eq_some.mp hFd
  rw [hSlot] at hSlot'
  cases hSlot'
  exact ⟨conn, hConn, hFd.trans (congrArg some hEq.symm)⟩

/-- No connection is in two slots. -/
theorem Consistent.inj (h : Consistent s) : Inj s.pollConnections := by
  intro i j p hi hj
  obtain ⟨conn, hConn, hFdi⟩ := h.live hi
  obtain ⟨conn', hConn', hFdj⟩ := h.live hj
  rw [hConn] at hConn'
  cases hConn'
  exact h.distinct _ _ _ hFdi hFdj

theorem Consistent.start (impl : Impl) : Consistent (createPollSet impl) where
  bound := by
    intro i p hSlot
    cases hSlot
  distinct := by
    intro i j fd hi
    cases hi
  count := by simp [createPollSet, occupied]
  noGaps := by
    intro _ i
    simp [createPollSet]
  pollKernel := by
    intro _ i hi
    cases hi
  kernel := by
    intro _ fd data
    simp [createPollSet, PollSet.fdAt]
  index := by
    intro _ i p conn hSlot
    cases hSlot
  ioCompletion := fun _ _ => rfl

/-- The ready connections and the scan are no part of it. -/
theorem Consistent.withReady (h : Consistent s) (readyConnections : Nat → Option Nat)
    (numReadyConnections : Nat) (pollScanOngoing : Bool) :
    Consistent { s with readyConnections, numReadyConnections, pollScanOngoing } :=
  ⟨h.bound, h.distinct, h.count, h.noGaps, h.pollKernel, h.kernel, h.index, h.ioCompletion⟩

theorem Inv.start (impl : Impl) : Inv (.new impl) where
  consistent := .start impl
  distinct := nodup_nil
  once := .refl _
  fresh := by
    intro p conn hConn
    cases hConn
  pending := stack_nil _
  member := by simp [World.new]
  scan := fun _ => rfl

/-! ## Adding -/

/-- A member is put into an empty slot. -/
theorem addPollSetMember_spec (h : Consistent s)
    (hAdd : addPollSetMember s fd userObj = some (0, index, s')) :
    index < maxPollSetConnections ∧ s.pollConnections index = none ∧
      (s.impl = .poll → index = s.numPollConnections) ∧
      s' = { s with
        conns := update s.conns s.next (some ⟨fd, index, userObj⟩)
        next := s.next + 1
        pollConnections := update s.pollConnections index (some s.next)
        numPollConnections := s.numPollConnections + 1 } := by
  unfold addPollSetMember at hAdd
  split_ifs at hAdd with hFull hCompact
  · cases hAdd
  · have hPoll : s.impl = .poll := of_decide_eq_true hCompact
    simp only [bind_eq_bind, bind_some, getD_some] at hAdd
    split_ifs at hAdd with hIndex
    cases hAdd
    refine ⟨hIndex, ?_, fun _ => rfl, rfl⟩
    have hGap := h.noGaps hPoll s.numPollConnections
    simpa using hGap
  · have hFixed : s.impl ≠ .poll := fun hPoll => hCompact (decide_eq_true hPoll)
    obtain ⟨empty, hSearch, hRest⟩ := bind_eq_some_iff.mp hAdd
    dsimp only at hRest
    split_ifs at hRest with hIndex
    cases hRest
    refine ⟨hIndex, ?_, fun hPoll => absurd hPoll hFixed, rfl⟩
    cases empty with
    | none => exact absurd hIndex (lt_irrefl _)
    | some i =>
      obtain ⟨-, -, hTest⟩ := firstIndex_found hSearch
      simpa using hTest

/-- The file descriptor is at the new slot, and the others are where they were. -/
theorem Inv.fdAt_add (h : Inv w) (hEmpty : w.set.pollConnections index = none)
    (hConns : s'.conns = update w.set.conns w.set.next (some ⟨fd, index, userObj⟩))
    (hSlots : s'.pollConnections = update w.set.pollConnections index (some w.set.next)) :
    s'.fdAt = update w.set.fdAt index (some fd) := by
  funext i
  by_cases hi : i = index
  · subst hi
    rw [update_self, fdAt_eq_some]
    exact ⟨w.set.next, ⟨fd, i, userObj⟩, by rw [hSlots, update_self],
      by rw [hConns, update_self], rfl⟩
  · rw [update_of_ne hi]
    refine fdAt_congr (by rw [hSlots, update_of_ne hi]) fun p hSlot => ?_
    obtain ⟨conn, hConn, -⟩ := h.consistent.live hSlot
    rw [hConns, update_of_ne (h.fresh hConn).ne]

/-- Only the kernel side changes. -/
structure KernelOnly (s s' : PollSet) : Prop where
  impl : s'.impl = s.impl
  conns : s'.conns = s.conns
  next : s'.next = s.next
  slots : s'.pollConnections = s.pollConnections
  ready : s'.readyConnections = s.readyConnections
  num : s'.numPollConnections = s.numPollConnections
  numReady : s'.numReadyConnections = s.numReadyConnections
  scan : s'.pollScanOngoing = s.pollScanOngoing

/-- The data of a slot that keeps its connection. -/
theorem dataAt_congr (hImpl : s'.impl = s.impl)
    (hSlot : s'.pollConnections i = s.pollConnections i) : s'.dataAt i = s.dataAt i := by
  unfold PollSet.dataAt
  rw [hImpl, hSlot]

/-- The new file descriptor is watched besides the others. -/
structure Watches (s s' : PollSet) (fd index : Nat) : Prop where
  poll : s.impl = .poll → s'.pollFds = update s.pollFds index fd
  kernel : s.impl ≠ .poll → ∃ data, s'.dataAt index = some data ∧
    ∀ event, event ∈ s'.registered ↔ event = (fd, data) ∨ event ∈ s.registered ∧ event.1 ≠ fd

theorem watches_associate {data : Nat} (hFixed : s.impl ≠ .poll)
    (hData : s.dataAt index = some data) : Watches s (s.associate fd data) fd index where
  poll := fun hPoll => absurd hPoll hFixed
  kernel := fun _ => ⟨data, hData, fun event => by
    rw [PollSet.associate, mem_cons, mem_filter, decide_eq_true_iff]⟩

theorem addConnection_spec (hAdd : addConnection s fd userObj = some (0, s')) :
    s.impl = .ioCompletion ∧ s' = s ∨
      ∃ index s₁, s.impl ≠ .ioCompletion ∧ addPollSetMember s fd userObj = some (0, index, s₁) ∧
        KernelOnly s₁ s' ∧ Watches s₁ s' fd index := by
  unfold addConnection at hAdd
  split_ifs at hAdd with hIo
  · cases hAdd
    exact .inl ⟨hIo, rfl⟩
  · obtain ⟨⟨ret, index, s₁⟩, hMember, hRest⟩ := bind_eq_some_iff.mp hAdd
    dsimp only at hRest
    by_cases hRet : ret ≠ 0
    · rw [if_pos hRet] at hRest
      cases hRest
      exact absurd rfl hRet
    · rw [if_neg hRet] at hRest
      obtain rfl : ret = 0 := not_not.mp hRet
      refine .inr ⟨index, s₁, hIo, hMember, ?_⟩
      have hIndex : s₁.impl ≠ .kqueue → s₁.dataAt index = some index := fun h => if_neg h
      cases hImpl : s₁.impl with
      | poll =>
        rw [hImpl] at hRest
        cases hRest
        exact ⟨⟨hImpl.symm, rfl, rfl, rfl, rfl, rfl, rfl, rfl⟩, fun _ => rfl, fun h => absurd hImpl h⟩
      | epoll =>
        rw [hImpl] at hRest
        dsimp only at hRest
        split_ifs at hRest with hKnown
        · obtain ⟨r, -, hRest⟩ := bind_eq_some_iff.mp hRest
          cases hRest
        · cases hRest
          refine ⟨⟨hImpl.symm, rfl, rfl, rfl, rfl, rfl, rfl, rfl⟩, ?_, fun _ => ?_⟩
          · rw [hImpl]
            exact nofun
          refine ⟨index, rfl, fun event => ?_⟩
          rw [mem_cons]
          refine or_congr_right (iff_self_and.mpr fun hEvent hFd => hKnown ?_)
          exact mem_map.mpr ⟨event, hEvent, hFd⟩
      | kqueue =>
        rw [hImpl] at hRest
        obtain ⟨p, hSlot, hRest⟩ := bind_eq_some_iff.mp hRest
        cases hRest
        exact ⟨⟨rfl, rfl, rfl, rfl, rfl, rfl, rfl, rfl⟩,
          watches_associate (by rw [hImpl]; exact nofun) ((if_pos hImpl).trans hSlot)⟩
      | eventports | ioCompletion =>
        rw [hImpl] at hRest
        cases hRest
        exact ⟨⟨rfl, rfl, rfl, rfl, rfl, rfl, rfl, rfl⟩,
          watches_associate (by rw [hImpl]; exact nofun) (hIndex (by rw [hImpl]; exact nofun))⟩

theorem Consistent.add (h : Consistent s) (hFd : ¬Holds s.fdAt fd)
    (hIndex : index < maxPollSetConnections) (hEmpty : s.pollConnections index = none)
    (hCompact : s.impl = .poll → index = s.numPollConnections) (hIo : s.impl ≠ .ioCompletion)
    (hImpl : s'.impl = s.impl)
    (hConns : s'.conns = update s.conns s.next (some ⟨fd, index, userObj⟩))
    (hFresh : s.conns s.next = none)
    (hSlots : s'.pollConnections = update s.pollConnections index (some s.next))
    (hFdAt : s'.fdAt = update s.fdAt index (some fd))
    (hNum : s'.numPollConnections = s.numPollConnections + 1)
    (hPoll : s.impl = .poll → s'.pollFds = update s.pollFds index fd)
    (hKernel : s.impl ≠ .poll → ∃ data, s'.dataAt index = some data ∧
      ∀ event, event ∈ s'.registered ↔ event = (fd, data) ∨ event ∈ s.registered ∧ event.1 ≠ fd) :
    Consistent s' where
  bound := by
    intro i p hSlot
    rw [hSlots, put_eq_some] at hSlot
    rw [hFdAt]
    rcases hSlot with ⟨rfl, -⟩ | ⟨hne, hSlot⟩
    · exact ⟨hIndex, by rw [update_self]; rfl⟩
    · rw [update_of_ne hne]
      exact h.bound hSlot
  distinct := by
    rw [hFdAt]
    exact inj_put h.distinct hFd
  count := by rw [hNum, hSlots, card_occupied_put hIndex hEmpty, h.count]
  noGaps := by
    intro hImpl' i
    rw [hImpl] at hImpl'
    obtain rfl := hCompact hImpl'
    rw [hSlots, hNum]
    by_cases hi : i = s.numPollConnections
    · subst hi
      simp
    · rw [update_of_ne hi, h.noGaps hImpl' i]
      omega
  pollKernel := by
    intro hImpl' i hi
    rw [hImpl] at hImpl'
    obtain rfl := hCompact hImpl'
    rw [hNum] at hi
    rw [hFdAt, hPoll hImpl']
    by_cases hEq : i = s.numPollConnections
    · subst hEq
      rw [update_self, update_self]
    · rw [update_of_ne hEq, update_of_ne hEq]
      exact h.pollKernel hImpl' i (by omega)
  kernel := by
    intro hFixed fd' data'
    rw [hImpl] at hFixed
    obtain ⟨data, hData, hMem⟩ := hKernel hFixed
    have hOther : ∀ i, i ≠ index → s'.dataAt i = s.dataAt i :=
      fun i hi => dataAt_congr hImpl (by rw [hSlots, update_of_ne hi])
    rw [hMem, h.kernel hFixed, hFdAt, Prod.mk.injEq]
    constructor
    · rintro (⟨rfl, rfl⟩ | ⟨⟨i, hAt, hDataAt⟩, -⟩)
      · exact ⟨index, update_self .., hData⟩
      · have hi : i ≠ index := by
          rintro rfl
          rw [fdAt_eq_none hEmpty] at hAt
          cases hAt
        exact ⟨i, by rw [update_of_ne hi, hAt], by rw [hOther i hi, hDataAt]⟩
    · rintro ⟨i, hAt, hDataAt⟩
      rcases put_eq_some.mp hAt with ⟨rfl, rfl⟩ | ⟨hi, hOld⟩
      · rw [hData] at hDataAt
        exact .inl ⟨rfl, (Option.some.inj hDataAt).symm⟩
      · rw [hOther i hi] at hDataAt
        refine .inr ⟨⟨i, hOld, hDataAt⟩, ?_⟩
        rintro rfl
        exact hFd ⟨i, hOld⟩
  index := by
    intro hImpl' i p conn hSlot hConn
    rw [hImpl] at hImpl'
    rw [hSlots, put_eq_some] at hSlot
    rw [hConns] at hConn
    rcases hSlot with ⟨rfl, rfl⟩ | ⟨-, hSlot⟩
    · rw [update_self] at hConn
      cases hConn
      rfl
    · have hne : p ≠ s.next := by
        rintro rfl
        obtain ⟨conn', hConn', -⟩ := h.live hSlot
        rw [hFresh] at hConn'
        cases hConn'
      rw [update_of_ne hne] at hConn
      exact h.index hImpl' hSlot hConn
  ioCompletion := fun hImpl' => absurd (hImpl.symm.trans hImpl') hIo

theorem Inv.next_fresh (h : Inv w) : w.set.conns w.set.next = none := by
  cases hConn : w.set.conns w.set.next with
  | none => rfl
  | some conn => exact absurd (h.fresh hConn) (lt_irrefl _)

theorem Inv.add (h : Inv w) (hFd : ¬Holds w.set.fdAt fd)
    (hAdd : addConnection w.set fd userObj = some (0, s')) : Inv { w with set := s' } := by
  rcases addConnection_spec hAdd with ⟨-, rfl⟩ | ⟨index, s₁, hIo, hMember, hKernel, hWatches⟩
  · exact h
  obtain ⟨hIndex, hEmpty, hCompact, rfl⟩ := addPollSetMember_spec h.consistent hMember
  have hFdAt := h.fdAt_add hEmpty hKernel.conns hKernel.slots
  refine ⟨h.consistent.add hFd hIndex hEmpty hCompact hIo hKernel.impl hKernel.conns h.next_fresh
    hKernel.slots hFdAt hKernel.num hWatches.poll hWatches.kernel, h.distinct, h.once, ?_, ?_, ?_, ?_⟩
  · intro p conn hConn
    dsimp only at hConn ⊢
    rw [hKernel.conns, put_eq_some] at hConn
    rw [hKernel.next]
    rcases hConn with ⟨rfl, -⟩ | ⟨-, hConn⟩
    · exact Nat.lt_succ_self _
    · exact Nat.lt_succ_of_lt (h.fresh hConn)
  · dsimp only
    rw [hKernel.numReady, hKernel.ready]
    exact h.pending
  · intro p hp
    dsimp only
    rw [hKernel.slots]
    exact (holds_put hEmpty).mpr (.inr (h.member p hp))
  · dsimp only
    rw [hKernel.scan, hKernel.numReady]
    exact h.scan

/-! ## Removing -/

/-- The first loop takes the connection out of the ready ones. -/
structure ReadyOnly (s s' : PollSet) : Prop where
  impl : s'.impl = s.impl
  conns : s'.conns = s.conns
  next : s'.next = s.next
  slots : s'.pollConnections = s.pollConnections
  num : s'.numPollConnections = s.numPollConnections
  scan : s'.pollScanOngoing = s.pollScanOngoing
  pollFds : s'.pollFds = s.pollFds
  registered : s'.registered = s.registered

theorem readyHas_eq_some {b : Bool} (h : readyHas s fd i = some b) :
    ∃ p conn, s.readyConnections i = some p ∧ s.conns p = some conn ∧
      b = decide (conn.fd = fd) := by
  simp only [readyHas, bind_eq_bind, bind_eq_some_iff, Option.some.injEq] at h
  obtain ⟨p, hReady, conn, hConn, rfl⟩ := h
  exact ⟨p, conn, hReady, hConn, rfl⟩

theorem slotHas_eq_true (h : slotHas s fd i = some true) : s.fdAt i = some fd := by
  unfold slotHas at h
  cases hSlot : s.pollConnections i with
  | none =>
    rw [hSlot] at h
    cases h
  | some p =>
    rw [hSlot] at h
    simp only [bind_eq_bind, bind_eq_some_iff, Option.some.injEq,
      decide_eq_true_eq] at h
    obtain ⟨conn, hConn, hFd⟩ := h
    exact fdAt_eq_some.mpr ⟨p, conn, hSlot, hConn, hFd⟩

theorem Consistent.other_iff {conn : PollConnection} {q : Nat} (h : Consistent s)
    (hSlot : s.pollConnections i = some p) (hConn : s.conns p = some conn) (hFd : conn.fd = fd)
    (hq : Holds s.pollConnections q) : Other s fd q ↔ q ≠ p := by
  obtain ⟨j, hj⟩ := hq
  obtain ⟨conn', hConn', hAt⟩ := h.live hj
  unfold Other
  rw [hConn', not_iff_not, map_some, Option.some.injEq]
  constructor
  · rintro hFd'
    have hAt' : s.fdAt i = some fd := fdAt_eq_some.mpr ⟨p, conn, hSlot, hConn, hFd⟩
    have hij := h.distinct _ _ _ (hFd' ▸ hAt) hAt'
    rw [hij, hSlot] at hj
    exact (Option.some.inj hj).symm
  · rintro rfl
    rw [hConn] at hConn'
    cases hConn'
    exact hFd

/-- Of the connections that wait, the one with this file descriptor does not wait any more. -/
theorem Inv.removeReady (h : Inv w) (hRemove : removeReady w.set fd = some s') :
    ReadyOnly w.set s' ∧ (s'.pollScanOngoing = false → s'.numReadyConnections = 0) ∧
      Stack s'.numReadyConnections s'.readyConnections (w.waiting.filter (Other w.set fd)) := by
  unfold Comm.removeReady at hRemove
  split_ifs at hRemove with hScan
  · obtain ⟨search, hSearch, hRest⟩ := bind_eq_some_iff.mp hRemove
    cases search with
    | none =>
      cases hRest
      refine ⟨⟨rfl, rfl, rfl, rfl, rfl, rfl, rfl, rfl⟩, h.scan, ?_⟩
      have hAll : w.waiting.filter (Other w.set fd) = w.waiting := by
        rw [filter_eq_self]
        intro p hp
        obtain ⟨i, hi⟩ := (h.pending.mem p).mp hp
        obtain ⟨hLt, hi⟩ := upTo_eq_some.mp hi
        have hHas := firstIndex_missing hSearch i (Nat.zero_le i) (by omega)
        obtain ⟨p', conn, hReady, hConn, hne⟩ := readyHas_eq_some hHas
        rw [hi] at hReady
        cases hReady
        have hFd : conn.fd ≠ fd := of_decide_eq_false hne.symm
        simpa [Other, hConn] using hFd
      rw [hAll]
      exact h.pending
    | some k =>
      cases hRest
      refine ⟨⟨rfl, rfl, rfl, rfl, rfl, rfl, rfl, rfl⟩, ?_, ?_⟩
      · intro hNot
        cases hScan.symm.trans hNot
      obtain ⟨-, hk, hHas⟩ := firstIndex_found hSearch
      obtain ⟨p, conn, hReady, hConn, hEq⟩ := readyHas_eq_some hHas
      have hFd : conn.fd = fd := of_decide_eq_true hEq.symm
      rw [Nat.zero_add] at hk
      have hp : p ∈ w.waiting := (h.pending.mem p).mpr ⟨k, upTo_eq_some.mpr ⟨hk, hReady⟩⟩
      obtain ⟨i, hSlot⟩ := h.member p hp
      have hErase : w.waiting.filter (Other w.set fd) = w.waiting.erase p := by
        rw [h.pending.nodup.erase_eq_filter]
        refine filter_congr fun q hq => ?_
        have hOther := h.consistent.other_iff hSlot hConn hFd (h.member q hq)
        rw [Bool.eq_iff_iff, decide_eq_true_iff, hOther, bne_iff_ne]
      rw [hErase]
      obtain ⟨n, hn⟩ := Nat.exists_eq_add_of_lt (Nat.zero_lt_of_lt hk)
      rw [Nat.zero_add] at hn
      have hPending := h.pending
      rw [hn] at hPending hk
      have hLast : w.set.numReadyConnections - 1 = n := by omega
      dsimp only
      rw [hLast]
      exact hPending.swapRemove hk hReady
  · cases hRemove
    have hNone := h.scan (Bool.eq_false_iff.mpr hScan)
    have hPending := h.pending
    rw [hNone] at hPending
    refine ⟨⟨rfl, rfl, rfl, rfl, rfl, rfl, rfl, rfl⟩, h.scan, ?_⟩
    rw [hPending.eq_nil, hNone]
    exact stack_nil _

/-- What `remove_poll_set_member` does after its first loop. -/
theorem removePollSetMember_spec (hRemove : removePollSetMember s fd = some (0, found, s')) :
    ∃ s₁ p, removeReady s fd = some s₁ ∧
      s₁.pollConnections found = some p ∧ s₁.fdAt found = some fd ∧
      s' = { s₁ with
        conns := update s₁.conns p none
        numPollConnections := s₁.numPollConnections - 1
        pollConnections :=
          if s₁.useCompactArray then
            swapRemove s₁.pollConnections found (s₁.numPollConnections - 1)
          else update s₁.pollConnections found none } := by
  unfold removePollSetMember at hRemove
  obtain ⟨s₁, hReady, hRest⟩ := bind_eq_some_iff.mp hRemove
  obtain ⟨search, hSearch, hRest⟩ := bind_eq_some_iff.mp hRest
  cases search with
  | none => cases hRest
  | some k =>
    obtain ⟨p, hSlot, hRest⟩ := bind_eq_some_iff.mp hRest
    cases hRest
    obtain ⟨-, -, hHas⟩ := firstIndex_found hSearch
    exact ⟨s₁, p, hReady, hSlot, slotHas_eq_true hHas, rfl⟩

section

variable (h : Consistent s) (hSlot : s.pollConnections found = some p)
  (hConns : s'.conns = update s.conns p none)

include h hSlot hConns

/-- A slot that keeps its connection keeps its file descriptor. -/
theorem fdAt_free {j : Nat} (hSlots : s'.pollConnections i = s.pollConnections j)
    (hne : j ≠ found) :
    s'.fdAt i = s.fdAt j := by
  unfold PollSet.fdAt
  rw [hSlots]
  cases hj : s.pollConnections j with
  | none => rfl
  | some q =>
    have hqp : q ≠ p := by
      rintro rfl
      exact hne (h.inj _ _ _ hj hSlot)
    simp only [bind_eq_bind, bind_some, hConns, update_of_ne hqp]

theorem fdAt_clear (hSlots : s'.pollConnections = update s.pollConnections found none) :
    s'.fdAt = update s.fdAt found none := by
  funext i
  by_cases hi : i = found
  · subst hi
    rw [update_self]
    exact fdAt_eq_none (by rw [hSlots, update_self])
  · rw [update_of_ne hi]
    exact fdAt_free h hSlot hConns (by rw [hSlots, update_of_ne hi]) hi

theorem fdAt_swapRemove {last : Nat}
    (hSlots : s'.pollConnections = swapRemove s.pollConnections found last) :
    s'.fdAt = swapRemove s.fdAt found last := by
  funext i
  unfold swapRemove at hSlots ⊢
  by_cases hLast : i = last
  · subst hLast
    rw [update_self]
    exact fdAt_eq_none (by rw [hSlots, update_self])
  · rw [update_of_ne hLast]
    by_cases hi : i = found
    · subst hi
      rw [update_self]
      refine fdAt_free h hSlot hConns ?_ (Ne.symm hLast)
      rw [hSlots, update_of_ne hLast, update_self]
    · rw [update_of_ne hi]
      refine fdAt_free h hSlot hConns ?_ hi
      rw [hSlots, update_of_ne hLast, update_of_ne hi]

theorem Consistent.removePoll (hPoll : s.impl = .poll) (hImpl : s'.impl = .poll)
    (hNum : s'.numPollConnections = s.numPollConnections - 1)
    (hSlots : s'.pollConnections = swapRemove s.pollConnections found s'.numPollConnections)
    (hFds : s'.pollFds = update
      (update s.pollFds found (s.pollFds s'.numPollConnections)) s'.numPollConnections 0) :
    Consistent s' := by
  have hFound : found < s.numPollConnections :=
    (h.noGaps hPoll found).mp (isSome_of_eq_some hSlot)
  have hLast : s'.numPollConnections < s.numPollConnections := by omega
  obtain ⟨q, hTaken⟩ := isSome_iff_exists.mp ((h.noGaps hPoll _).mpr hLast)
  have hFdAt := fdAt_swapRemove h hSlot hConns hSlots
  constructor
  case bound =>
    intro i r hi
    rw [hSlots] at hi
    have hne := (swapRemove_eq_some.mp hi).1
    rw [swapRemove_of_ne hne] at hi
    rw [hFdAt, swapRemove_of_ne hne]
    split_ifs at hi ⊢ with hik
    · exact ⟨hik ▸ (h.bound hSlot).1, (h.bound hi).2⟩
    · exact h.bound hi
  case distinct =>
    rw [hFdAt]
    exact inj_swapRemove h.distinct
  case count =>
    rw [hSlots, card_occupied_swapRemove (h.bound hTaken).1 hSlot hTaken, ← h.count, hNum]
  case noGaps =>
    intro _ i
    rw [hSlots]
    by_cases hi : i = s'.numPollConnections
    · rw [hi, swapRemove_last]
      simp
    · rw [swapRemove_of_ne hi]
      split_ifs with hik
      · rw [hTaken, hik]
        simp only [isSome_some, true_iff]
        omega
      · rw [h.noGaps hPoll]
        omega
  case pollKernel =>
    intro _ i hi
    rw [hFdAt, swapRemove_of_ne hi.ne, hFds, update_of_ne hi.ne]
    split_ifs with hik
    · rw [hik, update_self]
      exact h.pollKernel hPoll _ hLast
    · rw [update_of_ne hik]
      exact h.pollKernel hPoll i (by omega)
  case kernel => exact fun hFixed => absurd hImpl hFixed
  case index => exact fun hFixed => absurd hImpl hFixed
  case ioCompletion =>
    intro hIo
    cases hIo.symm.trans hImpl

theorem Consistent.removeFixed (hFixed : s.impl ≠ .poll) (hFd : s.fdAt found = some fd)
    (hImpl : s'.impl = s.impl)
    (hNum : s'.numPollConnections = s.numPollConnections - 1)
    (hSlots : s'.pollConnections = update s.pollConnections found none)
    (hRegistered : s'.registered = s.registered.filter (·.1 ≠ fd)) : Consistent s' := by
  have hFdAt := fdAt_clear h hSlot hConns hSlots
  constructor
  case bound =>
    intro i r hi
    rw [hSlots, clear_eq_some] at hi
    rw [hFdAt, update_of_ne hi.1]
    exact h.bound hi.2
  case distinct =>
    rw [hFdAt]
    exact inj_clear h.distinct
  case count =>
    rw [hSlots, card_occupied_clear (h.bound hSlot).1 hSlot, ← h.count, hNum]
  case noGaps => exact fun hPoll => absurd (hImpl.symm.trans hPoll) hFixed
  case pollKernel => exact fun hPoll => absurd (hImpl.symm.trans hPoll) hFixed
  case kernel =>
    intro _ fd' data
    have hOther : ∀ i, i ≠ found → s'.dataAt i = s.dataAt i :=
      fun i hi => dataAt_congr hImpl (by rw [hSlots, update_of_ne hi])
    rw [hRegistered, mem_filter, decide_eq_true_iff, h.kernel hFixed, hFdAt]
    -- the file descriptor that goes is in one slot only
    constructor
    · rintro ⟨⟨i, hAt, hData⟩, hne⟩
      have hi : i ≠ found := by
        rintro rfl
        rw [hAt] at hFd
        exact hne (Option.some.inj hFd)
      exact ⟨i, clear_eq_some.mpr ⟨hi, hAt⟩, by rw [hOther i hi, hData]⟩
    · rintro ⟨i, hAt, hData⟩
      obtain ⟨hi, hAt⟩ := clear_eq_some.mp hAt
      rw [hOther i hi] at hData
      refine ⟨⟨i, hAt, hData⟩, fun hEq => hi ?_⟩
      exact h.distinct _ _ _ (hEq ▸ hAt) hFd
  case index =>
    intro _ i r conn hi hConn
    rw [hSlots, clear_eq_some] at hi
    rw [hConns, clear_eq_some] at hConn
    exact h.index hFixed hi.2 hConn.2
  case ioCompletion =>
    intro hIo i
    rw [hImpl] at hIo
    rw [h.ioCompletion hIo] at hSlot
    cases hSlot

end

theorem removeConnection_spec (hRemove : removeConnection s fd = some (0, s')) :
    s.impl = .ioCompletion ∧ s' = s ∨
      ∃ found s₁, removePollSetMember s fd = some (0, found, s₁) ∧ KernelOnly s₁ s' ∧
        (s₁.impl = .poll → s'.pollFds = update (update s₁.pollFds found
          (s₁.pollFds s₁.numPollConnections)) s₁.numPollConnections 0) ∧
        (s₁.impl ≠ .poll → s'.registered = s₁.registered.filter (·.1 ≠ fd)) := by
  unfold removeConnection at hRemove
  split_ifs at hRemove with hIo
  · cases hRemove
    exact .inl ⟨hIo, rfl⟩
  · obtain ⟨⟨ret, found, s₁⟩, hMember, hRest⟩ := bind_eq_some_iff.mp hRemove
    dsimp only at hRest
    by_cases hRet : ret ≠ 0
    · rw [if_pos hRet] at hRest
      cases hRest
      exact absurd rfl hRet
    · rw [if_neg hRet] at hRest
      obtain rfl : ret = 0 := not_not.mp hRet
      refine .inr ⟨found, s₁, hMember, ?_⟩
      split_ifs at hRest with hPoll
      · cases hRest
        exact ⟨⟨rfl, rfl, rfl, rfl, rfl, rfl, rfl, rfl⟩, fun _ => rfl,
          fun hFixed => absurd hPoll hFixed⟩
      · cases hRest
        exact ⟨⟨rfl, rfl, rfl, rfl, rfl, rfl, rfl, rfl⟩, fun h => absurd h hPoll, fun _ => rfl⟩

theorem ReadyOnly.consistent (hOnly : ReadyOnly s s') (h : Consistent s) : Consistent s' := by
  have hFdAt : s'.fdAt = s.fdAt := by
    funext i
    exact fdAt_congr (congrFun hOnly.slots i) fun p _ => congrFun hOnly.conns p
  constructor
  case bound =>
    intro i p
    rw [hOnly.slots, hFdAt]
    exact h.bound
  case distinct =>
    rw [hFdAt]
    exact h.distinct
  case count =>
    rw [hOnly.num, hOnly.slots]
    exact h.count
  case noGaps =>
    rw [hOnly.impl, hOnly.num, hOnly.slots]
    exact h.noGaps
  case pollKernel =>
    rw [hOnly.impl, hOnly.num, hOnly.pollFds, hFdAt]
    exact h.pollKernel
  case kernel =>
    have hData : s'.dataAt = s.dataAt := by
      funext i
      exact dataAt_congr hOnly.impl (congrFun hOnly.slots i)
    rw [hOnly.impl, hOnly.registered, hFdAt, hData]
    exact h.kernel
  case index =>
    rw [hOnly.impl, hOnly.slots, hOnly.conns]
    exact h.index
  case ioCompletion =>
    rw [hOnly.impl, hOnly.slots]
    exact h.ioCompletion

/-- The connection that is removed is in no slot any more, and every other one still is. -/
theorem holds_remove (h : Consistent s) (hSlot : s.pollConnections found = some p) {q last : Nat} :
    Holds (if s.useCompactArray then swapRemove s.pollConnections found last
      else update s.pollConnections found none) q ↔ Holds s.pollConnections q ∧ q ≠ p := by
  have hEq : s.pollConnections found ≠ some q ↔ q ≠ p := by
    rw [hSlot, ne_eq, Option.some.injEq, eq_comm]
  split_ifs
  · rw [holds_swapRemove h.inj, hEq]
  · rw [holds_clear h.inj, hEq]

/-- Without connections nothing waits. -/
theorem Inv.waiting_nil (h : Inv w) (hIo : w.set.impl = .ioCompletion) : w.waiting = [] := by
  refine eq_nil_iff_forall_not_mem.mpr fun p hp => ?_
  obtain ⟨i, hi⟩ := h.member p hp
  rw [h.consistent.ioCompletion hIo] at hi
  cases hi

theorem Inv.remove (h : Inv w) (hRemove : removeConnection w.set fd = some (0, s')) :
    Inv { w with
      set := s'
      waiting := w.waiting.filter (Other w.set fd)
      removed := w.removed ++ w.waiting.filter fun p => ¬Other w.set fd p } := by
  rcases removeConnection_spec hRemove with ⟨hIo, rfl⟩ | ⟨found, s₂, hMember, hKernel, hPoll, hFixed⟩
  · have hNil := h.waiting_nil hIo
    refine ⟨h.consistent, h.distinct, ?_, h.fresh, ?_, ?_, h.scan⟩
    · simpa [hNil] using h.once
    · have hPending := h.pending
      rw [hNil] at hPending
      rw [hNil]
      exact hPending
    · rw [hNil]
      exact fun p hp => absurd hp not_mem_nil
  obtain ⟨s₁, p, hReady, hSlot, hFd, rfl⟩ := removePollSetMember_spec hMember
  obtain ⟨hOnly, hScan, hPending⟩ := h.removeReady hReady
  have hConsistent := hOnly.consistent h.consistent
  have hSlot' : w.set.pollConnections found = some p :=
    (congrFun hOnly.slots found).symm.trans hSlot
  obtain ⟨conn, hConn, hAt⟩ := hConsistent.live hSlot
  rw [hFd] at hAt
  have hConnFd : conn.fd = fd := (Option.some.inj hAt).symm
  rw [hOnly.conns] at hConn
  constructor
  case consistent =>
    by_cases hImpl : s₁.impl = .poll
    · have hCompact : s₁.useCompactArray = true := decide_eq_true hImpl
      refine hConsistent.removePoll hSlot hKernel.conns hImpl (hKernel.impl.trans hImpl)
        hKernel.num ?_ ?_
      · rw [hKernel.slots, hKernel.num]
        exact if_pos hCompact
      · rw [hKernel.num]
        exact hPoll hImpl
    · have hCompact : ¬s₁.useCompactArray = true := by simp [PollSet.useCompactArray, hImpl]
      refine hConsistent.removeFixed hSlot hKernel.conns hImpl hFd hKernel.impl hKernel.num ?_
        (hFixed hImpl)
      rw [hKernel.slots]
      exact if_neg hCompact
  case distinct => exact h.distinct
  case once =>
    refine .trans ?_ h.once
    have hFilter := filter_append_perm (fun q => decide (Other w.set fd q)) w.waiting
    dsimp only
    rw [append_assoc, append_assoc]
    refine List.Perm.append_left _ ?_
    refine .trans ?_ (hFilter.append_right w.removed)
    rw [append_assoc]
    refine List.Perm.append_left _ ?_
    refine perm_append_comm.trans ?_
    simp
  case fresh =>
    intro q conn' hConn'
    dsimp only at hConn' ⊢
    rw [hKernel.conns, clear_eq_some, hOnly.conns] at hConn'
    rw [hKernel.next]
    exact hOnly.next ▸ h.fresh hConn'.2
  case pending =>
    dsimp only
    rw [hKernel.numReady, hKernel.ready]
    exact hPending
  case member =>
    intro q hq
    obtain ⟨hq, hOther⟩ := mem_filter.mp hq
    have hHolds := h.member q hq
    dsimp only
    rw [hKernel.slots]
    refine (holds_remove hConsistent hSlot).mpr ⟨hOnly.slots ▸ hHolds, ?_⟩
    exact (h.consistent.other_iff hSlot' hConn hConnFd hHolds).mp (of_decide_eq_true hOther)
  case scan =>
    dsimp only
    rw [hKernel.scan, hKernel.numReady]
    exact hScan

/-! ## Polling -/

theorem pushReady_spec (hPush : pushReady s index = some s') :
    ∃ p, s.pollConnections index = some p ∧ s' = { s with
      readyConnections := update s.readyConnections s.numReadyConnections (some p)
      numReadyConnections := s.numReadyConnections + 1 } := by
  unfold pushReady at hPush
  obtain ⟨p, hSlot, hRest⟩ := bind_eq_some_iff.mp hPush
  obtain ⟨conn, -, hRest⟩ := bind_eq_some_iff.mp hRest
  exact ⟨p, hSlot, (Option.some.inj hRest).symm⟩

/-- Both loops put the connections of some slots on the ready ones. -/
theorem pollLoop_eq (revents : Nat → Nat) (left i : Nat) (s : PollSet) :
    pollLoop revents left i s = epollLoop ((List.range' i left).filter (revents · = pollIn)) s := by
  induction left generalizing i s with
  | zero => rfl
  | succ left ih =>
    unfold pollLoop
    rw [range'_succ, filter_cons]
    by_cases hIn : revents i = pollIn
    · rw [if_pos hIn, if_pos (decide_eq_true hIn)]
      unfold epollLoop
      simp only [ih]
    · rw [if_neg hIn, if_neg (by simpa using hIn), ih]

theorem epollLoop_spec {events waiting : List Nat} (hLoop : epollLoop events s = some s')
    (hInj : Inj s.pollConnections) (hEvents : events.Nodup)
    (hStack : Stack s.numReadyConnections s.readyConnections waiting)
    (hApart : ∀ index ∈ events, ∀ p, s.pollConnections index = some p → p ∉ waiting) :
    ReadyOnly s s' ∧ s'.numReadyConnections = s.numReadyConnections + events.length ∧
      Stack s'.numReadyConnections s'.readyConnections
        ((events.filterMap s.pollConnections).reverse ++ waiting) := by
  induction events generalizing s waiting with
  | nil =>
    cases hLoop
    exact ⟨⟨rfl, rfl, rfl, rfl, rfl, rfl, rfl, rfl⟩, rfl, hStack⟩
  | cons index events ih =>
    obtain ⟨s₁, hPush, hRest⟩ := bind_eq_some_iff.mp hLoop
    obtain ⟨p, hSlot, rfl⟩ := pushReady_spec hPush
    rw [nodup_cons] at hEvents
    have hNew : p ∉ waiting := hApart index mem_cons_self p hSlot
    have hApart' : ∀ index ∈ events, ∀ q, s.pollConnections index = some q → q ∉ p :: waiting := by
      intro j hj q hq hMem
      rcases mem_cons.mp hMem with rfl | hMem
      · -- the slot of an earlier event is not met again
        exact hEvents.1 (hInj _ _ _ hSlot hq ▸ hj)
      · exact hApart j (mem_cons_of_mem _ hj) q hq hMem
    obtain ⟨hOnly, hNum, hStack'⟩ := ih hRest hInj hEvents.2 (hStack.push hNew) hApart'
    refine ⟨⟨hOnly.impl, hOnly.conns, hOnly.next, hOnly.slots, hOnly.num, hOnly.scan, hOnly.pollFds,
      hOnly.registered⟩, ?_, ?_⟩
    · rw [hNum, length_cons]
      dsimp only
      omega
    · rw [filterMap_cons_some hSlot, reverse_cons, append_assoc]
      exact hStack'

/-- The connections in different slots are different. -/
theorem nodup_slots {events : List Nat} (hInj : Inj s.pollConnections) (hEvents : events.Nodup) :
    (events.filterMap s.pollConnections).Nodup := by
  refine hEvents.filterMap ?_
  intro i j p hi hj
  exact hInj _ _ _ hi hj

/-- All ready connections are pushed, and nothing else changes. -/
theorem Inv.polled {events : List Nat} {pollScanOngoing : Bool} (h : Inv w) (hEvents : events.Nodup)
    (hLoop : epollLoop events { w.set with numReadyConnections := 0, pollScanOngoing } = some s') :
    s'.pollScanOngoing = pollScanOngoing ∧ s'.numReadyConnections = events.length ∧
      Inv (.polled { s' with pollScanOngoing := true }
        (events.filterMap w.set.pollConnections)) := by
  obtain ⟨hOnly, hNum, hStack⟩ := epollLoop_spec hLoop h.consistent.inj hEvents (stack_nil _)
    fun _ _ _ _ => not_mem_nil
  rw [append_nil] at hStack
  refine ⟨hOnly.scan, hNum.trans (Nat.zero_add _), ?_⟩
  constructor
  case consistent => exact (hOnly.consistent (h.consistent.withReady _ _ _)).withReady _ _ _
  case distinct => exact nodup_slots h.consistent.inj hEvents
  case once => simp [World.polled]
  case fresh =>
    intro p conn hConn
    change s'.conns p = some conn at hConn
    change p < s'.next
    rw [hOnly.conns] at hConn
    rw [hOnly.next]
    exact h.fresh hConn
  case pending => exact hStack.perm (reverse_perm _)
  case member =>
    intro p hp
    obtain ⟨i, -, hi⟩ := mem_filterMap.mp hp
    exact ⟨i, (congrFun hOnly.slots i).trans hi⟩
  case scan =>
    intro hScan
    cases hScan

/-- When the assertion holds, poll has found POLLIN wherever it has found something. -/
theorem filter_pollIn {revents : Nat → Nat} {indices : List Nat}
    (hLength : (indices.filter (revents · = pollIn)).length =
      (indices.filter (revents · ≠ 0)).length) :
    indices.filter (revents · = pollIn) = indices.filter (revents · ≠ 0) := by
  refine List.Sublist.eq_of_length (monotone_filter_right indices ?_) hLength
  intro i hi
  have hIn : revents i = pollIn := of_decide_eq_true hi
  have hNe : revents i ≠ 0 := by
    rw [hIn]
    decide
  exact decide_eq_true hNe

theorem Inv.pollCheck {revents : Nat → Nat} (h : Inv w)
    (hCheck : pollCheckPollSet w.set revents = some s') :
    Inv (.polled s' (((List.range w.set.numPollConnections).filter (revents · ≠ 0)).filterMap
      w.set.pollConnections)) := by
  unfold pollCheckPollSet at hCheck
  dsimp only at hCheck
  have hEvents : ((List.range w.set.numPollConnections).filter (revents · ≠ 0)).Nodup :=
    nodup_range.filter _
  by_cases hNum : ((List.range w.set.numPollConnections).filter (revents · ≠ 0)).length > 0
  · rw [if_pos hNum] at hCheck
    obtain ⟨s₁, hLoop, hRest⟩ := bind_eq_some_iff.mp hCheck
    rw [pollLoop_eq, ← range_eq_range'] at hLoop
    by_cases hAssert : s₁.numReadyConnections =
        ((List.range w.set.numPollConnections).filter (revents · ≠ 0)).length
    · rw [if_pos hAssert] at hRest
      cases hRest
      have hLength := hAssert
      rw [(h.polled (nodup_range.filter _) hLoop).2.1] at hLength
      rw [filter_pollIn hLength] at hLoop
      obtain ⟨hScan, -, hInv⟩ := h.polled hEvents hLoop
      rw [← hScan] at hInv
      exact hInv
    · rw [if_neg hAssert] at hRest
      cases hRest
  · rw [if_neg hNum] at hCheck
    cases hCheck
    have hNil : (List.range w.set.numPollConnections).filter (revents · ≠ 0) = [] :=
      length_eq_zero_iff.mp (Nat.eq_zero_of_not_pos hNum)
    rw [hNil]
    have hLoop : epollLoop []
        { w.set with numReadyConnections := 0, pollScanOngoing := true } = some _ := rfl
    exact (h.polled nodup_nil hLoop).2.2

/-! ### Events -/

theorem dataAt_inj {j data : Nat} (h : Consistent s) (hi : s.dataAt i = some data)
    (hj : s.dataAt j = some data) : i = j := by
  unfold PollSet.dataAt at hi hj
  split_ifs at hi hj
  · exact h.inj _ _ _ hi hj
  · rw [Option.some.inj hi, Option.some.inj hj]

variable {events : List (Nat × Nat)}

section

variable (h : Inv w) (hFixed : w.set.impl ≠ .poll)

include h hFixed

/-- The kernel tells the file descriptors apart by their data, and knows each one once. -/
theorem Inv.registered_inj {event event' : Nat × Nat} (hEvent : event ∈ w.set.registered)
    (hEvent' : event' ∈ w.set.registered) (hEq : event.1 = event'.1 ∨ event.2 = event'.2) :
    event = event' := by
  obtain ⟨i, hAt, hData⟩ := (h.consistent.kernel hFixed _ _).mp hEvent
  obtain ⟨j, hAt', hData'⟩ := (h.consistent.kernel hFixed _ _).mp hEvent'
  have hij : i = j := by
    rcases hEq with hFd | hSame
    · exact h.consistent.distinct _ _ _ hAt (hFd ▸ hAt')
    · exact dataAt_inj h.consistent hData (hSame ▸ hData')
  subst hij
  exact Prod.ext (Option.some.inj (hAt.symm.trans hAt')) (Option.some.inj (hData.symm.trans hData'))

/-- Different events have different file descriptors and different data. -/
theorem Inv.nodup_events (hEvents : Delivers w.set events) :
    (events.map Prod.fst).Nodup ∧ (events.map Prod.snd).Nodup :=
  ⟨hEvents.1.map_on fun e he e' he' hEq =>
      h.registered_inj hFixed (hEvents.2 e he) (hEvents.2 e' he') (.inl hEq),
    hEvents.1.map_on fun e he e' he' hEq =>
      h.registered_inj hFixed (hEvents.2 e he) (hEvents.2 e' he') (.inr hEq)⟩

end

theorem Inv.epollCheck (h : Inv w) (hImpl : w.set.impl = .epoll) (hEvents : Delivers w.set events)
    (hCheck : epollCheckPollSet w.set (events.map Prod.snd) = some s') :
    Inv (.polled s' (events.filterMap fun event => w.set.target event.2)) := by
  obtain ⟨s₁, hLoop, hRest⟩ := bind_eq_some_iff.mp hCheck
  cases hRest
  have hTarget : w.set.target = w.set.pollConnections := by
    funext data
    exact if_neg (by rw [hImpl]; exact nofun)
  have hInv := (h.polled (h.nodup_events (by rw [hImpl]; exact nofun) hEvents).2 hLoop).2.2
  rw [filterMap_map] at hInv
  rw [hTarget]
  exact hInv

theorem pushReady_eq {conn : PollConnection} (hSlot : s.pollConnections index = some p)
    (hConn : s.conns p = some conn) : pushReady s index = some { s with
      readyConnections := update s.readyConnections s.numReadyConnections (some p)
      numReadyConnections := s.numReadyConnections + 1 } := by
  simp only [pushReady, hSlot, hConn, bind_eq_bind, bind_some]

/-- Apart from the kernel the loop for event ports is the one for epoll. -/
theorem eventportsLoop_eq {indices : List Nat} (registered : List (Nat × Nat))
    (hLoop : eventportsLoop indices s = some s') :
    ∃ s₁, epollLoop indices { s with registered } = some s₁ ∧
      s' = { s₁ with registered := s'.registered } := by
  induction indices generalizing s with
  | nil =>
    cases hLoop
    exact ⟨_, rfl, rfl⟩
  | cons index indices ih =>
    obtain ⟨s₁, hPush, hRest⟩ := bind_eq_some_iff.mp hLoop
    obtain ⟨p, hSlot, rfl⟩ := pushReady_spec hPush
    obtain ⟨q, hSlot', hRest⟩ := bind_eq_some_iff.mp hRest
    obtain ⟨conn, hConn, hNext⟩ := bind_eq_some_iff.mp hRest
    have hEq : q = p := Option.some.inj (hSlot'.symm.trans hSlot)
    rw [hEq] at hConn
    obtain ⟨s₂, hLoop', hSame⟩ := ih hNext
    have hPush' := pushReady_eq (s := { s with registered }) hSlot hConn
    exact ⟨s₂, bind_eq_some_iff.mpr ⟨_, hPush', hLoop'⟩, hSame⟩

/-- What was reported is watched again, and the others still are. -/
theorem eventportsLoop_registered (hLoop : eventportsLoop (events.map Prod.snd) s = some s')
    (hAt : ∀ event ∈ events, s.fdAt event.2 = some event.1) (hNodup : (events.map Prod.fst).Nodup)
    (event : Nat × Nat) : event ∈ s'.registered ↔
      event ∈ events ∨ event ∈ s.registered ∧ event.1 ∉ events.map Prod.fst := by
  induction events generalizing s with
  | nil =>
    cases hLoop
    simp
  | cons first events ih =>
    obtain ⟨s₁, hPush, hRest⟩ := bind_eq_some_iff.mp hLoop
    obtain ⟨p, hSlot, rfl⟩ := pushReady_spec hPush
    obtain ⟨q, hSlot', hRest⟩ := bind_eq_some_iff.mp hRest
    obtain ⟨conn, hConn, hRest⟩ := bind_eq_some_iff.mp hRest
    have hFd : conn.fd = first.1 := by
      have hFirst : s.fdAt first.2 = some conn.fd :=
        fdAt_eq_some.mpr ⟨q, conn, hSlot', hConn, rfl⟩
      exact Option.some.inj (hFirst.symm.trans (hAt first mem_cons_self))
    -- an association takes the place of the one with the same file descriptor
    rw [map_cons, nodup_cons] at hNodup
    rw [ih hRest (fun e he => hAt e (mem_cons_of_mem _ he)) hNodup.2, PollSet.associate, hFd]
    dsimp only
    rw [mem_cons, mem_cons, map_cons, mem_cons, mem_filter, decide_eq_true_iff]
    constructor
    · rintro (hMem | ⟨rfl | ⟨hMem, hne⟩, hNot⟩)
      · exact .inl (.inr hMem)
      · exact .inl (.inl rfl)
      · exact .inr ⟨hMem, not_or.mpr ⟨hne, hNot⟩⟩
    · rintro ((rfl | hMem) | ⟨hMem, hNot⟩)
      · exact .inr ⟨.inl rfl, hNodup.1⟩
      · exact .inl hMem
      · obtain ⟨hne, hNot⟩ := not_or.mp hNot
        exact .inr ⟨.inr ⟨hMem, hne⟩, hNot⟩

/-- The order in which the kernel knows the file descriptors is no part of it. -/
theorem Inv.withRegistered (h : Inv w) {registered : List (Nat × Nat)}
    (hSame : ∀ event, event ∈ registered ↔ event ∈ w.set.registered) :
    Inv { w with set := { w.set with registered } } := by
  have hOld := h.consistent
  refine ⟨⟨hOld.bound, hOld.distinct, hOld.count, hOld.noGaps, hOld.pollKernel, ?_, hOld.index,
    hOld.ioCompletion⟩, h.distinct, h.once, h.fresh, h.pending, h.member, h.scan⟩
  intro hFixed fd data
  exact (hSame (fd, data)).trans (hOld.kernel hFixed fd data)

theorem Inv.eventportsCheck (h : Inv w) (hImpl : w.set.impl = .eventports)
    (hEvents : Delivers w.set events) (hCheck : eventportsCheckPollSet w.set events = some s') :
    Inv (.polled s' (events.filterMap fun event => w.set.target event.2)) := by
  have hFixed : w.set.impl ≠ .poll := by
    rw [hImpl]
    exact nofun
  have hNotKqueue : w.set.impl ≠ .kqueue := by
    rw [hImpl]
    exact nofun
  obtain ⟨hFds, hData⟩ := h.nodup_events hFixed hEvents
  obtain ⟨s₁, hLoop, hRest⟩ := bind_eq_some_iff.mp hCheck
  cases hRest
  have hAt : ∀ event ∈ events, w.set.fdAt event.2 = some event.1 := by
    intro event he
    obtain ⟨i, hAt, hIndex⟩ := (h.consistent.kernel hFixed _ _).mp (hEvents.2 event he)
    rw [PollSet.dataAt, if_neg hNotKqueue] at hIndex
    rw [← Option.some.inj hIndex]
    exact hAt
  have hRegistered := eventportsLoop_registered hLoop hAt hFds
  obtain ⟨s₂, hLoop', hSame⟩ := eventportsLoop_eq w.set.registered hLoop
  obtain ⟨-, -, hInv⟩ := h.polled hData hLoop'
  have hOnly := (epollLoop_spec hLoop' h.consistent.inj hData (stack_nil _)
    fun _ _ _ _ => not_mem_nil).1
  rw [filterMap_map] at hInv
  have hTarget : w.set.target = w.set.pollConnections := by
    funext data
    exact if_neg hNotKqueue
  rw [hTarget, hSame]
  refine hInv.withRegistered fun event => ?_
  rw [hRegistered]
  show _ ↔ event ∈ s₂.registered
  rw [hOnly.registered, mem_filter, Bool.not_eq_true', ← Bool.not_eq_true, contains_iff_mem]
  constructor
  · -- what is reported is dissociated and associated again, and the rest stays
    rintro (hMem | ⟨⟨hMem, -⟩, -⟩)
    · exact hEvents.2 event hMem
    · exact hMem
  · intro hMem
    by_cases hReported : event ∈ events
    · exact .inl hReported
    · refine .inr ⟨⟨hMem, hReported⟩, fun hFd => hReported ?_⟩
      obtain ⟨event', hMem', hEq⟩ := mem_map.mp hFd
      rw [h.registered_inj hFixed hMem (hEvents.2 event' hMem') (.inl hEq.symm)]
      exact hMem'

/-- The index in a connection. -/
def PollSet.indexOf (s : PollSet) (p : Nat) : Nat := (s.conns p).elim 0 PollConnection.index

/-- The loop for kqueue is the one for epoll, over the indices in the connections. -/
theorem kqueueLoop_eq {events : List Nat} (hLoop : kqueueLoop events s = some s') :
    epollLoop (events.map s.indexOf) s = some s' := by
  induction events generalizing s with
  | nil => exact hLoop
  | cons udata events ih =>
    obtain ⟨conn, hConn, hRest⟩ := bind_eq_some_iff.mp hLoop
    split_ifs at hRest
    obtain ⟨s₁, hPush, hRest⟩ := bind_eq_some_iff.mp hRest
    have hIndex : s.indexOf udata = conn.index := by
      rw [PollSet.indexOf, hConn]
      rfl
    have hNext := ih hRest
    have hSame : s₁.indexOf = s.indexOf := by
      obtain ⟨p, -, rfl⟩ := pushReady_spec hPush
      rfl
    rw [hSame] at hNext
    rw [map_cons, hIndex]
    exact bind_eq_some_iff.mpr ⟨s₁, hPush, hNext⟩

theorem Inv.kqueueCheck (h : Inv w) (hImpl : w.set.impl = .kqueue) (hEvents : Delivers w.set events)
    (hCheck : kqueueCheckPollSet w.set (events.map Prod.snd) = some s') :
    Inv (.polled s' (events.filterMap fun event => w.set.target event.2)) := by
  have hFixed : w.set.impl ≠ .poll := by
    rw [hImpl]
    exact nofun
  obtain ⟨s₁, hLoop, hRest⟩ := bind_eq_some_iff.mp hCheck
  cases hRest
  have hLoop' := kqueueLoop_eq hLoop
  -- the connection of an event is in the slot with its index
  have hSlot : ∀ p ∈ events.map Prod.snd, w.set.pollConnections (w.set.indexOf p) = some p := by
    intro p hp
    obtain ⟨⟨fd, q⟩, he, rfl⟩ := mem_map.mp hp
    obtain ⟨i, hAt, hData⟩ := (h.consistent.kernel hFixed _ _).mp (hEvents.2 _ he)
    rw [PollSet.dataAt, if_pos hImpl] at hData
    obtain ⟨conn, hConn, -⟩ := h.consistent.live hData
    have hIndex : w.set.indexOf q = i := by
      rw [PollSet.indexOf, hConn]
      exact h.consistent.index hFixed hData hConn
    dsimp only
    rw [hIndex, hData]
  -- so two connections do not share an index
  have hNodup : ((events.map Prod.snd).map w.set.indexOf).Nodup := by
    refine (h.nodup_events hFixed hEvents).2.map_on fun p hp q hq hEq => ?_
    have hAt := hSlot p hp
    rw [hEq, hSlot q hq] at hAt
    exact (Option.some.inj hAt).symm
  have hInv := (h.polled hNodup hLoop').2.2
  have hReady : ((events.map Prod.snd).map w.set.indexOf).filterMap w.set.pollConnections =
      events.filterMap fun event => w.set.target event.2 := by
    rw [filterMap_map, filterMap_map]
    refine filterMap_congr fun event he => ?_
    exact (hSlot _ (mem_map_of_mem he)).trans (if_pos hImpl).symm
  rw [hReady] at hInv
  exact hInv

theorem Inv.check (h : Inv w) (hEvents : Delivers w.set events)
    (hCheck : checkPollSet w.set events = some s') :
    Inv (.polled s' (events.filterMap fun event => w.set.target event.2)) := by
  unfold checkPollSet at hCheck
  split at hCheck
  case h_1 hImpl => exact h.epollCheck hImpl hEvents hCheck
  case h_2 hImpl => exact h.eventportsCheck hImpl hEvents hCheck
  case h_3 hImpl => exact h.kqueueCheck hImpl hEvents hCheck
  case h_4 hImpl =>
    cases hCheck
    -- no connection is ever added, so there is nothing to report
    have hNil : events = [] := by
      refine eq_nil_iff_forall_not_mem.mpr fun event he => ?_
      obtain ⟨i, hAt, -⟩ := (h.consistent.kernel (by rw [hImpl]; exact nofun) _ _).mp
        (hEvents.2 event he)
      rw [fdAt_eq_none (h.consistent.ioCompletion hImpl i)] at hAt
      cases hAt
    have hPending := h.pending
    rw [h.waiting_nil hImpl] at hPending
    rw [hNil]
    exact ⟨h.consistent, nodup_nil, .refl _, h.fresh, hPending, fun _ hp => absurd hp not_mem_nil,
      h.scan⟩
  case h_5 => cases hCheck

theorem getNextConnection_spec {next : Option Nat} (hNext : getNextConnection s = some (next, s')) :
    s.numReadyConnections = 0 ∧ next = none ∧ s' = { s with pollScanOngoing := false } ∨
      ∃ n, s.numReadyConnections = n + 1 ∧ next = s.readyConnections n ∧
        s.pollScanOngoing = true ∧ s' = { s with numReadyConnections := n } := by
  unfold getNextConnection at hNext
  split_ifs at hNext with hScan hNum
  · cases hNext
    exact .inl ⟨hNum, rfl, rfl⟩
  · obtain ⟨n, hn⟩ := Nat.exists_eq_succ_of_ne_zero hNum
    rw [hn] at hNext
    cases hNext
    exact .inr ⟨n, hn, rfl, by simpa using hScan, rfl⟩

/-- The last of the ready connections waits no more. -/
theorem Inv.next (h : Inv w) (hNext : getNextConnection w.set = some (some p, s')) :
    Inv { w with set := s', reported := w.reported ++ [p], waiting := w.waiting.erase p } := by
  rcases getNextConnection_spec hNext with ⟨-, hNone, -⟩ | ⟨n, hn, hp, hScan, rfl⟩
  · cases hNone
  · have hPending := h.pending
    rw [hn] at hPending
    obtain ⟨q, hq, hAt, hPop⟩ := hPending.pop
    rw [hAt] at hp
    cases hp
    refine ⟨?_, h.distinct, ?_, h.fresh, hPop, ?_, ?_⟩
    · exact h.consistent.withReady _ _ _
    · refine .trans ?_ h.once
      refine List.Perm.append_right _ ?_
      rw [append_assoc]
      exact List.Perm.append_left _ (perm_cons_erase hq).symm
    · exact fun r hr => h.member r (mem_of_mem_erase hr)
    · intro hNot
      cases hScan.symm.trans hNot

/-- The scan is over. -/
theorem Inv.scanned (h : Inv w) (hNext : getNextConnection w.set = some (none, s')) :
    Inv { w with set := s' } := by
  rcases getNextConnection_spec hNext with ⟨hNum, -, rfl⟩ | ⟨n, hn, hp, -, -⟩
  · exact ⟨h.consistent.withReady _ _ _, h.distinct, h.once, h.fresh, h.pending, h.member,
      fun _ => hNum⟩
  · have hFull := h.pending.full n (by omega)
    rw [← hp] at hFull
    cases hFull

theorem Inv.reports (h : Inv w) : Reports w where
  distinct := h.distinct
  once := h.once
  member := h.member
  next := by
    intro p set hNext
    rcases getNextConnection_spec hNext with ⟨-, hNone, -⟩ | ⟨n, hn, hp, -, -⟩
    · cases hNone
    · refine (h.pending.mem p).mpr ⟨n, upTo_eq_some.mpr ⟨?_, hp.symm⟩⟩
      omega
  done := by
    intro set hNext
    rcases getNextConnection_spec hNext with ⟨hNum, -, -⟩ | ⟨n, hn, hp, -, -⟩
    · have hPending := h.pending
      rw [hNum] at hPending
      exact hPending.eq_nil
    · have hFull := h.pending.full n (by omega)
      rw [← hp] at hFull
      cases hFull

/-- One successful call. -/
theorem Inv.step {op : Op} (h : Inv w) (hTwice : NotTwice w op) (hStep : step w op = some w') :
    Inv w' := by
  cases op with
  | add fd userObj =>
    obtain ⟨⟨ret, set⟩, hAdd, hRest⟩ := bind_eq_some_iff.mp hStep
    dsimp only at hRest
    split_ifs at hRest with hRet
    cases hRest
    subst hRet
    exact h.add hTwice hAdd
  | remove fd =>
    obtain ⟨⟨ret, set⟩, hRemove, hRest⟩ := bind_eq_some_iff.mp hStep
    dsimp only at hRest
    split_ifs at hRest with hRet
    cases hRest
    subst hRet
    exact h.remove hRemove
  | pollCheck revents =>
    change (if _ then _ else none) = some w' at hStep
    split_ifs at hStep with hImpl
    obtain ⟨set, hCheck, hRest⟩ := bind_eq_some_iff.mp hStep
    cases hRest
    exact h.pollCheck hCheck
  | check events =>
    change (if _ then _ else none) = some w' at hStep
    split_ifs at hStep with hEvents
    obtain ⟨set, hCheck, hRest⟩ := bind_eq_some_iff.mp hStep
    cases hRest
    exact h.check hEvents hCheck
  | next =>
    obtain ⟨⟨next, set⟩, hNext, hRest⟩ := bind_eq_some_iff.mp hStep
    cases next with
    | none =>
      cases hRest
      exact h.scanned hNext
    | some p =>
      cases hRest
      exact h.next hNext

theorem Inv.reach {impl : Impl} (h : Reach impl w) : Inv w := by
  induction h with
  | start => exact .start impl
  | step _ hTwice hStep ih => exact ih.step hTwice hStep

/-- In every run, array, counter and kernel describe the same connections, without duplicates, and
without gaps where the array is compact. Every ready connection is reported once, unless it is
removed before. -/
theorem poll_set_ok {impl : Impl} (h : Reach impl w) : Consistent w.set ∧ Reports w :=
  ⟨(Inv.reach h).consistent, (Inv.reach h).reports⟩

/-- A file descriptor that no connection has may be added. -/
theorem Reach.notTwice {impl : Impl} (h : Reach impl w)
    (hNew : ∀ p < w.set.next, (w.set.conns p).map PollConnection.fd ≠ some fd) :
    NotTwice w (.add fd userObj) := by
  rintro ⟨i, hi⟩
  obtain ⟨p, conn, -, hConn, hFd⟩ := fdAt_eq_some.mp hi
  refine hNew p ((Inv.reach h).fresh hConn) ?_
  rw [hConn, map_some, hFd]

/-- Three connections of poll are ready. The last one is reported; the first one is removed, so that the
last one takes its slot; a new one is added; and the second one is reported. -/
theorem poll_set_ok_single : ∃ w, Reach .poll w ∧ w.ready = [1, 2, 3] ∧ w.reported = [3, 2] ∧
    w.removed = [1] ∧ w.waiting = [] ∧ w.set.fdAt 0 = some 7 ∧ w.set.fdAt 2 = some 8 ∧
    Consistent w.set ∧ Reports w := by
  have hFirst := Reach.start.step (show NotTwice (.new .poll) (.add 5 0) from
    Reach.start.notTwice (by decide)) rfl
  have hSecond := hFirst.step (show NotTwice _ (.add 6 0) from hFirst.notTwice (by decide)) rfl
  have hThird := hSecond.step (show NotTwice _ (.add 7 0) from hSecond.notTwice (by decide)) rfl
  have hPolled := hThird.step (show NotTwice _ (.pollCheck fun _ => pollIn) from trivial) rfl
  have hReported := hPolled.step (show NotTwice _ .next from trivial) rfl
  have hRemoved := hReported.step (show NotTwice _ (.remove 5) from trivial) rfl
  have hAdded := hRemoved.step (show NotTwice _ (.add 8 0) from hRemoved.notTwice (by decide)) rfl
  have hReach := hAdded.step (show NotTwice _ .next from trivial) rfl
  exact ⟨_, hReach, rfl, rfl, rfl, rfl, rfl, rfl, poll_set_ok hReach⟩

/-- The calls of a run without a promise of the caller. -/
def run (w : World) (ops : List Op) : Option World := ops.foldlM step w

/-- An epoll leaves the slot of a removed connection empty, and poll takes a file descriptor
twice. -/
theorem epoll_gap_poll_duplicate :
    ¬(∀ ops w, run (.new .epoll) ops = some w →
      ∀ i, (w.set.pollConnections i).isSome ↔ i < w.set.numPollConnections) ∧
    ¬(∀ ops w, run (.new .poll) ops = some w → Inj w.set.fdAt) := by
  constructor
  · intro hAll
    have hGap := hAll [.add 5 0, .add 6 0, .remove 5] _ rfl 0
    exact absurd (hGap.mpr (by decide)) (by decide)
  · intro hAll
    have hTwice := hAll [.add 5 0, .add 5 0] _ rfl 0 1 5 rfl rfl
    cases hTwice

end IClaustron.Comm
