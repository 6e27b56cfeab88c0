import IClaustron.Comm.PollSet

/-!
# Comm.FailedAdd — a connection that cannot be added

What is left of `epoll_poll_set_add_connection` when it fails, in every run of an epoll poll set: a
full set, no memory, or an error of epoll_ctl. The member of a failed epoll_ctl is taken out again by
its file descriptor, and this may be another member, or one that waits to be reported.

* `Slots.call`, `Watched.call` — every call keeps the invariants.
* `unchanged_iff` — a failed call leaves the poll set as it was exactly when its undo finds the new
  member first and nothing that waits has the file descriptor.
* `failed_add_iff` — this in every run; and in a run without harm no add reads a member that is
  gone.

Scope limits: an error of epoll_ctl when a connection is removed ends the process. A file descriptor
is closed once for all, so that epoll forgets it.
-/

namespace IClaustron.Comm

open Lib Lib.Cells List Option Function

/-! ## Model -/

/-- IC_ERROR_MEM_ALLOC. -/
def errorMemAlloc : Nat := 7005

/-- `add_poll_set_member`, where `mallocOk` says whether there is memory for a connection. -/
def addMember (s : PollSet) (fd userObj : Nat) (mallocOk : Bool) : Option (Nat × Nat × PollSet) :=
  if s.numPollConnections = maxPollSetConnections then some (errorPollSetFull, 0, s)
  else if !mallocOk then some (errorMemAlloc, 0, s)
  else addPollSetMember s fd userObj

/-- `epoll_ctl` with EPOLL_CTL_ADD. A file descriptor that is watched already is an error, and
`error` is any other one that the kernel has. -/
def epollCtlAdd (s : PollSet) (fd index error : Nat) : Nat × PollSet :=
  if error ≠ 0 then (error, s)
  else if fd ∈ s.registered.map Prod.fst then (fileExists, s)
  else (0, { s with registered := (fd, index) :: s.registered })

/-- `epoll_poll_set_add_connection`. -/
def epollPollSetAddConnection (s : PollSet) (fd userObj : Nat) (mallocOk : Bool) (error : Nat) :
    Option (Nat × PollSet) := do
  let (ret, index, s) ← addMember s fd userObj mallocOk
  if ret ≠ 0 then some (ret, s)
  else
    let (ret, s) := epollCtlAdd s fd index error
    if ret ≠ 0 then do
      let (_, _, s) ← removePollSetMember s fd
      some (ret, s)
    else some (0, s)

inductive Call where
  | add (fd userObj : Nat) (mallocOk : Bool) (error : Nat)
  | remove (fd : Nat)
  /-- epoll_wait finds these file descriptors, each with its data -/
  | check (events : List (Nat × Nat))
  /-- epoll_wait has an error -/
  | checkFails
  | next
  /-- the caller closes a file descriptor -/
  | close (fd : Nat)

/-- The poll set after a call, unless the call reads a connection that is gone. -/
def call (s : PollSet) : Call → Option PollSet
  | .add fd userObj mallocOk error => do
    let (_, s) ← epollPollSetAddConnection s fd userObj mallocOk error
    some s
  | .remove fd => do
    let (_, s) ← removeConnection s fd
    some s
  | .check events => epollCheckPollSet s (events.map Prod.snd)
  | .checkFails => some { s with pollScanOngoing := false }
  | .next => do
    let (_, s) ← getNextConnection s
    some s
  | .close fd => some { s with registered := s.registered.filter (·.1 ≠ fd) }

/-- epoll reports what it watches, each file descriptor at most once. -/
def Occurs (s : PollSet) : Call → Prop
  | .check events => events.Nodup ∧ ∀ event ∈ events, event ∈ s.registered
  | _ => True

/-- What calls that keep `Promise` can lead to. -/
inductive Runs (Promise : PollSet → Call → Prop) : PollSet → Prop
  | start : Runs Promise (createPollSet .epoll)
  | call {s s' : PollSet} {c : Call} :
    Runs Promise s → Promise s c → Occurs s c → call s c = some s' → Runs Promise s'

/-- The members, the counters, the ready connections that wait and the kernel are as before. -/
structure Unchanged (s s' : PollSet) : Prop where
  members : s'.pollConnections = s.pollConnections
  conns : ∀ p, Holds s.pollConnections p → s'.conns p = s.conns p
  num : s'.numPollConnections = s.numPollConnections
  scan : s'.pollScanOngoing = s.pollScanOngoing
  numReady : s'.numReadyConnections = s.numReadyConnections
  ready : ∀ i < s.numReadyConnections, s'.readyConnections i = s.readyConnections i
  kernel : s'.registered = s.registered

/-- Nothing that waits has the file descriptor, and a member that has it stands behind an empty
slot. -/
structure Undone (s : PollSet) (fd : Nat) : Prop where
  ready : s.pollScanOngoing → ∀ i < s.numReadyConnections, readyHas s fd i ≠ some true
  members : ∀ k, s.fdAt k = some fd → ∃ j < k, s.pollConnections j = none

/-- There is no room, no memory, or the undo takes back what was done. -/
def FailsClean (s : PollSet) (fd : Nat) (mallocOk : Bool) : Prop :=
  s.numPollConnections = maxPollSetConnections ∨ mallocOk = false ∨ Undone s fd

/-- The kernel takes the file descriptor, or the failed call does no harm. -/
def Clean (s : PollSet) : Call → Prop
  | .add fd _ mallocOk error =>
    error = 0 ∧ fd ∉ s.registered.map Prod.fst ∨ FailsClean s fd mallocOk
  | _ => True

variable {s s' s₁ : PollSet} {fd userObj error ret index found i p : Nat} {mallocOk : Bool}

/-! ## Members -/

/-- The slots hold different connections that are there, and are counted. -/
structure Slots (s : PollSet) : Prop where
  impl : s.impl = .epoll
  fresh : ∀ {p conn}, s.conns p = some conn → p < s.next
  old : ∀ {i p}, s.readyConnections i = some p → p < s.next
  live : ∀ {i p}, s.pollConnections i = some p →
    i < maxPollSetConnections ∧ ∃ conn, s.conns p = some conn
  apart : Inj s.pollConnections
  count : s.numPollConnections = (occupied maxPollSetConnections s.pollConnections).card

/-- A connection in a slot. -/
def PollSet.put (s : PollSet) (fd userObj index : Nat) : PollSet :=
  { s with
    conns := update s.conns s.next (some ⟨fd, index, userObj⟩)
    next := s.next + 1
    pollConnections := update s.pollConnections index (some s.next)
    numPollConnections := s.numPollConnections + 1 }

/-- A slot that is emptied, with its connection freed. -/
def PollSet.clear (s : PollSet) (found p : Nat) : PollSet :=
  { s with
    conns := update s.conns p none
    numPollConnections := s.numPollConnections - 1
    pollConnections := update s.pollConnections found none }

theorem Slots.next_fresh (h : Slots s) : s.conns s.next = none := by
  cases hConn : s.conns s.next with
  | none => rfl
  | some conn => exact absurd (h.fresh hConn) (lt_irrefl _)

theorem Slots.old_slot (h : Slots s) (hSlot : s.pollConnections i = some p) : p < s.next := by
  rcases (h.live hSlot).2 with ⟨conn, hConn⟩
  exact h.fresh hConn

theorem Slots.start : Slots (createPollSet .epoll) where
  impl := rfl
  fresh := nofun
  old := nofun
  live := nofun
  apart := nofun
  count := by simp [createPollSet, occupied]

section

variable (h : Slots s)

include h

/-- Only the ready connections, the scan and the kernel change. -/
theorem Slots.congr (hOnly : s' = { s with
      readyConnections := s'.readyConnections
      numReadyConnections := s'.numReadyConnections
      pollScanOngoing := s'.pollScanOngoing
      registered := s'.registered }) (hOld : ∀ {i p}, s'.readyConnections i = some p → p < s.next) :
    Slots s' := by
  rw [hOnly]
  exact ⟨h.impl, h.fresh, hOld, h.live, h.apart, h.count⟩

theorem Slots.put (hIndex : index < maxPollSetConnections) (hEmpty : s.pollConnections index = none)
    : Slots (s.put fd userObj index) where
  impl := h.impl
  fresh := by
    intro p conn hConn
    rcases put_eq_some.mp hConn with ⟨rfl, -⟩ | ⟨-, hConn⟩
    · exact Nat.lt_succ_self _
    · exact Nat.lt_succ_of_lt (h.fresh hConn)
  old := fun hReady => Nat.lt_succ_of_lt (h.old hReady)
  live := by
    intro i p hSlot
    rcases put_eq_some.mp hSlot with ⟨rfl, rfl⟩ | ⟨-, hSlot⟩
    · exact ⟨hIndex, _, update_self ..⟩
    · rcases h.live hSlot with ⟨hBound, conn, hConn⟩
      exact ⟨hBound, conn, (update_of_ne (h.old_slot hSlot).ne ..).trans hConn⟩
  apart := by
    refine inj_put h.apart ?_
    rintro ⟨i, hSlot⟩
    exact lt_irrefl _ (h.old_slot hSlot)
  count := by
    change s.numPollConnections + 1 = _
    rw [h.count]
    exact (card_occupied_put hIndex hEmpty).symm

theorem Slots.clear (hSlot : s.pollConnections found = some p) :
    Slots (s.clear found p) where
  impl := h.impl
  fresh := fun hConn => h.fresh (clear_eq_some.mp hConn).2
  old := h.old
  live := by
    intro i q hOther
    rcases clear_eq_some.mp hOther with ⟨hne, hAt⟩
    rcases h.live hAt with ⟨hBound, conn, hConn⟩
    have hqp : q ≠ p := by
      rintro rfl
      exact hne (h.apart _ _ _ hAt hSlot)
    exact ⟨hBound, conn, clear_eq_some.mpr ⟨hqp, hConn⟩⟩
  apart := inj_clear h.apart
  count := by
    change s.numPollConnections - 1 = _
    rw [h.count]
    exact (card_occupied_clear (h.live hSlot).1 hSlot).symm

/-- The file descriptor is at the new slot, and the others are where they were. -/
theorem Slots.fdAt_put (fd userObj index : Nat) :
    (s.put fd userObj index).fdAt = update s.fdAt index (some fd) := by
  funext i
  by_cases hi : i = index
  · subst hi
    rw [update_self, fdAt_eq_some]
    exact ⟨s.next, ⟨fd, i, userObj⟩, update_self .., update_self .., rfl⟩
  · rw [update_of_ne hi]
    refine fdAt_congr (update_of_ne hi ..) fun p hSlot => ?_
    exact update_of_ne (h.old_slot hSlot).ne ..

/-- The slot that is emptied has no file descriptor, and the others have theirs. -/
theorem Slots.fdAt_clear (hSlot : s.pollConnections found = some p) :
    (s.clear found p).fdAt = update s.fdAt found none := by
  funext i
  by_cases hi : i = found
  · subst hi
    rw [update_self]
    exact fdAt_eq_none (update_self ..)
  · rw [update_of_ne hi]
    refine fdAt_congr (update_of_ne hi ..) fun q hOther => ?_
    have hqp : q ≠ p := by
      rintro rfl
      exact hi (h.apart _ _ _ hOther hSlot)
    exact update_of_ne hqp ..

/-! ### Adding -/

/-- An epoll has an empty slot as long as it is not full. -/
theorem Slots.first_empty (hFull : s.numPollConnections ≠ maxPollSetConnections) :
    ∃ index, firstIndex (fun i => some (s.pollConnections i).isNone) maxPollSetConnections 0 =
      some (some index) := by
  have hAnswers : ∀ k, 0 ≤ k → k < 0 + maxPollSetConnections →
      (fun i => some (s.pollConnections i).isNone) k = some (s.pollConnections k).isNone :=
    fun _ _ _ => rfl
  rcases firstIndex_isSome hAnswers with ⟨search, hSearch, -⟩
  cases search with
  | some index => exact ⟨index, hSearch⟩
  | none =>
    -- without an empty slot all of them are counted
    have hAll : occupied maxPollSetConnections s.pollConnections =
        Finset.range maxPollSetConnections := by
      refine Finset.filter_true_of_mem fun k hk => ?_
      have hTaken := firstIndex_missing hSearch k (Nat.zero_le k)
        (by rw [Nat.zero_add]; exact Finset.mem_range.mp hk)
      simpa [isSome_iff_ne_none] using hTaken
    refine absurd ?_ hFull
    rw [h.count, hAll, Finset.card_range]

/-- The member goes into the first empty slot, unless there is no room or no memory. -/
theorem Slots.addMember_cases (fd userObj : Nat) (mallocOk : Bool) :
    (s.numPollConnections = maxPollSetConnections ∨ mallocOk = false) ∧
        (∃ ret ≠ 0, addMember s fd userObj mallocOk = some (ret, 0, s)) ∨
      s.numPollConnections ≠ maxPollSetConnections ∧ mallocOk = true ∧
        ∃ index < maxPollSetConnections, s.pollConnections index = none ∧
          (∀ j < index, s.pollConnections j ≠ none) ∧
          addMember s fd userObj mallocOk = some (0, index, s.put fd userObj index) := by
  unfold addMember
  by_cases hFull : s.numPollConnections = maxPollSetConnections
  · rw [if_pos hFull]
    exact .inl ⟨.inl hFull, errorPollSetFull, by decide, rfl⟩
  · rw [if_neg hFull]
    cases mallocOk with
    | false => exact .inl ⟨.inr rfl, errorMemAlloc, by decide, rfl⟩
    | true =>
      rcases h.first_empty hFull with ⟨index, hSearch⟩
      rcases firstIndex_found hSearch with ⟨-, hBound, hEmpty⟩
      have hIndex : index < maxPollSetConnections := by omega
      refine .inr ⟨hFull, rfl, index, hIndex, by simpa using hEmpty, ?_, ?_⟩
      · intro j hj
        have hTaken := firstIndex_before hSearch j (Nat.zero_le j) hj
        simpa [isSome_iff_ne_none] using hTaken
      · have hCompact : ¬s.useCompactArray = true := by simp [PollSet.useCompactArray, h.impl]
        simp only [addPollSetMember, if_neg hFull, if_neg hCompact, hSearch, bind_eq_bind,
          bind_some, getD_some, if_pos hIndex]
        rfl

/-! ### Removing -/

/-- A search in the slots reads only connections that are there. -/
theorem Slots.slotHas_eq (fd i : Nat) : slotHas s fd i = some (decide (s.fdAt i = some fd)) := by
  unfold slotHas
  cases hSlot : s.pollConnections i with
  | none =>
    have hNone : s.fdAt i ≠ some fd := by simp [fdAt_eq_none hSlot]
    rw [decide_eq_false hNone]
  | some p =>
    rcases (h.live hSlot).2 with ⟨conn, hConn⟩
    simp [PollSet.fdAt, hSlot, hConn]

end

/-- The first loop finds nothing that waits, or takes one out. -/
theorem removeReady_cases (hRemove : removeReady s fd = some s₁) :
    s₁ = s ∧ (s.pollScanOngoing → ∀ i < s.numReadyConnections, readyHas s fd i ≠ some true) ∨
      ∃ k < s.numReadyConnections, s.pollScanOngoing = true ∧ readyHas s fd k = some true ∧
        s₁ = { s with
          readyConnections := swapRemove s.readyConnections k (s.numReadyConnections - 1)
          numReadyConnections := s.numReadyConnections - 1 } := by
  unfold removeReady at hRemove
  split_ifs at hRemove with hScan
  · rcases bind_eq_some_iff.mp hRemove with ⟨search, hSearch, hRest⟩
    cases search with
    | none =>
      cases hRest
      refine .inl ⟨rfl, fun _ i hi hHas => ?_⟩
      rw [firstIndex_missing hSearch i (Nat.zero_le i) (by omega)] at hHas
      cases hHas
    | some k =>
      cases hRest
      rcases firstIndex_found hSearch with ⟨-, hk, hHas⟩
      exact .inr ⟨k, by omega, hScan, hHas, rfl⟩
  · cases hRemove
    exact .inl ⟨rfl, fun hNot => absurd hNot hScan⟩

theorem Slots.removeReady (h : Slots s) (hRemove : Comm.removeReady s fd = some s₁) :
    Slots s₁ ∧ s₁.fdAt = s.fdAt ∧ s₁.pollConnections = s.pollConnections := by
  rcases removeReady_cases hRemove with ⟨rfl, -⟩ | ⟨k, -, -, -, rfl⟩
  · exact ⟨h, rfl, rfl⟩
  · refine ⟨h.congr rfl fun {i p} hReady => ?_, rfl, rfl⟩
    rcases (swapRemove_eq_some.mp hReady).2 with ⟨-, hLast⟩ | ⟨-, hOther⟩
    · exact h.old hLast
    · exact h.old hOther

/-- The first slot with the file descriptor is emptied. -/
theorem Slots.removeMember_cases (h : Slots s)
    (hRemove : removePollSetMember s fd = some (ret, found, s')) :
    ∃ s₁, Comm.removeReady s fd = some s₁ ∧
      (ret ≠ 0 ∧ s' = s₁ ∧ (∀ i, s.fdAt i ≠ some fd) ∨
        ret = 0 ∧ s.fdAt found = some fd ∧ (∀ j < found, s.fdAt j ≠ some fd) ∧
          ∃ p, s₁.pollConnections found = some p ∧ s' = s₁.clear found p) := by
  unfold removePollSetMember at hRemove
  rcases bind_eq_some_iff.mp hRemove with ⟨s₁, hReady, hRest⟩
  rcases bind_eq_some_iff.mp hRest with ⟨search, hSearch, hRest⟩
  rcases h.removeReady hReady with ⟨hSlots, hFdAt, -⟩
  refine ⟨s₁, hReady, ?_⟩
  rw [← hFdAt]
  cases search with
  | none =>
    cases hRest
    refine .inl ⟨by decide, rfl, fun i hAt => ?_⟩
    rcases fdAt_eq_some.mp hAt with ⟨p, -, hSlot, -⟩
    have hHas := firstIndex_missing hSearch i (Nat.zero_le i)
      (by rw [Nat.zero_add]; exact (hSlots.live hSlot).1)
    rw [hSlots.slotHas_eq, decide_eq_true hAt] at hHas
    cases hHas
  | some k =>
    rcases bind_eq_some_iff.mp hRest with ⟨p, hSlot, hRest⟩
    have hCompact : ¬s₁.useCompactArray = true := by simp [PollSet.useCompactArray, hSlots.impl]
    dsimp only at hRest
    rw [if_neg hCompact] at hRest
    cases hRest
    rcases firstIndex_found hSearch with ⟨-, -, hHas⟩
    refine .inr ⟨rfl, slotHas_eq_true hHas, fun j hj hAt => ?_, p, hSlot, rfl⟩
    have hNot := firstIndex_before hSearch j (Nat.zero_le j) hj
    rw [hSlots.slotHas_eq, decide_eq_true hAt] at hNot
    cases hNot

/-! ### A failed call -/

/-- What epoll_ctl does to the poll set. -/
theorem epollCtlAdd_cases (s : PollSet) (fd index error : Nat) :
    (∃ ret ≠ 0, epollCtlAdd s fd index error = (ret, s)) ∧
        ¬(error = 0 ∧ fd ∉ s.registered.map Prod.fst) ∨
      error = 0 ∧ fd ∉ s.registered.map Prod.fst ∧
        epollCtlAdd s fd index error = (0, { s with registered := (fd, index) :: s.registered }) := by
  unfold epollCtlAdd
  by_cases hError : error ≠ 0
  · rw [if_pos hError]
    exact .inl ⟨⟨error, hError, rfl⟩, fun hNone => hError hNone.1⟩
  · rw [if_neg hError]
    by_cases hKnown : fd ∈ s.registered.map Prod.fst
    · rw [if_pos hKnown]
      exact .inl ⟨⟨fileExists, by decide, rfl⟩, fun hNone => hNone.2 hKnown⟩
    · rw [if_neg hKnown]
      exact .inr ⟨not_not.mp hError, hKnown, rfl⟩

/-- A call succeeds, fails before anything is done, or fails at epoll_ctl and is undone. -/
theorem Slots.add_cases (h : Slots s)
    (hAdd : epollPollSetAddConnection s fd userObj mallocOk error = some (ret, s')) :
    ret ≠ 0 ∧ s' = s ∧ (s.numPollConnections = maxPollSetConnections ∨ mallocOk = false) ∨
      s.numPollConnections ≠ maxPollSetConnections ∧ mallocOk = true ∧
      ∃ index < maxPollSetConnections, s.pollConnections index = none ∧
        (∀ j < index, s.pollConnections j ≠ none) ∧
        (ret ≠ 0 ∧ (∃ r found, removePollSetMember (s.put fd userObj index) fd =
            some (r, found, s')) ∧ ¬(error = 0 ∧ fd ∉ s.registered.map Prod.fst) ∨
          ret = 0 ∧ fd ∉ s.registered.map Prod.fst ∧ s' = { s.put fd userObj index with
            registered := (fd, index) :: s.registered }) := by
  unfold epollPollSetAddConnection at hAdd
  rcases h.addMember_cases fd userObj mallocOk with
    ⟨hEarly, r, hr, hMember⟩ | ⟨hFull, hMalloc, index, hIndex, hEmpty, hTaken, hMember⟩
  · rw [hMember] at hAdd
    simp only [bind_eq_bind, bind_some, if_pos hr] at hAdd
    cases hAdd
    exact .inl ⟨hr, rfl, hEarly⟩
  · refine .inr ⟨hFull, hMalloc, index, hIndex, hEmpty, hTaken, ?_⟩
    rw [hMember] at hAdd
    simp only [bind_eq_bind, bind_some, ne_eq, not_true_eq_false, if_false] at hAdd
    rcases epollCtlAdd_cases (s.put fd userObj index) fd index error with
      ⟨⟨r, hr, hCtl⟩, hRefused⟩ | ⟨-, hNew, hCtl⟩
    · rw [hCtl] at hAdd
      dsimp only at hAdd
      rw [if_pos hr] at hAdd
      rcases bind_eq_some_iff.mp hAdd with ⟨⟨r', found, s₂⟩, hRemove, hRest⟩
      cases hRest
      exact .inl ⟨hr, ⟨r', found, hRemove⟩, hRefused⟩
    · rw [hCtl] at hAdd
      cases hAdd
      exact .inr ⟨rfl, hNew, rfl⟩

/-- What waits is read as before: no pointer to it is as new as the new member. -/
theorem Slots.readyHas_put (h : Slots s) (fd userObj index i : Nat) :
    readyHas (s.put fd userObj index) fd i = readyHas s fd i := by
  unfold readyHas
  change (s.readyConnections i).bind _ = (s.readyConnections i).bind _
  cases hReady : s.readyConnections i with
  | none => rfl
  | some p =>
    have hConn : (s.put fd userObj index).conns p = s.conns p :=
      update_of_ne (h.old hReady).ne ..
    simp only [bind_some, hConn]

/-- Where the undo finds the new member first, only the address is used up. -/
theorem Slots.undone (h : Slots s) (hUndone : Undone s fd)
    (hEmpty : s.pollConnections index = none) (hTaken : ∀ j < index, s.pollConnections j ≠ none)
    (hIndex : index < maxPollSetConnections)
    (hRemove : removePollSetMember (s.put fd userObj index) fd = some (ret, found, s')) :
    s' = { s with next := s.next + 1 } := by
  have hPut : Slots (s.put fd userObj index) := h.put hIndex hEmpty
  have hAt : (s.put fd userObj index).fdAt index = some fd := by
    rw [h.fdAt_put, update_self]
  rcases hPut.removeMember_cases hRemove with ⟨s₁, hReady, hCases⟩
  -- nothing that waits is taken out
  have hSame : s₁ = s.put fd userObj index := by
    rcases removeReady_cases hReady with ⟨hSame, -⟩ | ⟨k, hk, hScan, hHas, -⟩
    · exact hSame
    · rw [h.readyHas_put] at hHas
      exact absurd hHas (hUndone.ready hScan k hk)
  subst hSame
  rcases hCases with ⟨-, -, hNone⟩ | ⟨-, hFound, hBefore, p, hSlot, rfl⟩
  · exact absurd hAt (hNone index)
  -- the member that is found is the new one
  · have hLe : found ≤ index := by
      by_contra hLt
      exact hBefore index (by omega) hAt
    have hEq : found = index := by
      by_contra hne
      rw [h.fdAt_put, update_of_ne hne] at hFound
      rcases hUndone.members found hFound with ⟨j, hj, hGap⟩
      exact hTaken j (by omega) hGap
    subst hEq
    have hp : p = s.next := by
      have hSelf : (s.put fd userObj found).pollConnections found = some s.next :=
        update_self ..
      rw [hSelf] at hSlot
      exact (Option.some.inj hSlot).symm
    subst hp
    have hConns : update (update s.conns s.next (some ⟨fd, found, userObj⟩))
        s.next none = s.conns := by
      rw [update_idem, ← h.next_fresh, update_eq_self]
    have hMembers : update (update s.pollConnections found (some s.next))
        found none = s.pollConnections := by
      rw [update_idem, ← hEmpty, update_eq_self]
    unfold PollSet.clear PollSet.put
    simp only [hConns, hMembers, Nat.add_sub_cancel]

/-- And where nothing has changed, it has found the new member first. -/
theorem Slots.of_unchanged (h : Slots s) (hUnchanged : Unchanged s s')
    (hEmpty : s.pollConnections index = none) (hIndex : index < maxPollSetConnections)
    (hRemove : removePollSetMember (s.put fd userObj index) fd = some (ret, found, s')) :
    Undone s fd := by
  have hPut : Slots (s.put fd userObj index) := h.put hIndex hEmpty
  have hAt : (s.put fd userObj index).fdAt index = some fd := by
    rw [h.fdAt_put, update_self]
  rcases hPut.removeMember_cases hRemove with ⟨s₁, hReady, hCases⟩
  rcases hCases with ⟨-, -, hNone⟩ | ⟨-, hFound, hBefore, p, hSlot, rfl⟩
  · exact absurd hAt (hNone index)
  constructor
  · intro hScan i hi hHas
    rcases removeReady_cases hReady with ⟨-, hNothing⟩ | ⟨k, hk, -, -, rfl⟩
    · rw [← h.readyHas_put fd userObj index] at hHas
      exact hNothing hScan i hi hHas
    · have hNum : s.numReadyConnections - 1 = s.numReadyConnections := hUnchanged.numReady
      have hk' : k < s.numReadyConnections := hk
      omega
  · intro k hk
    have hEq : found = index := by
      by_contra hne
      -- the new member stays
      have hMembers := congrFun hUnchanged.members index
      rw [hEmpty] at hMembers
      have hStays : s₁.pollConnections index = some s.next := by
        rw [(hPut.removeReady hReady).2.2]
        exact update_self ..
      change update s₁.pollConnections found none index = none at hMembers
      rw [update_of_ne (Ne.symm hne), hStays] at hMembers
      cases hMembers
    subst hEq
    have hne : k ≠ found := by
      rintro rfl
      rw [fdAt_eq_none hEmpty] at hk
      cases hk
    refine ⟨found, ?_, hEmpty⟩
    by_contra hLt
    refine hBefore k (by omega) ?_
    rw [h.fdAt_put, update_of_ne hne]
    exact hk

theorem Unchanged.refl (s : PollSet) : Unchanged s s :=
  ⟨rfl, fun _ _ => rfl, rfl, rfl, rfl, fun _ _ => rfl, rfl⟩

section

variable (h : Slots s)

include h

theorem unchanged_iff
    (hAdd : epollPollSetAddConnection s fd userObj mallocOk error = some (ret, s'))
    (hFails : ret ≠ 0) : Unchanged s s' ↔ FailsClean s fd mallocOk := by
  rcases h.add_cases hAdd with ⟨-, rfl, hEarly⟩ |
    ⟨hFull, hMalloc, index, hIndex, hEmpty, hTaken, hLate⟩
  · refine iff_of_true (.refl _) ?_
    rcases hEarly with hFull | hMalloc
    · exact .inl hFull
    · exact .inr (.inl hMalloc)
  rcases hLate with ⟨-, ⟨r, found, hRemove⟩, -⟩ | ⟨hOk, -⟩
  · constructor
    · intro hUnchanged
      exact .inr (.inr (h.of_unchanged hUnchanged hEmpty hIndex hRemove))
    · rintro (hNoRoom | hNoMemory | hUndone)
      · exact absurd hNoRoom hFull
      · rw [hMalloc] at hNoMemory
        cases hNoMemory
      · rw [h.undone hUndone hEmpty hTaken hIndex hRemove]
        exact ⟨rfl, fun _ _ => rfl, rfl, rfl, rfl, fun _ _ => rfl, rfl⟩
  · exact absurd hOk hFails

/-! ### Every call -/

theorem Slots.removeMember (hRemove : removePollSetMember s fd = some (ret, found, s')) :
    Slots s' := by
  rcases h.removeMember_cases hRemove with ⟨s₁, hReady, hCases⟩
  have hSlots : Slots s₁ := (h.removeReady hReady).1
  rcases hCases with ⟨-, rfl, -⟩ | ⟨-, -, -, p, hSlot, rfl⟩
  · exact hSlots
  · exact hSlots.clear hSlot

theorem Slots.add (hAdd : epollPollSetAddConnection s fd userObj mallocOk error = some (ret, s')) :
    Slots s' := by
  rcases h.add_cases hAdd with ⟨-, rfl, -⟩ | ⟨-, -, index, hIndex, hEmpty, -, hLate⟩
  · exact h
  have hPut : Slots (s.put fd userObj index) := h.put hIndex hEmpty
  rcases hLate with ⟨-, ⟨r, found, hRemove⟩, -⟩ | ⟨-, -, rfl⟩
  · exact hPut.removeMember hRemove
  · exact hPut.congr rfl hPut.old

theorem Slots.removeConnection_cases (hRemove : removeConnection s fd = some (ret, s')) :
    ∃ found s₁, removePollSetMember s fd = some (ret, found, s₁) ∧
      (ret ≠ 0 ∧ s' = s₁ ∨
        ret = 0 ∧ s' = { s₁ with registered := s₁.registered.filter (·.1 ≠ fd) }) := by
  have hIo : s.impl ≠ .ioCompletion := by simp [h.impl]
  rw [removeConnection, if_neg hIo] at hRemove
  rcases bind_eq_some_iff.mp hRemove with ⟨⟨r, found, s₁⟩, hMember, hRest⟩
  dsimp only at hRest
  by_cases hr : r ≠ 0
  · rw [if_pos hr] at hRest
    cases hRest
    exact ⟨found, _, hMember, .inl ⟨hr, rfl⟩⟩
  · have hFixed : s₁.impl ≠ .poll := by simp [(h.removeMember hMember).impl]
    rw [if_neg hr, if_neg hFixed] at hRest
    cases hRest
    obtain rfl : r = 0 := not_not.mp hr
    exact ⟨found, s₁, hMember, .inr ⟨rfl, rfl⟩⟩

theorem Slots.epollLoop {events : List Nat} (hLoop : Comm.epollLoop events s = some s') :
    Slots s' := by
  induction events generalizing s with
  | nil =>
    cases hLoop
    exact h
  | cons index events ih =>
    rcases bind_eq_some_iff.mp hLoop with ⟨s₁, hPush, hRest⟩
    rcases pushReady_spec hPush with ⟨p, hSlot, rfl⟩
    refine ih (h.congr rfl fun {i q} hReady => ?_) hRest
    rcases put_eq_some.mp hReady with ⟨-, rfl⟩ | ⟨-, hOther⟩
    · exact h.old_slot hSlot
    · exact h.old hOther

/-- One call, whatever it does. -/
theorem Slots.call {c : Call} (hCall : Comm.call s c = some s') : Slots s' := by
  cases c with
  | add fd userObj mallocOk error =>
    rcases bind_eq_some_iff.mp hCall with ⟨⟨ret, s₁⟩, hAdd, hRest⟩
    cases hRest
    exact h.add hAdd
  | remove fd =>
    rcases bind_eq_some_iff.mp hCall with ⟨⟨ret, s₁⟩, hRemove, hRest⟩
    cases hRest
    rcases h.removeConnection_cases hRemove with ⟨found, s₂, hMember, hCases⟩
    have hSlots : Slots s₂ := h.removeMember hMember
    rcases hCases with ⟨-, rfl⟩ | ⟨-, rfl⟩
    · exact hSlots
    · exact hSlots.congr rfl hSlots.old
  | check events =>
    rcases bind_eq_some_iff.mp hCall with ⟨s₁, hLoop, hRest⟩
    cases hRest
    have hStart : Slots { s with numReadyConnections := 0 } := h.congr rfl h.old
    have hSlots : Slots s₁ := hStart.epollLoop hLoop
    exact hSlots.congr rfl hSlots.old
  | checkFails =>
    cases hCall
    exact h.congr rfl h.old
  | next =>
    rcases bind_eq_some_iff.mp hCall with ⟨⟨next, s₁⟩, hNext, hRest⟩
    cases hRest
    rcases getNextConnection_spec hNext with ⟨-, -, rfl⟩ | ⟨n, -, -, -, rfl⟩
    · exact h.congr rfl h.old
    · exact h.congr rfl h.old
  | close fd =>
    cases hCall
    exact h.congr rfl h.old

end

theorem Slots.runs {Promise : PollSet → Call → Prop} (h : Runs Promise s) : Slots s := by
  induction h with
  | start => exact .start
  | call _ _ _ hCall ih => exact ih.call hCall

/-! ## Kernel -/

/-- The file descriptors of the ready connections that wait. -/
def PollSet.readyFd (s : PollSet) (i : Nat) : Option Nat :=
  (upTo s.numReadyConnections s.readyConnections i).bind fun p =>
    (s.conns p).map PollConnection.fd

/-- The kernel watches slots with the file descriptor that it knows, and during a scan the
connections that wait are members with different file descriptors. -/
structure Watched (s : PollSet) : Prop where
  member : ∀ {fd i}, (fd, i) ∈ s.registered → s.fdAt i = some fd
  distinct : (s.registered.map Prod.fst).Nodup
  waits : s.pollScanOngoing = true → ∀ i < s.numReadyConnections,
    ∃ p, s.readyConnections i = some p ∧ Holds s.pollConnections p
  once : s.pollScanOngoing = true → Inj s.readyFd

theorem readyFd_eq_some : s.readyFd i = some fd ↔ ∃ p conn, i < s.numReadyConnections ∧
    s.readyConnections i = some p ∧ s.conns p = some conn ∧ conn.fd = fd := by
  simp only [PollSet.readyFd, bind_eq_some_iff, upTo_eq_some, map_eq_some_iff]
  constructor
  · rintro ⟨p, ⟨hi, hReady⟩, conn, hConn, hFd⟩
    exact ⟨p, conn, hi, hReady, hConn, hFd⟩
  · rintro ⟨p, conn, hi, hReady, hConn, hFd⟩
    exact ⟨p, ⟨hi, hReady⟩, conn, hConn, hFd⟩

theorem Watched.start : Watched (createPollSet .epoll) where
  member := nofun
  distinct := nodup_nil
  waits := nofun
  once := nofun

section

variable (h : Watched s)

include h

/-- No connection waits that is gone. -/
theorem Watched.readyHas (hSlots : Slots s) (hScan : s.pollScanOngoing = true)
    (hi : i < s.numReadyConnections) :
    Comm.readyHas s fd i = some (decide (s.readyFd i = some fd)) := by
  rcases h.waits hScan i hi with ⟨p, hReady, k, hSlot⟩
  rcases (hSlots.live hSlot).2 with ⟨conn, hConn⟩
  have hUp : upTo s.numReadyConnections s.readyConnections i = some p :=
    upTo_eq_some.mpr ⟨hi, hReady⟩
  simp [Comm.readyHas, PollSet.readyFd, hReady, hUp, hConn]

/-- After the first loop nothing that waits has the file descriptor. -/
theorem Watched.removeReady (hSlots : Slots s) (hRemove : Comm.removeReady s fd = some s₁) :
    Watched s₁ ∧ (s₁.pollScanOngoing = true → ∀ i, s₁.readyFd i ≠ some fd) := by
  rcases removeReady_cases hRemove with ⟨rfl, hNothing⟩ | ⟨k, hk, hScan, hHas, rfl⟩
  · refine ⟨h, fun hScan i hAt => ?_⟩
    rcases readyFd_eq_some.mp hAt with ⟨-, -, hi, -⟩
    refine hNothing hScan i hi ?_
    rw [h.readyHas hSlots hScan hi, decide_eq_true hAt]
  · rw [h.readyHas hSlots hScan hk, Option.some.injEq, decide_eq_true_iff] at hHas
    rcases Nat.exists_eq_add_of_lt (Nat.zero_lt_of_lt hk) with ⟨n, hn⟩
    rw [Nat.zero_add] at hn
    have hLast : s.numReadyConnections - 1 = n := by omega
    -- the file descriptors that wait move as the connections do
    have hMoved : PollSet.readyFd { s with
        readyConnections := swapRemove s.readyConnections k n
        numReadyConnections := n } = swapRemove s.readyFd k n := by
      funext i
      unfold PollSet.readyFd
      dsimp only
      rw [upTo_swapRemove (by omega : k < n + 1), ← hn]
      by_cases hi : i = n
      · rw [hi, swapRemove_last, swapRemove_last]
        rfl
      · rw [swapRemove_of_ne hi, swapRemove_of_ne hi]
        split_ifs
        · rfl
        · rfl
    rw [hLast]
    refine ⟨⟨h.member, h.distinct, fun _ i hi => ?_, fun _ => ?_⟩, fun _ i hAt => ?_⟩
    · have hi' : i < n := hi
      dsimp only
      rw [swapRemove_of_ne hi'.ne]
      split_ifs
      · exact h.waits hScan n (by omega)
      · exact h.waits hScan i (by omega)
    · rw [hMoved]
      exact inj_swapRemove (h.once hScan)
    · rw [hMoved] at hAt
      rcases swapRemove_eq_some.mp hAt with ⟨hne, ⟨rfl, hEnd⟩ | ⟨hik, hOther⟩⟩
      · exact hne (h.once hScan _ _ _ hHas hEnd)
      · exact hik (h.once hScan _ _ _ hOther hHas)

/-- A member goes, and epoll forgets its file descriptor. -/
theorem Watched.removeMember (hSlots : Slots s)
    (hRemove : removePollSetMember s fd = some (ret, found, s')) :
    ret ≠ 0 ∧ Watched s' ∨
      ret = 0 ∧ Watched { s' with registered := s'.registered.filter (·.1 ≠ fd) } := by
  rcases hSlots.removeMember_cases hRemove with ⟨s₁, hReady, hCases⟩
  rcases h.removeReady hSlots hReady with ⟨hWatched, hNot⟩
  rcases hSlots.removeReady hReady with ⟨hSlots₁, hFdAt, -⟩
  rcases hCases with ⟨hRet, rfl, -⟩ | ⟨hRet, hFound, -, p, hSlot, rfl⟩
  · exact .inl ⟨hRet, hWatched⟩
  rw [← hFdAt] at hFound
  have hConn : ∃ conn, s₁.conns p = some conn ∧ conn.fd = fd := by
    rcases fdAt_eq_some.mp hFound with ⟨q, conn, hSlot', hConn, hFd⟩
    rw [hSlot] at hSlot'
    cases hSlot'
    exact ⟨conn, hConn, hFd⟩
  refine .inr ⟨hRet, ?_, ?_, ?_, ?_⟩
  · intro fd' i hMem
    rcases mem_filter.mp hMem with ⟨hMem, hOther⟩
    have hAt : s₁.fdAt i = some fd' := hWatched.member hMem
    have hne : i ≠ found := by
      rintro rfl
      rw [hFound] at hAt
      exact of_decide_eq_true hOther (Option.some.inj hAt).symm
    change (s₁.clear found p).fdAt i = some fd'
    rw [hSlots₁.fdAt_clear hSlot, update_of_ne hne]
    exact hAt
  · exact hWatched.distinct.sublist (filter_sublist.map _)
  · intro hScan i hi
    rcases hWatched.waits hScan i hi with ⟨q, hq, hHolds⟩
    refine ⟨q, hq, (holds_clear hSlots₁.apart).mpr ⟨hHolds, ?_⟩⟩
    rw [hSlot]
    intro hEq
    cases hEq
    rcases hConn with ⟨conn, hConn, hFd⟩
    exact hNot hScan i (readyFd_eq_some.mpr ⟨p, conn, hi, hq, hConn, hFd⟩)
  · intro hScan i j x hi hj
    have hKept : ∀ k, PollSet.readyFd { s₁.clear found p with
        registered := (s₁.clear found p).registered.filter (·.1 ≠ fd) } k = some x →
        s₁.readyFd k = some x := by
      intro k hk
      rcases readyFd_eq_some.mp hk with ⟨q, conn, hLt, hReady', hConn', hFd⟩
      exact readyFd_eq_some.mpr ⟨q, conn, hLt, hReady', (clear_eq_some.mp hConn').2, hFd⟩
    exact hWatched.once hScan i j x (hKept i hi) (hKept j hj)

/-- The kernel takes a new member. -/
theorem Watched.put (hSlots : Slots s) (hEmpty : s.pollConnections index = none)
    (hNew : fd ∉ s.registered.map Prod.fst) :
    Watched { s.put fd userObj index with registered := (fd, index) :: s.registered } where
  member := by
    intro fd' i hMem
    change (s.put fd userObj index).fdAt i = some fd'
    rw [hSlots.fdAt_put]
    rcases mem_cons.mp hMem with hEq | hMem
    · cases hEq
      exact update_self ..
    · have hAt : s.fdAt i = some fd' := h.member hMem
      have hne : i ≠ index := by
        rintro rfl
        rw [fdAt_eq_none hEmpty] at hAt
        cases hAt
      rw [update_of_ne hne]
      exact hAt
  distinct := nodup_cons.mpr ⟨hNew, h.distinct⟩
  waits := by
    intro hScan i hi
    rcases h.waits hScan i hi with ⟨p, hReady, hHolds⟩
    exact ⟨p, hReady, (holds_put hEmpty).mpr (.inr hHolds)⟩
  once := by
    intro hScan i j x hi hj
    have hKept : ∀ k, PollSet.readyFd { s.put fd userObj index with
        registered := (fd, index) :: s.registered } k = some x → s.readyFd k = some x := by
      intro k hk
      rcases readyFd_eq_some.mp hk with ⟨q, conn, hLt, hReady, hConn, hFd⟩
      have hConn' : s.conns q = some conn := by
        rcases put_eq_some.mp hConn with ⟨rfl, -⟩ | ⟨-, hConn⟩
        · exact absurd (hSlots.old hReady) (lt_irrefl _)
        · exact hConn
      exact readyFd_eq_some.mpr ⟨q, conn, hLt, hReady, hConn', hFd⟩
    exact h.once hScan i j x (hKept i hi) (hKept j hj)

/-- What epoll reports are different slots, and what waits afterwards are their connections. -/
theorem Watched.check {events : List (Nat × Nat)} (hSlots : Slots s) (hNodup : events.Nodup)
    (hWatch : ∀ event ∈ events, event ∈ s.registered)
    (hLoop : epollLoop (events.map Prod.snd) { s with numReadyConnections := 0 } = some s₁) :
    Watched { s₁ with pollScanOngoing := true } := by
  have hKnown : ∀ {fd i j}, (fd, i) ∈ s.registered → (fd, j) ∈ s.registered → i = j := by
    intro fd i j hi hj
    have hEq := inj_on_of_nodup_map h.distinct hi hj rfl
    exact congrArg Prod.snd hEq
  have hSlotsNodup : (events.map Prod.snd).Nodup := by
    refine hNodup.map_on ?_
    rintro ⟨fd, i⟩ hi ⟨fd', j⟩ hj hEq
    obtain rfl : i = j := hEq
    have hAt := (h.member (hWatch _ hi)).symm.trans (h.member (hWatch _ hj))
    rw [Option.some.inj hAt]
  rcases epollLoop_spec hLoop hSlots.apart hSlotsNodup (stack_nil _)
    fun _ _ _ _ => not_mem_nil with ⟨hOnly, -, hStack⟩
  rw [append_nil] at hStack
  -- a connection that waits is in the slot that an event names
  have hFrom : ∀ {k p}, k < s₁.numReadyConnections → s₁.readyConnections k = some p →
      ∃ fd i, (fd, i) ∈ s.registered ∧ s.pollConnections i = some p := by
    intro k p hk hReady
    have hMem := (hStack.mem p).mpr ⟨k, upTo_eq_some.mpr ⟨hk, hReady⟩⟩
    rcases mem_filterMap.mp (mem_reverse.mp hMem) with ⟨i, hi, hSlot⟩
    rcases mem_map.mp hi with ⟨⟨fd, i⟩, hEvent, rfl⟩
    exact ⟨fd, i, hWatch _ hEvent, hSlot⟩
  have hFdAt : PollSet.fdAt { s₁ with pollScanOngoing := true } = s.fdAt := by
    funext i
    exact fdAt_congr (congrFun hOnly.slots i) fun p _ => congrFun hOnly.conns p
  constructor
  case member =>
    intro fd i hMem
    rw [hFdAt]
    exact h.member (hOnly.registered ▸ hMem)
  case distinct =>
    dsimp only
    rw [hOnly.registered]
    exact h.distinct
  case waits =>
    intro _ i hi
    rcases isSome_iff_exists.mp (hStack.full i hi) with ⟨p, hReady⟩
    rcases hFrom hi hReady with ⟨-, k, -, hSlot⟩
    exact ⟨p, hReady, k, (congrFun hOnly.slots k).trans hSlot⟩
  case once =>
    intro _ i j x hi hj
    rcases readyFd_eq_some.mp hi with ⟨p, conn, hLti, hReadyi, hConni, hFdi⟩
    rcases readyFd_eq_some.mp hj with ⟨q, conn', hLtj, hReadyj, hConnj, hFdj⟩
    dsimp only at hLti hReadyi hConni hLtj hReadyj hConnj
    rw [hOnly.conns] at hConni hConnj
    rcases hFrom hLti hReadyi with ⟨fd, k, hk, hSlotk⟩
    rcases hFrom hLtj hReadyj with ⟨fd', l, hl, hSlotl⟩
    have hAtk : s.fdAt k = some x := fdAt_eq_some.mpr ⟨p, conn, hSlotk, hConni, hFdi⟩
    have hAtl : s.fdAt l = some x := fdAt_eq_some.mpr ⟨q, conn', hSlotl, hConnj, hFdj⟩
    rw [h.member hk] at hAtk
    rw [h.member hl] at hAtl
    cases hAtk
    cases hAtl
    obtain rfl : k = l := hKnown hk hl
    rw [hSlotk] at hSlotl
    cases hSlotl
    exact hStack.apart i j p (upTo_eq_some.mpr ⟨hLti, hReadyi⟩) (upTo_eq_some.mpr ⟨hLtj, hReadyj⟩)

theorem Watched.add (hSlots : Slots s) (hClean : Clean s (.add fd userObj mallocOk error))
    (hAdd : epollPollSetAddConnection s fd userObj mallocOk error = some (ret, s')) :
    Watched s' := by
  rcases hSlots.add_cases hAdd with ⟨-, rfl, -⟩ |
    ⟨hFull, hMalloc, index, hIndex, hEmpty, hTaken, hLate⟩
  · exact h
  rcases hLate with ⟨-, ⟨r, found, hRemove⟩, hRefused⟩ | ⟨-, hNew, rfl⟩
  · rcases hClean with hTakes | hNoRoom | hNoMemory | hUndone
    · exact absurd hTakes hRefused
    · exact absurd hNoRoom hFull
    · rw [hMalloc] at hNoMemory
      cases hNoMemory
    · rw [hSlots.undone hUndone hEmpty hTaken hIndex hRemove]
      exact ⟨h.member, h.distinct, h.waits, h.once⟩
  · exact h.put hSlots hEmpty hNew

/-- One call that does no harm. -/
theorem Watched.call {c : Call} (hSlots : Slots s) (hClean : Clean s c) (hOccurs : Occurs s c)
    (hCall : Comm.call s c = some s') : Watched s' := by
  cases c with
  | add fd userObj mallocOk error =>
    rcases bind_eq_some_iff.mp hCall with ⟨⟨ret, s₁⟩, hAdd, hRest⟩
    cases hRest
    exact h.add hSlots hClean hAdd
  | remove fd =>
    rcases bind_eq_some_iff.mp hCall with ⟨⟨ret, s₁⟩, hRemove, hRest⟩
    cases hRest
    rcases hSlots.removeConnection_cases hRemove with ⟨found, s₂, hMember, hCases⟩
    rcases h.removeMember hSlots hMember with ⟨hRet, hWatched⟩ | ⟨hRet, hWatched⟩
    · rcases hCases with ⟨-, rfl⟩ | ⟨hZero, -⟩
      · exact hWatched
      · exact absurd hZero hRet
    · rcases hCases with ⟨hNot, -⟩ | ⟨-, rfl⟩
      · exact absurd hRet hNot
      · exact hWatched
  | check events =>
    rcases bind_eq_some_iff.mp hCall with ⟨s₁, hLoop, hRest⟩
    cases hRest
    exact h.check hSlots hOccurs.1 hOccurs.2 hLoop
  | checkFails =>
    cases hCall
    exact ⟨h.member, h.distinct, nofun, nofun⟩
  | next =>
    rcases bind_eq_some_iff.mp hCall with ⟨⟨next, s₁⟩, hNext, hRest⟩
    cases hRest
    rcases getNextConnection_spec hNext with ⟨-, -, rfl⟩ | ⟨n, hn, -, hScan, rfl⟩
    · exact ⟨h.member, h.distinct, nofun, nofun⟩
    · refine ⟨h.member, h.distinct, fun _ i hi => ?_, fun _ i j x hi hj => ?_⟩
      · have hi' : i < n := hi
        exact h.waits hScan i (by omega)
      · have hKept : ∀ k, PollSet.readyFd { s with numReadyConnections := n } k = some x →
            s.readyFd k = some x := by
          intro k hk
          rcases readyFd_eq_some.mp hk with ⟨q, conn, hLt, hRest⟩
          have hLt' : k < n := hLt
          exact readyFd_eq_some.mpr ⟨q, conn, by omega, hRest⟩
        exact h.once hScan i j x (hKept i hi) (hKept j hj)
  | close fd =>
    cases hCall
    refine ⟨fun hMem => h.member (mem_of_mem_filter hMem), ?_, h.waits, h.once⟩
    exact h.distinct.sublist (filter_sublist.map _)

end

theorem Watched.runs (h : Runs Clean s) : Watched s := by
  induction h with
  | start => exact .start
  | call hRun hClean hOccurs hCall ih => exact ih.call (Slots.runs hRun) hClean hOccurs hCall

/-! ### Nothing that is gone is read -/

theorem removeReady_isSome
    (h : s.pollScanOngoing = true → ∀ i < s.numReadyConnections, (readyHas s fd i).isSome) :
    ∃ s₁, removeReady s fd = some s₁ := by
  unfold removeReady
  split_ifs with hScan
  · have hAnswers : ∀ k, 0 ≤ k → k < 0 + s.numReadyConnections →
        readyHas s fd k = some ((readyHas s fd k).getD false) := by
      intro k _ hk
      rcases isSome_iff_exists.mp (h hScan k (by omega)) with ⟨b, hb⟩
      rw [hb]
      rfl
    rcases firstIndex_isSome hAnswers with ⟨search, hSearch, -⟩
    rw [hSearch]
    cases search with
    | none => exact ⟨_, rfl⟩
    | some k => exact ⟨_, rfl⟩
  · exact ⟨_, rfl⟩

theorem Slots.removeMember_isSome (h : Slots s) (hReady : Comm.removeReady s fd = some s₁) :
    (removePollSetMember s fd).isSome := by
  have hSlots : Slots s₁ := (h.removeReady hReady).1
  have hAnswers : ∀ k, 0 ≤ k → k < 0 + maxPollSetConnections →
      slotHas s₁ fd k = some (decide (s₁.fdAt k = some fd)) := fun k _ _ => hSlots.slotHas_eq fd k
  rcases firstIndex_isSome hAnswers with ⟨search, hSearch, -⟩
  unfold removePollSetMember
  rw [hReady]
  simp only [bind_eq_bind, bind_some, hSearch]
  cases search with
  | none => rfl
  | some k =>
    rcases firstIndex_found hSearch with ⟨-, -, hHas⟩
    rcases fdAt_eq_some.mp (slotHas_eq_true hHas) with ⟨p, -, hSlot, -⟩
    simp only [hSlot]
    rfl

theorem Watched.add_isSome (h : Watched s) (hSlots : Slots s) (fd userObj : Nat) (mallocOk : Bool)
    (error : Nat) : (epollPollSetAddConnection s fd userObj mallocOk error).isSome := by
  unfold epollPollSetAddConnection
  rcases hSlots.addMember_cases fd userObj mallocOk with
    ⟨-, ret, hRet, hMember⟩ | ⟨-, -, index, hIndex, hEmpty, -, hMember⟩
  · rw [hMember]
    simp only [bind_eq_bind, bind_some, if_pos hRet]
    rfl
  · rw [hMember]
    simp only [bind_eq_bind, bind_some, ne_eq, not_true_eq_false, if_false]
    rcases epollCtlAdd_cases (s.put fd userObj index) fd index error with
      ⟨⟨ret, hRet, hCtl⟩, -⟩ | ⟨-, -, hCtl⟩
    · rw [hCtl]
      dsimp only
      rw [if_pos hRet]
      have hAnswers : (s.put fd userObj index).pollScanOngoing = true →
          ∀ i < (s.put fd userObj index).numReadyConnections,
            (Comm.readyHas (s.put fd userObj index) fd i).isSome := by
        intro hScan i hi
        rw [hSlots.readyHas_put, h.readyHas hSlots hScan hi]
        rfl
      rcases removeReady_isSome hAnswers with ⟨s₁, hReady⟩
      have hRemove := (hSlots.put hIndex hEmpty).removeMember_isSome hReady
      rcases isSome_iff_exists.mp hRemove with ⟨r, hRemove⟩
      rw [hRemove]
      rfl
    · rw [hCtl]
      rfl

/-! ## Failed calls -/

/-- In every run a call that fails leaves the poll set unchanged if and only if it fails early, or
nothing that waits and no member before the first empty slot has the file descriptor. Where all
failed calls of a run are such ones, the next add is defined. -/
theorem failed_add_iff (s : PollSet) :
    (Runs (fun _ _ => True) s → ∀ fd userObj mallocOk error ret s',
      epollPollSetAddConnection s fd userObj mallocOk error = some (ret, s') → ret ≠ 0 →
        (Unchanged s s' ↔ FailsClean s fd mallocOk)) ∧
    (Runs Clean s → ∀ fd userObj mallocOk error,
      (epollPollSetAddConnection s fd userObj mallocOk error).isSome) := by
  constructor
  · intro hRun fd userObj mallocOk error ret s' hAdd hFails
    exact unchanged_iff (.runs hRun) hAdd hFails
  · intro hRun fd userObj mallocOk error
    exact (Watched.runs hRun).add_isSome (.runs hRun) fd userObj mallocOk error

/-- A file descriptor stands in the first slot, behind none that is empty. -/
def oneMember : PollSet :=
  { (createPollSet .epoll).put 5 0 0 with registered := [(5, 0)] }

theorem oneMember_run (Promise : PollSet → Call → Prop)
    (hAdd : Promise (createPollSet .epoll) (.add 5 0 true 0)) : Runs Promise oneMember :=
  .call .start hAdd trivial rfl

/-- A second file descriptor that the kernel refuses leaves the poll set as it was, and the same call
without memory is defined. -/
theorem failed_add_iff_second :
    (∃ s', epollPollSetAddConnection oneMember 6 0 true 28 = some (28, s') ∧
      Unchanged oneMember s') ∧ (epollPollSetAddConnection oneMember 6 0 false 28).isSome := by
  have hRun : Runs (fun _ _ => True) oneMember := oneMember_run _ trivial
  have hAdd : epollPollSetAddConnection oneMember 6 0 true 28 = some (28, _) := rfl
  have hClean : Runs Clean oneMember := oneMember_run _ (.inl ⟨rfl, not_mem_nil⟩)
  refine ⟨⟨_, hAdd, ((failed_add_iff oneMember).1 hRun 6 0 true 28 28 _ hAdd (by decide)).mpr ?_⟩,
    (failed_add_iff oneMember).2 hClean 6 0 false 28⟩
  refine .inr (.inr ⟨nofun, fun k hk => ?_⟩)
  have hAt : Function.update (fun _ => none) 0 (some 5) k = some 6 := by
    rw [← hk]
    exact (congrFun (Slots.start.fdAt_put 5 0 0) k).symm
  rcases put_eq_some.mp hAt with ⟨-, hEq⟩ | ⟨-, hEq⟩
  · cases hEq
  · cases hEq

/-- The file descriptor of a member is added again: the new member stays, and the old one goes. -/
theorem known_fd_moves : ¬∀ s, Runs (fun _ _ => True) s → ∀ fd userObj mallocOk error ret s',
    epollPollSetAddConnection s fd userObj mallocOk error = some (ret, s') → ret ≠ 0 →
      Unchanged s s' := by
  intro hAll
  have hRun : Runs (fun _ _ => True) oneMember := oneMember_run _ trivial
  have hAdd : epollPollSetAddConnection oneMember 5 0 true 0 = some (fileExists, _) := rfl
  have hMembers := congrFun (hAll _ hRun 5 0 true 0 fileExists _ hAdd (by decide)).members 0
  cases hMembers

end IClaustron.Comm
