import IClaustron.Lib.Dll
import IClaustron.Lib.Run

/-!
# ThreadPool.Pool — the thread pool

Model of util/ic_threadpool.c. The thread states of a pool are linked by the same field
`next_thread_id` into the list of free ids and the list of stopped threads; the first is
guarded by `free_list_mutex`, the second by `stop_list_mutex`, and IC_MAX_UINT32 ends both.

An `ic_assert` that fails stops the process: the state is `aborted`, and no step follows.

Scope limits: the flags that only decide how long a thread waits are left out: stop flags are
choices of a step. So are the external mutexes and conditions and `thread_wait` and `thread_wake`.
The flags that `thread_stops` clears behind the stop list are looked at by nobody else before the
thread has ended, so that both are one step.
-/

namespace IClaustron.ThreadPool

open Lib

/-! ## Lists -/

/-- A call in progress. `inStart` says that it is made by `start_thread`. -/
inductive Call where
  /-- A caller has the id. -/
  | held (id : Nat)
  /-- `start_thread` has the id. -/
  | acquired (id : Nat)
  /-- `start_thread_with_thread_id` waits until the thread has started. -/
  | synchWait (id : Nat) (inStart : Bool)
  /-- `join_thread` in front of `g_thread_join`. -/
  | joining (id : Nat) (inStart : Bool)
  /-- `join_thread` in front of `remove_stopped_list`. -/
  | joined (id : Nat) (inStart : Bool)
  /-- `internal_join_thread` in front of `free_thread`. -/
  | removed (id : Nat) (inStart : Bool)
  /-- `stop_thread_wait` in front of its loop. -/
  | waiting (id : Nat)
  /-- `start_thread` in front of `free_thread_id`. -/
  | failed (id : Nat)
deriving DecidableEq

def Call.id : Call → Nat
  | .held i | .acquired i | .synchWait i _ | .joining i _ | .joined i _ | .removed i _
  | .waiting i | .failed i => i

/-- The call is the user of its id. -/
def Call.holds : Call → Bool
  | .held _ | .acquired _ | .removed _ _ => true
  | _ => false

/-- IC_INT_THREADPOOL_STATE with the fields of its thread states. Behind them: the calls in
progress, the `free_thread` between its two critical sections, with whether `start_thread` called
it; the threads that run with their ids, the number of threads created so far, the threads that
were joined, and whether an assertion has failed. -/
structure State where
  size : Nat
  next : Nat → Option Nat
  prev : Nat → Option Nat
  free : Nat → Bool
  stopped : Nat → Bool
  started : Nat → Bool
  synchStartup : Nat → Bool
  thread : Nat → Option Nat
  firstFree : Option Nat
  firstStopped : Option Nat
  numFree : Nat
  numStopped : Nat
  calls : List Call
  clearing : List (Nat × Bool)
  running : List (Nat × Nat)
  created : Nat
  joined : List Nat
  aborted : Bool

/-- Counters are 32 bits wide. -/
def inc (n : Nat) : Nat := (n + 1) % 2 ^ 32

def dec (n : Nat) : Nat := (n + (2 ^ 32 - 1)) % 2 ^ 32

/-- `insert_stopped_list`. -/
def insertStoppedList (s : State) (id : Nat) : State :=
  { s with
    prev := Function.update (setLink s.prev s.firstStopped (some id)) id none
    next := Function.update s.next id s.firstStopped
    stopped := Function.update s.stopped id true
    firstStopped := some id
    numStopped := inc s.numStopped
    aborted := s.aborted || s.stopped id }

/-- `remove_stopped_list`. -/
def removeStoppedList (s : State) (id : Nat) : State :=
  { s with
    next := setLink s.next (s.prev id) (s.next id)
    prev := setLink s.prev (s.next id) (s.prev id)
    firstStopped := if s.prev id = none then s.next id else s.firstStopped
    stopped := Function.update s.stopped id false
    numStopped := dec s.numStopped
    aborted := s.aborted || !s.stopped id }

/-- `get_free_thread_id`, when the list is not empty. -/
def takeFree (s : State) (id : Nat) : State :=
  { s with
    firstFree := s.next id
    next := Function.update s.next id none
    free := Function.update s.free id false
    numFree := dec s.numFree
    aborted := s.aborted || !s.free id }

/-- `free_thread_id`. -/
def freeThreadId (s : State) (id : Nat) : State :=
  { s with
    next := Function.update s.next id s.firstFree
    firstFree := some id
    free := Function.update s.free id true
    numFree := inc s.numFree
    aborted := s.aborted || s.free id }

/-- What the call of `start_thread` does after an error. -/
def afterError (id : Nat) (inStart : Bool) : Option Call := if inStart then some (.failed id) else none

/-- `free_thread` up to the first `ic_mutex_unlock`. -/
def freeThread (s : State) (id : Nat) (inStart : Bool) : State :=
  { freeThreadId s id with
    thread := Function.update s.thread id none
    clearing := (id, inStart) :: s.clearing }

/-- The rest of `free_thread`, with the mutex of the thread state. -/
def clearFlags (s : State) (id : Nat) (inStart : Bool) : State :=
  { s with
    started := Function.update s.started id false
    synchStartup := Function.update s.synchStartup id false
    calls := (afterError id inStart).toList ++ s.calls
    clearing := s.clearing.erase (id, inStart)
    aborted := s.aborted || s.synchStartup id }

/-- A pool whose thread states are zero. -/
def zeroPool (size : Nat) : State where
  size := size
  next := fun _ => none
  prev := fun _ => none
  free := fun _ => false
  stopped := fun _ => false
  started := fun _ => false
  synchStartup := fun _ => false
  thread := fun _ => none
  firstFree := none
  firstStopped := none
  numFree := 0
  numStopped := 0
  calls := []
  clearing := []
  running := []
  created := 0
  joined := []
  aborted := false

/-- `ic_create_threadpool`. -/
def createThreadpool (size : Nat) : State :=
  (List.range size).foldl (fun s id => clearFlags (freeThread s id false) id false) (zeroPool size)

/-! ## Steps -/

inductive Label where
  /-- `get_free_thread_id`. -/
  | getFreeThreadId (inStart : Bool)
  /-- `free_thread_id` of an id that was not used. -/
  | freeThreadId (id : Nat)
  /-- `start_thread_with_thread_id`; `created` says whether the thread could be created. -/
  | startThread (id : Nat) (inStart synch created : Bool)
  /-- The wait for the start of the thread ends, with the stop flag set or not. -/
  | synchDone (id : Nat) (inStart stop : Bool)
  | threadStarted (id thread : Nat)
  /-- `thread_startup_done`, which has waited for `run_thread`. -/
  | startupDone (id thread : Nat)
  | threadStops (id thread : Nat)
  | joinThread (id : Nat)
  | gThreadJoin (id : Nat) (inStart : Bool)
  | removeStopped (id : Nat) (inStart : Bool)
  | freeThread (id : Nat) (inStart : Bool)
  | clearFlags (id : Nat) (inStart : Bool)
  | freeAgain (id : Nat)
  /-- One turn of the loop of `check_threads`. -/
  | checkThreads
  | stopThreadWait (id : Nat)
  | stopThreadJoin (id : Nat)
deriving DecidableEq

/-- One call goes on. -/
def moveCall (s : State) (c : Call) (c' : Option Call) : State :=
  { s with calls := c'.toList ++ s.calls.erase c }

/-- The thread of an id has come to its end, so that `g_thread_join` returns. -/
def Ended (s : State) (id : Nat) : Prop := ∀ k, s.thread id = some k → ∀ j, (j, k) ∉ s.running

instance (s : State) (id : Nat) : Decidable (Ended s id) :=
  match h : s.thread id with
  | none => isTrue fun k hk => absurd (h.symm.trans hk) nofun
  | some k =>
    decidable_of_iff (∀ r ∈ s.running, r.2 ≠ k) <| by
      constructor
      · intro hall k' hk' j hj
        cases h.symm.trans hk'
        exact hall (j, k) hj rfl
      · rintro hall ⟨j, k'⟩ hr rfl
        exact hall k' h j hr

/-- `g_thread_join` of the thread of an id. -/
def gThreadJoin (s : State) (id : Nat) : State :=
  { s with joined := (s.thread id).toList ++ s.joined }

/-- `internal_join_thread` with the mutex of the stop list locked, up to `free_thread`. -/
def joinLocked (s : State) (id : Nat) : State := removeStoppedList (gThreadJoin s id) id

local instance instLawfulBEqPair : LawfulBEq (Nat × Nat) := inferInstance

/-- A step of a process that has not stopped. -/
def act (s : State) : Label → Option State
  | .getFreeThreadId inStart =>
    match s.firstFree with
    | none => some s
    | some id =>
      let s' := takeFree s id
      some { s' with calls := (if inStart then .acquired id else .held id) :: s'.calls }
  | .freeThreadId id =>
    if .held id ∈ s.calls then some (freeThreadId (moveCall s (.held id) none) id) else none
  | .startThread id inStart synch created =>
    let c := if inStart then Call.acquired id else .held id
    if c ∈ s.calls then
      let s := { s with
        synchStartup := Function.update s.synchStartup id synch
        aborted := s.aborted || s.free id }
      if created then
        let s' := moveCall s c (if synch then some (.synchWait id inStart) else none)
        some { s' with
          thread := Function.update s'.thread id (some s'.created)
          running := (id, s'.created) :: s'.running
          created := s'.created + 1 }
      else some (freeThread (moveCall s c none) id inStart)
    else none
  | .synchDone id inStart stop =>
    if .synchWait id inStart ∈ s.calls ∧ (stop = true ∨ s.started id = true) then
      some (moveCall s (.synchWait id inStart) (if stop then some (.joining id inStart) else none))
    else none
  | .threadStarted id k =>
    if (id, k) ∈ s.running then some { s with started := Function.update s.started id true }
    else none
  | .startupDone id k =>
    if (id, k) ∈ s.running then
      some { s with
        synchStartup := Function.update s.synchStartup id false
        aborted := s.aborted || !s.synchStartup id }
    else none
  | .threadStops id k =>
    if (id, k) ∈ s.running then
      let s' := insertStoppedList { s with running := s.running.erase (id, k) } id
      some { s' with
        started := Function.update s'.started id false
        synchStartup := Function.update s'.synchStartup id false
        aborted := s'.aborted || !s'.started id }
    else none
  | .joinThread id => if id < s.size then some { s with calls := .joining id false :: s.calls } else none
  | .gThreadJoin id inStart =>
    if .joining id inStart ∈ s.calls ∧ Ended s id then
      some (gThreadJoin (moveCall s (.joining id inStart) (some (.joined id inStart))) id)
    else none
  | .removeStopped id inStart =>
    if .joined id inStart ∈ s.calls then
      some (removeStoppedList (moveCall s (.joined id inStart) (some (.removed id inStart))) id)
    else none
  | .freeThread id inStart =>
    if .removed id inStart ∈ s.calls then
      some (freeThread (moveCall s (.removed id inStart) none) id inStart)
    else none
  | .clearFlags id inStart =>
    if (id, inStart) ∈ s.clearing then some (clearFlags s id inStart) else none
  | .freeAgain id =>
    if .failed id ∈ s.calls then some (freeThreadId (moveCall s (.failed id) none) id) else none
  | .checkThreads =>
    match s.firstStopped with
    | none => some s
    | some id =>
      if s.stopped id = true ∧ Ended s id then
        let s' := joinLocked s id
        some { s' with calls := .removed id false :: s'.calls }
      else none
  | .stopThreadWait id =>
    if id < s.size then some { s with calls := .waiting id :: s.calls } else none
  | .stopThreadJoin id =>
    if .waiting id ∈ s.calls ∧ s.stopped id = true ∧ Ended s id then
      some (joinLocked (moveCall s (.waiting id) (some (.removed id false))) id)
    else none

def step (s : State) (a : Label) : Option State := if s.aborted then none else act s a

/-! ## Conservation -/

/-- The ids that calls have. -/
def heldIds (calls : List Call) : List Nat := (calls.filter Call.holds).map Call.id

/-- The ids in use: by a call or by a thread that runs. -/
def State.inUse (s : State) : List Nat := heldIds s.calls ++ s.running.map Prod.fst

/-- What the lists and the threads should look like, in a process that goes on. -/
structure Conserved (s : State) : Prop where
  not_aborted : s.aborted = false
  lists : ∃ free stopped, Chain s.next s.firstFree free ∧ Chain s.next s.firstStopped stopped ∧
    s.numFree = free.length ∧ s.numStopped = stopped.length ∧
    (free ++ stopped ++ s.inUse).Perm (List.range s.size)
  /-- No thread is joined twice. -/
  joined_once : s.joined.Nodup
  /-- A thread that was not joined yet still has its id. -/
  not_lost : ∀ k, k < s.created → k ∈ s.joined ∨
    ∃ i, (i, k) ∈ s.running ∨ (s.stopped i = true ∧ s.thread i = some k)

/-- No call about the id is in progress. -/
def NoCall (s : State) (id : Nat) : Prop := ∀ c ∈ s.calls, c.id ≠ id

instance (s : State) (id : Nat) : Decidable (NoCall s id) :=
  inferInstanceAs (Decidable (∀ c ∈ s.calls, c.id ≠ id))

/-- The id has a thread that was not joined, and nobody else is about to join it. -/
def CanJoin (s : State) (id : Nat) : Prop := NoCall s id ∧ ∃ k ∈ s.thread id, k ∉ s.joined

instance (s : State) (id : Nat) : Decidable (CanJoin s id) :=
  inferInstanceAs (Decidable (_ ∧ _))

/-- A step that keeps to one joiner for each thread; that starts no thread with an id that
`free_thread` has not yet cleared; in which `start_thread` does not fail after it has got an id,
nor a synchronous start because its thread cannot be created; and in which a thread calls
`thread_started` before `thread_stops`, and `thread_startup_done` in a synchronous start only. -/
def Orderly (s : State) : Label → Prop
  | .startThread id inStart synch created =>
    id ∉ s.clearing.map Prod.fst ∧ (created = false → inStart = false ∧ synch = false)
  | .synchDone _ inStart stop => inStart = true → stop = false
  | .startupDone id _ => s.synchStartup id = true
  | .threadStops id _ => s.started id = true
  | .joinThread id => CanJoin s id
  | .stopThreadWait id => CanJoin s id
  | .checkThreads => ∀ id ∈ s.firstStopped, NoCall s id
  | _ => True

instance : ∀ (s : State) (a : Label), Decidable (Orderly s a)
  | _, .startThread _ _ _ _ => inferInstanceAs (Decidable (_ ∧ _))
  | _, .synchDone _ _ _ => inferInstanceAs (Decidable (_ → _))
  | s, .startupDone id _ => inferInstanceAs (Decidable (s.synchStartup id = true))
  | s, .threadStops id _ => inferInstanceAs (Decidable (s.started id = true))
  | s, .joinThread id => inferInstanceAs (Decidable (CanJoin s id))
  | s, .stopThreadWait id => inferInstanceAs (Decidable (CanJoin s id))
  | s, .checkThreads => inferInstanceAs (Decidable (∀ id ∈ s.firstStopped, NoCall s id))
  | _, .getFreeThreadId _ => isTrue trivial
  | _, .freeThreadId _ => isTrue trivial
  | _, .threadStarted _ _ => isTrue trivial
  | _, .gThreadJoin _ _ => isTrue trivial
  | _, .removeStopped _ _ => isTrue trivial
  | _, .freeThread _ _ => isTrue trivial
  | _, .clearFlags _ _ => isTrue trivial
  | _, .freeAgain _ => isTrue trivial
  | _, .stopThreadJoin _ => isTrue trivial

end IClaustron.ThreadPool
