import IClaustron.Lib.Mutex
import IClaustron.Pcntrl.Table

/-!
# Pcntrl.Commands — the threads of the process controller

The commands start, stop/kill and list and the check thread, as threads that
share the process table. A thread is at one of the program points `Pc`, all of
them outside the sections that `pc_hash_mutex` protects, and `localStep` runs it
to its next one: one section, or one call made without the mutex (a liveness
check, a process start, a file operation). The outcome of each call is part of
the step.

A section is one step because nobody else gets at the table before it is over.
The calls of `ic_mutex_lock` and `ic_mutex_unlock` that a step makes are listed in
their order in `Out.locks`; a section that is left without an unlock is seen
there. The pid and the program name of an entry do not change once they are there,
so a liveness check made after a section uses what the section has read.
-/

namespace IClaustron.Pcntrl

open Lib DynArray

/-! ## Return codes -/

/-- IC_ERROR_PROCESS_NOT_ALIVE. -/
def errorProcessNotAlive : Nat := 7029
/-- IC_ERROR_CHECK_PROCESS_SCRIPT. -/
def errorCheckProcessScript : Nat := 7031
/-- IC_ERROR_PC_START_ALREADY_ONGOING. -/
def errorStartAlreadyOngoing : Nat := 7047
/-- IC_ERROR_PC_PROCESS_ALREADY_RUNNING. -/
def errorProcessAlreadyRunning : Nat := 7048
/-- IC_ERROR_PROCESS_STUCK_IN_START_PHASE. -/
def errorProcessStuckInStartPhase : Nat := 7049
/-- IC_ERROR_FAILED_TO_STOP_PROCESS. -/
def errorFailedToStopProcess : Nat := 7050
/-- IC_ERROR_PROCESS_ALREADY_BEING_KILLED. -/
def errorProcessAlreadyBeingKilled : Nat := 7096

/-! ## Program points and steps -/

/-- The search key of a list request: the parts that were given. -/
structure PcFind where
  gridName : Option Str
  clusterName : Option Str
  nodeName : Option Str
deriving DecidableEq

/-- Where a thread is. `p` is the object of a start command, `f` an entry that
was found in the table. -/
inductive Pc where
  /-- `handle_start` after `rec_start_message` -/
  | received (p : Ptr)
  /-- `insert_process`, label `try_again` -/
  | inserting (p : Ptr) (isDaemon : Bool) (prevStartId retryCount : Nat)
  /-- `insert_process`, before the liveness check of the entry it found -/
  | foundOld (p : Ptr) (isDaemon : Bool) (pid prevStartId retryCount : Nat)
  /-- `insert_process`, after the dead entry `f` was taken out -/
  | replaced (p : Ptr) (isDaemon : Bool) (f : Ptr) (ret : Nat)
  /-- `handle_start` after `insert_process`, before `ic_set_binary_dir` -/
  | booked (p : Ptr) (isDaemon : Bool)
  /-- `handle_start`, the files of a daemon process -/
  | daemonFiles (p : Ptr)
  /-- `handle_start`, before `ic_start_process` -/
  | launching (p : Ptr)
  /-- `handle_start`, before the liveness check of the new process -/
  | verifying (p : Ptr) (pid : Nat)
  /-- `handle_start`, before the pid is put into the entry -/
  | publishing (p : Ptr) (pid : Nat)
  /-- `handle_start`, label `late_error` -/
  | lateError (p : Ptr) (ret : Nat)
  /-- `handle_start`, label `error` -/
  | startError (p : Ptr) (ret : Nat)
  /-- `delete_process`, label `try_again` -/
  | deleting (key : Key) (killFlag : Bool) (loopCount : Nat)
  /-- `kill_process`, before `ic_kill_process` -/
  | killing (key : Key) (killFlag : Bool) (f : Ptr) (pid startId : Nat)
  /-- `kill_process`, label `retry_kill_check` -/
  | retryKillCheck (key : Key) (f : Ptr) (pid startId loopCount : Nat)
  /-- `kill_process`, the process is dead -/
  | killed (key : Key) (f : Ptr) (pid startId : Nat)
  /-- `kill_process`, label `error` -/
  | killError (f : Ptr) (ret : Nat)
  /-- `kill_process`, the entry is out of the table -/
  | killRemoved (f : Ptr)
  /-- `handle_list` after `rec_opt_key_message` -/
  | listing (find : PcFind) (listFull : Bool)
  /-- `run_check_thread`, before the mutex is taken; `f` is the entry whose check
  is over -/
  | scanning (checkTime : Nat) (f : Option Ptr)
  /-- `run_check_thread`, before the liveness check -/
  | checking (checkTime : Nat) (f : Ptr)
  /-- `run_check_thread`, the check returned an error -/
  | checkFailed (checkTime : Nat) (f : Ptr)
  /-- `run_check_thread`, the entry is out of the table -/
  | checkRemoved (checkTime : Nat) (f : Ptr)
  /-- the command has returned -/
  | returned (ret : Nat)
deriving DecidableEq

/-- The answers of `ic_is_process_alive`: 0, IC_ERROR_PROCESS_NOT_ALIVE and
IC_ERROR_CHECK_PROCESS_SCRIPT. -/
inductive Alive where
  | alive
  | notAlive
  | scriptError
deriving DecidableEq

def Alive.code : Alive → Nat
  | .alive => 0
  | .notAlive => errorProcessNotAlive
  | .scriptError => errorCheckProcessScript

/-- The outcomes of `ic_start_process`. -/
inductive Launch where
  /-- the program cannot be spawned -/
  | notSpawned (ret : Nat)
  /-- it was spawned as a daemon, but its pid file does not turn up -/
  | noPidFile (ret pid : Nat)
  | spawned (pid : Nat)
deriving DecidableEq

/-- One step of a thread, with the outcomes of the calls it makes. -/
inductive Act where
  /-- argument vector, certified program and node id: `none` when one of them
  fails, otherwise whether the process is a daemon -/
  | prepare (ret : Nat) (isDaemon : Option Bool)
  | insertProcess (failAt : Option Nat) (hash : HashInsert)
  /-- `ic_is_process_alive` -/
  | isAlive (answer : Alive)
  /-- `ic_mc_free` -/
  | free
  /-- a file, directory or memory operation returns this code -/
  | files (ret : Nat)
  /-- `ic_start_process`; `behind i` is the memory behind parameter number `i` -/
  | startProcess (l : Launch) (behind : Nat → Str)
  | publish
  | removeEntry
  | deleteProcess
  | kill
  | removeKilled
  | clearKill
  /-- the copy of entry number `i` succeeds -/
  | list (copyOk : Nat → Bool)
  /-- the check thread meets this entry next, or no further one; `wild`: the
  iterator has left the last bucket and found a word behind the table -/
  | scan (next : Option Ptr) (wild : Bool)

/-- What a step leaves: the next program point, the table, and the calls on
`pc_hash_mutex`. -/
structure Out where
  pc : Pc
  world : World
  locks : List LockOp

/-- A step without the mutex that leaves the table alone. -/
def Out.goto (w : World) (pc : Pc) : Out := ⟨pc, w, []⟩

/-- A complete section. -/
def Out.section (w : World) (pc : Pc) : Out := ⟨pc, w, [.lock, .unlock]⟩

/-! ## Start -/

/-- `insert_process` from `try_again` to the next point without the mutex. The
flags it looks at are those of its own object. -/
def insertProcess (w : World) (p : Ptr) (isDaemon : Bool) (prevStartId retryCount : Nat)
    (failAt : Option Nat) (hash : HashInsert) : Except Stop Out := do
  let c ← follow w p
  match hashSearch w c.key with
  | none =>
    let (w, ret) ← insertPcEntry w p failAt hash
    pure (.section w (if ret = 0 then .booked p isDaemon else .startError p ret))
  | some f =>
    let found ← follow w f
    if found.pid = 0 then pure (.section w (.startError p errorStartAlreadyOngoing))
    else if c.killOngoing ∨ c.checkOngoing then
      if retryCount + 1 > 10 then pure (.section w (.startError p errorProcessAlreadyRunning))
      else pure (.section w (.inserting p isDaemon prevStartId (retryCount + 1)))
    else if found.startId = prevStartId then
      let w ← removePcEntry w f
      let (w, ret) ← insertPcEntry w p failAt hash
      pure (.section w (.replaced p isDaemon f ret))
    else pure (.section w (.foundOld p isDaemon found.pid found.startId retryCount))

/-- The liveness check of `insert_process`. -/
def foundOldAlive (p : Ptr) (isDaemon : Bool) (prevStartId retryCount : Nat) : Alive → Pc
  | .alive => .startError p errorProcessAlreadyRunning
  | .notAlive => .inserting p isDaemon prevStartId retryCount
  | .scriptError => .startError p errorCheckProcessScript

/-- The first loop of `strip_leading_blanks`, from byte `i` on; so many blanks were
found already. -/
def skipBlanks : (fuel : Nat) → (buf : Str) → (i : Nat) → Str × Nat
  | 0, buf, i => (buf, i)
  | n + 1, buf, i =>
    if buf.getD i 0 = 32 then skipBlanks n (buf.set 0 (buf.getD (i + 1) 0)) (i + 1) else (buf, i)

/-- The second loop of `strip_leading_blanks`. -/
def moveDown (numBlanks : Nat) : (fuel : Nat) → (buf : Str) → (i : Nat) → Str
  | 0, buf, _ => buf
  | n + 1, buf, i =>
    if buf.getD i 0 = 0 then buf
    else moveDown numBlanks n (buf.set i (buf.getD (i + numBlanks) 0)) (i + 1)

/-- `strip_leading_blanks`, in place: the bytes of the string afterwards. With more
than one blank it reads behind the string. -/
def stripLeadingBlanks (s behind : Str) : Str :=
  let (buf, i) := skipBlanks (s.length + 1) (s ++ 0 :: behind) 0
  (moveDown i (s.length + 1) buf i).take s.length

/-- The arguments as `ic_start_process` leaves them. They are the parameters of the
entry, not copies. -/
def PcStart.stripped (c : PcStart) (behind : Nat → Str) : PcStart :=
  { c with parameters := c.parameters.mapIdx fun i s => stripLeadingBlanks s (behind i) }

/-- `ic_start_process` in `handle_start`. -/
def startProcess (w : World) (p : Ptr) (l : Launch) (behind : Nat → Str) : Except Stop Out := do
  let c ← follow w p
  let w := store w p (c.stripped behind)
  let spawn (pid : Nat) : World := { w with procs := w.procs ++ [⟨p, c.key, pid, true, false⟩] }
  match l with
  | .notSpawned ret => pure (.goto w (.lateError p ret))
  | .noPidFile ret pid => pure (.goto (spawn pid) (.lateError p ret))
  | .spawned pid => pure (.goto (spawn pid) (.verifying p pid))

/-- `handle_start`, the entry gets its pid and start id. -/
def publish (w : World) (p : Ptr) (pid : Nat) : Except Stop Out := do
  let c ← follow w p
  let w := store w p { c with pid := pid, startId := w.globStartId }
  pure (.section { w with globStartId := w.globStartId + 1 } (.returned 0))

/-! ## Stop and kill -/

/-- `delete_process` from `try_again` to the next point without the mutex, with
the beginning of `kill_process`. -/
def deleteProcess (w : World) (key : Key) (killFlag : Bool) (loopCount : Nat) : Except Stop Out := do
  match hashSearch w key with
  | none => pure (.section w (.returned 0))
  | some f =>
    let c ← follow w f
    if c.pid = 0 ∨ c.checkOngoing then
      if loopCount + 1 = 10 then pure (.section w (.returned errorProcessStuckInStartPhase))
      else pure (.section w (.deleting key killFlag (loopCount + 1)))
    else if c.killOngoing then
      -- `goto error` leaves with the mutex
      pure ⟨.returned errorProcessAlreadyBeingKilled, w, [.lock]⟩
    else
      let w := store w f { c with killOngoing := true }
      pure (.section w (.killing key killFlag f c.pid c.startId))

/-- `ic_kill_process`: the processes with this pid are marked; when they end is up
to them. -/
def killProcess (w : World) (pid : Nat) : World :=
  { w with procs := w.procs.map fun q => if q.pid = pid then { q with killed := true } else q }

/-- The liveness check of `kill_process`. -/
def killCheck (key : Key) (f : Ptr) (pid startId loopCount : Nat) : Alive → Pc
  | .alive =>
    if loopCount + 1 > 10 then .killError f errorFailedToStopProcess
    else .retryKillCheck key f pid startId (loopCount + 1)
  | .notAlive => .killed key f pid startId
  | .scriptError => .killError f errorCheckProcessScript

/-- `kill_process` after the process has died. -/
def removeKilled (w : World) (key : Key) (pid startId : Nat) : Except Stop Out := do
  match hashSearch w key with
  | none => throw .require
  | some f =>
    let c ← follow w f
    if c.pid = pid ∧ c.startId = startId then
      let w ← removePcEntry w f
      pure (.section w (.killRemoved f))
    else throw .require

/-- `kill_process`, label `error`. -/
def clearKill (w : World) (f : Ptr) (ret : Nat) : Except Stop Out := do
  let c ← follow w f
  pure (.section (store w f { c with killOngoing := false }) (.returned ret))

/-! ## List -/

/-- One part of the key in `is_list_match`; a part that was not given ends the
comparison. -/
def partMatch (find : Option Str) (name : Str) (rest : Bool) : Bool :=
  match find with
  | none => true
  | some s => if s ≠ name then false else rest

/-- `is_list_match`. -/
def isListMatch (c : PcStart) (find : PcFind) : Bool :=
  partMatch find.gridName c.key.gridName
    (partMatch find.clusterName c.key.clusterName
      (partMatch find.nodeName c.key.nodeName true))

/-- The loop of `handle_list` over the entries of the pointer array: an error
code, or copies of the entries that match. The entries are visited from `index`
on. -/
def listEntries (w : World) (find : PcFind) (copyOk : Nat → Bool) :
    (entries index : Nat) → Except Stop (Except Nat (List PcStart))
  | 0, _ => pure (.ok [])
  | n + 1, index =>
    match getPtr w.array index with
    | none => throw .array
    | some (ret, p) =>
      if ret ≠ 0 then pure (.error ret)
      else if p = 0 then listEntries w find copyOk n (index + 1)
      else do
        let c ← follow w p
        if isListMatch c find then
          if copyOk index then do
            let rest ← listEntries w find copyOk n (index + 1)
            pure (rest.map (c :: ·))
          else pure (.error errorMemAlloc)
        else listEntries w find copyOk n (index + 1)

/-- The section of `handle_list`. An error leaves with the mutex. -/
def listSection (w : World) (find : PcFind) (copyOk : Nat → Bool) : Except Stop Out := do
  match ← listEntries w find copyOk (getMaxIndex w.array) 0 with
  | .error ret => pure ⟨.returned ret, w, [.lock]⟩
  | .ok _ => pure (.section w (.returned 0))

/-! ## Check thread -/

/-- `run_check_thread` passes over an entry. -/
def skipsCheck (c : PcStart) (checkTime : Nat) : Bool := c.checkTime = checkTime || c.pid = 0

/-- The check of entry `f` is over; there is none when the entry was removed. -/
def clearCheck (w : World) : Option Ptr → Except Stop World
  | none => pure w
  | some f => do
    let c ← follow w f
    pure (store w f { c with checkOngoing := false })

/-- From the mutex to the next liveness check, or to the end of the round. The
rest of the table is walked over in between; `ic_hashtable_iterator_advance` may
stop the program there, which leaves nothing to say. -/
def scan (w : World) (checkTime : Nat) (f : Option Ptr) (next : Option Ptr) : Except Stop Out := do
  let w ← clearCheck w f
  match next with
  | none => pure (.section w (.scanning (checkTime + 30) none))
  | some g =>
    let c ← follow w g
    let w := store w g { c with checkOngoing := true, checkTime := checkTime }
    pure (.section w (.checking checkTime g))

/-- The scan stops at an entry of the table that is not passed over. -/
def isDue (w : World) (checkTime : Nat) (g : Ptr) : Bool :=
  w.hash.any (fun e => e.2 = g) &&
    match w.pcs.cells g with
    | none => true
    | some c => !skipsCheck c checkTime

/-! ## Threads -/

/-- One step of a thread; `none` when the thread is at another point. The entry
of a new process lies in memory, so the size of the array fits in 64 bits. -/
def localStep (w : World) : Pc → Act → Option (Except Stop Out)
  | .received p, .prepare ret none => some (.ok (.goto w (.startError p ret)))
  | .received p, .prepare _ (some isDaemon) => some (.ok (.goto w (.inserting p isDaemon 0 0)))
  | .inserting p isDaemon prevStartId retryCount, .insertProcess failAt hash =>
    if w.array.totalSizeInBytes + entrySize ≤ 2 ^ 64 then
      some (insertProcess w p isDaemon prevStartId retryCount failAt hash)
    else none
  | .foundOld p isDaemon _ prevStartId retryCount, .isAlive answer =>
    some (.ok (.goto w (foundOldAlive p isDaemon prevStartId retryCount answer)))
  | .replaced p isDaemon f ret, .free =>
    some do
      let w ← release w f
      pure (.goto w (if ret = 0 then .booked p isDaemon else .startError p ret))
  | .booked p isDaemon, .files ret =>
    some (.ok (.goto w
      (if ret ≠ 0 then .lateError p ret else if isDaemon then .daemonFiles p else .launching p)))
  | .daemonFiles p, .files ret =>
    -- `goto error`, past the removal at `late_error`
    some (.ok (.goto w (if ret ≠ 0 then .startError p ret else .launching p)))
  | .launching p, .startProcess l behind => some (startProcess w p l behind)
  | .verifying p pid, .isAlive answer =>
    some (.ok (.goto w
      (if answer = .alive then .publishing p pid else .lateError p answer.code)))
  | .publishing p pid, .publish => some (publish w p pid)
  | .lateError p ret, .removeEntry =>
    some do
      let w ← removePcEntry w p
      pure (.section w (.startError p ret))
  | .startError p ret, .free =>
    some do
      let w ← release w p
      pure (.goto w (.returned ret))
  | .deleting key killFlag loopCount, .deleteProcess => some (deleteProcess w key killFlag loopCount)
  | .killing key _ f pid startId, .kill =>
    some (.ok (.goto (killProcess w pid) (.retryKillCheck key f pid startId 0)))
  | .retryKillCheck key f pid startId loopCount, .isAlive answer =>
    some (.ok (.goto w (killCheck key f pid startId loopCount answer)))
  | .killed key _ pid startId, .removeKilled => some (removeKilled w key pid startId)
  | .killError f ret, .clearKill => some (clearKill w f ret)
  | .killRemoved f, .free =>
    some do
      let w ← release w f
      pure (.goto w (.returned 0))
  | .listing find _, .list copyOk => some (listSection w find copyOk)
  | .scanning _ _, .scan _ true => some (.error .wild)
  | .scanning checkTime f, .scan none false => some (scan w checkTime f none)
  | .scanning checkTime f, .scan (some g) false =>
    if isDue w checkTime g then some (scan w checkTime f (some g)) else none
  | .checking checkTime f, .isAlive answer =>
    some (.ok (.goto w
      (if answer = .alive then .scanning checkTime (some f) else .checkFailed checkTime f)))
  | .checkFailed checkTime f, .removeEntry =>
    some do
      let w ← removePcEntry w f
      pure (.section w (.checkRemoved checkTime f))
  | .checkRemoved checkTime f, .free =>
    some do
      let w ← release w f
      pure (.goto w (.scanning checkTime none))
  | _, _ => none

theorem localStep_insertProcess (w : World) (p : Ptr) (d : Bool) (prev retry : Nat)
    (failAt : Option Nat) (hash : HashInsert) :
    localStep w (.inserting p d prev retry) (.insertProcess failAt hash) =
      if w.array.totalSizeInBytes + entrySize ≤ 2 ^ 64 then
        some (insertProcess w p d prev retry failAt hash)
      else none :=
  rfl

theorem localStep_scan (w : World) (t : Nat) (f : Option Ptr) (g : Ptr) :
    localStep w (.scanning t f) (.scan (some g) false) =
      if isDue w t g then some (scan w t f (some g)) else none :=
  rfl

/-- The next step of the thread takes the mutex. -/
def Pc.usesMutex : Pc → Bool
  | .inserting .. | .publishing .. | .lateError .. | .deleting .. | .killed .. | .killError ..
  | .listing .. | .scanning .. | .checkFailed .. => true
  | _ => false

/-! ## The process controller -/

/-- All threads on one table. `mutex` is the thread that has left a section
without an unlock. -/
structure Sys where
  world : World
  threads : List Pc
  mutex : Option Nat
  stopped : Option Stop

inductive Label where
  /-- a start message has come in -/
  | start (m : StartMessage)
  | stop (key : Key) (killFlag : Bool)
  | list (find : PcFind) (listFull : Bool)
  | act (t : Nat) (a : Act)
  /-- a spawned process ends -/
  | exit (i : Nat)

def Sys.spawn (s : Sys) (pc : Pc) : Sys := { s with threads := s.threads ++ [pc] }

/-- One step of the program, or the end of a process. A new object lies in user
space. -/
def step (s : Sys) (l : Label) : Option Sys :=
  if s.stopped ≠ none then none
  else
    match l with
    | .start m =>
      let p := s.world.pcs.fresh
      if p < highestBitSet then
        let pcs := { s.world.pcs.set p m.toPcStart with fresh := p + 1 }
        some ({ s with world := { s.world with pcs := pcs } }.spawn (.received p))
      else none
    | .stop key killFlag => some (s.spawn (.deleting key killFlag 0))
    | .list find listFull => some (s.spawn (.listing find listFull))
    | .act t a => do
      let pc ← s.threads[t]?
      if pc.usesMutex ∧ s.mutex ≠ none then none
      else
        match ← localStep s.world pc a with
        | .error e => some { s with stopped := some e }
        | .ok out =>
          let mutex := if LockState.free.run out.locks = .free then s.mutex else some t
          some { s with world := out.world, threads := s.threads.set t out.pc, mutex := mutex }
    | .exit i => do
      let q ← s.world.procs[i]?
      let procs := s.world.procs.set i { q with alive := false }
      some { s with world := { s.world with procs := procs } }

/-- The process controller with an empty table; thread 0 is the check thread. -/
def start (array : DynamicArray) : Sys where
  world := ⟨⟨fun _ => none, 1⟩, [], array, 1, []⟩
  threads := [.scanning 0 none]
  mutex := none
  stopped := none

end IClaustron.Pcntrl
