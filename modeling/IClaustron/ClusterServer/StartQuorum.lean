import IClaustron.ClusterServer.StartThreads
import IClaustron.Lib.Run
import IClaustron.Lib.Threads

/-!
# ClusterServer.StartQuorum — the start needs a quorum

All start threads of a Cluster Server on one state, with the thread that accepts
connections (connect_server_thread), the one that starts them
(start_connect_cs_threads) and the threads that check the versions. A section is one
step. A thread that leaves a section with the mutex, or waits for a mutex it holds,
keeps everybody else from entering one.

* `SetsStarting` — the steps in which `cs_starting` is set;
* `StartOk` — at such a step the connected servers and this one are a quorum, and
  the view lists them in the order of their node ids;
* `SafeStart` — the condition: no thread that has waited begins a round with all
  start threads of four servers at work and one connection, and none begins its last
  round while a server with node id 255 is connected;
* `start_quorum_iff` — a run is `StartOk` at every step exactly if it is `SafeStart`.
-/

namespace IClaustron.ClusterServer.Start

open Lib List

/-! ## The first view -/

/-- The node ids that the first view should list. -/
def listedIds (s : RcState) : List Nat := s.my.nodeId :: (s.others.filter (·.conn)).map (·.nodeId)

/-- What the inner loop has found after some of the servers. -/
structure LowestOf (ids : List Nat) (minNodeId lowest result : Nat) : Prop where
  le : result ≤ lowest
  found : result = lowest ∨ (result ∈ ids ∧ minNodeId < result)
  least : ∀ id ∈ ids, minNodeId < id → result ≤ id

/-- One more server, which is taken or not. -/
theorem LowestOf.cons {ids : List Nat} {minNodeId lowest result : Nat} {info : InfoCs}
    (h : LowestOf ids minNodeId (lowerNodeId minNodeId lowest true info) result) :
    LowestOf (info.nodeId :: ids) minNodeId lowest result := by
  rcases h with ⟨hle, hfound, hleast⟩
  by_cases htake : minNodeId < info.nodeId ∧ info.nodeId < lowest
  · have hlow : lowerNodeId minNodeId lowest true info = info.nodeId :=
      if_pos ⟨htake.1, htake.2, rfl⟩
    rw [hlow] at hle hfound
    refine ⟨by omega, ?_, ?_⟩
    · rcases hfound with rfl | ⟨hmem, hlt⟩
      · exact .inr ⟨mem_cons_self, htake.1⟩
      · exact .inr ⟨mem_cons_of_mem _ hmem, hlt⟩
    · intro id hid hlt
      rcases mem_cons.mp hid with rfl | hmem
      · exact hle
      · exact hleast id hmem hlt
  · have hlow : lowerNodeId minNodeId lowest true info = lowest :=
      if_neg fun hno => htake ⟨hno.1, hno.2.1⟩
    rw [hlow] at hle hfound
    refine ⟨hle, ?_, ?_⟩
    · rcases hfound with heq | ⟨hmem, hlt⟩
      · exact .inl heq
      · exact .inr ⟨mem_cons_of_mem _ hmem, hlt⟩
    · intro id hid hlt
      rcases mem_cons.mp hid with rfl | hmem
      · exact Nat.le_trans hle (Nat.le_of_not_lt fun hlt' => htake ⟨hlt, hlt'⟩)
      · exact hleast id hmem hlt

theorem foldl_lowerNodeId (l : List InfoCs) (minNodeId lowest : Nat) :
    LowestOf ((l.filter (·.conn)).map (·.nodeId)) minNodeId lowest
      (l.foldl (fun lowest info => lowerNodeId minNodeId lowest info.conn info) lowest) := by
  induction l generalizing lowest with
  | nil => exact ⟨Nat.le_refl _, .inl rfl, fun id hid => absurd hid not_mem_nil⟩
  | cons info l ih =>
    rw [foldl_cons]
    by_cases hconn : info.conn = true
    · rw [filter_cons_of_pos hconn, map_cons, hconn]
      exact (ih _).cons
    · have hlow : lowerNodeId minNodeId lowest info.conn info = lowest :=
        if_neg fun hno => hconn hno.2.2
      rw [filter_cons_of_neg hconn, hlow]
      exact ih lowest

theorem lowestNodeId_spec (s : RcState) (minNodeId : Nat) :
    LowestOf (listedIds s) minNodeId maxNodeId (lowestNodeId s minNodeId) :=
  (foldl_lowerNodeId s.others minNodeId _).cons

/-- The rounds of the outer loop list what is above `minNodeId`, in order. -/
theorem initialView_sound (s : RcState) (n minNodeId : Nat) :
    (initialView s n minNodeId).Pairwise (· < ·) ∧
      ∀ id ∈ initialView s n minNodeId, id ∈ listedIds s ∧ minNodeId < id ∧ id < maxNodeId := by
  induction n generalizing minNodeId with
  | zero => exact ⟨List.Pairwise.nil, fun id hid => absurd hid not_mem_nil⟩
  | succ n ih =>
    unfold initialView
    rcases lowestNodeId_spec s minNodeId with ⟨hle, hfound, -⟩
    by_cases hmax : lowestNodeId s minNodeId = maxNodeId
    · rw [if_pos hmax]
      exact ⟨List.Pairwise.nil, fun id hid => absurd hid not_mem_nil⟩
    · rw [if_neg hmax]
      rcases ih (lowestNodeId s minNodeId) with ⟨hsorted, hall⟩
      rcases hfound with heq | ⟨hmem, hlt⟩
      · exact absurd heq hmax
      refine ⟨pairwise_cons.mpr ⟨fun id hid => (hall id hid).2.1, hsorted⟩, ?_⟩
      intro id hid
      rcases mem_cons.mp hid with rfl | hmem'
      · exact ⟨hmem, hlt, by omega⟩
      · exact ⟨(hall id hmem').1, by have hid' := (hall id hmem').2.1; omega, (hall id hmem').2.2⟩

/-- What is left for the outer loop. -/
def idsLeft (s : RcState) (minNodeId : Nat) : List Nat :=
  (listedIds s).filter fun id => minNodeId < id ∧ id < maxNodeId

/-- A round that takes an id leaves fewer. -/
theorem idsLeft_lt {s : RcState} {minNodeId lowest : Nat} (hmem : lowest ∈ listedIds s)
    (hmin : minNodeId < lowest) (hmax : lowest < maxNodeId) :
    (idsLeft s lowest).length < (idsLeft s minNodeId).length := by
  have hfilter : idsLeft s lowest = (idsLeft s minNodeId).filter fun id => lowest < id := by
    unfold idsLeft
    rw [filter_filter]
    apply filter_congr
    intro id _
    rw [Bool.eq_iff_iff, Bool.and_eq_true, decide_eq_true_eq, decide_eq_true_eq, decide_eq_true_eq]
    omega
  rw [hfilter, length_filter_lt_length_iff_exists]
  refine ⟨lowest, ?_, ?_⟩
  · exact mem_filter.mpr ⟨hmem, decide_eq_true ⟨hmin, hmax⟩⟩
  · exact fun hno => Nat.lt_irrefl _ (of_decide_eq_true hno)

/-- Enough rounds list everything. -/
theorem initialView_complete (s : RcState) (n minNodeId : Nat)
    (hn : (idsLeft s minNodeId).length ≤ n) (id : Nat) (hid : id ∈ idsLeft s minNodeId) :
    id ∈ initialView s n minNodeId := by
  induction n generalizing minNodeId with
  | zero =>
    rw [eq_nil_of_length_eq_zero (Nat.le_zero.mp hn)] at hid
    exact absurd hid not_mem_nil
  | succ n ih =>
    unfold initialView
    rcases lowestNodeId_spec s minNodeId with ⟨hle, hfound, hleast⟩
    have hid' : id ∈ listedIds s ∧ minNodeId < id ∧ id < maxNodeId := by
      simpa [idsLeft] using hid
    have hlow : lowestNodeId s minNodeId ≤ id := hleast id hid'.1 hid'.2.1
    have hne : lowestNodeId s minNodeId ≠ maxNodeId := by omega
    rw [if_neg hne]
    rcases Nat.eq_or_lt_of_le hlow with heq | hlt
    · exact heq ▸ mem_cons_self
    · -- the round takes the lowest id, so fewer are left
      apply mem_cons_of_mem
      rcases hfound with heq | ⟨hmem, hmin⟩
      · exact absurd heq hne
      apply ih
      · have hfewer := idsLeft_lt hmem hmin (Nat.lt_of_le_of_ne hle hne)
        omega
      · simpa [idsLeft] using ⟨hid'.1, hlt, hid'.2.2⟩

/-- The view of this server lists the connected servers and itself, each once and in
the order of their node ids. -/
structure ViewLists (s : RcState) : Prop where
  sorted : (s.my.masterIndexView.take s.my.masterIndexSize).Pairwise (· < ·)
  lists : ∀ id, id ∈ s.my.masterIndexView.take s.my.masterIndexSize ↔ id ∈ listedIds s

theorem listedIds_length_le (s : RcState) : (listedIds s).length ≤ s.numClusterServers := by
  unfold listedIds RcState.numClusterServers RcState.csServers
  rw [length_cons, length_cons, length_map]
  exact Nat.succ_le_succ (length_filter_le _ _)

/-- The view has all ids that are not 255. -/
theorem mem_initialView_iff (s : RcState) (hpos : ∀ id ∈ listedIds s, 0 < id) (id : Nat) :
    id ∈ initialView s s.numClusterServers 0 ↔ id ∈ listedIds s ∧ id < maxNodeId := by
  constructor
  · intro hid
    have hall := (initialView_sound s _ 0).2 id hid
    exact ⟨hall.1, hall.2.2⟩
  · rintro ⟨hid, hmax⟩
    apply initialView_complete
    · exact Nat.le_trans (length_filter_le _ _) (listedIds_length_le s)
    · exact mem_filter.mpr ⟨hid, decide_eq_true ⟨hpos id hid, hmax⟩⟩

/-- The view depends on the node ids and connections only. -/
theorem initialView_congr {s s' : RcState} (hid : s'.my.nodeId = s.my.nodeId)
    (hothers : s'.others = s.others) (n minNodeId : Nat) :
    initialView s' n minNodeId = initialView s n minNodeId := by
  have hlow : ∀ m, lowestNodeId s' m = lowestNodeId s m := by
    intro m
    unfold lowestNodeId lowerNodeId
    rw [hid, hothers]
  induction n generalizing minNodeId with
  | zero => rfl
  | succ n ih =>
    unfold initialView
    rw [hlow, ih]

/-! ## All threads -/

/-- The state, a program point for each start thread (`stopped` also before it is
created), and the threads that check the versions. `accepting`: the entry for which
`connect_server_thread` has accepted a connection. `mutexLost`: a thread has left a
section with the mutex. -/
structure Sys where
  rc : RcState
  threads : List Pc
  checks : List Pc
  accepting : Option Nat
  mutexLost : Bool
  aborted : Bool
deriving DecidableEq

inductive Label where
  /-- start thread `t` -/
  | thread (t : Nat) (a : Act)
  /-- a thread that checks the versions -/
  | check (i : Nat) (a : Act)
  /-- `start_connect_cs_threads`; it fails to create the thread `failAt` -/
  | startThreads (failAt : Option Nat)
  /-- `check_proper_connection` finds entry `t` -/
  | accept (t : Nat)
  /-- the rest of `connect_server_thread` for it -/
  | accepted (ok : Bool)
deriving DecidableEq

/-- The state after a thread has taken a step. -/
def Sys.after (s : Sys) (out : Out) : Sys :=
  { s with
    rc := out.rc
    mutexLost := s.mutexLost || LockState.free.run out.locks ≠ .free
    aborted := out.pc = .aborted }

/-- `start_connect_cs_threads`: the threads that are not active are created, in their
order. -/
def Sys.startThreads (s : Sys) (failAt : Option Nat) : Sys :=
  { s with
    rc := { s.rc with
      others := s.rc.others.mapIdx fun t info =>
        if failAt.all (t ≤ ·) then { info with isStartThreadActive := true } else info }
    threads := s.threads.mapIdx fun t pc =>
      if (s.rc.others[t]?).all (·.isStartThreadActive) then pc
      else if failAt.all (t < ·) then .created else pc }

def step (s : Sys) (l : Label) : Option Sys :=
  if s.aborted then none
  else
    match l with
    | .thread t a => do
      let pc ← s.threads[t]?
      let info ← s.rc.others[t]?
      let out ← startStep s.rc t info pc a
      if s.mutexLost ∧ out.locks ≠ [] then none
      else
        let s := { s.after out with threads := s.threads.set t out.pc }
        -- `check_if_cs_started` creates a thread of its own
        if pc = .checkIfStarted ∧ out.pc = .checkReset then
          some { s with checks := s.checks ++ [.checkCreated] }
        else some s
    | .check i a => do
      let pc ← s.checks[i]?
      let out ← checkStep s.rc pc a
      if s.mutexLost ∧ out.locks ≠ [] then none
      else some { s.after out with checks := s.checks.set i out.pc }
    | .startThreads failAt => if s.mutexLost then none else some (s.startThreads failAt)
    | .accept t => do
      let info ← s.rc.others[t]?
      if s.mutexLost ∨ s.accepting.isSome ∨ ¬ info.waitConnectServerThread then none
      else
        some { s with
          rc := s.rc.modifyInfo t
            ({ · with conn := true, waitConnectServerThread := false, isClientSide := false })
          accepting := some t }
    | .accepted ok => do
      let t ← s.accepting
      if ok then
        if s.mutexLost then none
        else some { s with
          rc := s.rc.modifyInfo t ({ · with conn := true })
          accepting := none }
      else some { s with accepting := none }

/-- The Cluster Servers of a grid, seen from one of them. -/
structure Cluster where
  myId : Nat
  otherIds : List Nat
  /-- two to four servers -/
  count : 1 ≤ otherIds.length ∧ otherIds.length ≤ 3
  nodup : (myId :: otherIds).Nodup
  valid : ∀ id ∈ myId :: otherIds, 0 < id ∧ id ≤ maxNodeId

/-- A server before its first connection, with the version it has on disk. -/
def freshInfo (nodeId version state : Nat) : InfoCs :=
  ⟨nodeId, false, false, false, false, false, version, state, 0, [0, 0, 0, 0]⟩

def start (c : Cluster) (version state : Nat) : Sys where
  rc := ⟨freshInfo c.myId version state, c.otherIds.map (freshInfo · 0 0), 0, false, false, 0, none⟩
  threads := c.otherIds.map fun _ => .stopped
  checks := []
  accepting := none
  mutexLost := false
  aborted := false

/-! ## What the start needs -/

/-- The value of `have_waited` with which the thread at `pc` begins a round of
`wait_for_enough_connections`. -/
def Pc.haveWaited : Pc → Option Bool
  | .connected => some false
  | .waitConnections haveWaited => some haveWaited
  | _ => none

/-- In this step a thread sets `cs_starting`. -/
def SetsStarting (s : Sys) : Label → Prop
  | .thread t (.wake stop stop') => ∃ pc haveWaited, s.threads[t]? = some pc ∧
      pc.haveWaited = some haveWaited ∧ connectionsRound s.rc haveWaited stop = .proceed ∧
      stop' = false ∧ s.rc.csStarted = false
  | _ => False

/-- Two of two, two of three, three of four. -/
def quorum (numServers : Nat) : Nat := numServers / 2 + 1

/-- `cs_starting` is set with a quorum connected, and then the view is right. -/
def StartOk (s : Sys) (l : Label) : Prop :=
  ∀ s', step s l = some s' →
    (SetsStarting s l →
      quorum s'.rc.numClusterServers ≤ getCountConnectedClusterServers s'.rc + 1 ∧
      s'.aborted = false ∧ ViewLists s'.rc) ∧
    (s.rc.csStarting = false → s'.rc.csStarting = true → SetsStarting s l)

/-- All servers are connected, or the thread has waited and all start threads of three or
four servers are at work. -/
def Complete (s : RcState) (haveWaited : Bool) : Prop :=
  getCountConnectedClusterServers s + 1 = s.numClusterServers ∨
    (haveWaited = true ∧ getCountActiveStartThreads s + 1 = s.numClusterServers ∧
      2 < s.numClusterServers)

/-- A thread that has waited begins its round with all start threads of four servers at work
and one server connected. -/
def WaitedForOne (s : RcState) (haveWaited : Bool) : Prop :=
  haveWaited = true ∧ s.numClusterServers = 4 ∧ getCountActiveStartThreads s = 3 ∧
    getCountConnectedClusterServers s = 1

/-- Before the server is started and without a stop flag no thread begins such a round, and
none a complete one while this server or a connected one has the node id 255. -/
def SafeStart (s : Sys) : Label → Prop
  | .thread t (.wake false false) => ∀ pc haveWaited, s.threads[t]? = some pc →
      pc.haveWaited = some haveWaited → s.rc.csStarted = false →
      ¬WaitedForOne s.rc haveWaited ∧ (Complete s.rc haveWaited → maxNodeId ∉ listedIds s.rc)
  | _ => True

/-! ## What a step changes -/

/-- A step of the thread for entry `t` changes nobody's node id, no other entry, and of
this server only versions and view. -/
structure Frame (t : Nat) (s s' : RcState) (f : InfoCs → InfoCs) : Prop where
  my_id : s'.my.nodeId = s.my.nodeId
  my_conn : s'.my.conn = s.my.conn
  my_active : s'.my.isStartThreadActive = s.my.isStartThreadActive
  keeps_id : ∀ info, (f info).nodeId = info.nodeId
  others : s'.others = s.others.modify t f

theorem Frame.refl (t : Nat) (s : RcState) : Frame t s s id :=
  ⟨rfl, rfl, rfl, fun _ => rfl, (modify_id t s.others).symm⟩

variable {f : InfoCs → InfoCs} {a : Act}

theorem Frame.modifyInfo (t : Nat) (s : RcState) (hf : ∀ info, (f info).nodeId = info.nodeId) :
    Frame t s (s.modifyInfo t f) f :=
  ⟨rfl, rfl, rfl, hf, rfl⟩

/-- How a round of `wait_for_enough_connections` ends. -/
theorem waitForEnoughConnections_cases (s : RcState) (haveWaited stop stop' : Bool) :
    (¬ (connectionsRound s haveWaited stop = .proceed ∧ stop' = false ∧ s.csStarted = false) ∧
      (waitForEnoughConnections s haveWaited stop stop').rc = s ∧
      (waitForEnoughConnections s haveWaited stop stop').pc ≠ .aborted) ∨
    ((connectionsRound s haveWaited stop = .proceed ∧ stop' = false ∧ s.csStarted = false) ∧
      (waitForEnoughConnections s haveWaited stop stop').pc.haveWaited = none ∧
      ((setStarting s = none ∧
          waitForEnoughConnections s haveWaited stop stop' =
            ⟨.aborted, { s with csStarting := true }, [.lock]⟩) ∨
        ∃ s' ready, setStarting s = some s' ∧
          (waitForEnoughConnections s haveWaited stop stop').rc =
            { s' with threadsReadyConnected := ready } ∧
          (waitForEnoughConnections s haveWaited stop stop').pc ≠ .aborted)) := by
  unfold waitForEnoughConnections
  rcases hround : connectionsRound s haveWaited stop with _ | _ | haveWaited'
  · exact .inl ⟨fun hno => Round.noConfusion hno.1, rfl, Pc.noConfusion⟩
  · dsimp only
    unfold quorumReached
    by_cases hstop : stop' = true
    · rw [if_pos hstop]
      refine .inl ⟨fun hno => ?_, rfl, Pc.noConfusion⟩
      rw [hstop] at hno
      cases hno.2.1
    rw [if_neg hstop]
    by_cases hstarted : s.csStarted = true
    · rw [if_pos hstarted]
      refine .inl ⟨fun hno => ?_, rfl, Pc.noConfusion⟩
      rw [hstarted] at hno
      cases hno.2.2
    rw [if_neg hstarted]
    refine .inr ⟨⟨rfl, Bool.eq_false_iff.mpr hstop, Bool.eq_false_iff.mpr hstarted⟩, ?_⟩
    cases hset : setStarting s with
    | none => exact ⟨rfl, .inl ⟨rfl, rfl⟩⟩
    | some s₁ =>
      dsimp only
      split_ifs
      · exact ⟨rfl, .inr ⟨s₁, 0, rfl, rfl, Pc.noConfusion⟩⟩
      · exact ⟨rfl, .inr ⟨s₁, s₁.threadsReadyConnected, rfl, rfl, Pc.noConfusion⟩⟩
      · exact ⟨rfl, .inr ⟨s₁, s₁.threadsReadyConnected, rfl, rfl, Pc.noConfusion⟩⟩
  · exact .inl ⟨fun hno => Round.noConfusion hno.1, rfl, Pc.noConfusion⟩

/-- The state with the flag and the view. -/
def startingState (s : RcState) : RcState :=
  { s with
    csStarting := true
    threadsReadyConnected := s.threadsReadyConnected + 1
    my := { s.my with
      masterIndexView := initialView s s.numClusterServers 0 ++
        s.my.masterIndexView.drop (initialView s s.numClusterServers 0).length
      masterIndexSize := (initialView s s.numClusterServers 0).length } }

theorem setStarting_eq (s : RcState) :
    setStarting s =
      if 1 < (initialView s s.numClusterServers 0).length then some (startingState s) else none := by
  have hview : initialView
      { s with csStarting := true, threadsReadyConnected := s.threadsReadyConnected + 1 }
      s.numClusterServers 0 = initialView s s.numClusterServers 0 :=
    initialView_congr (by rfl) (by rfl) _ _
  unfold setStarting setUpInitialMasterIndexView startingState
  rw [← hview]
  rfl

theorem setStarting_eq_some {s s' : RcState} (h : setStarting s = some s') :
    1 < (initialView s s.numClusterServers 0).length ∧ s' = startingState s := by
  rw [setStarting_eq] at h
  split_ifs at h with hlen
  exact ⟨hlen, (Option.some.inj h).symm⟩

theorem setStarting_eq_none {s : RcState} (h : setStarting s = none) :
    (initialView s s.numClusterServers 0).length ≤ 1 := by
  rw [setStarting_eq] at h
  split_ifs at h with hlen
  exact Nat.le_of_not_lt hlen

theorem waitForEnoughConnections_frame (s : RcState) (t : Nat) (haveWaited stop stop' : Bool) :
    Frame t s (waitForEnoughConnections s haveWaited stop stop').rc id := by
  rcases waitForEnoughConnections_cases s haveWaited stop stop' with
    ⟨-, hrc, -⟩ | ⟨-, -, ⟨-, hout⟩ | ⟨s', ready, hset, hrc, -⟩⟩
  · rw [hrc]
    exact Frame.refl t s
  · rw [hout]
    exact ⟨rfl, rfl, rfl, fun _ => rfl, (modify_id t s.others).symm⟩
  · rw [hrc, (setStarting_eq_some hset).2]
    exact ⟨rfl, rfl, rfl, fun _ => rfl, (modify_id t s.others).symm⟩

/-- A thread keeps to its entry, and comes to `wait_for_enough_connections` only with a
connection. -/
def KeepsToEntry (s : RcState) (t : Nat) (info : InfoCs) (pc : Pc) (out : Out) : Prop :=
  ∃ f, Frame t s out.rc f ∧
    (out.pc.haveWaited ≠ none → (pc.haveWaited ≠ none → info.conn = true) → (f info).conn = true)

section Entry

variable {s : RcState} {t : Nat} {info : InfoCs} {pc : Pc} {out : Out}

theorem keepsToEntry_of_elsewhere (hframe : Frame t s out.rc f) (hpc : out.pc.haveWaited = none) :
    KeepsToEntry s t info pc out :=
  ⟨f, hframe, fun hno => absurd hpc hno⟩

theorem keepsToEntry_of_conn (hframe : Frame t s out.rc id) (hconn : info.conn = true) :
    KeepsToEntry s t info pc out := ⟨id, hframe, fun _ _ => hconn⟩

theorem getCsConnection_keepsToEntry (stop ok : Bool) :
    KeepsToEntry s t info pc (getCsConnection s t info stop ok) := by
  unfold getCsConnection serverConnect
  split_ifs with hstop hclient hok hconn
  · exact keepsToEntry_of_elsewhere (Frame.refl t s) rfl
  · exact ⟨_, Frame.modifyInfo t s fun _ => rfl, fun _ _ => rfl⟩
  · exact keepsToEntry_of_elsewhere (Frame.refl t s) rfl
  · exact keepsToEntry_of_conn (Frame.refl t s) hconn
  · exact keepsToEntry_of_elsewhere (Frame.modifyInfo t s fun _ => rfl) rfl

theorem startedRound_frame : (startedRound s).rc = s ∧ (startedRound s).pc.haveWaited = none := by
  unfold startedRound
  split_ifs
  · exact ⟨rfl, rfl⟩
  · exact ⟨rfl, rfl⟩
  · exact ⟨rfl, rfl⟩
  · exact ⟨rfl, rfl⟩

theorem startedRound_keepsToEntry : KeepsToEntry s t info pc (startedRound s) := by
  apply keepsToEntry_of_elsewhere (f := id) _ startedRound_frame.2
  rw [startedRound_frame.1]
  exact Frame.refl t s

theorem Heartbeat.apply_nodeId (h : Heartbeat) (info : InfoCs) :
    (h.apply info).nodeId = info.nodeId := by
  rcases h with _ | _ | ok | ok
  · rfl
  · rfl
  all_goals cases ok <;> rfl

theorem checkAfterHeartbeat_keepsToEntry (h : Heartbeat) :
    KeepsToEntry s t info pc (checkAfterHeartbeat s t h) := by
  unfold checkAfterHeartbeat
  dsimp only
  split_ifs
  · exact keepsToEntry_of_elsewhere (f := h.apply) ⟨rfl, rfl, rfl, h.apply_nodeId, rfl⟩ rfl
  · split
    · exact keepsToEntry_of_elsewhere (Frame.modifyInfo t s h.apply_nodeId) rfl
    · exact keepsToEntry_of_elsewhere (Frame.modifyInfo t s h.apply_nodeId) rfl

theorem releaseCsConnection_keepsToEntry : KeepsToEntry s t info pc (releaseCsConnection s t) := by
  apply keepsToEntry_of_elsewhere (f := ({ · with isStartThreadActive := false, conn := false }))
  · unfold releaseCsConnection
    dsimp only
    split_ifs
    · exact ⟨rfl, rfl, rfl, fun _ => rfl, rfl⟩
    · exact ⟨rfl, rfl, rfl, fun _ => rfl, rfl⟩
  · rfl

theorem startStep_keepsToEntry (h : startStep s t info pc a = some out) :
    KeepsToEntry s t info pc out := by
  cases pc with
  | connected | waitConnections haveWaited =>
    cases a <;> cases h
    exact ⟨id, waitForEnoughConnections_frame s t _ _ _, fun _ hconn => hconn (Option.some_ne_none _)⟩
  | created =>
    cases a with
    | startup ok =>
      cases h
      cases ok <;> exact keepsToEntry_of_elsewhere (Frame.refl t s) rfl
    | _ => cases h
  | connecting =>
    cases a <;> cases h
    exact getCsConnection_keepsToEntry _ _
  | waitServer =>
    cases a with
    | go =>
      cases h
      by_cases hconn : info.conn = true
      · exact keepsToEntry_of_conn (Frame.refl t s) hconn
      · apply keepsToEntry_of_elsewhere (Frame.refl t s)
        unfold Out.section
        rw [if_neg hconn]
        rfl
    | _ => cases h
  | checkQuorum =>
    cases a with
    | wake stop stop' =>
      cases h
      unfold checkQuorumReached
      split_ifs <;> exact keepsToEntry_of_elsewhere (Frame.refl t s) rfl
    | _ => cases h
  | waitReady =>
    cases a with
    | wake stop stop' =>
      cases h
      unfold waitForReady
      split_ifs <;> exact keepsToEntry_of_elsewhere (Frame.refl t s) rfl
    | _ => cases h
  | startProtocol =>
    cases a with
    | protocol ok version state view =>
      cases h
      apply keepsToEntry_of_elsewhere
        (f := ({ · with configVersionNumber := version, state := state }))
      · exact ⟨rfl, rfl, rfl, fun _ => rfl, rfl⟩
      · cases ok <;> rfl
    | _ => cases h
  | firstHeartbeat | startedHeartbeat | heartbeats =>
    cases a with
    | heartbeat beat stop =>
      cases h
      apply keepsToEntry_of_elsewhere (Frame.modifyInfo t s beat.apply_nodeId)
      dsimp only
      split_ifs <;> rfl
    | _ => cases h
  | startedNodes =>
    cases a with
    | go =>
      cases h
      unfold waitForEnoughStartedNodes
      split_ifs
      · exact keepsToEntry_of_elsewhere (Frame.refl t s) rfl
      · exact startedRound_keepsToEntry
    | _ => cases h
  | waitStarted =>
    cases a with
    | wake stop stop' =>
      cases h
      cases stop <;> exact keepsToEntry_of_elsewhere (Frame.refl t s) rfl
    | _ => cases h
  | startedLoop =>
    cases a <;> cases h
    exact startedRound_keepsToEntry
  | checkIfStarted =>
    cases a with
    | startThread ret =>
      cases h
      apply keepsToEntry_of_elsewhere (Frame.refl t s)
      unfold Out.goto
      dsimp only
      split_ifs <;> rfl
    | _ => cases h
  | checkReset =>
    cases a <;> cases h
    exact keepsToEntry_of_elsewhere (f := id)
      ⟨rfl, rfl, rfl, fun _ => rfl, (modify_id t s.others).symm⟩ rfl
  | waitCheck =>
    cases a with
    | go =>
      cases h
      unfold checkWaited
      split <;> exact keepsToEntry_of_elsewhere (Frame.refl t s) rfl
    | _ => cases h
  | checkHeartbeat =>
    cases a <;> cases h
    exact checkAfterHeartbeat_keepsToEntry _
  | checkReturned ret =>
    cases a with
    | go =>
      unfold startStep at h
      dsimp only at h
      split_ifs at h
      · cases h
        exact keepsToEntry_of_elsewhere (Frame.refl t s) rfl
      · cases h
        exact keepsToEntry_of_elsewhere (Frame.refl t s) rfl
    | _ => cases h
  | release =>
    cases a <;> cases h
    exact releaseCsConnection_keepsToEntry
  | earlyEnd =>
    cases a <;> cases h
    exact keepsToEntry_of_elsewhere (f := ({ · with isStartThreadActive := false }))
      ⟨rfl, rfl, rfl, fun _ => rfl, rfl⟩ rfl
  | _ => cases a <;> cases h

/-- Nobody else sets `cs_starting`. -/
theorem startStep_csStarting (h : startStep s t info pc a = some out) (hpc : pc.haveWaited = none)
    (hset : out.rc.csStarting = true) : s.csStarting = true := by
  cases pc with
  | connected | waitConnections haveWaited => cases hpc
  | connecting =>
    cases a <;> cases h
    unfold getCsConnection serverConnect at hset
    split_ifs at hset <;> exact hset
  | checkQuorum =>
    cases a <;> cases h
    unfold checkQuorumReached at hset
    split_ifs at hset <;> exact hset
  | waitReady =>
    cases a <;> cases h
    unfold waitForReady at hset
    split_ifs at hset <;> exact hset
  | startedNodes =>
    cases a <;> cases h
    unfold waitForEnoughStartedNodes at hset
    split_ifs at hset
    · exact hset
    · rw [startedRound_frame.1] at hset
      exact hset
  | startedLoop =>
    cases a <;> cases h
    rw [startedRound_frame.1] at hset
    exact hset
  | waitCheck =>
    cases a <;> cases h
    unfold checkWaited at hset
    split at hset <;> exact hset
  | checkHeartbeat =>
    cases a <;> cases h
    unfold checkAfterHeartbeat at hset
    dsimp only at hset
    split_ifs at hset
    · exact hset
    · split at hset <;> exact hset
  | checkReturned ret =>
    cases a with
    | go =>
      unfold startStep at h
      dsimp only at h
      split_ifs at h <;> cases h <;> exact hset
    | _ => cases h
  | release =>
    cases a <;> cases h
    unfold releaseCsConnection at hset
    dsimp only at hset
    split_ifs at hset
    · cases hset
    · exact hset
  | created | waitServer | startProtocol | firstHeartbeat | waitStarted | startedHeartbeat
  | checkIfStarted | checkReset | heartbeats | earlyEnd =>
    cases a <;> cases h
    exact hset
  | _ => cases a <;> cases h

end Entry

/-- The thread that checks the versions changes only the version of this server. -/
theorem checkStep_frame {s : RcState} {pc : Pc} {out : Out} (h : checkStep s pc a = some out)
    (t : Nat) : Frame t s out.rc id ∧ (out.rc.csStarting = true → s.csStarting = true) := by
  have hsame : Frame t s s id := Frame.refl t s
  have hset : ∀ version state, Frame t s (s.setMyVersion version state) id := fun _ _ =>
    ⟨rfl, rfl, rfl, fun _ => rfl, (modify_id t s.others).symm⟩
  have hfirst : Frame t s s.writeFirstVersion id ∧
      (s.writeFirstVersion.csStarting = true → s.csStarting = true) := by
    unfold RcState.writeFirstVersion
    split_ifs
    · exact ⟨⟨rfl, rfl, rfl, fun _ => rfl, (modify_id t s.others).symm⟩, id⟩
    · exact ⟨hsame, id⟩
  cases pc with
  | beginning =>
    cases a <;> cases h
    rw [checkVersions_rc]
    exact ⟨hsame, id⟩
  | removeOld version apic =>
    cases a <;> cases h
    unfold removeOldConfig
    split_ifs <;> exact ⟨hsame, id⟩
  | checkCreated | fetch version =>
    cases a <;> cases h
    exact ⟨hsame, id⟩
  | inSynch =>
    cases a <;> cases h
    exact ⟨⟨rfl, rfl, rfl, fun _ => rfl, (modify_id t s.others).symm⟩, nofun⟩
  | failed ret =>
    cases a <;> cases h
    exact ⟨⟨rfl, rfl, rfl, fun _ => rfl, (modify_id t s.others).symm⟩, id⟩
  | rollBack version | commit =>
    cases a with
    | writeVersion ret =>
      unfold checkStep at h
      dsimp only at h
      split_ifs at h <;> cases h
      · exact ⟨hsame, id⟩
      · exact ⟨hset _ _, id⟩
    | _ => cases h
  | reread =>
    cases a with
    | reread ret inLoad loaded =>
      unfold checkStep at h
      dsimp only at h
      split_ifs at h <;> cases h
      · exact ⟨hsame, id⟩
      · exact hfirst
      · exact ⟨hsame, id⟩
      · exact hfirst
    | _ => cases h
  | writeConfig version apic =>
    cases a with
    | writeConfig ret =>
      unfold checkStep at h
      dsimp only at h
      split_ifs at h <;> cases h
      · exact ⟨hsame, id⟩
      · exact ⟨hset _ _, id⟩
      · exact ⟨hsame, id⟩
    | _ => cases h
  | _ => cases a <;> cases h

/-! ## Invariant -/

theorem map_modify_same {α β : Type} {g : α → β} {f : α → α} (hf : ∀ a, g (f a) = g a)
    (l : List α) (t : Nat) : (l.modify t f).map g = l.map g := by
  induction l generalizing t with
  | nil => rw [modify_nil]
  | cons a l ih =>
    cases t with
    | zero => exact congrArg (· :: l.map g) (hf a)
    | succ t => exact congrArg (g a :: ·) (ih t)

/-- This server is not connected to itself, the node ids are those of the grid, and a
thread in `wait_for_enough_connections` has its connection. -/
structure QuorumInv (c : Cluster) (s : Sys) : Prop where
  my_conn : s.rc.my.conn = false
  my_active : s.rc.my.isStartThreadActive = false
  my_id : s.rc.my.nodeId = c.myId
  other_ids : s.rc.others.map (·.nodeId) = c.otherIds
  connected : ∀ (t : Nat) pc info, s.threads[t]? = some pc → pc.haveWaited ≠ none →
    s.rc.others[t]? = some info → info.conn = true

variable {c : Cluster} {s s' : Sys}

/-- Only entry `t` and the program point of its thread have changed. -/
theorem QuorumInv.of_frame (h : QuorumInv c s) {t : Nat} (hframe : Frame t s.rc s'.rc f)
    (hothers : ∀ u pc, u ≠ t → s'.threads[u]? = some pc → s.threads[u]? = some pc)
    (hown : ∀ pc info, s'.threads[t]? = some pc → pc.haveWaited ≠ none →
      s.rc.others[t]? = some info → (f info).conn = true) : QuorumInv c s' := by
  refine ⟨?_, ?_, ?_, ?_, ?_⟩
  · rw [hframe.my_conn, h.my_conn]
  · rw [hframe.my_active, h.my_active]
  · rw [hframe.my_id, h.my_id]
  · rw [hframe.others, map_modify_same hframe.keeps_id, h.other_ids]
  · intro u pc info hpc hwaits hinfo
    rw [hframe.others] at hinfo
    by_cases hu : u = t
    · subst hu
      rw [getElem?_modify_eq] at hinfo
      rcases Option.map_eq_some_iff.mp hinfo with ⟨info', hinfo', rfl⟩
      exact hown pc info' hpc hwaits hinfo'
    · rw [getElem?_modify_ne _ _ (Ne.symm hu)] at hinfo
      exact h.connected u pc info (hothers u pc hu hpc) hwaits hinfo

/-- Only this server or nobody's entry has changed. -/
theorem QuorumInv.of_frame_id (h : QuorumInv c s) (hframe : Frame 0 s.rc s'.rc id)
    (hthreads : s'.threads = s.threads) : QuorumInv c s' := by
  apply h.of_frame hframe
  · intro u pc _ hpc
    rw [← hthreads]
    exact hpc
  · intro pc info hpc hwaits hinfo
    rw [hthreads] at hpc
    exact h.connected 0 pc info hpc hwaits hinfo

/-- What a step of a start thread is. -/
theorem step_thread {t : Nat} (h : step s (.thread t a) = some s') :
    ∃ pc info out, s.threads[t]? = some pc ∧ s.rc.others[t]? = some info ∧
      startStep s.rc t info pc a = some out ∧ s'.rc = out.rc ∧
      s'.threads = s.threads.set t out.pc ∧ s'.aborted = decide (out.pc = .aborted) := by
  unfold step at h
  by_cases habort : s.aborted = true
  · rw [if_pos habort] at h
    cases h
  rw [if_neg habort] at h
  dsimp only at h
  rcases Option.bind_eq_some_iff.mp h with ⟨pc, hpc, h⟩
  rcases Option.bind_eq_some_iff.mp h with ⟨info, hinfo, h⟩
  rcases Option.bind_eq_some_iff.mp h with ⟨out, hout, h⟩
  refine ⟨pc, info, out, hpc, hinfo, hout, ?_⟩
  split_ifs at h <;> cases h <;> exact ⟨rfl, rfl, rfl⟩

theorem step_check {i : Nat} (h : step s (.check i a) = some s') :
    ∃ pc out, checkStep s.rc pc a = some out ∧ s'.rc = out.rc ∧ s'.threads = s.threads := by
  unfold step at h
  by_cases habort : s.aborted = true
  · rw [if_pos habort] at h
    cases h
  rw [if_neg habort] at h
  dsimp only at h
  rcases Option.bind_eq_some_iff.mp h with ⟨pc, -, h⟩
  rcases Option.bind_eq_some_iff.mp h with ⟨out, hout, h⟩
  split_ifs at h
  cases h
  exact ⟨pc, out, hout, rfl, rfl⟩

variable {l : Label} {haveWaited : Bool}

/-- The thread that accepts connections sets that of one entry. -/
theorem step_accept (hl : (∃ t, l = .accept t) ∨ ∃ ok, l = .accepted ok) (h : step s l = some s') :
    s'.threads = s.threads ∧ s'.rc.csStarting = s.rc.csStarting ∧
      ∃ t f, Frame t s.rc s'.rc f ∧ ∀ info, (f info).conn = true ∨ f info = info := by
  unfold step at h
  by_cases habort : s.aborted = true
  · rw [if_pos habort] at h
    cases h
  rw [if_neg habort] at h
  rcases hl with ⟨t, rfl⟩ | ⟨ok, rfl⟩
  · dsimp only at h
    rcases Option.bind_eq_some_iff.mp h with ⟨info, -, h⟩
    split_ifs at h
    cases h
    exact ⟨rfl, rfl, t, _, Frame.modifyInfo t s.rc fun _ => rfl, fun _ => .inl rfl⟩
  · dsimp only at h
    rcases Option.bind_eq_some_iff.mp h with ⟨t, -, h⟩
    split_ifs at h
    · cases h
      exact ⟨rfl, rfl, t, _, Frame.modifyInfo t s.rc fun _ => rfl, fun _ => .inl rfl⟩
    · cases h
      exact ⟨rfl, rfl, t, id, Frame.refl t s.rc, fun _ => .inr rfl⟩

/-- The threads that are created begin at `created`, and no connection changes. -/
theorem QuorumInv.startThreads (h : QuorumInv c s) (failAt : Option Nat) :
    QuorumInv c (s.startThreads failAt) := by
  have hinfo : ∀ (t : Nat) (info : InfoCs), (s.startThreads failAt).rc.others[t]? = some info →
      ∃ old, s.rc.others[t]? = some old ∧ old.conn = info.conn := by
    intro t info hget
    unfold Sys.startThreads at hget
    rw [getElem?_mapIdx] at hget
    rcases Option.map_eq_some_iff.mp hget with ⟨old, hold, rfl⟩
    refine ⟨old, hold, ?_⟩
    split_ifs <;> rfl
  refine ⟨h.my_conn, h.my_active, h.my_id, ?_, ?_⟩
  · rw [← h.other_ids]
    unfold Sys.startThreads
    apply ext_getElem?
    intro t
    rw [getElem?_map, getElem?_mapIdx, getElem?_map]
    cases s.rc.others[t]? with
    | none => rfl
    | some info =>
      dsimp only [Option.map_some]
      split_ifs <;> rfl
  · intro t pc info hpc hwaits hget
    rcases hinfo t info hget with ⟨old, hold, hconn⟩
    rw [← hconn]
    unfold Sys.startThreads at hpc
    rw [getElem?_mapIdx] at hpc
    rcases Option.map_eq_some_iff.mp hpc with ⟨pc', hpc', rfl⟩
    split_ifs at hwaits
    · exact h.connected t pc' old hpc' hwaits hold
    · exact absurd rfl hwaits
    · exact h.connected t pc' old hpc' hwaits hold

theorem step_quorumInv (c : Cluster) (s : Sys) (l : Label) (s' : Sys) (h : step s l = some s')
    (hinv : QuorumInv c s) : QuorumInv c s' := by
  cases l with
  | thread t a =>
    rcases step_thread h with ⟨pc, info, out, hpc, hinfo, hout, hrc, hthreads, -⟩
    rcases startStep_keepsToEntry hout with ⟨f, hframe, hconn⟩
    rw [← hrc] at hframe
    have hlt : t < s.threads.length := (List.getElem?_eq_some_iff.mp hpc).1
    apply hinv.of_frame hframe
    · intro u pc' hu hget
      rw [hthreads, List.getElem?_set_ne (Ne.symm hu)] at hget
      exact hget
    · intro pc' info' hget hwaits hinfo'
      rw [hthreads, List.getElem?_set_self hlt] at hget
      cases hget
      rw [hinfo] at hinfo'
      cases hinfo'
      exact hconn hwaits fun hold => hinv.connected t pc info hpc hold hinfo
  | check i a =>
    rcases step_check h with ⟨pc, out, hout, hrc, hthreads⟩
    exact hinv.of_frame_id (hrc ▸ (checkStep_frame hout 0).1) hthreads
  | startThreads failAt =>
    unfold step at h
    dsimp only at h
    split_ifs at h
    cases h
    exact hinv.startThreads failAt
  | accept t | accepted ok =>
    rcases step_accept (by simp) h with ⟨hthreads, -, t, f, hframe, hf⟩
    apply hinv.of_frame hframe
    · intro u pc _ hget
      rw [hthreads] at hget
      exact hget
    · intro pc info hget hwaits hinfo
      rw [hthreads] at hget
      rcases hf info with hconn | hsame
      · exact hconn
      · rw [hsame]
        exact hinv.connected t pc info hget hwaits hinfo

theorem start_quorumInv (c : Cluster) (version state : Nat) : QuorumInv c (start c version state) := by
  refine ⟨rfl, rfl, rfl, ?_, ?_⟩
  · unfold start
    rw [map_map]
    exact map_id _
  · intro t pc info hpc hwaits _
    unfold start at hpc
    rw [getElem?_map] at hpc
    rcases Option.map_eq_some_iff.mp hpc with ⟨-, -, rfl⟩
    exact absurd rfl hwaits

/-! ## The step that sets the flag -/

section

variable (h : QuorumInv c s)

include h

theorem QuorumInv.numClusterServers : 2 ≤ s.rc.numClusterServers ∧ s.rc.numClusterServers ≤ 4 := by
  have hlen : s.rc.others.length = c.otherIds.length := by
    rw [← h.other_ids, length_map]
  have hcount := c.count
  unfold RcState.numClusterServers RcState.csServers
  rw [length_cons]
  omega

theorem QuorumInv.active_le : getCountActiveStartThreads s.rc + 1 ≤ s.rc.numClusterServers := by
  unfold getCountActiveStartThreads RcState.numClusterServers RcState.csServers
  rw [countP_cons, h.my_active, length_cons]
  have hle := countP_le_length (p := fun info : InfoCs => info.isStartThreadActive)
    (l := s.rc.others)
  simp only [Bool.false_eq_true, if_false]
  omega

theorem QuorumInv.listedIds_valid : ∀ id ∈ listedIds s.rc, 0 < id ∧ id ≤ maxNodeId := by
  intro id hid
  apply c.valid
  unfold listedIds at hid
  rcases mem_cons.mp hid with rfl | hmem
  · rw [h.my_id]
    exact mem_cons_self
  · apply mem_cons_of_mem
    rw [← h.other_ids]
    rcases mem_map.mp hmem with ⟨info, hinfo, rfl⟩
    exact mem_map_of_mem (mem_filter.mp hinfo).1

/-- A connected server has another node id than this one. -/
theorem QuorumInv.two_ids {t : Nat} {info : InfoCs} (hinfo : s.rc.others[t]? = some info)
    (hconn : info.conn = true) :
    s.rc.my.nodeId ∈ listedIds s.rc ∧ info.nodeId ∈ listedIds s.rc ∧
      s.rc.my.nodeId ≠ info.nodeId := by
  have hmem : info ∈ s.rc.others := mem_of_getElem? hinfo
  refine ⟨mem_cons_self, ?_, ?_⟩
  · apply mem_cons_of_mem
    exact mem_map_of_mem (mem_filter.mpr ⟨hmem, hconn⟩)
  · intro heq
    apply (nodup_cons.mp c.nodup).1
    rw [← h.my_id, ← h.other_ids, heq]
    exact mem_map_of_mem hmem

/-- A round ends the loop exactly if it is complete: there are no more start threads than other
servers, so that the last test of the loop is never met. -/
theorem QuorumInv.proceeds_iff {stop : Bool} :
    connectionsRound s.rc haveWaited stop = .proceed ↔
      stop = false ∧ Complete s.rc haveWaited := by
  have hactive := h.active_le
  unfold connectionsRound Complete
  dsimp only
  split_ifs with hstop hall hfew hwait hwaited heq
  · simp [hstop]
  · simp [hstop, hall]
  · simp only [false_iff, not_and, not_or]
    intro _
    omega
  · simp [hstop, hwait, hwaited]
  · simp [hall, hwaited]
  · omega
  · simp only [false_iff, not_and, not_or]
    intro _
    omega

/-- A thread with its own connection has a quorum at the end of the loop, unless it has waited and
is alone among four servers. -/
theorem QuorumInv.quorum_iff (hround : Complete s.rc haveWaited)
    (hpos : 0 < getCountConnectedClusterServers s.rc) :
    quorum s.rc.numClusterServers ≤ getCountConnectedClusterServers s.rc + 1 ↔
      ¬WaitedForOne s.rc haveWaited := by
  have hnum := h.numClusterServers
  unfold WaitedForOne quorum
  rcases hround with hall | ⟨hwaited, hactive, hmany⟩
  · constructor
    · omega
    · omega
  · simp only [hwaited, true_and]
    omega

end

/-- The view is right exactly if node id 255 is not needed. -/
theorem viewLists_iff {s : RcState} (hvalid : ∀ id ∈ listedIds s, 0 < id ∧ id ≤ maxNodeId) :
    ViewLists (startingState s) ↔ maxNodeId ∉ listedIds s := by
  have htake : (startingState s).my.masterIndexView.take (startingState s).my.masterIndexSize =
      initialView s s.numClusterServers 0 := by
    unfold startingState
    rw [take_append_of_le_length (Nat.le_refl _), take_length]
  have hmem := mem_initialView_iff s fun id hid => (hvalid id hid).1
  constructor
  · intro hview hmax
    have hlisted := (hview.lists maxNodeId).mpr hmax
    rw [htake, hmem] at hlisted
    exact Nat.lt_irrefl _ hlisted.2
  · intro hmax
    refine ⟨?_, fun id => ?_⟩
    · rw [htake]
      exact (initialView_sound s _ 0).1
    · rw [htake, hmem]
      constructor
      · exact fun hid => hid.1
      · intro hid
        refine ⟨hid, Nat.lt_of_le_of_ne (hvalid id hid).2 ?_⟩
        rintro rfl
        exact hmax hid

/-- A list with two different members is longer than one. -/
theorem one_lt_length {l : List Nat} {a b : Nat} (ha : a ∈ l) (hb : b ∈ l) (hne : a ≠ b) :
    1 < l.length := by
  match l with
  | [] => exact absurd ha not_mem_nil
  | [x] => exact absurd ((mem_singleton.mp ha).trans (mem_singleton.mp hb).symm) hne
  | _ :: _ :: _ => exact Nat.succ_lt_succ (Nat.succ_pos _)

/-- Nobody else sets the flag. -/
theorem setsStarting_of_rise (h : step s l = some s') (hoff : s.rc.csStarting = false)
    (hon : s'.rc.csStarting = true) : SetsStarting s l := by
  have hkeep : ¬ (s'.rc.csStarting = true → s.rc.csStarting = true) := by
    intro hkeep
    rw [hkeep hon] at hoff
    cases hoff
  cases l with
  | thread t a =>
    rcases step_thread h with ⟨pc, info, out, hpc, hinfo, hout, hrc, -, -⟩
    rw [hrc] at hkeep
    cases hwaits : pc.haveWaited with
    | none => exact absurd (startStep_csStarting hout hwaits) hkeep
    | some haveWaited =>
      have hcall : ∃ stop stop', a = .wake stop stop' ∧
          out = waitForEnoughConnections s.rc haveWaited stop stop' := by
        cases pc <;> cases hwaits <;> cases a <;> cases hout <;> exact ⟨_, _, rfl, rfl⟩
      rcases hcall with ⟨stop, stop', rfl, rfl⟩
      rcases waitForEnoughConnections_cases s.rc haveWaited stop stop' with
        ⟨-, hsame, -⟩ | ⟨hsets, -⟩
      · rw [hsame] at hkeep
        exact absurd id hkeep
      · exact ⟨pc, haveWaited, hpc, hwaits, hsets⟩
  | check i a =>
    rcases step_check h with ⟨pc, out, hout, hrc, -⟩
    rw [hrc] at hkeep
    exact absurd (checkStep_frame hout 0).2 hkeep
  | startThreads failAt =>
    unfold step at h
    dsimp only at h
    split_ifs at h
    cases h
    exact absurd id hkeep
  | accept t | accepted ok =>
    rcases step_accept (by simp) h with ⟨-, hsame, -⟩
    rw [hsame] at hkeep
    exact absurd id hkeep

/-- One who has waited for one of four begins a complete round. -/
theorem complete_of_waitedForOne {s : RcState} (h : WaitedForOne s haveWaited) :
    Complete s haveWaited := by
  rcases h with ⟨hwaited, hnum, hactive, -⟩
  right
  rw [hnum, hactive]
  exact ⟨hwaited, rfl, by decide⟩

/-- The step sets the flag exactly if the thread begins a complete round, without a stop flag and
before the server is started. -/
theorem QuorumInv.setsStarting_iff (h : QuorumInv c s) {t : Nat} {stop stop' : Bool} :
    SetsStarting s (.thread t (.wake stop stop')) ↔ stop = false ∧ stop' = false ∧
      ∃ pc haveWaited, s.threads[t]? = some pc ∧ pc.haveWaited = some haveWaited ∧
        Complete s.rc haveWaited ∧ s.rc.csStarted = false := by
  constructor
  · rintro ⟨pc, haveWaited, hpc, hwaits, hround, hstop', hstarted⟩
    have hround' := h.proceeds_iff.mp hround
    exact ⟨hround'.1, hstop', pc, haveWaited, hpc, hwaits, hround'.2, hstarted⟩
  · rintro ⟨hstop, hstop', pc, haveWaited, hpc, hwaits, hcomplete, hstarted⟩
    exact ⟨pc, haveWaited, hpc, hwaits, h.proceeds_iff.mpr ⟨hstop, hcomplete⟩, hstop', hstarted⟩

/-- The condition is one on the steps that set the flag. -/
theorem QuorumInv.safeStart_of_not_sets (h : QuorumInv c s) (hno : ¬SetsStarting s l) :
    SafeStart s l := by
  unfold SafeStart
  split
  · next t =>
    intro pc haveWaited hpc hwaits hstarted
    have hround : ¬Complete s.rc haveWaited := fun hcomplete =>
      hno (h.setsStarting_iff.mpr ⟨rfl, rfl, pc, haveWaited, hpc, hwaits, hcomplete, hstarted⟩)
    exact ⟨fun hone => hround (complete_of_waitedForOne hone), fun hcomplete => absurd hcomplete hround⟩
  · exact trivial

/-- What the step leaves when it sets the flag: the state with the view, or a process that stopped
because the view has one entry only. -/
theorem step_setsStarting {t : Nat} {pc : Pc} (h : step s (.thread t (.wake false false)) = some s')
    (hpc : s.threads[t]? = some pc) (hwaits : pc.haveWaited = some haveWaited)
    (hround : connectionsRound s.rc haveWaited false = .proceed)
    (hstarted : s.rc.csStarted = false) :
    (s'.aborted = true ∧ (initialView s.rc s.rc.numClusterServers 0).length ≤ 1) ∨
      (s'.aborted = false ∧
        ∃ ready, s'.rc = { startingState s.rc with threadsReadyConnected := ready }) := by
  rcases step_thread h with ⟨pc', info, out, hpc', -, hout, hrc, -, haborted⟩
  rw [hpc] at hpc'
  cases hpc'
  have hcall : out = waitForEnoughConnections s.rc haveWaited false false := by
    cases pc <;> cases hwaits <;> cases hout <;> rfl
  rw [hrc, haborted, hcall]
  rcases waitForEnoughConnections_cases s.rc haveWaited false false with
    ⟨hno, -⟩ | ⟨-, -, ⟨hset, hout'⟩ | ⟨s₁, ready, hset, hrc', hrunning⟩⟩
  · exact absurd ⟨hround, rfl, hstarted⟩ hno
  · rw [hout']
    exact .inl ⟨rfl, setStarting_eq_none hset⟩
  · right
    refine ⟨decide_eq_false hrunning, ready, ?_⟩
    rw [hrc', (setStarting_eq_some hset).2]

/-- At one step the property and the condition say the same. -/
theorem startOk_iff (c : Cluster) (s : Sys) (l : Label) (s' : Sys) (h : step s l = some s')
    (hinv : QuorumInv c s) : StartOk s l ↔ SafeStart s l := by
  have hrise := setsStarting_of_rise h
  unfold StartOk
  rw [h]
  simp only [Option.some.injEq, forall_eq']
  -- no other step raises the flag
  refine Iff.trans (and_iff_left hrise) ?_
  by_cases hsets : SetsStarting s l
  case neg => exact ⟨fun _ => hinv.safeStart_of_not_sets hsets, fun _ hno => absurd hno hsets⟩
  -- the thread that sets the flag
  obtain ⟨t, stop, stop', rfl⟩ : ∃ t stop stop', l = .thread t (.wake stop stop') := by
    cases l with
    | thread t a =>
      cases a with
      | wake stop stop' => exact ⟨t, stop, stop', rfl⟩
      | _ => exact absurd hsets id
    | _ => exact absurd hsets id
  rcases hinv.setsStarting_iff.mp hsets with
    ⟨rfl, rfl, pc, haveWaited, hpc, hwaits, hround, hstarted⟩
  -- only this thread is at that place
  have hsafe : SafeStart s (.thread t (.wake false false)) ↔
      ¬WaitedForOne s.rc haveWaited ∧ maxNodeId ∉ listedIds s.rc := by
    constructor
    · intro hall
      have hhere := hall pc haveWaited hpc hwaits hstarted
      exact ⟨hhere.1, hhere.2 hround⟩
    · rintro ⟨hone, hmax⟩ pc' haveWaited' hpc' hwaits' -
      cases hpc.symm.trans hpc'
      cases hwaits.symm.trans hwaits'
      exact ⟨hone, fun _ => hmax⟩
  rw [hsafe, forall_prop_of_true hsets]
  rcases step_thread h with ⟨pc', info, -, hpc', hinfo, -⟩
  have hconn : info.conn = true :=
    hinv.connected t pc info hpc (by rw [hwaits]; exact Option.some_ne_none _) hinfo
  have hpos : 0 < getCountConnectedClusterServers s.rc :=
    countP_pos_iff.mpr ⟨info, mem_cons_of_mem _ (mem_of_getElem? hinfo), hconn⟩
  have hquorum := hinv.quorum_iff hround hpos
  have hview := viewLists_iff hinv.listedIds_valid
  rcases step_setsStarting h hpc hwaits (hinv.proceeds_iff.mpr ⟨rfl, hround⟩) hstarted with
    ⟨haborted, hone⟩ | ⟨hrunning, ready, hrc⟩
  · -- the view has one entry only, so one of the two ids is 255
    constructor
    · rintro ⟨-, hrunning, -⟩
      rw [haborted] at hrunning
      cases hrunning
    · rintro ⟨-, hmax⟩
      rcases hinv.two_ids hinfo hconn with ⟨hmy, hother, hne⟩
      have hall : ∀ id ∈ listedIds s.rc, id ∈ initialView s.rc s.rc.numClusterServers 0 := by
        intro id hid
        rw [mem_initialView_iff s.rc fun id hid => (hinv.listedIds_valid id hid).1]
        refine ⟨hid, Nat.lt_of_le_of_ne (hinv.listedIds_valid id hid).2 ?_⟩
        rintro rfl
        exact hmax hid
      exact absurd hone (Nat.not_le_of_lt (one_lt_length (hall _ hmy) (hall _ hother) hne))
  · rw [hrc]
    constructor
    · rintro ⟨hq, -, hlists⟩
      exact ⟨hquorum.mp hq, hview.mp ⟨hlists.sorted, hlists.lists⟩⟩
    · rintro ⟨hq, hmax⟩
      exact ⟨hquorum.mpr hq, hrunning, (hview.mpr hmax).sorted, (hview.mpr hmax).lists⟩

/-- For any grid of two to four Cluster Servers and any order of steps: the flag is
set with a quorum and the view is right, exactly if no thread that has waited begins
a round alone among four, and none a complete one with node id 255 in it. -/
theorem start_quorum_iff (c : Cluster) (version state : Nat) (labels : List Label) :
    Run.Along step StartOk (start c version state) labels ↔
      Run.Along step SafeStart (start c version state) labels :=
  Run.along_congr step (QuorumInv c) (step_quorumInv c) (startOk_iff c) labels
    (start_quorumInv c version state)

/-- Four servers, of which one is connected: after its timed wait the thread starts. -/
theorem two_of_four_start :
    ∃ s s', Run.exec step (start ⟨1, [2, 3, 4], by decide, by decide, by decide⟩ 1 configStateBusy)
        [.startThreads none, .thread 0 (.startup true), .thread 0 (.connect false true),
          .thread 0 (.wake false false)] = some s ∧
      step s (.thread 0 (.wake false false)) = some s' ∧
      ¬ StartOk s (.thread 0 (.wake false false)) := by
  refine ⟨_, _, rfl, rfl, fun hok => ?_⟩
  have hquorum := ((hok _ rfl).1 ⟨_, _, rfl, rfl, rfl, rfl, rfl⟩).1
  exact absurd hquorum (by decide)

end IClaustron.ClusterServer.Start
