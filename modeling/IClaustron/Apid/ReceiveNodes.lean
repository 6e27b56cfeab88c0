import IClaustron.Lib.Chain
import IClaustron.Lib.Run
import Mathlib.Data.Fintype.Card

/-!
# Apid.ReceiveNodes — the node connections of a receive thread

Model of the lists in api/ic_apid_rec_thread.ic. A node connection is handed over to the
receive thread on a list of nodes to add, and taken from it on a list of nodes to remove;
the receive thread works through both lists between two polls, and links the nodes it
handles in a third list. The links of all three are fields of the node connection.

1. **Lists**: a singly linked list with insertion in front and removal by a walk.
2. **Steps**: the send thread of a node sets its connection up and hands it over, any
   thread reports a failure, the receive thread reorganises. A step is a critical section.
3. **Invariant**: a node that sets its connection up is on no list.

* `receive_nodes_ok` — the runs in which lists and poll set are as they should be.

Scope limits: there is one receive thread for a cluster, the one that
`get_first_receive_thread` finds; sockets are numbered in the order in which they are
created. A walk that does not end is not a step. Left out are the assert in
`rem_node_from_receive_thread` that `rec_state` is set, the heartbeat list and the send buffers in
`node_failure_handling`, and that a client already has its new socket before `connection_up` is
set: the two change in one step.
-/

namespace IClaustron.Apid.ReceiveNodes

open Lib Option Function
open List hiding Chain

/-! ## Lists -/

/-- The first element and the link field of a list. -/
structure Links (Node : Type) where
  first : Option Node
  next : Node → Option Node

variable {Node : Type} [DecidableEq Node]

def Links.empty : Links Node := ⟨none, fun _ => none⟩

/-- What the three insert functions do. -/
def Links.insert (l : Links Node) (n : Node) : Links Node :=
  ⟨some n, update l.next n l.first⟩

/-- The loop of the three remove functions. It goes on to the end of the list after the
node was found. -/
def Links.removeLoop (n : Node) :
    Nat → Links Node → Option Node → Option Node → Bool → Option (Links Node × Bool)
  | 0, _, _, _, _ => none
  | _ + 1, l, _, none, found => some (l, found)
  | fuel + 1, l, prev, some c, found =>
    if c = n then
      match prev with
      | none => removeLoop n fuel { l with first := l.next n } (some c) (l.next c) true
      | some p =>
        let l' := { l with next := update l.next p (l.next n) }
        removeLoop n fuel l' (some c) (l'.next c) true
    else removeLoop n fuel l (some c) (l.next c) found

/-- A walk over more nodes than there are does not end. -/
def Links.remove [Fintype Node] (l : Links Node) (n : Node) : Option (Links Node × Bool) :=
  l.removeLoop n (Fintype.card Node + 1) none l.first false

/-! ## Steps -/

/-- Where the send thread of a node is: it waits for a connection, hands it over, and sends. -/
inductive SendPc where
  | connecting | connected | active
deriving DecidableEq

/-- Where the receive thread is: at the poll set, in one of the two loops of a
reorganisation, or in front of `node_failure_handling` in one of them. -/
inductive RecPc (Node : Type) where
  | polling | adding | addFailed (n : Node) | removing | removeFailed (n : Node)
deriving DecidableEq

/-- The lists of IC_NDB_RECEIVE_STATE and the fields of the node connections. `sockets` is the
number of sockets so far, and `fd` the socket of a node, 0 before the first one. -/
structure State (Node : Type) where
  addNodes : Links Node
  remNodes : Links Node
  sendNodes : Links Node
  recState : Node → Bool
  inPollSet : Node → Bool
  connectionUp : Node → Bool
  nodeDead : Node → Bool
  stopOrdered : Node → Bool
  fd : Node → Nat
  pollSet : List Nat
  sockets : Nat
  sendPc : Node → SendPc
  recPc : RecPc Node

def startState : State Node where
  addNodes := .empty
  remNodes := .empty
  sendNodes := .empty
  recState := fun _ => false
  inPollSet := fun _ => false
  connectionUp := fun _ => false
  nodeDead := fun _ => false
  stopOrdered := fun _ => false
  fd := fun _ => 0
  pollSet := []
  sockets := 1
  sendPc := fun _ => .connecting
  recPc := .polling

/-- `insert_add_node_receive_thread`. -/
def insertAddNodeReceiveThread (s : State Node) (n : Node) : State Node :=
  { s with recState := update s.recState n true, addNodes := s.addNodes.insert n }

/-- `insert_rem_node_receive_thread`. -/
def insertRemNodeReceiveThread (s : State Node) (n : Node) : State Node :=
  { s with remNodes := s.remNodes.insert n }

/-- `insert_node_receive_thread`. -/
def insertNodeReceiveThread (s : State Node) (n : Node) : State Node :=
  { s with sendNodes := s.sendNodes.insert n }

variable [Fintype Node]

/-- `remove_add_node_receive_thread`. -/
def removeAddNodeReceiveThread (s : State Node) (n : Node) : Option (State Node × Bool) :=
  (s.addNodes.remove n).map fun (l, found) => ({ s with addNodes := l }, found)

/-- `remove_rem_node_receive_thread`. -/
def removeRemNodeReceiveThread (s : State Node) (n : Node) : Option (State Node × Bool) :=
  (s.remNodes.remove n).map fun (l, found) => ({ s with remNodes := l }, found)

/-- `remove_node_receive_thread`. -/
def removeNodeReceiveThread (s : State Node) (n : Node) : Option (State Node × Bool) :=
  (s.sendNodes.remove n).map fun (l, found) => ({ s with sendNodes := l }, found)

/-- `node_failure_handling`. -/
def nodeFailureHandling (s : State Node) (n : Node) (calledFromRemoveRecThread : Bool) :
    Option (State Node) :=
  if s.nodeDead n then some s
  else do
    let (s, _) ← removeAddNodeReceiveThread s n
    let s := if calledFromRemoveRecThread then s else insertRemNodeReceiveThread s n
    some { s with
      connectionUp := update s.connectionUp n false
      nodeDead := update s.nodeDead n true }

/-- One round of `add_node_receive_thread`; `pollOk` says whether the socket can be added to
the poll set. -/
def addNodeReceiveThread (s : State Node) (n : Node) (pollOk : Bool) : Option (State Node) := do
  let (s, found) ← removeAddNodeReceiveThread s n
  if found then
    let s := insertNodeReceiveThread s n
    if s.connectionUp n && !s.stopOrdered n then
      if pollOk then
        some { s with
          pollSet := s.fd n :: s.pollSet
          inPollSet := update s.inPollSet n true
          recState := update s.recState n true }
      else do
        let (s, _) ← removeNodeReceiveThread s n
        some { s with recPc := .addFailed n }
    else some s
  else none

/-- `rem_node_from_receive_thread`, with its return code as a Boolean. -/
def remNodeFromReceiveThread (s : State Node) (n : Node) : Option (State Node × Bool) := do
  let (s, _) ← removeNodeReceiveThread s n
  let (s, found) ← removeRemNodeReceiveThread s n
  if found then
    let s := { s with recState := update s.recState n false }
    if s.inPollSet n then
      let s := { s with inPollSet := update s.inPollSet n false }
      if s.fd n ∈ s.pollSet then some ({ s with pollSet := s.pollSet.erase (s.fd n) }, true)
      else some (s, false)
    else some (s, true)
  else none

inductive Label (Node : Type) where
  /-- A connection to a node is set up with a new socket, by its send thread, by a listen
  thread or from outside. -/
  | connect (n : Node)
  /-- The send thread goes on, since the connection is up. -/
  | connected (n : Node)
  /-- `move_node_to_receive_thread`. -/
  | moveNode (n : Node)
  /-- `active_send_thread` ends, since the connection is down. -/
  | leave (n : Node)
  /-- `node_failure_handling` in any other thread. -/
  | fail (n : Node)
  | stopOrder (n : Node)
  /-- `check_for_reorg_receive_threads`. -/
  | reorganise
  | addNext (pollOk : Bool)
  | addFailure
  | removeNext
  | removeFailure
deriving DecidableEq

def step (s : State Node) : Label Node → Option (State Node)
  | .connect n =>
    some { s with
      fd := update s.fd n s.sockets
      sockets := s.sockets + 1
      connectionUp := update s.connectionUp n true
      nodeDead := update s.nodeDead n false }
  | .connected n =>
    if s.sendPc n = .connecting ∧ s.connectionUp n = true then
      some { s with sendPc := update s.sendPc n .connected }
    else none
  | .moveNode n =>
    if s.sendPc n = .connected then
      let s := insertAddNodeReceiveThread s n
      some { s with sendPc := update s.sendPc n .active }
    else none
  | .leave n =>
    if s.sendPc n = .active ∧ s.connectionUp n = false then
      (nodeFailureHandling s n false).map fun s =>
        { s with sendPc := update s.sendPc n .connecting }
    else none
  | .fail n => nodeFailureHandling s n false
  | .stopOrder n => some { s with stopOrdered := update s.stopOrdered n true }
  | .reorganise => if s.recPc = .polling then some { s with recPc := .adding } else none
  | .addNext pollOk =>
    if s.recPc = .adding then
      match s.addNodes.first with
      | none => some { s with recPc := .removing }
      | some n => addNodeReceiveThread s n pollOk
    else none
  | .addFailure =>
    match s.recPc with
    | .addFailed n => (nodeFailureHandling s n false).map fun s => { s with recPc := .adding }
    | _ => none
  | .removeNext =>
    if s.recPc = .removing then
      match s.remNodes.first with
      | none => some { s with recPc := .polling }
      | some n => do
        let (s, ok) ← remNodeFromReceiveThread s n
        if ok then some s else some { s with recPc := .removeFailed n }
    else none
  | .removeFailure =>
    match s.recPc with
    | .removeFailed n => (nodeFailureHandling s n true).map fun s => { s with recPc := .removing }
    | _ => none

/-! ## What should hold -/

/-- The links end, so that no node is on the list twice. -/
def Links.Acyclic (l : Links Node) : Prop := ∃ nodes, Chain l.next l.first nodes

/-- A connection is set up, but not handed over yet. -/
def Fresh (s : State Node) (n : Node) : Prop :=
  s.sendPc n = .connected ∨ s.sendPc n = .connecting ∧ s.connectionUp n = true

/-- No request is pending: both lists are empty, no connection is about to be handed over, and
the receive thread has finished its reorganisation. -/
structure Quiet (s : State Node) : Prop where
  add : s.addNodes.first = none
  rem : s.remNodes.first = none
  rec_pc : s.recPc = .polling
  handed : ∀ n, ¬ Fresh s n

structure NodesOk (s : State Node) : Prop where
  add : s.addNodes.Acyclic
  rem : s.remNodes.Acyclic
  send : s.sendNodes.Acyclic
  flag : ∀ n, s.inPollSet n = true ↔ s.fd n ∈ s.pollSet
  quiet : Quiet s → ∀ x, x ∈ s.pollSet ↔ ∃ n, s.connectionUp n = true ∧ s.fd n = x

/-- The node is on none of the lists. -/
def Unlisted (s : State Node) (n : Node) : Prop :=
  ¬ OnChain s.addNodes.next s.addNodes.first n ∧ ¬ OnChain s.remNodes.next s.remNodes.first n ∧
    ¬ OnChain s.sendNodes.next s.sendNodes.first n

/-- A node connects again only after the receive thread has taken it off its lists and its send
thread has left the connection before, and no connection is ordered to stop before it is added
to the poll set. -/
def Orderly (s : State Node) : Label Node → Prop
  | .connect n => Unlisted s n ∧ s.sendPc n ≠ .active
  | .addNext _ => ∀ n ∈ s.addNodes.first, s.stopOrdered n = false ∨ s.connectionUp n = false
  | _ => True

/-! ## The lists as lists of nodes -/

section Links

omit [Fintype Node]

variable {l : Links Node} {n : Node} {nodes : List Node}

theorem Links.insert_spec (h : Chain l.next l.first nodes) (hn : n ∉ nodes) :
    Chain (l.insert n).next (l.insert n).first (n :: nodes) := by
  refine ⟨rfl, ?_⟩
  change Chain (update l.next n l.first) (update l.next n l.first n) nodes
  rw [update_self]
  exact Seg.update hn h

/-- The walk over nodes that are all others changes nothing. -/
theorem Links.walk {rest : List Node} {fuel : Nat} {prev cur : Option Node} {found : Bool}
    (h : Chain l.next cur rest) (hn : n ∉ rest) (hfuel : rest.length < fuel) :
    l.removeLoop n fuel prev cur found = some (l, found) := by
  induction rest generalizing fuel prev cur with
  | nil =>
    rw [chain_nil] at h
    subst h
    obtain ⟨fuel, rfl⟩ : ∃ k, fuel = k + 1 := ⟨fuel - 1, by simp at hfuel; omega⟩
    rfl
  | cons c rest ih =>
    obtain ⟨rfl, h⟩ := h
    obtain ⟨fuel, rfl⟩ : ∃ k, fuel = k + 1 := ⟨fuel - 1, by simp at hfuel; omega⟩
    have hc : c ≠ n := fun hcn => hn (hcn ▸ mem_cons_self)
    rw [Links.removeLoop.eq_def]
    simp only [hc, if_false]
    refine ih h (fun hmem => hn (mem_cons_of_mem c hmem)) ?_
    simpa using hfuel

/-- The walk from the middle of a list whose first part does not have the node. -/
theorem Links.removeLoop_spec {pre rest : List Node} {fuel : Nat} {cur : Option Node}
    (hpre : Seg l.next l.first pre cur) (hrest : Chain l.next cur rest) (hn : n ∉ pre)
    (hnodup : (pre ++ rest).Nodup) (hfuel : rest.length < fuel) :
    ∃ l', l.removeLoop n fuel pre.getLast? cur false = some (l', decide (n ∈ rest)) ∧
      Chain l'.next l'.first (pre ++ rest.erase n) := by
  induction rest generalizing pre fuel cur with
  | nil =>
    refine ⟨l, Links.walk hrest not_mem_nil hfuel, ?_⟩
    exact seg_append.mpr ⟨cur, hpre, hrest⟩
  | cons c rest ih =>
    obtain ⟨rfl, hrest⟩ := hrest
    obtain ⟨fuel, rfl⟩ : ∃ k, fuel = k + 1 := ⟨fuel - 1, by simp at hfuel; omega⟩
    have hcrest : c ∉ rest := (nodup_cons.mp (nodup_append.mp hnodup).2.1).1
    have hlen : rest.length < fuel := by simpa using hfuel
    rw [Links.removeLoop.eq_def]
    by_cases hc : c = n
    · subst hc
      simp only [if_true, erase_cons_head, mem_cons_self, decide_true]
      rcases eq_nil_or_concat pre with rfl | ⟨pre, p, rfl⟩
      · exact ⟨_, Links.walk hrest hcrest hlen, hrest⟩
      · simp only [concat_eq_append, getLast?_append_of_ne_nil _ (cons_ne_nil p []),
          getLast?_singleton] at *
        -- The link of the node before is changed, and that is not on the rest of the walk.
        have hp : p ∉ c :: rest := by
          intro hmem
          exact (disjoint_of_nodup_append hnodup) (by simp) hmem
        have hprest : p ∉ rest := fun hmem => hp (mem_cons_of_mem c hmem)
        have hppre : p ∉ pre := by
          intro hmem
          have hd := (nodup_append.mp hnodup).1
          exact (disjoint_of_nodup_append hd) hmem (by simp)
        have hcp : c ≠ p := fun h => hp (h ▸ mem_cons_self)
        have hrest' : Chain (update l.next p (l.next c)) (l.next c) rest :=
          Seg.update hprest hrest
        obtain ⟨m, hm, hmp, -⟩ := seg_append.mp hpre
        refine ⟨_, Links.walk ?_ hcrest hlen, ?_⟩
        · rw [update_of_ne hcp]
          exact hrest'
        · rw [append_assoc]
          refine seg_append.mpr ⟨m, hm.update hppre, hmp, ?_⟩
          change Chain _ (update l.next p (l.next c) p) rest
          rw [update_self]
          exact hrest'
    · have hne : ¬ n = c := fun h => hc h.symm
      simp only [hc, if_false]
      have hpre' : Seg l.next l.first (pre ++ [c]) (l.next c) := seg_append.mpr ⟨some c, hpre, rfl, rfl⟩
      have hn' : n ∉ pre ++ [c] := by simp [hn, hne]
      obtain ⟨l', hrun, hl'⟩ := ih hpre' hrest hn' (by simpa using hnodup) hlen
      rw [getLast?_append_of_ne_nil _ (cons_ne_nil c [])] at hrun
      refine ⟨l', ?_, ?_⟩
      · simpa [hne] using hrun
      · rw [erase_cons_tail (by simpa using hc)]
        simpa using hl'

end Links

/-- Removing a node takes it off the list, if it is there. -/
theorem Links.remove_spec {l : Links Node} {nodes : List Node} (h : Chain l.next l.first nodes)
    (n : Node) :
    ∃ l', l.remove n = some (l', decide (n ∈ nodes)) ∧ Chain l'.next l'.first (nodes.erase n) := by
  have hlen : nodes.length < Fintype.card Node + 1 :=
    Nat.lt_succ_of_le h.nodup.length_le_card
  have hpre : Seg l.next l.first [] l.first := rfl
  exact Links.removeLoop_spec hpre h not_mem_nil (by simpa using h.nodup) hlen

/-! ## The invariant -/

/-- Where the nodes are. -/
structure NodesInv (s : State Node) (add rem send : List Node) : Prop where
  /-- A node is handed over only once for each connection. -/
  add_send : ∀ n ∈ add, n ∉ send
  fresh : ∀ n, Fresh s n → n ∉ add ∧ n ∉ send
  rem_dead : ∀ n ∈ rem, s.nodeDead n = true
  dead_down : ∀ n, s.nodeDead n = true → s.connectionUp n = false
  flag_send : ∀ n, s.inPollSet n = true → n ∈ send
  flag_up : ∀ n, s.inPollSet n = true → s.connectionUp n = true ∨ n ∈ rem
  up : ∀ n, s.connectionUp n = true →
    Fresh s n ∨ n ∈ add ∨ s.inPollSet n = true ∨ s.recPc = .addFailed n
  up_fd : ∀ n, s.connectionUp n = true → s.fd n ≠ 0
  /-- A socket can always be removed from the poll set. -/
  removed : ∀ n, s.recPc ≠ .removeFailed n

/-- The sockets in the poll set. -/
structure PollInv (s : State Node) : Prop where
  flag : ∀ n, s.inPollSet n = true ↔ s.fd n ∈ s.pollSet
  nodup : s.pollSet.Nodup
  owner : ∀ x ∈ s.pollSet, ∃ n, s.fd n = x
  fd_lt : ∀ n, s.fd n < s.sockets
  fd_inj : ∀ n m, s.fd n = s.fd m → s.fd n ≠ 0 → n = m
  zero : 0 ∉ s.pollSet

structure Inv (s : State Node) (add rem send : List Node) : Prop where
  add_list : Chain s.addNodes.next s.addNodes.first add
  rem_list : Chain s.remNodes.next s.remNodes.first rem
  send_list : Chain s.sendNodes.next s.sendNodes.first send
  nodes : NodesInv s add rem send
  poll : PollInv s

variable {s s' : State Node} {add rem send : List Node} {n : Node}

omit [DecidableEq Node] [Fintype Node]

theorem Inv.nodesOk (h : Inv s add rem send) : NodesOk s where
  add := ⟨add, h.add_list⟩
  rem := ⟨rem, h.rem_list⟩
  send := ⟨send, h.send_list⟩
  flag := h.poll.flag
  quiet := by
    intro hq x
    have hadd : add = [] := chain_none.mp (hq.add ▸ h.add_list)
    have hrem : rem = [] := chain_none.mp (hq.rem ▸ h.rem_list)
    subst hadd hrem
    constructor
    · intro hx
      obtain ⟨n, rfl⟩ := h.poll.owner x hx
      rcases h.nodes.flag_up n ((h.poll.flag n).mpr hx) with hup | hmem
      · exact ⟨n, hup, rfl⟩
      · cases hmem
    · rintro ⟨n, hup, rfl⟩
      rcases h.nodes.up n hup with hfresh | hmem | hflag | hrec
      · exact absurd hfresh (hq.handed n)
      · cases hmem
      · exact (h.poll.flag n).mp hflag
      · rw [hq.rec_pc] at hrec
        cases hrec

/-- The lists in memory, `recState`, `stopOrdered` and the poll set do not matter. -/
theorem NodesInv.congr (h : NodesInv s add rem send) (hpc : s'.sendPc = s.sendPc)
    (hup : s'.connectionUp = s.connectionUp) (hdead : s'.nodeDead = s.nodeDead)
    (hflag : s'.inPollSet = s.inPollSet) (hrec : s'.recPc = s.recPc) (hfd : s'.fd = s.fd) :
    NodesInv s' add rem send := by
  refine ⟨h.add_send, ?_, ?_, ?_, ?_, ?_, ?_, ?_, ?_⟩ <;>
    simp only [Fresh, hpc, hup, hdead, hflag, hrec, hfd]
  exacts [h.fresh, h.rem_dead, h.dead_down, h.flag_send, h.flag_up, h.up, h.up_fd, h.removed]

theorem PollInv.congr (h : PollInv s) (hflag : s'.inPollSet = s.inPollSet) (hfd : s'.fd = s.fd)
    (hset : s'.pollSet = s.pollSet) (hsock : s'.sockets = s.sockets) : PollInv s' := by
  constructor <;> simp only [hflag, hfd, hset, hsock]
  exacts [h.flag, h.nodup, h.owner, h.fd_lt, h.fd_inj, h.zero]

theorem PollInv.lt (h : PollInv s) {x : Nat} (hx : x ∈ s.pollSet) : x < s.sockets := by
  obtain ⟨m, rfl⟩ := h.owner x hx
  exact h.fd_lt m

section

variable [DecidableEq Node]

/-- A node that is not in the poll set gets a new socket. -/
theorem PollInv.connect (h : PollInv s) (hflag : s.inPollSet n = false) :
    PollInv { s with fd := update s.fd n s.sockets, sockets := s.sockets + 1 } := by
  have hold : s.fd n ∉ s.pollSet := by
    intro hmem
    rw [(h.flag n).mpr hmem] at hflag
    cases hflag
  have hnew : s.sockets ∉ s.pollSet := fun hmem => Nat.lt_irrefl _ (h.lt hmem)
  constructor
  · intro m
    rcases eq_or_ne m n with rfl | hm
    · simp [hflag, hnew]
    · simpa [hm] using h.flag m
  · exact h.nodup
  · intro x hx
    obtain ⟨m, rfl⟩ := h.owner x hx
    have hm : m ≠ n := by
      rintro rfl
      exact hold hx
    exact ⟨m, by simp [hm]⟩
  · intro m
    have := h.fd_lt m
    rcases eq_or_ne m n with rfl | hm
    · simp
    · simp only [update_of_ne hm]
      omega
  · intro m m' heq hne
    have hm := h.fd_lt m
    have hm' := h.fd_lt m'
    rcases eq_or_ne m n with rfl | hmn
    · rcases eq_or_ne m' m with rfl | hmn'
      · rfl
      · simp [hmn'] at heq
        omega
    · rcases eq_or_ne m' n with rfl | hmn'
      · simp [hmn] at heq
        omega
      · simp only [update_of_ne hmn, update_of_ne hmn'] at heq hne
        exact h.fd_inj m m' heq hne
  · exact h.zero

/-- A connection is set up for a node that is on no list. -/
theorem Inv.connect (h : Inv s add rem send) (hadd : n ∉ add) (hrem : n ∉ rem) (hsend : n ∉ send)
    (hpc : s.sendPc n ≠ .active) :
    Inv { s with
      fd := update s.fd n s.sockets
      sockets := s.sockets + 1
      connectionUp := update s.connectionUp n true
      nodeDead := update s.nodeDead n false } add rem send := by
  have hflag : s.inPollSet n = false := by
    cases hf : s.inPollSet n with
    | false => rfl
    | true => exact absurd (h.nodes.flag_send n hf) hsend
  refine ⟨h.add_list, h.rem_list, h.send_list, ?_, (h.poll.connect hflag).congr rfl rfl rfl rfl⟩
  constructor
  · exact h.nodes.add_send
  · intro m hm
    rcases eq_or_ne m n with rfl | hmn
    · exact ⟨hadd, hsend⟩
    · exact h.nodes.fresh m (by simpa [Fresh, hmn] using hm)
  · intro m hm
    have hmn : m ≠ n := by
      rintro rfl
      exact hrem hm
    simpa [hmn] using h.nodes.rem_dead m hm
  · intro m hm
    rcases eq_or_ne m n with rfl | hmn
    · simp at hm
    · simpa [hmn] using h.nodes.dead_down m (by simpa [hmn] using hm)
  · exact h.nodes.flag_send
  · intro m hm
    rcases eq_or_ne m n with rfl | hmn
    · simp
    · simpa [hmn] using h.nodes.flag_up m hm
  · intro m hm
    rcases eq_or_ne m n with rfl | hmn
    · left
      cases hm' : s.sendPc m with
      | connecting => exact .inr ⟨hm', hm⟩
      | connected => exact .inl hm'
      | active => exact absurd hm' hpc
    · simpa [Fresh, hmn] using h.nodes.up m (by simpa [hmn] using hm)
  · intro m hm
    rcases eq_or_ne m n with rfl | hmn
    · have hlt := h.poll.fd_lt m
      simp only [update_self]
      omega
    · simpa [hmn] using h.nodes.up_fd m (by simpa [hmn] using hm)
  · exact h.nodes.removed

/-- The send thread leaves its loop. -/
theorem Inv.connected (h : Inv s add rem send) (hpc : s.sendPc n = .connecting)
    (hup : s.connectionUp n = true) :
    Inv { s with sendPc := update s.sendPc n .connected } add rem send := by
  refine ⟨h.add_list, h.rem_list, h.send_list, ?_, h.poll.congr rfl rfl rfl rfl⟩
  have hfresh : ∀ m, Fresh { s with sendPc := update s.sendPc n .connected } m ↔ Fresh s m := by
    intro m
    rcases eq_or_ne m n with rfl | hmn
    · simp [Fresh, hpc, hup]
    · simp [Fresh, hmn]
  refine ⟨h.nodes.add_send, ?_, h.nodes.rem_dead, h.nodes.dead_down, h.nodes.flag_send,
    h.nodes.flag_up, ?_, h.nodes.up_fd, h.nodes.removed⟩
  · intro m hm
    exact h.nodes.fresh m ((hfresh m).mp hm)
  · intro m hm
    rw [hfresh m]
    exact h.nodes.up m hm

/-- The connection is handed over. -/
theorem Inv.moveNode (h : Inv s add rem send) (hpc : s.sendPc n = .connected) :
    Inv { insertAddNodeReceiveThread s n with sendPc := update s.sendPc n .active }
      (n :: add) rem send := by
  obtain ⟨hadd, hsend⟩ := h.nodes.fresh n (.inl hpc)
  refine ⟨Links.insert_spec h.add_list hadd, h.rem_list, h.send_list, ?_, h.poll.congr rfl rfl rfl rfl⟩
  constructor
  · intro m hm
    rcases mem_cons.mp hm with rfl | hm
    · exact hsend
    · exact h.nodes.add_send m hm
  · intro m hm
    rcases eq_or_ne m n with rfl | hmn
    · simp [Fresh] at hm
    · have hold := h.nodes.fresh m (by simpa [Fresh, insertAddNodeReceiveThread, hmn] using hm)
      exact ⟨by simp [hmn, hold.1], hold.2⟩
  · exact h.nodes.rem_dead
  · exact h.nodes.dead_down
  · exact h.nodes.flag_send
  · exact h.nodes.flag_up
  · intro m hm
    rcases eq_or_ne m n with rfl | hmn
    · exact .inr (.inl mem_cons_self)
    · rcases h.nodes.up m hm with hfresh | hmem | hrest
      · exact .inl (by simpa [Fresh, insertAddNodeReceiveThread, hmn] using hfresh)
      · exact .inr (.inl (mem_cons_of_mem n hmem))
      · exact .inr (.inr hrest)
  · exact h.nodes.up_fd
  · exact h.nodes.removed

/-- The socket of a node is added to the poll set. -/
theorem PollInv.insert (h : PollInv s) (hflag : s.inPollSet n = false) (hfd : s.fd n ≠ 0) :
    PollInv { s with
      pollSet := s.fd n :: s.pollSet
      inPollSet := update s.inPollSet n true } := by
  have hold : s.fd n ∉ s.pollSet := by
    intro hmem
    rw [(h.flag n).mpr hmem] at hflag
    cases hflag
  constructor
  · intro m
    rcases eq_or_ne m n with rfl | hm
    · simp
    · have hne : s.fd m ≠ s.fd n := fun heq => hm (h.fd_inj n m heq.symm hfd).symm
      simpa [hm, hne] using h.flag m
  · exact nodup_cons.mpr ⟨hold, h.nodup⟩
  · intro x hx
    rcases mem_cons.mp hx with rfl | hx
    · exact ⟨n, rfl⟩
    · exact h.owner x hx
  · exact h.fd_lt
  · exact h.fd_inj
  · intro hx
    rcases mem_cons.mp hx with hzero | hx
    · exact hfd hzero.symm
    · exact h.zero hx

/-- The socket of a node is removed from the poll set. -/
theorem PollInv.erase (h : PollInv s) (hmem : s.fd n ∈ s.pollSet) :
    PollInv { s with
      pollSet := s.pollSet.erase (s.fd n)
      inPollSet := update s.inPollSet n false } := by
  have hfd : s.fd n ≠ 0 := fun hzero => h.zero (hzero ▸ hmem)
  constructor
  · intro m
    rcases eq_or_ne m n with rfl | hm
    · simp [h.nodup.not_mem_erase]
    · have hne : s.fd m ≠ s.fd n := fun heq => hm (h.fd_inj n m heq.symm hfd).symm
      simpa [hm, mem_erase_of_ne hne] using h.flag m
  · exact h.nodup.erase _
  · intro x hx
    exact h.owner x (mem_of_mem_erase hx)
  · exact h.fd_lt
  · exact h.fd_inj
  · exact fun hx => h.zero (mem_of_mem_erase hx)

/-- A node goes from one list to the other, and into the poll set if its connection is up. -/
theorem NodesInv.taken (h : NodesInv s (n :: add) rem send) (hadd : n ∉ add) {v : Bool}
    (hv : v = s.connectionUp n) :
    NodesInv { s with inPollSet := update s.inPollSet n v } add rem (n :: send) := by
  have hhanded : ¬ Fresh s n := fun hfresh => (h.fresh n hfresh).1 mem_cons_self
  constructor
  · intro m hm
    have hmn : m ≠ n := by
      rintro rfl
      exact hadd hm
    simpa [hmn] using h.add_send m (mem_cons_of_mem n hm)
  · intro m hm
    have hmn : m ≠ n := by
      rintro rfl
      exact hhanded hm
    have hold := h.fresh m hm
    exact ⟨fun hmem => hold.1 (mem_cons_of_mem n hmem), by simp [hmn, hold.2]⟩
  · exact h.rem_dead
  · exact h.dead_down
  · intro m hm
    rcases eq_or_ne m n with rfl | hmn
    · exact mem_cons_self
    · exact mem_cons_of_mem n (h.flag_send m (by simpa [hmn] using hm))
  · intro m hm
    rcases eq_or_ne m n with rfl | hmn
    · exact .inl (by simpa [hv] using hm)
    · exact h.flag_up m (by simpa [hmn] using hm)
  · intro m hm
    rcases eq_or_ne m n with rfl | hmn
    · exact .inr (.inr (.inl (by simpa [hv] using hm)))
    · rcases h.up m hm with hc | hmem | hflag | hrec
      · exact .inl hc
      · exact .inr (.inl (mem_of_ne_of_mem hmn hmem))
      · exact .inr (.inr (.inl (by simpa [hmn] using hflag)))
      · exact .inr (.inr (.inr hrec))
  · exact h.up_fd
  · exact h.removed

omit [DecidableEq Node] in
/-- The socket of a node cannot be added: the node is on no list but its failure is about to be
reported. -/
theorem NodesInv.notTaken (h : NodesInv s (n :: add) rem send) (hrec : s.recPc = .adding) :
    NodesInv { s with recPc := .addFailed n } add rem send := by
  constructor
  · intro m hm
    exact h.add_send m (mem_cons_of_mem n hm)
  · intro m hm
    have hold := h.fresh m hm
    exact ⟨fun hmem => hold.1 (mem_cons_of_mem n hmem), hold.2⟩
  · exact h.rem_dead
  · exact h.dead_down
  · exact h.flag_send
  · exact h.flag_up
  · intro m hm
    rcases h.up m hm with hc | hmem | hflag | hrec'
    · exact .inl hc
    · rcases mem_cons.mp hmem with rfl | hmem
      · exact .inr (.inr (.inr rfl))
      · exact .inr (.inl hmem)
    · exact .inr (.inr (.inl hflag))
    · rw [hrec] at hrec'
      cases hrec'
  · exact h.up_fd
  · exact fun _ => nofun

omit [DecidableEq Node] in
/-- The receive thread goes on. -/
theorem NodesInv.setRecPc (h : NodesInv s add rem send) {pc : RecPc Node}
    (hpc : ∀ n, pc ≠ .removeFailed n)
    (hdone : ∀ m, s.recPc = .addFailed m → s.connectionUp m = false) :
    NodesInv { s with recPc := pc } add rem send := by
  refine ⟨h.add_send, h.fresh, h.rem_dead, h.dead_down, h.flag_send, h.flag_up, ?_, h.up_fd, hpc⟩
  intro m hm
  rcases h.up m hm with hc | hmem | hflag | hrec
  · exact .inl hc
  · exact .inr (.inl hmem)
  · exact .inr (.inr (.inl hflag))
  · have hdown := hdone m hrec
    change s.connectionUp m = true at hm
    rw [hdown] at hm
    cases hm

/-- A dead node leaves the receive thread. -/
theorem NodesInv.remove (h : NodesInv s add (n :: rem) send) :
    NodesInv { s with
      inPollSet := update s.inPollSet n false
      recState := update s.recState n false } add rem (send.erase n) := by
  have hdown := h.dead_down n (h.rem_dead n mem_cons_self)
  constructor
  · intro m hm hmem
    exact h.add_send m hm (mem_of_mem_erase hmem)
  · intro m hm
    have hold := h.fresh m hm
    exact ⟨hold.1, fun hmem => hold.2 (mem_of_mem_erase hmem)⟩
  · intro m hm
    exact h.rem_dead m (mem_cons_of_mem n hm)
  · exact h.dead_down
  · intro m hm
    rcases eq_or_ne m n with rfl | hmn
    · simp at hm
    · exact (mem_erase_of_ne hmn).mpr (h.flag_send m (by simpa [hmn] using hm))
  · intro m hm
    rcases eq_or_ne m n with rfl | hmn
    · simp at hm
    · rcases h.flag_up m (by simpa [hmn] using hm) with hup | hmem
      · exact .inl hup
      · exact .inr (mem_of_ne_of_mem hmn hmem)
  · intro m hm
    have hmn : m ≠ n := by
      rintro rfl
      change s.connectionUp m = true at hm
      rw [hdown] at hm
      cases hm
    rcases h.up m hm with hc | hmem | hflag | hrec
    · exact .inl hc
    · exact .inr (.inl hmem)
    · exact .inr (.inr (.inl (by simpa [hmn] using hflag)))
    · exact .inr (.inr (.inr hrec))
  · exact h.up_fd
  · exact h.removed

variable [Fintype Node]

/-- A failure is noted: the node is to be removed, and no longer to be added. -/
theorem Inv.fail (h : Inv s add rem send) (hfail : nodeFailureHandling s n false = some s') :
    ∃ add' rem', Inv s' add' rem' send ∧ s'.connectionUp n = false ∧ s'.recPc = s.recPc := by
  cases hdead : s.nodeDead n with
  | true =>
    have hs' : s' = s := by simpa [nodeFailureHandling, hdead] using hfail.symm
    subst hs'
    exact ⟨add, rem, h, h.nodes.dead_down n hdead, rfl⟩
  | false =>
    have hrem : n ∉ rem := by
      intro hmem
      rw [h.nodes.rem_dead n hmem] at hdead
      cases hdead
    obtain ⟨l, hremove, hl⟩ := Links.remove_spec h.add_list n
    simp only [nodeFailureHandling, hdead, removeAddNodeReceiveThread, hremove, Bool.false_eq_true,
      if_false, map_some, bind_eq_bind, bind_some, Option.some.injEq] at hfail
    subst hfail
    refine ⟨add.erase n, n :: rem, ⟨hl, Links.insert_spec h.rem_list hrem, h.send_list, ?_,
      h.poll.congr rfl rfl rfl rfl⟩, by simp [insertRemNodeReceiveThread], rfl⟩
    have hfresh : ∀ m, s.sendPc m = .connected ∨
        s.sendPc m = .connecting ∧ update s.connectionUp n false m = true → Fresh s m := by
      intro m hm
      rcases eq_or_ne m n with rfl | hmn
      · exact .inl (by simpa using hm)
      · simpa [Fresh, hmn] using hm
    constructor
    · intro m hm
      exact h.nodes.add_send m (mem_of_mem_erase hm)
    · intro m hm
      have hold := h.nodes.fresh m (hfresh m hm)
      exact ⟨fun hmem => hold.1 (mem_of_mem_erase hmem), hold.2⟩
    · intro m hm
      rcases mem_cons.mp hm with rfl | hold
      · simp [insertRemNodeReceiveThread]
      · have hmn : m ≠ n := by
          rintro rfl
          exact hrem hold
        simpa [insertRemNodeReceiveThread, hmn] using h.nodes.rem_dead m hold
    · intro m hm
      rcases eq_or_ne m n with rfl | hmn
      · simp [insertRemNodeReceiveThread]
      · simpa [insertRemNodeReceiveThread, hmn] using
          h.nodes.dead_down m (by simpa [insertRemNodeReceiveThread, hmn] using hm)
    · exact h.nodes.flag_send
    · intro m hm
      rcases eq_or_ne m n with rfl | hmn
      · exact .inr mem_cons_self
      · rcases h.nodes.flag_up m hm with hup | hmem
        · exact .inl (by simpa [insertRemNodeReceiveThread, hmn] using hup)
        · exact .inr (mem_cons_of_mem n hmem)
    · intro m hm
      rcases eq_or_ne m n with rfl | hmn
      · simp [insertRemNodeReceiveThread] at hm
      · rcases h.nodes.up m (by simpa [insertRemNodeReceiveThread, hmn] using hm) with hc | hmem | hrest
        · exact .inl (by simpa [Fresh, insertRemNodeReceiveThread, hmn] using hc)
        · exact .inr (.inl ((mem_erase_of_ne hmn).mpr hmem))
        · exact .inr (.inr hrest)
    · intro m hm
      rcases eq_or_ne m n with rfl | hmn
      · simp [insertRemNodeReceiveThread] at hm
      · exact h.nodes.up_fd m (by simpa [insertRemNodeReceiveThread, hmn] using hm)
    · exact h.nodes.removed

/-- The first node of the list of nodes to add. -/
theorem Inv.addNext (h : Inv s (n :: add) rem send) (hrec : s.recPc = .adding) {pollOk : Bool}
    (hstop : s.stopOrdered n = false ∨ s.connectionUp n = false)
    (hstep : addNodeReceiveThread s n pollOk = some s') :
    ∃ add rem send, Inv s' add rem send := by
  have hadd : n ∉ add := (nodup_cons.mp h.add_list.nodup).1
  have hsend : n ∉ send := h.nodes.add_send n mem_cons_self
  have hflag : s.inPollSet n = false := by
    cases hf : s.inPollSet n with
    | false => rfl
    | true => exact absurd (h.nodes.flag_send n hf) hsend
  obtain ⟨l, hremove, hl⟩ := Links.remove_spec h.add_list n
  rw [erase_cons_head] at hl
  have hsendList := Links.insert_spec h.send_list hsend
  simp only [addNodeReceiveThread, removeAddNodeReceiveThread, hremove, map_some,
    bind_eq_bind, bind_some, mem_cons_self, decide_true, if_true,
    insertNodeReceiveThread] at hstep
  cases hup : s.connectionUp n with
  | false =>
    simp only [hup, Bool.false_and, Bool.false_eq_true, if_false, Option.some.injEq] at hstep
    subst hstep
    have hsame : update s.inPollSet n false = s.inPollSet := by
      rw [← hflag, update_eq_self]
    have hnodes := h.nodes.taken hadd hup.symm
    rw [hsame] at hnodes
    exact ⟨add, rem, n :: send, hl, h.rem_list, hsendList,
      hnodes.congr rfl rfl rfl rfl rfl rfl,
      h.poll.congr rfl rfl rfl rfl⟩
  | true =>
    have hstop' : s.stopOrdered n = false := by
      rcases hstop with hs | hs
      · exact hs
      · rw [hup] at hs
        cases hs
    simp only [hup, hstop', Bool.not_false, Bool.and_self, if_true] at hstep
    cases pollOk with
    | true =>
      simp only [if_true, Option.some.injEq] at hstep
      subst hstep
      have hnodes := h.nodes.taken hadd hup.symm
      exact ⟨add, rem, n :: send, hl, h.rem_list, hsendList,
        hnodes.congr rfl rfl rfl rfl rfl rfl,
        (h.poll.insert hflag (h.nodes.up_fd n hup)).congr rfl rfl rfl rfl⟩
    | false =>
      obtain ⟨l', hremove', hl'⟩ := Links.remove_spec hsendList n
      rw [erase_cons_head] at hl'
      simp only [Bool.false_eq_true, if_false, removeNodeReceiveThread, hremove', map_some,
        bind_some, Option.some.injEq] at hstep
      subst hstep
      have hnodes := h.nodes.notTaken hrec
      exact ⟨add, rem, send, hl, h.rem_list, hl',
        hnodes.congr rfl rfl rfl rfl rfl rfl,
        h.poll.congr rfl rfl rfl rfl⟩

/-- The first node of the list of nodes to remove: what is removed from the poll set is its
socket, so that this does not fail. -/
theorem Inv.removeNext (h : Inv s add (n :: rem) send) {ok : Bool}
    (hstep : remNodeFromReceiveThread s n = some (s', ok)) :
    ok = true ∧ Inv s' add rem (send.erase n) := by
  obtain ⟨l, hremove, hl⟩ := Links.remove_spec h.send_list n
  obtain ⟨l', hremove', hl'⟩ := Links.remove_spec h.rem_list n
  rw [erase_cons_head] at hl'
  have hnodes := h.nodes.remove
  simp only [remNodeFromReceiveThread, removeNodeReceiveThread, removeRemNodeReceiveThread, hremove,
    hremove', map_some, bind_eq_bind, bind_some, mem_cons_self,
    decide_true, if_true] at hstep
  cases hflag : s.inPollSet n with
  | true =>
    have hfd : s.fd n ∈ s.pollSet := (h.poll.flag n).mp hflag
    simp only [hflag, if_true, hfd, Option.some.injEq, Prod.mk.injEq] at hstep
    obtain ⟨rfl, rfl⟩ := hstep
    exact ⟨rfl, h.add_list, hl', hl, hnodes.congr rfl rfl rfl rfl rfl rfl,
      (h.poll.erase hfd).congr rfl rfl rfl rfl⟩
  | false =>
    simp only [hflag, Bool.false_eq_true, if_false, Option.some.injEq, Prod.mk.injEq] at hstep
    obtain ⟨rfl, rfl⟩ := hstep
    have hsame : update s.inPollSet n false = s.inPollSet := by
      rw [← hflag, update_eq_self]
    rw [hsame] at hnodes
    exact ⟨rfl, h.add_list, hl', hl, hnodes.congr rfl rfl rfl rfl rfl rfl,
      h.poll.congr rfl rfl rfl rfl⟩

omit [Fintype Node] in
/-- The send thread sees that the connection is down, and goes back to connecting. -/
theorem Inv.leave (h : Inv s add rem send) (hdown : s.connectionUp n = false) :
    Inv { s with sendPc := update s.sendPc n .connecting } add rem send := by
  refine ⟨h.add_list, h.rem_list, h.send_list, ?_, h.poll.congr rfl rfl rfl rfl⟩
  refine ⟨h.nodes.add_send, ?_, h.nodes.rem_dead, h.nodes.dead_down, h.nodes.flag_send,
    h.nodes.flag_up, ?_, h.nodes.up_fd, h.nodes.removed⟩
  · intro m hm
    rcases eq_or_ne m n with rfl | hmn
    · simp [Fresh, hdown] at hm
    · exact h.nodes.fresh m (by simpa [Fresh, hmn] using hm)
  · intro m hm
    have hmn : m ≠ n := by
      rintro rfl
      change s.connectionUp m = true at hm
      rw [hdown] at hm
      cases hm
    simpa [Fresh, hmn] using h.nodes.up m hm

omit [DecidableEq Node] [Fintype Node] in
theorem Inv.setRecPc (h : Inv s add rem send) {pc : RecPc Node} (hpc : ∀ n, pc ≠ .removeFailed n)
    (hdone : ∀ m, s.recPc = .addFailed m → s.connectionUp m = false) :
    Inv { s with recPc := pc } add rem send :=
  ⟨h.add_list, h.rem_list, h.send_list, h.nodes.setRecPc hpc hdone, h.poll.congr rfl rfl rfl rfl⟩

omit [DecidableEq Node] [Fintype Node] in
theorem Inv.unlisted_iff (h : Inv s add rem send) :
    Unlisted s n ↔ n ∉ add ∧ n ∉ rem ∧ n ∉ send := by
  rw [Unlisted, h.add_list.onChain_iff, h.rem_list.onChain_iff, h.send_list.onChain_iff]

/-- A step of the receive thread in the first loop. -/
theorem Inv.addStep (h : Inv s add rem send) {pollOk : Bool} (hok : Orderly s (.addNext pollOk))
    (hstep : step s (.addNext pollOk) = some s') : ∃ add rem send, Inv s' add rem send := by
  have hrec : s.recPc = .adding := by
    by_contra hne
    simp [step, hne] at hstep
  simp only [step, hrec, if_true] at hstep
  cases hfirst : s.addNodes.first with
  | none =>
    simp only [hfirst, Option.some.injEq] at hstep
    subst hstep
    exact ⟨add, rem, send, h.setRecPc (fun _ => nofun) (by simp [hrec])⟩
  | some n =>
    simp only [hfirst] at hstep
    obtain ⟨add, rfl⟩ := Chain.eq_cons (hfirst ▸ h.add_list)
    exact h.addNext hrec (hok n hfirst) hstep

/-- A step of the receive thread in the second loop. -/
theorem Inv.removeStep (h : Inv s add rem send) (hstep : step s .removeNext = some s') :
    ∃ add rem send, Inv s' add rem send := by
  have hrec : s.recPc = .removing := by
    by_contra hne
    simp [step, hne] at hstep
  simp only [step, hrec, if_true] at hstep
  cases hfirst : s.remNodes.first with
  | none =>
    simp only [hfirst, Option.some.injEq] at hstep
    subst hstep
    exact ⟨add, rem, send, h.setRecPc (fun _ => nofun) (by simp [hrec])⟩
  | some n =>
    simp only [hfirst, bind_eq_bind, bind_eq_some_iff] at hstep
    obtain ⟨⟨s₁, ok⟩, hremove, hstep⟩ := hstep
    obtain ⟨rem, rfl⟩ := Chain.eq_cons (hfirst ▸ h.rem_list)
    obtain ⟨rfl, hinv⟩ := h.removeNext hremove
    simp only [if_true, Option.some.injEq] at hstep
    subst hstep
    exact ⟨add, rem, send.erase n, hinv⟩

/-- An orderly step keeps the invariant. -/
theorem step_inv (s : State Node) (a : Label Node) (s' : State Node) (hok : Orderly s a)
    (hstep : step s a = some s') (hs : ∃ add rem send, Inv s add rem send) :
    ∃ add rem send, Inv s' add rem send := by
  obtain ⟨add, rem, send, h⟩ := hs
  cases a with
  | connect n =>
    obtain ⟨hunlisted, hpc⟩ := hok
    obtain ⟨hadd, hrem, hsend⟩ := h.unlisted_iff.mp hunlisted
    cases hstep
    exact ⟨add, rem, send, h.connect hadd hrem hsend hpc⟩
  | connected n =>
    simp only [step, ite_none_right_eq_some, Option.some.injEq] at hstep
    obtain ⟨⟨hpc, hup⟩, rfl⟩ := hstep
    exact ⟨add, rem, send, h.connected hpc hup⟩
  | moveNode n =>
    simp only [step, ite_none_right_eq_some, Option.some.injEq] at hstep
    obtain ⟨hpc, rfl⟩ := hstep
    exact ⟨n :: add, rem, send, h.moveNode hpc⟩
  | leave n =>
    simp only [step, ite_none_right_eq_some, map_eq_some_iff] at hstep
    obtain ⟨-, s₁, hfail, rfl⟩ := hstep
    obtain ⟨add', rem', h₁, hdown, -⟩ := h.fail hfail
    exact ⟨add', rem', send, h₁.leave hdown⟩
  | fail n =>
    obtain ⟨add', rem', h₁, -⟩ := h.fail hstep
    exact ⟨add', rem', send, h₁⟩
  | stopOrder n =>
    cases hstep
    exact ⟨add, rem, send, h.add_list, h.rem_list, h.send_list,
      h.nodes.congr rfl rfl rfl rfl rfl rfl, h.poll.congr rfl rfl rfl rfl⟩
  | reorganise =>
    simp only [step, ite_none_right_eq_some, Option.some.injEq] at hstep
    obtain ⟨hrec, rfl⟩ := hstep
    exact ⟨add, rem, send, h.setRecPc (fun _ => nofun) (by simp [hrec])⟩
  | addNext pollOk => exact h.addStep hok hstep
  | addFailure =>
    cases hrec : s.recPc with
    | addFailed n =>
      simp only [step, hrec, map_eq_some_iff] at hstep
      obtain ⟨s₁, hfail, rfl⟩ := hstep
      obtain ⟨add', rem', h₁, hdown, hrec₁⟩ := h.fail hfail
      refine ⟨add', rem', send, h₁.setRecPc (fun _ => nofun) ?_⟩
      intro m hm
      rw [hrec₁, hrec] at hm
      cases hm
      exact hdown
    | _ => simp [step, hrec] at hstep
  | removeNext => exact h.removeStep hstep
  | removeFailure =>
    cases hrec : s.recPc with
    | removeFailed n => exact absurd hrec (h.nodes.removed n)
    | _ => simp [step, hrec] at hstep

omit [DecidableEq Node] [Fintype Node] in
theorem startState_inv : Inv (startState : State Node) [] [] [] := by
  refine ⟨rfl, rfl, rfl, ?_, ?_⟩
  · constructor <;> simp [startState, Fresh]
  · constructor <;> simp [startState]

/-- In every orderly run no list has a node twice, the sockets in the poll set are those of
the flagged nodes, and once nothing is pending they are those of the connections that are
up. -/
theorem receive_nodes_ok (as : List (Label Node)) (hok : Run.Along step Orderly startState as) :
    Run.Always step NodesOk startState as := by
  intro pre s' hpre hrun
  obtain ⟨rest, rfl⟩ := hpre
  have hokpre := (Run.along_of_append step hrun hok).1
  obtain ⟨add, rem, send, h⟩ := Run.invariant_along step Orderly
    (fun s => ∃ add rem send, Inv s add rem send) step_inv hokpre hrun ⟨[], [], [], startState_inv⟩
  exact h.nodesOk

end

/-- Two nodes connect. One of them fails, is taken off the lists, and connects again, with a
socket that the poll set does not take at first. -/
def failAndReconnect : List (Label (Fin 2)) :=
  [.connect 0, .connect 1, .connected 0, .connected 1, .moveNode 0, .moveNode 1, .reorganise,
    .addNext true, .addNext true, .addNext true, .removeNext, .fail 0, .leave 0, .fail 1, .leave 1,
    .reorganise, .addNext true, .removeNext, .removeNext, .removeNext, .connect 0, .connected 0,
    .moveNode 0, .reorganise, .addNext false, .addFailure, .addNext true, .removeNext, .removeNext,
    .leave 0, .connect 0, .connected 0, .moveNode 0, .reorganise, .addNext true, .addNext true, .removeNext]

theorem receive_nodes_ok_failAndReconnect :
    Run.Along step Orderly startState failAndReconnect ∧
      (Run.exec step startState failAndReconnect).map (fun s => (s.pollSet, s.connectionUp 0)) =
        some ([4], true) ∧
      Run.Always step NodesOk startState failAndReconnect := by
  have hstop : ∀ {s : State (Fin 2)} {pollOk : Bool}, s.stopOrdered = (fun _ => false) →
      Orderly s (.addNext pollOk) := fun h n _ => Or.inl (congrFun h n)
  have hempty : ∀ {s : State (Fin 2)} {n : Fin 2}, s.addNodes.first = none →
      s.remNodes.first = none → s.sendNodes.first = none → s.sendPc n = .connecting →
        Orderly s (.connect n) := by
    intro s n hadd hrem hsend hpc
    refine ⟨⟨?_, ?_, ?_⟩, ?_⟩
    · rw [hadd]
      exact nofun
    · rw [hrem]
      exact nofun
    · rw [hsend]
      exact nofun
    · rw [hpc]
      exact nofun
  have hok : Run.Along step Orderly startState failAndReconnect := by
    repeat' first
      | exact trivial
      | exact hempty rfl rfl rfl rfl
      | exact hstop rfl
      | refine (Run.along_cons step rfl).mpr ⟨?_, ?_⟩
  exact ⟨hok, by decide, receive_nodes_ok failAndReconnect hok⟩

theorem not_acyclic_of_loop {l : Links Node} (hfirst : l.first = some n) (hnext : l.next n = some n) :
    ¬ l.Acyclic := by
  rintro ⟨nodes, h⟩
  rw [hfirst] at h
  obtain ⟨rest, rfl⟩ := h.eq_cons
  have hrest : Chain l.next (some n) rest := hnext ▸ h.2
  have hlen := congrArg List.length (hrest.det h)
  simp at hlen

/-- A node fails and connects again before the receive thread has removed it: it is inserted a
second time into the list of the nodes that the receive thread handles. -/
theorem listed_twice :
    ¬ Run.Always step NodesOk (startState : State Unit)
      [.connect (), .connected (), .moveNode (), .reorganise, .addNext true, .addNext true,
        .removeNext, .fail (), .leave (), .connect (), .connected (), .moveNode (), .reorganise,
        .addNext true] := by
  intro h
  exact not_acyclic_of_loop rfl rfl (h _ _ List.prefix_rfl rfl).send

end IClaustron.Apid.ReceiveNodes
