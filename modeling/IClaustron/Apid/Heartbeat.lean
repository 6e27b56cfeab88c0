import IClaustron.Lib.Run
import Mathlib.Data.List.Nodup
import Mathlib.Logic.Function.Basic

/-!
# Apid.Heartbeat — the rounds of the heartbeat thread

Model of api/ic_apid_heartbeat.ic. The node connections that get heartbeats are in a
list; the heartbeat thread goes through it with a cursor, and gives the heartbeat mutex
back between two nodes. The other parties are the send threads, which add a node when
it has connected (run_send_thread in ic_apid_send_thread.ic), and whoever finds out that
a node has failed (node_failure_handling in ic_apid_send_message.ic).

1. **Model**: one label for what a thread does while it holds the mutex. A heartbeat is
   prepared with the mutex and handed to ndb_send without it.
2. **Invariant**: the cursor is in the list, and so is the node of a prepared heartbeat
   as long as the node is not dead.
3. **Rounds**: `RoundInv` follows one node through a round.

* `heartbeats_ok` — in runs that never come to the branch "remove node have moved
  curr_heartbeat_node forward" heartbeats go to nodes of the list, and a round reaches
  every node once.

Scope limits: the links are a list, since no function reads the link of a node outside
it; sleeping, polling and the pages are left out; a failed `ic_require` has no step.
-/

namespace IClaustron.Apid.Heartbeat

open Lib List Function

/-! ## Model -/

/-- Where the send thread of a node is in `run_send_thread`. -/
inductive Phase where
  /-- In connect_by_send_thread. -/
  | connecting
  /-- Connected, in front of add_node_to_heartbeat_thread. -/
  | connected
  /-- In active_send_thread. -/
  | active
deriving DecidableEq

structure State (Node : Type) where
  /-- From first_heartbeat_node along next_heartbeat_node. -/
  nodes : List Node
  /-- curr_heartbeat_node. -/
  curr : Option Node
  /-- last_send_node_conn, a variable of the heartbeat thread. -/
  last : Option Node
  /-- The node of the heartbeat that is prepared and not yet sent. -/
  page : Option Node
  /-- heartbeat_thread_waiting. -/
  waiting : Bool
  /-- node_dead. -/
  dead : Node → Bool
  phase : Node → Phase

inductive Label (Node : Type) where
  /-- The node connects: by its send thread, or by the listen server thread. -/
  | connect (n : Node)
  /-- add_node_to_heartbeat_thread. -/
  | addNode (n : Node)
  /-- active_send_thread returns. -/
  | leave (n : Node)
  /-- node_failure_handling. -/
  | nodeFailure (n : Node)
  /-- One turn of the heartbeat thread, up to the unlock of the mutex. -/
  | turn
  /-- The heartbeat thread wakes up from its wait. -/
  | wake
  /-- ndb_send. -/
  | ndbSend
deriving DecidableEq

variable {Node : Type} [DecidableEq Node]

def init : State Node where
  nodes := []
  curr := none
  last := none
  page := none
  waiting := false
  dead := fun _ => false
  phase := fun _ => .connecting

/-- `next_heartbeat_node` of a node in the list. -/
def nextNode (nodes : List Node) (n : Node) : Option Node :=
  (nodes.dropWhile fun m => m ≠ n).tail.head?

/-- `rem_node_from_heartbeat_thread`. -/
def remNodeFromHeartbeatThread (s : State Node) (n : Node) : Option (State Node) :=
  -- ic_require(next_node)
  if n ∈ s.nodes then
    some { s with
      nodes := s.nodes.erase n
      curr := if s.curr = some n then nextNode s.nodes n else s.curr }
  else none

/-- `prepare_send_heartbeat` for last_send_node_conn. -/
def prepareSendHeartbeat (s : State Node) : State Node := { s with page := s.last }

/-- One turn of `run_heartbeat_thread`. -/
def turn (s : State Node) : State Node :=
  match s.nodes with
  | [] => { s with last := none, waiting := true }
  | first :: _ =>
    match s.curr with
    | none => prepareSendHeartbeat { s with last := some first, curr := some first }
    | some c =>
      if s.last = some c then
        match nextNode s.nodes c with
        | none => { s with curr := none, last := none }
        | some next => prepareSendHeartbeat { s with curr := some next, last := some next }
      else
        -- the cursor has moved, last_send_node_conn has not
        prepareSendHeartbeat s

def step (s : State Node) : Label Node → Option (State Node)
  | .connect n => some { s with
      dead := update s.dead n false
      phase := if s.phase n = .connecting then update s.phase n .connected else s.phase }
  | .addNode n =>
    if s.phase n = .connected then
      some { s with nodes := n :: s.nodes, phase := update s.phase n .active }
    else none
  | .leave n =>
    if s.phase n = .active ∧ s.dead n = true then
      some { s with phase := update s.phase n .connecting }
    else none
  | .nodeFailure n =>
    if s.dead n = true then some s
    else (remNodeFromHeartbeatThread s n).map fun s => { s with dead := update s.dead n true }
  | .turn => if s.page = none ∧ s.waiting = false then some (turn s) else none
  | .wake => if s.waiting = true then some { s with waiting := false } else none
  | .ndbSend =>
    match s.page with
    | none => none
    | some _ => some { s with page := none }

/-- The step sends a heartbeat to `n`: `ndb_send` drops the page of a dead node. -/
def Sends (s : State Node) (a : Label Node) (n : Node) : Prop :=
  a = .ndbSend ∧ s.page = some n ∧ s.dead n = false

instance (s : State Node) (a : Label Node) (n : Node) : Decidable (Sends s a n) :=
  inferInstanceAs (Decidable (_ ∧ _))

/-- How many heartbeats a run sends to `n`. -/
def sentCount (n : Node) : State Node → List (Label Node) → Nat
  | _, [] => 0
  | s, a :: as =>
    (if Sends s a n then 1 else 0) +
      match step s a with
      | none => 0
      | some s' => sentCount n s' as

/-- A complete round: it starts with a turn that sets the cursor, and ends when the cursor
is NULL again. -/
structure Round (s : State Node) (as : List (Label Node)) (s' : State Node) : Prop where
  start : s.curr = none
  run : Run.exec step s (.turn :: as) = some s'
  inside : ∀ s₁, step s .turn = some s₁ → Run.Along step (fun t _ => t.curr ≠ none) s₁ as
  finish : s'.curr = none

/-- What a run has to keep to: a turn does not find the cursor moved by the removal of a
node, and a dead node does not connect while a heartbeat for it is prepared. -/
def Ok (s : State Node) : Label Node → Prop
  | .turn => s.nodes = [] ∨ s.curr = none ∨ s.curr = s.last
  | .connect n => s.page = some n → s.dead n = false
  | _ => True

instance (s : State Node) : ∀ a, Decidable (Ok s a)
  | .turn => inferInstanceAs (Decidable (_ ∨ _))
  | .connect _ => inferInstanceAs (Decidable (_ → _))
  | .addNode _ => isTrue trivial
  | .leave _ => isTrue trivial
  | .nodeFailure _ => isTrue trivial
  | .wake => isTrue trivial
  | .ndbSend => isTrue trivial

/-! ## Invariant -/

variable {k : Nat}

section

variable {s s' : State Node} {a : Label Node} {n m c : Node} {pre post : List Node}

theorem nextNode_split (hc : c ∉ pre) : nextNode (pre ++ c :: post) c = post.head? := by
  unfold nextNode
  rw [dropWhile_append_of_pos]
  · simp
  · intro m hm
    simp only [ne_eq, decide_eq_true_eq]
    rintro rfl
    exact hc hm

structure Inv (s : State Node) : Prop where
  nodup : s.nodes.Nodup
  listed : ∀ n ∈ s.nodes, s.phase n = .active ∧ s.dead n = false
  alive : ∀ n, s.phase n = .connected → s.dead n = false
  curr : ∀ c, s.curr = some c → c ∈ s.nodes
  page : ∀ n, s.page = some n → s.last = some n ∧ (n ∈ s.nodes ∨ s.dead n = true)

omit [DecidableEq Node] in
theorem init_inv : Inv (init : State Node) := by
  constructor
  · exact nodup_nil
  · nofun
  · intro n h
    rfl
  · nofun
  · nofun

theorem split_once {pre post : List Node} (hnodes : s.nodes = pre ++ c :: post)
    (hnodup : s.nodes.Nodup) : c ∉ pre ∧ c ∉ post ∧ nextNode s.nodes c = post.head? := by
  rw [hnodes, nodup_append, nodup_cons] at hnodup
  have hpre : c ∉ pre := by
    intro hmem
    exact hnodup.2.2 c hmem c mem_cons_self rfl
  refine ⟨hpre, hnodup.2.1.1, ?_⟩
  rw [hnodes, nextNode_split hpre]

theorem mem_split (hc : c ∈ s.nodes) (hnodup : s.nodes.Nodup) :
    ∃ pre post, s.nodes = pre ++ c :: post ∧ c ∉ pre ∧ c ∉ post ∧
      nextNode s.nodes c = post.head? := by
  rcases append_of_mem hc with ⟨pre, post, hnodes⟩
  exact ⟨pre, post, hnodes, split_once hnodes hnodup⟩

theorem nextNode_mem (hc : c ∈ s.nodes) (hnodup : s.nodes.Nodup)
    (hnext : nextNode s.nodes c = some m) : m ∈ s.nodes ∧ m ≠ c := by
  rcases mem_split hc hnodup with ⟨pre, post, hnodes, _, hpost, hhead⟩
  rw [hhead] at hnext
  have hm := mem_of_mem_head? (Option.mem_def.mpr hnext)
  refine ⟨?_, ?_⟩
  · rw [hnodes]
    exact mem_append_right _ (mem_cons_of_mem _ hm)
  · rintro rfl
    exact hpost hm

/-- What a turn can do, when it meets its condition. -/
theorem turn_cases (hinv : Inv s) (hok : Ok s .turn) :
    (s.nodes = [] ∧ turn s = { s with last := none, waiting := true }) ∨
      (∃ n, n ∈ s.nodes ∧ turn s = { s with curr := some n, last := some n, page := some n } ∧
        ((s.curr = none ∧ s.nodes.head? = some n) ∨
          ∃ c, s.curr = some c ∧ s.last = some c ∧ nextNode s.nodes c = some n)) ∨
      (∃ c, s.curr = some c ∧ s.last = some c ∧ nextNode s.nodes c = none ∧
        turn s = { s with curr := none, last := none }) := by
  unfold turn
  cases hnodes : s.nodes with
  | nil => exact .inl ⟨rfl, rfl⟩
  | cons first rest =>
    right
    cases hcurr : s.curr with
    | none =>
      refine .inl ⟨first, mem_cons_self, ?_, .inl ⟨rfl, rfl⟩⟩
      rfl
    | some c =>
      have hlast : s.last = some c := by
        rcases hok with h | h | h
        · rw [hnodes] at h
          cases h
        · rw [hcurr] at h
          cases h
        · rw [← h, hcurr]
      dsimp only
      rw [if_pos hlast]
      have hc := hinv.curr c hcurr
      cases hnext : nextNode s.nodes c with
      | none =>
        rw [hnodes] at hnext
        rw [hnext]
        exact .inr ⟨c, rfl, hlast, hnext, rfl⟩
      | some m =>
        have hm := (nextNode_mem hc hinv.nodup hnext).1
        rw [hnodes] at hnext hm
        rw [hnext]
        exact .inl ⟨m, hm, rfl, .inr ⟨c, rfl, hlast, hnext⟩⟩

theorem turn_inv (hinv : Inv s) (hok : Ok s .turn) (hpage : s.page = none) : Inv (turn s) := by
  rcases turn_cases hinv hok with ⟨_, hturn⟩ | ⟨n, hn, hturn, _⟩ | ⟨c, _, _, _, hturn⟩
  · rw [hturn]
    refine ⟨hinv.nodup, hinv.listed, hinv.alive, hinv.curr, ?_⟩
    intro m hm
    rw [hpage] at hm
    cases hm
  · rw [hturn]
    refine ⟨hinv.nodup, hinv.listed, hinv.alive, ?_, ?_⟩
    · rintro c ⟨⟩
      exact hn
    · rintro m ⟨⟩
      exact ⟨rfl, .inl hn⟩
  · rw [hturn]
    refine ⟨hinv.nodup, hinv.listed, hinv.alive, nofun, ?_⟩
    intro m hm
    rw [hpage] at hm
    cases hm

theorem connect_inv (hinv : Inv s) (hok : Ok s (.connect n)) (hstep : step s (.connect n) = some s') :
    Inv s' := by
  cases hstep
  refine ⟨hinv.nodup, ?_, ?_, hinv.curr, ?_⟩
  · intro m hm
    rcases hinv.listed m hm with ⟨hphase, hdead⟩
    refine ⟨?_, ?_⟩
    · dsimp only
      split_ifs with hn
      · rw [update_of_ne, hphase]
        rintro rfl
        rw [hphase] at hn
        cases hn
      · exact hphase
    · dsimp only
      by_cases hmn : m = n
      · rw [hmn, update_self]
      · rw [update_of_ne hmn, hdead]
  · intro m hm
    dsimp only at hm ⊢
    by_cases hmn : m = n
    · rw [hmn, update_self]
    · rw [update_of_ne hmn]
      apply hinv.alive m
      split_ifs at hm
      · rwa [update_of_ne hmn] at hm
      · exact hm
  · intro m hm
    rcases hinv.page m hm with ⟨hlast, hmem | hdead⟩
    · exact ⟨hlast, .inl hmem⟩
    · refine ⟨hlast, .inr ?_⟩
      dsimp only
      rw [update_of_ne, hdead]
      rintro rfl
      rw [hok hm] at hdead
      cases hdead

theorem addNode_inv (hinv : Inv s) (hstep : step s (.addNode n) = some s') : Inv s' := by
  dsimp only [step] at hstep
  split_ifs at hstep with hphase
  cases hstep
  have hn : n ∉ s.nodes := by
    intro hmem
    rw [(hinv.listed n hmem).1] at hphase
    cases hphase
  refine ⟨nodup_cons.mpr ⟨hn, hinv.nodup⟩, ?_, ?_, ?_, ?_⟩
  · intro m hm
    dsimp only
    rcases mem_cons.mp hm with rfl | hmem
    · exact ⟨update_self _ _ _, hinv.alive m hphase⟩
    · rw [update_of_ne]
      · exact hinv.listed m hmem
      · rintro rfl
        exact hn hmem
  · intro m hm
    dsimp only at hm ⊢
    by_cases hmn : m = n
    · rw [hmn, update_self] at hm
      cases hm
    · rw [update_of_ne hmn] at hm
      exact hinv.alive m hm
  · intro c hc
    exact mem_cons_of_mem n (hinv.curr c hc)
  · intro m hm
    rcases hinv.page m hm with ⟨hlast, hmem | hdead⟩
    · exact ⟨hlast, .inl (mem_cons_of_mem n hmem)⟩
    · exact ⟨hlast, .inr hdead⟩

theorem leave_inv (hinv : Inv s) (hstep : step s (.leave n) = some s') : Inv s' := by
  dsimp only [step] at hstep
  split_ifs at hstep with hleave
  cases hstep
  refine ⟨hinv.nodup, ?_, ?_, hinv.curr, hinv.page⟩
  · intro m hm
    dsimp only
    rw [update_of_ne]
    · exact hinv.listed m hm
    · rintro rfl
      rw [(hinv.listed m hm).2] at hleave
      cases hleave.2
  · intro m hm
    dsimp only at hm ⊢
    by_cases hmn : m = n
    · rw [hmn, update_self] at hm
      cases hm
    · rw [update_of_ne hmn] at hm
      exact hinv.alive m hm

/-- A node that fails is in the list, or nothing happens. -/
theorem nodeFailure_cases (hstep : step s (.nodeFailure n) = some s') :
    (s.dead n = true ∧ s' = s) ∨
      (n ∈ s.nodes ∧ s' = { s with
        nodes := s.nodes.erase n
        curr := if s.curr = some n then nextNode s.nodes n else s.curr
        dead := update s.dead n true }) := by
  dsimp only [step] at hstep
  by_cases hdead : s.dead n = true
  · rw [if_pos hdead] at hstep
    cases hstep
    exact .inl ⟨hdead, rfl⟩
  · rw [if_neg hdead] at hstep
    unfold remNodeFromHeartbeatThread at hstep
    by_cases hn : n ∈ s.nodes
    · rw [if_pos hn] at hstep
      cases hstep
      exact .inr ⟨hn, rfl⟩
    · rw [if_neg hn] at hstep
      cases hstep

theorem nodeFailure_inv (hinv : Inv s) (hstep : step s (.nodeFailure n) = some s') : Inv s' := by
  rcases nodeFailure_cases hstep with ⟨_, rfl⟩ | ⟨hn, rfl⟩
  · exact hinv
  have hother : ∀ m ∈ s.nodes.erase n, m ≠ n ∧ m ∈ s.nodes := by
    intro m hm
    exact hinv.nodup.mem_erase_iff.mp hm
  refine ⟨hinv.nodup.erase n, ?_, ?_, ?_, ?_⟩
  · intro m hm
    dsimp only
    rcases hother m hm with ⟨hmn, hm⟩
    rw [update_of_ne hmn]
    exact hinv.listed m hm
  · intro m hm
    dsimp only at hm ⊢
    have hmn : m ≠ n := by
      rintro rfl
      rw [(hinv.listed m hn).1] at hm
      cases hm
    rw [update_of_ne hmn]
    exact hinv.alive m hm
  · intro c hc
    dsimp only at hc ⊢
    rw [hinv.nodup.mem_erase_iff]
    split_ifs at hc with hcurr
    · exact (nextNode_mem hn hinv.nodup hc).symm
    · refine ⟨?_, hinv.curr c hc⟩
      rintro rfl
      exact hcurr hc
  · intro m hm
    dsimp only at hm ⊢
    rcases hinv.page m hm with ⟨hlast, hmem⟩
    refine ⟨hlast, ?_⟩
    by_cases hmn : m = n
    · rw [hmn, update_self]
      exact .inr rfl
    · rw [update_of_ne hmn, hinv.nodup.mem_erase_iff]
      exact hmem.imp_left fun hmem => ⟨hmn, hmem⟩

theorem step_inv (hok : Ok s a) (hstep : step s a = some s') (hinv : Inv s) : Inv s' := by
  cases a with
  | connect n => exact connect_inv hinv hok hstep
  | addNode n => exact addNode_inv hinv hstep
  | leave n => exact leave_inv hinv hstep
  | nodeFailure n => exact nodeFailure_inv hinv hstep
  | turn =>
    dsimp only [step] at hstep
    split_ifs at hstep with hturn
    cases hstep
    exact turn_inv hinv hok hturn.1
  | wake =>
    dsimp only [step] at hstep
    split_ifs at hstep
    cases hstep
    exact ⟨hinv.nodup, hinv.listed, hinv.alive, hinv.curr, hinv.page⟩
  | ndbSend =>
    dsimp only [step] at hstep
    split at hstep
    · cases hstep
    · cases hstep
      exact ⟨hinv.nodup, hinv.listed, hinv.alive, hinv.curr, nofun⟩

omit [DecidableEq Node] in
/-- A heartbeat goes to a node of the list. -/
theorem sends_mem (hinv : Inv s) (hsends : Sends s a n) : n ∈ s.nodes := by
  rcases hsends with ⟨-, hpage, halive⟩
  rcases (hinv.page n hpage).2 with hmem | hdead
  · exact hmem
  · rw [halive] at hdead
    cases hdead

/-! ## Rounds -/

/-- Node `n`, which stays in the list, has been sent `k` heartbeats in the round. The cursor
`c` is where the heartbeat thread left it, or a removal has moved it there; then the turns
to come are not in the run. -/
def RoundInv (n : Node) (s : State Node) (k : Nat) : Prop :=
  ∃ pre c post, s.nodes = pre ++ c :: post ∧ s.curr = some c ∧
    ((s.last = some c ∧
        ((n ∈ pre ∧ k = 1) ∨ (n = c ∧ s.page = some c ∧ k = 0) ∨ (n = c ∧ s.page = none ∧ k = 1) ∨
          (n ∈ post ∧ k = 0))) ∨
      ((∀ l, s.last = some l → l ∉ c :: post ∧ l ≠ n) ∧ s.last ≠ none ∧
        ((n ∈ pre ∧ k = 1) ∨ (n ∈ c :: post ∧ k = 0))))

/-- In the round, or at its end. -/
def RoundOrEnd (n : Node) (s : State Node) (k : Nat) : Prop :=
  RoundInv n s k ∨ (s.curr = none ∧ k = 1)

omit [DecidableEq Node] in
theorem RoundInv.congr (h : RoundInv n s k) (hnodes : s'.nodes = s.nodes) (hcurr : s'.curr = s.curr)
    (hlast : s'.last = s.last) (hpage : s'.page = s.page) : RoundInv n s' k := by
  unfold RoundInv at *
  rw [hnodes, hcurr, hlast, hpage]
  exact h

theorem RoundInv.addNode (h : RoundInv n s k) (hstep : step s (.addNode m) = some s') :
    RoundInv n s' k := by
  dsimp only [step] at hstep
  split_ifs at hstep
  cases hstep
  rcases h with ⟨pre, c, post, hnodes, hcurr, h⟩
  refine ⟨m :: pre, c, post, by rw [hnodes]; rfl, hcurr, ?_⟩
  rcases h with ⟨hlast, h⟩ | ⟨hlast, hsome, h⟩
  · exact .inl ⟨hlast, h.imp_left fun h => ⟨mem_cons_of_mem m h.1, h.2⟩⟩
  · exact .inr ⟨hlast, hsome, h.imp_left fun h => ⟨mem_cons_of_mem m h.1, h.2⟩⟩

/-- The node at the cursor fails: the round ends, or the cursor is moved. -/
theorem RoundInv.currFails (hinv : Inv s) (h : RoundInv n s k) (hcurr : s.curr = some m)
    (hmn : n ≠ m) :
    RoundOrEnd n { s with
      nodes := s.nodes.erase m
      curr := nextNode s.nodes m
      dead := update s.dead m true } k := by
  rcases h with ⟨pre, c, post, hnodes, hc, h⟩
  have hcm : m = c := Option.some.inj (hcurr.symm.trans hc)
  subst m
  rcases split_once hnodes hinv.nodup with ⟨hpre, hpost, hnext⟩
  have herase : s.nodes.erase c = pre ++ post := by
    rw [hnodes, erase_append_right _ hpre, erase_cons_head]
  cases post with
  | nil =>
    right
    refine ⟨hnext, ?_⟩
    rcases h with ⟨_, ⟨_, hk⟩ | ⟨heq, _⟩ | ⟨heq, _⟩ | ⟨hmem, _⟩⟩ | ⟨_, _, ⟨_, hk⟩ | ⟨hmem, _⟩⟩
    · exact hk
    · exact absurd heq hmn
    · exact absurd heq hmn
    · cases hmem
    · exact hk
    · exact absurd (mem_singleton.mp hmem) hmn
  | cons d post =>
    left
    refine ⟨pre, d, post, herase, hnext, .inr ?_⟩
    rcases h with ⟨hlast, h⟩ | ⟨hlast, hsome, h⟩
    · refine ⟨?_, by simp [hlast], ?_⟩
      · intro l hl
        dsimp only at hl
        rw [hlast] at hl
        cases hl
        exact ⟨hpost, hmn.symm⟩
      · rcases h with ⟨hmem, hk⟩ | ⟨heq, _⟩ | ⟨heq, _⟩ | ⟨hmem, hk⟩
        · exact .inl ⟨hmem, hk⟩
        · exact absurd heq hmn
        · exact absurd heq hmn
        · exact .inr ⟨hmem, hk⟩
    · refine ⟨?_, hsome, ?_⟩
      · intro l hl
        rcases hlast l hl with ⟨hl, hln⟩
        exact ⟨fun hmem => hl (mem_cons_of_mem c hmem), hln⟩
      · rcases h with ⟨hmem, hk⟩ | ⟨hmem, hk⟩
        · exact .inl ⟨hmem, hk⟩
        · refine .inr ⟨?_, hk⟩
          rcases mem_cons.mp hmem with heq | hmem
          · exact absurd heq hmn
          · exact hmem

/-- Another node fails. -/
theorem RoundInv.otherFails (h : RoundInv n s k) (hcurr : s.curr ≠ some m) (hmn : n ≠ m) :
    RoundInv n { s with
      nodes := s.nodes.erase m
      dead := update s.dead m true } k := by
  rcases h with ⟨pre, c, post, hnodes, hc, h⟩
  have hmc : c ≠ m := by
    rintro rfl
    exact hcurr hc
  have herase : ∃ pre' post', s.nodes.erase m = pre' ++ c :: post' ∧ (∀ x, x ≠ m → x ∈ pre → x ∈ pre') ∧
      (∀ x, x ≠ m → x ∈ post → x ∈ post') ∧ ∀ x, x ∈ post' → x ∈ post := by
    rw [hnodes]
    by_cases hmem : m ∈ pre
    · refine ⟨pre.erase m, post, erase_append_left _ hmem, ?_, fun _ _ h => h, fun _ h => h⟩
      intro x hxm hx
      exact (mem_erase_of_ne hxm).mpr hx
    · refine ⟨pre, post.erase m, ?_, fun _ _ h => h, ?_, fun _ h => mem_of_mem_erase h⟩
      · rw [erase_append_right _ hmem, erase_cons_tail (by simpa using hmc)]
      · intro x hxm hx
        exact (mem_erase_of_ne hxm).mpr hx
  rcases herase with ⟨pre', post', herase, hpre, hpost, hsub⟩
  refine ⟨pre', c, post', herase, hc, ?_⟩
  rcases h with ⟨hlast, h⟩ | ⟨hlast, hsome, h⟩
  · refine .inl ⟨hlast, ?_⟩
    rcases h with ⟨hmem, hk⟩ | h | h | ⟨hmem, hk⟩
    · exact .inl ⟨hpre n hmn hmem, hk⟩
    · exact .inr (.inl h)
    · exact .inr (.inr (.inl h))
    · exact .inr (.inr (.inr ⟨hpost n hmn hmem, hk⟩))
  · refine .inr ⟨?_, hsome, ?_⟩
    · intro l hl
      rcases hlast l hl with ⟨hl, hln⟩
      refine ⟨?_, hln⟩
      intro hmem
      apply hl
      rcases mem_cons.mp hmem with rfl | hmem
      · exact mem_cons_self
      · exact mem_cons_of_mem c (hsub l hmem)
    · rcases h with ⟨hmem, hk⟩ | ⟨hmem, hk⟩
      · exact .inl ⟨hpre n hmn hmem, hk⟩
      · refine .inr ⟨?_, hk⟩
        rcases mem_cons.mp hmem with rfl | hmem
        · exact mem_cons_self
        · exact mem_cons_of_mem c (hpost n hmn hmem)

theorem RoundInv.nodeFailure (hinv : Inv s) (h : RoundInv n s k)
    (hstep : step s (.nodeFailure m) = some s') (hstay : n ∈ s'.nodes) : RoundOrEnd n s' k := by
  rcases nodeFailure_cases hstep with ⟨_, rfl⟩ | ⟨_, rfl⟩
  · exact .inl h
  have hmn : n ≠ m := (hinv.nodup.mem_erase_iff.mp hstay).1
  by_cases hcurr : s.curr = some m
  · rw [if_pos hcurr]
    exact h.currFails hinv hcurr hmn
  · rw [if_neg hcurr]
    exact .inl (h.otherFails hcurr hmn)

/-- A turn goes on to the next node, or ends the round. -/
theorem RoundInv.turn (hinv : Inv s) (h : RoundInv n s k) (hok : Ok s .turn) (hpage : s.page = none)
    : RoundOrEnd n (turn s) k := by
  rcases h with ⟨pre, c, post, hnodes, hc, h⟩
  rcases split_once hnodes hinv.nodup with ⟨-, -, hnext⟩
  have hlast : s.last = some c := by
    rcases hok with hno | hno | hno
    · rw [hnodes] at hno
      simp at hno
    · rw [hc] at hno
      cases hno
    · rw [← hno, hc]
  rcases h with ⟨_, h⟩ | ⟨hstray, _⟩
  · rcases turn_cases hinv hok with ⟨hno, _⟩ | ⟨d, _, hturn, hd⟩ | ⟨c', hc', _, hend, hturn⟩
    · rw [hnodes] at hno
      simp at hno
    · -- the cursor goes to the first node of `post`
      have hhead : post.head? = some d := by
        rcases hd with ⟨hno, _⟩ | ⟨c', hc', _, hd⟩
        · rw [hc] at hno
          cases hno
        · rw [hc] at hc'
          cases hc'
          rw [← hnext, hd]
      cases post with
      | nil => cases hhead
      | cons d' post =>
        cases hhead
        left
        rw [hturn]
        refine ⟨pre ++ [c], d, post, by rw [hnodes, append_assoc]; rfl, rfl, .inl ⟨rfl, ?_⟩⟩
        rcases h with ⟨hmem, hk⟩ | ⟨_, hno, _⟩ | ⟨rfl, _, hk⟩ | ⟨hmem, hk⟩
        · exact .inl ⟨mem_append_left _ hmem, hk⟩
        · rw [hpage] at hno
          cases hno
        · exact .inl ⟨by simp, hk⟩
        · rcases mem_cons.mp hmem with rfl | hmem
          · exact .inr (.inl ⟨rfl, rfl, hk⟩)
          · exact .inr (.inr (.inr ⟨hmem, hk⟩))
    · right
      rw [hc] at hc'
      cases hc'
      rw [hnext, head?_eq_none_iff] at hend
      subst hend
      rw [hturn]
      refine ⟨rfl, ?_⟩
      rcases h with ⟨_, hk⟩ | ⟨_, hno, _⟩ | ⟨_, _, hk⟩ | ⟨hmem, _⟩
      · exact hk
      · rw [hpage] at hno
        cases hno
      · exact hk
      · cases hmem
  · exact absurd mem_cons_self (hstray c hlast).1

/-- Sending takes the heartbeat of the node at the cursor. -/
theorem RoundInv.ndbSend (hinv : Inv s) (h : RoundInv n s k) (hpage : s.page = some m) :
    RoundInv n { s with page := none } ((if Sends s .ndbSend n then 1 else 0) + k) := by
  have hlast := (hinv.page m hpage).1
  rcases h with ⟨pre, c, post, hnodes, hc, h⟩
  have hcmem := hinv.curr c hc
  rcases split_once hnodes hinv.nodup with ⟨hpre, hpost, -⟩
  have hsends : n ≠ m → ¬ Sends s .ndbSend n := by
    rintro hnm ⟨-, hpage', -⟩
    rw [hpage] at hpage'
    cases hpage'
    exact hnm rfl
  refine ⟨pre, c, post, hnodes, hc, ?_⟩
  rcases h with ⟨hlast', h⟩ | ⟨hstray, hsome, h⟩
  · rw [hlast] at hlast'
    cases hlast'
    refine .inl ⟨hlast, ?_⟩
    rcases h with ⟨hmem, hk⟩ | ⟨rfl, _, hk⟩ | ⟨_, hno, _⟩ | ⟨hmem, hk⟩
    · have hne : n ≠ m := by
        rintro rfl
        exact hpre hmem
      rw [if_neg (hsends hne), Nat.zero_add]
      exact .inl ⟨hmem, hk⟩
    · have hnow : Sends s .ndbSend n := ⟨rfl, hpage, (hinv.listed n hcmem).2⟩
      rw [if_pos hnow, hk]
      exact .inr (.inr (.inl ⟨rfl, rfl, rfl⟩))
    · rw [hpage] at hno
      cases hno
    · have hne : n ≠ m := by
        rintro rfl
        exact hpost hmem
      rw [if_neg (hsends hne), Nat.zero_add]
      exact .inr (.inr (.inr ⟨hmem, hk⟩))
  · have hne : n ≠ m := (hstray m hlast).2.symm
    rw [if_neg (hsends hne), Nat.zero_add]
    exact .inr ⟨hstray, hsome, h⟩

omit [DecidableEq Node] in
theorem not_sends (ha : a ≠ .ndbSend) : ¬ Sends s a n := fun h => ha h.1

theorem RoundInv.next (hok : Ok s a) (hstep : step s a = some s') (hinv : Inv s)
    (hstay : n ∈ s'.nodes) (h : RoundInv n s k) :
    RoundOrEnd n s' ((if Sends s a n then 1 else 0) + k) := by
  by_cases ha : a = .ndbSend
  · subst ha
    dsimp only [step] at hstep
    cases hpage : s.page with
    | none =>
      rw [hpage] at hstep
      cases hstep
    | some m =>
      rw [hpage] at hstep
      cases hstep
      exact .inl (h.ndbSend hinv hpage)
  rw [if_neg (not_sends ha), Nat.zero_add]
  cases a with
  | connect m =>
    cases hstep
    exact .inl (h.congr rfl rfl rfl rfl)
  | addNode m => exact .inl (h.addNode hstep)
  | leave m | wake =>
    dsimp only [step] at hstep
    split_ifs at hstep
    cases hstep
    exact .inl (h.congr rfl rfl rfl rfl)
  | nodeFailure m => exact h.nodeFailure hinv hstep hstay
  | turn =>
    dsimp only [step] at hstep
    split_ifs at hstep with hturn
    cases hstep
    exact h.turn hinv hok hturn.1
  | ndbSend => exact absurd rfl ha

/-- By the end of the round the node has been sent one heartbeat. -/
theorem RoundInv.sentCount {as : List (Label Node)} (hinv : Inv s) (h : RoundInv n s k)
    (hok : Run.Along step Ok s as) (hrun : Run.exec step s as = some s')
    (hstay : Run.Always step (fun t => n ∈ t.nodes) s as)
    (hinside : Run.Along step (fun t _ => t.curr ≠ none) s as) (hend : s'.curr = none) :
    sentCount n s as + k = 1 := by
  induction as generalizing s k with
  | nil =>
    cases hrun
    rcases h with ⟨_, c, _, _, hcurr, _⟩
    rw [hcurr] at hend
    cases hend
  | cons a as ih =>
    rw [Run.exec_cons, Option.bind_eq_some_iff] at hrun
    rcases hrun with ⟨s₁, hstep, hrun⟩
    rcases (Run.along_cons step hstep).mp hok with ⟨hok₁, hoks⟩
    have hstay₁ := ((Run.always_cons step).mp hstay).2 s₁ hstep
    have hmem : n ∈ s₁.nodes := hstay₁ [] s₁ nil_prefix rfl
    have hinv₁ := step_inv hok₁ hstep hinv
    have hcount : Heartbeat.sentCount n s (a :: as) =
        (if Sends s a n then 1 else 0) + Heartbeat.sentCount n s₁ as := by
      rw [Heartbeat.sentCount, hstep]
    rcases h.next hok₁ hstep hinv hmem with hnext | ⟨hcurr, hk⟩
    · have hrest := ih hinv₁ hnext hoks hrun hstay₁ ((Run.along_cons step hstep).mp hinside).2
      omega
    · -- the cursor is NULL, so this was the last step of the round
      have hnil : as = [] := by
        cases as with
        | nil => rfl
        | cons b bs =>
          rw [Run.exec_cons, Option.bind_eq_some_iff] at hrun
          rcases hrun with ⟨s₂, hstep₂, _⟩
          have hinside₁ := ((Run.along_cons step hstep).mp hinside).2
          exact absurd hcurr ((Run.along_cons step hstep₂).mp hinside₁).1
      subst hnil
      rw [hcount]
      simp only [Heartbeat.sentCount]
      omega

/-- The first turn of a round. -/
theorem round_start (hinv : Inv s) (hcurr : s.curr = none) (hn : n ∈ s.nodes) : RoundInv n (turn s) 0 := by
  rcases turn_cases hinv (.inr (.inl hcurr)) with ⟨hno, _⟩ | ⟨c, _, hturn, hc⟩ | ⟨c, hno, _⟩
  · rw [hno] at hn
    cases hn
  · rw [hturn]
    have hhead : s.nodes.head? = some c := by
      rcases hc with ⟨_, hhead⟩ | ⟨_, hno, _⟩
      · exact hhead
      · rw [hcurr] at hno
        cases hno
    rcases head?_eq_some_iff.mp hhead with ⟨post, hnodes⟩
    refine ⟨[], c, post, hnodes, rfl, .inl ⟨rfl, ?_⟩⟩
    rw [hnodes] at hn
    rcases mem_cons.mp hn with rfl | hn
    · exact .inr (.inl ⟨rfl, rfl, rfl⟩)
    · exact .inr (.inr (.inr ⟨hn, rfl⟩))
  · rw [hcurr] at hno
    cases hno

theorem Round.sentCount {as : List (Label Node)} (hround : Round s as s') (hinv : Inv s)
    (hok : Run.Along step Ok s (.turn :: as))
    (hstay : Run.Always step (fun t => n ∈ t.nodes) s (.turn :: as)) :
    sentCount n s (.turn :: as) = 1 := by
  have hrun := hround.run
  rw [Run.exec_cons, Option.bind_eq_some_iff] at hrun
  rcases hrun with ⟨s₁, hstep, hrun⟩
  have hn : n ∈ s.nodes := hstay [] s nil_prefix rfl
  rcases (Run.along_cons step hstep).mp hok with ⟨hok₁, hoks⟩
  have hinv₁ := step_inv hok₁ hstep hinv
  have hstart : RoundInv n s₁ 0 := by
    dsimp only [step] at hstep
    split_ifs at hstep with hturn
    cases hstep
    exact round_start hinv hround.start hn
  have hcount := hstart.sentCount hinv₁ hoks hrun (((Run.always_cons step).mp hstay).2 s₁ hstep)
    (hround.inside s₁ hstep) hround.finish
  have hno : ¬ Sends s .turn n := not_sends nofun
  rw [Heartbeat.sentCount, hstep, if_neg hno, Nat.zero_add]
  exact hcount

end

/-- In a run that keeps to `Ok`, every heartbeat goes to a node that is in the list, and a
complete round sends one heartbeat to every node that is in the list all the time. -/
theorem heartbeats_ok {as : List (Label Node)} (hok : Run.Along step Ok init as) :
    Run.Along step (fun s a => ∀ n, Sends s a n → n ∈ s.nodes) init as ∧
      ∀ pre round rest s s', as = pre ++ (.turn :: round ++ rest) →
        Run.exec step init pre = some s → Round s round s' →
        ∀ n, Run.Always step (fun t => n ∈ t.nodes) s (.turn :: round) →
          sentCount n s (.turn :: round) = 1 := by
  have hkeep : ∀ (s : State Node) a s', Ok s a → step s a = some s' → Inv s → Inv s' :=
    fun _ _ _ => step_inv
  constructor
  · refine Run.along_of_inv step Inv hkeep ?_ hok init_inv
    intro s a _ hinv n hsends
    exact sends_mem hinv hsends
  · intro pre round rest s s' has hpre hround n hstay
    rw [has] at hok
    rcases Run.along_of_append step hpre hok with ⟨hokpre, hokrest⟩
    have hinv := Run.invariant_along step Ok Inv hkeep hokpre hpre init_inv
    exact hround.sentCount hinv (Run.along_of_append step hround.run hokrest).1 hstay

/-- Two nodes connect. -/
def twoNodes : List (Label Nat) := [.connect 1, .addNode 1, .connect 2, .addNode 2]

/-- A round over two nodes. -/
theorem heartbeats_two_nodes : ∃ s s' : State Nat,
    Run.exec step init twoNodes = some s ∧ Round s [.ndbSend, .turn, .ndbSend, .turn] s' ∧
      sentCount 1 s [.turn, .ndbSend, .turn, .ndbSend, .turn] = 1 := by
  have hok : Run.Along step Ok init (twoNodes ++ ([.turn, .ndbSend, .turn, .ndbSend, .turn] ++ [])) := by
    decide
  refine ⟨_, _, rfl, ⟨rfl, rfl, ?_, rfl⟩, ?_⟩
  · rintro s₁ ⟨⟩
    decide
  · refine (heartbeats_ok hok).2 twoNodes _ _ _ _ rfl rfl ⟨rfl, rfl, ?_, rfl⟩ 1 (by decide)
    rintro s₁ ⟨⟩
    decide

/-- The node at the cursor fails, and the heartbeat thread still sends to it when it has
connected again and is not in the list. -/
def staleRun : List (Label Nat) :=
  [.connect 2, .addNode 2, .connect 1, .addNode 1, .turn, .ndbSend, .nodeFailure 1, .turn, .ndbSend,
    .leave 1, .connect 1, .turn]

theorem stale_heartbeat : ∃ s s', Run.exec step init staleRun = some s ∧
    step s .ndbSend = some s' ∧ Sends s .ndbSend 1 ∧ 1 ∉ s.nodes := by
  refine ⟨_, _, rfl, rfl, ?_, ?_⟩
  · decide
  · decide

end IClaustron.Apid.Heartbeat
