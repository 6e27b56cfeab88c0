import IClaustron.Lib.Locks
import IClaustron.Lib.Run

/-!
# Apid.LockOrder — the mutexes of listen threads and send threads

Model of api/ic_apid_send_thread.ic, as far as it locks mutexes. There is one send thread
for each node connection; a node connection on the server side of its link shares a
listen server thread with others. The mutex and the condition of a thread in the thread
pool are those of its node connection or of its listen server, so that the thread pool
locks them too (thread_started, thread_startup_done, run_thread, thread_stops and
free_thread in util/ic_threadpool.c).

1. **Model**: `sendAlts` and `listenAlts` list what a thread can do at a program point.
   What other threads decide (stop flags, arriving connections) is a choice.
2. **Owners**: a mutex is owned by the thread whose program point says so.
3. **Lock order**: the comment in run_listen_thread, "we must NEVER take a mutex on
   listen_server_thread while holding a send_node_conn mutex".

* `lock_order_iff` — the runs that keep to the comment.

Scope limits: the mutexes of receive threads, of the heartbeat thread and of the stop
list are left out, as are the threads that only ever lock one of the mutexes here. A listen
server that is created again after it was closed is another one.
-/

namespace IClaustron.Apid.LockOrder

open Lib Lib.Locks Function

/-! ## Model -/

/-- Mutexes: of the global object, of a listen server and of a send node connection. -/
inductive Mutex (Node Server : Type) where
  | global
  | listen (l : Server)
  | node (n : Node)
deriving DecidableEq

inductive Thread (Node Server : Type) where
  | send (n : Node)
  | listen (l : Server)
deriving DecidableEq

/-- The program points of `run_send_thread`. A point in front of a lock has the name of
what it is for, and the point behind it the same name with `Hold`. -/
inductive SendPc where
  -- ic_thread_started
  | started | startedHold
  -- prepare_set_up_send_connection
  | prepare | prepareHold | attach | attachHold | attachFail | attachFailHold
  | create | createHold | createWait | createdHold | createFail | createFailHold | createUndo
  | prepareDone | crashed
  -- ic_thread_startup_done
  | startup | startupHold | startupWait
  | loop
  -- ic_thread_lock_and_wait
  | external | externalHold | externalWait
  -- connect_by_send_thread
  | connect | connectHold | connectWait | runListen | runListenHold | runListenWait | waitConnect
  | waitConnectHold | client | clientLock | clientHold
  -- active_send_thread
  | active | activeHold | activeWait | sending | sendFailure | sendFailureHold | failure | failureHold
  | leave | leaveHold
  -- end
  | ended | endedHold
  -- remove_send_thread_from_listen_thread
  | remove | removeHold | join | free | freeHold
  | endedUnlock
  -- ic_thread_stops
  | stops | stopsHold | stopped
deriving DecidableEq

/-- The program points of `run_listen_thread`; the list is what the iterator has left. -/
inductive ListenPc (Node : Type) where
  | idle
  | started | startedHold
  | setUp | setUpHold | startup | startupHold | startupWait
  | accept | deliver | deliverHold | search (rest : List Node) | searchLock (n : Node) (rest : List Node)
  | searchHold (n : Node) (rest : List Node) | delivered
  | leave | leaveHold (rest : List Node) | leaveLock (n : Node) (rest : List Node)
  | leaveNode (n : Node) (rest : List Node) | leaveUnlock
  | stops | stopsHold | stopped
deriving DecidableEq

variable {Node Server : Type} [DecidableEq Node] [DecidableEq Server]

/-- What does not change: use_external_connect, and for every node connection whether we
are the server side of its link, and which listen server has its host and port. -/
structure Config (Node Server : Type) where
  useExternalConnect : Bool
  isServerPart : Node → Bool
  listenServer : Node → Server

structure State (Node Server : Type) where
  owner : Mutex Node Server → Option (Thread Node Server)
  sendPc : Node → SendPc
  listenPc : Server → ListenPc Node
  /-- first_send_node_conn. -/
  attached : Server → List Node

def init : State Node Server where
  owner := fun _ => none
  sendPc := fun _ => .started
  listenPc := fun _ => .idle
  attached := fun _ => []

section

variable (cfg : Config Node Server)

/-- What the send thread of `n` can do: an action on a mutex, and where it is then. -/
def sendAlts (s : State Node Server) (n : Node) : List (Act (Mutex Node Server) × SendPc) :=
  let l := cfg.listenServer n
  match s.sendPc n with
  | .started => [(.lock (.node n), .startedHold)]
  | .startedHold => [(.unlock (.node n), if cfg.useExternalConnect then .startup else .prepare)]
  | .prepare => [(.lock .global, .prepareHold)]
  | .prepareHold =>
    if cfg.isServerPart n then
      [(.tau, if s.listenPc l = .idle then .create else .attach)]
    else [(.tau, .prepareDone)]
  | .attach => [(.lock (.listen l), .attachHold)]
  | .attachHold => [(.unlock (.listen l), .prepareDone), (.unlock (.listen l), .attachFail)]
  | .attachFail => [(.lock (.node n), .attachFailHold)]
  | .attachFailHold => [(.unlock (.node n), .prepareDone)]
  -- start_thread_with_thread_id for the listen thread
  | .create => [(.lock (.listen l), .createHold)]
  | .createHold => [(.unlock (.listen l), .createWait), (.unlock (.listen l), .createFail)]
  | .createWait => [(.lock (.listen l), .createdHold)]
  | .createdHold => [(.unlock (.listen l), .createWait), (.unlock (.listen l), .prepareDone),
      (.unlock (.listen l), .createFail)]
  | .createFail => [(.lock (.listen l), .createFailHold)]
  | .createFailHold => [(.unlock (.listen l), .createUndo)]
  -- listen_server_thread is NULL now, and remove_send_thread_from_listen_thread reads it
  | .createUndo => [(.unlock .global, .crashed)]
  | .crashed => []
  | .prepareDone => [(.unlock .global, .startup)]
  | .startup => [(.lock (.node n), .startupHold)]
  | .startupHold => [(.unlock (.node n), .startupWait), (.unlock (.node n), .loop),
      (.unlock (.node n), .ended)]
  | .startupWait => [(.lock (.node n), .startupHold)]
  | .loop => [(.tau, .ended), (.tau, if cfg.useExternalConnect then .external else .connect)]
  | .external => [(.lock (.node n), .externalHold)]
  | .externalHold => [(.unlock (.node n), .externalWait), (.unlock (.node n), .active),
      (.unlock (.node n), .ended)]
  | .externalWait => [(.lock (.node n), .externalHold)]
  | .connect => [(.lock (.node n), .connectHold)]
  | .connectHold =>
    if cfg.isServerPart n then
      [(.unlock (.node n), .active), (.unlock (.node n), .runListen), (.unlock (.node n), .loop)]
    else [(.unlock (.node n), .client)]
  -- ic_threadpool_run_thread for the listen thread, without a mutex
  | .runListen => [(.lock (.listen l), .runListenHold)]
  | .runListenHold => [(.unlock (.listen l), .runListenWait), (.unlock (.listen l), .waitConnect)]
  | .runListenWait => [(.lock (.listen l), .runListenHold)]
  | .waitConnect => [(.lock (.node n), .waitConnectHold)]
  | .waitConnectHold => [(.unlock (.node n), .connectWait), (.tau, .connectHold)]
  | .connectWait => [(.lock (.node n), .connectHold)]
  | .client => [(.tau, .clientLock), (.tau, .loop)]
  | .clientLock => [(.lock (.node n), .clientHold)]
  | .clientHold => [(.unlock (.node n), .client), (.unlock (.node n), .active),
      (.unlock (.node n), .loop)]
  | .active => [(.lock (.node n), .activeHold)]
  | .activeHold => [(.unlock (.node n), .activeWait), (.unlock (.node n), .sending),
      (.unlock (.node n), .failure), (.unlock (.node n), .loop)]
  | .activeWait => [(.lock (.node n), .activeHold)]
  -- real_send_handling, and node_failure_handling if it fails
  | .sending => [(.tau, .active), (.tau, .sendFailure)]
  | .sendFailure => [(.lock (.node n), .sendFailureHold)]
  | .sendFailureHold => [(.unlock (.node n), .active)]
  | .failure => [(.lock (.node n), .failureHold)]
  | .failureHold => [(.unlock (.node n), .leave)]
  | .leave => [(.lock (.node n), .leaveHold)]
  | .leaveHold => [(.unlock (.node n), .loop)]
  | .ended => [(.lock (.node n), .endedHold)]
  | .endedHold =>
    [(.tau, if cfg.isServerPart n && !cfg.useExternalConnect then .remove else .endedUnlock)]
  | .remove => [(.lock (.listen l), .removeHold)]
  | .removeHold =>
    [(.unlock (.listen l), if (s.attached l).erase n = [] then .join else .endedUnlock)]
  -- ic_threadpool_join for the listen thread, and close_listen_server_thread
  | .join => if s.listenPc l = .stopped then [(.tau, .free)] else []
  | .free => [(.lock (.listen l), .freeHold)]
  | .freeHold => [(.unlock (.listen l), .endedUnlock)]
  | .endedUnlock => [(.unlock (.node n), .stops)]
  | .stops => [(.lock (.node n), .stopsHold)]
  | .stopsHold => [(.unlock (.node n), .stopped)]
  | .stopped => []

/-- What the listen server thread `l` can do. -/
def listenAlts (s : State Node Server) (l : Server) :
    List (Act (Mutex Node Server) × ListenPc Node) :=
  match s.listenPc l with
  | .idle => []
  | .started => [(.lock (.listen l), .startedHold)]
  | .startedHold => [(.unlock (.listen l), .setUp), (.unlock (.listen l), .stops)]
  | .setUp => [(.lock (.listen l), .setUpHold)]
  | .setUpHold => [(.unlock (.listen l), .startup), (.unlock (.listen l), .stops)]
  | .startup => [(.lock (.listen l), .startupHold)]
  | .startupHold => [(.unlock (.listen l), .startupWait), (.unlock (.listen l), .accept),
      (.unlock (.listen l), .stops)]
  | .startupWait => [(.lock (.listen l), .startupHold)]
  | .accept => [(.tau, .accept), (.tau, .deliver), (.tau, .leave)]
  | .deliver => [(.lock (.listen l), .deliverHold)]
  | .deliverHold => [(.unlock (.listen l), .leave), (.tau, .search (s.attached l))]
  | .search [] => [(.tau, .delivered)]
  | .search (n :: rest) => [(.tau, .searchLock n rest)]
  | .searchLock n rest => [(.lock (.node n), .searchHold n rest)]
  | .searchHold n rest => [(.unlock (.node n), .delivered), (.unlock (.node n), .search rest)]
  | .delivered => [(.unlock (.listen l), .accept)]
  | .leave => [(.lock (.listen l), .leaveHold (s.attached l))]
  | .leaveHold [] => [(.tau, .leaveUnlock)]
  | .leaveHold (n :: rest) => [(.tau, .leaveLock n rest)]
  | .leaveLock n rest => [(.lock (.node n), .leaveNode n rest)]
  | .leaveNode n rest => [(.unlock (.node n), .leaveHold rest)]
  | .leaveUnlock => [(.unlock (.listen l), .stops)]
  | .stops => [(.lock (.listen l), .stopsHold)]
  | .stopsHold => [(.unlock (.listen l), .stopped)]
  | .stopped => []

/-- What a step of a send thread does to the listen servers. -/
def sendEffect (s : State Node Server) (n : Node) (target : SendPc) : State Node Server :=
  let l := cfg.listenServer n
  match s.sendPc n, target with
  -- ic_calloc of the listen server, with n as its only node
  | .prepareHold, .create => { s with attached := update s.attached l [n] }
  | .attachHold, .prepareDone => { s with attached := update s.attached l (n :: s.attached l) }
  -- g_thread_try_new
  | .createHold, .createWait => { s with listenPc := update s.listenPc l .started }
  | .removeHold, _ => { s with attached := update s.attached l ((s.attached l).erase n) }
  | _, _ => s

/-- Thread `t` takes its alternative number `k`. -/
def step (s : State Node Server) : Thread Node Server × Nat → Option (State Node Server)
  | (.send n, k) =>
    match (sendAlts cfg s n)[k]? with
    | none => none
    | some (act, target) =>
      (act.apply (.send n) s.owner).map fun owner =>
        let s' := sendEffect cfg s n target
        { s' with owner := owner, sendPc := update s'.sendPc n target }
  | (.listen l, k) =>
    match (listenAlts s l)[k]? with
    | none => none
    | some (act, target) =>
      (act.apply (.listen l) s.owner).map fun owner =>
        { s with owner := owner, listenPc := update s.listenPc l target }

/-- The mutex that a list of alternatives waits for. -/
def wantsOf {π : Type} : List (Act (Mutex Node Server) × π) → Option (Mutex Node Server)
  | [(.lock m, _)] => some m
  | _ => none

/-- The mutex that the thread waits for. -/
def requests (s : State Node Server) : Thread Node Server → Option (Mutex Node Server)
  | .send n => wantsOf (sendAlts cfg s n)
  | .listen l => wantsOf (listenAlts s l)

/-- The rule in the comment: who holds the mutex of a send node connection does not ask for
the mutex of a listen server. -/
def LockRule (s : State Node Server) : Prop :=
  ∀ t n l, s.owner (.node n) = some t → requests cfg s t ≠ some (.listen l)

/-- No two threads hold what the other one waits for. -/
def NoDeadlock (s : State Node Server) : Prop :=
  ∀ t u n l, s.owner (.listen l) = some t → requests cfg s t = some (.node n) →
    s.owner (.node n) = some u → requests cfg s u ≠ some (.listen l)

/-- The send thread of a node on the server side does not come to its end. -/
def Ok (s : State Node Server) (a : Thread Node Server × Nat) : Prop :=
  ∀ n, a.1 = .send n → s.sendPc n = .endedHold → cfg.isServerPart n = true →
    cfg.useExternalConnect = true

end

/-! ## Owners -/

/-- The mutexes that the send thread holds at a program point. -/
def sendHeld (cfg : Config Node Server) (n : Node) : SendPc → List (Mutex Node Server)
  | .startedHold | .startupHold | .externalHold | .connectHold | .waitConnectHold
  | .clientHold | .activeHold | .sendFailureHold | .failureHold | .leaveHold | .endedHold | .remove
  | .join | .free | .endedUnlock | .stopsHold => [.node n]
  | .prepareHold | .attach | .attachFail | .create | .createWait | .createFail | .createUndo
  | .prepareDone => [.global]
  | .attachHold | .createHold | .createdHold | .createFailHold =>
    [.listen (cfg.listenServer n), .global]
  | .attachFailHold => [.node n, .global]
  | .runListenHold => [.listen (cfg.listenServer n)]
  | .removeHold | .freeHold => [.listen (cfg.listenServer n), .node n]
  | _ => []

/-- The mutexes that the listen thread holds at a program point. -/
def listenHeld (l : Server) : ListenPc Node → List (Mutex Node Server)
  | .startedHold | .setUpHold | .startupHold | .deliverHold | .search _ | .searchLock _ _ | .delivered
  | .leaveHold _ | .leaveLock _ _ | .leaveUnlock | .stopsHold => [.listen l]
  | .searchHold n _ | .leaveNode n _ => [.node n, .listen l]
  | _ => []

def held (cfg : Config Node Server) (s : State Node Server) :
    Thread Node Server → List (Mutex Node Server)
  | .send n => sendHeld cfg n (s.sendPc n)
  | .listen l => listenHeld l (s.listenPc l)

variable {a : Thread Node Server × Nat}

section

variable {cfg : Config Node Server} {s s' : State Node Server} {n : Node} {l : Server}

omit [DecidableEq Server] in
/-- Every alternative of a send thread does to its mutexes what it says. -/
theorem sendAlts_moves : ∀ alt ∈ sendAlts cfg s n,
    alt.1.Moves (sendHeld cfg n (s.sendPc n)) (sendHeld cfg n alt.2) := by
  unfold sendAlts
  cases s.sendPc n
  all_goals dsimp only
  all_goals try split_ifs
  all_goals simp [sendHeld]

omit [DecidableEq Node] [DecidableEq Server] in
theorem listenAlts_moves : ∀ alt ∈ listenAlts s l,
    alt.1.Moves (listenHeld l (s.listenPc l)) (listenHeld l alt.2) := by
  unfold listenAlts
  cases s.listenPc l with
  | search rest | leaveHold rest =>
    cases rest with
    | nil => simp [listenHeld]
    | cons n rest => simp [listenHeld]
  | _ => simp [listenHeld]

/-- What a step does. -/
theorem step_cases (hstep : step cfg s a = some s') :
    (∃ n act target owner, a.1 = .send n ∧ (act, target) ∈ sendAlts cfg s n ∧
        act.apply (.send n) s.owner = some owner ∧
        s' = { sendEffect cfg s n target with
          owner := owner
          sendPc := update (sendEffect cfg s n target).sendPc n target }) ∨
      (∃ l act target owner, a.1 = .listen l ∧ (act, target) ∈ listenAlts s l ∧
        act.apply (.listen l) s.owner = some owner ∧
        s' = { s with owner := owner, listenPc := update s.listenPc l target }) := by
  rcases a with ⟨n | l, k⟩
  · left
    dsimp only [step] at hstep
    cases halt : (sendAlts cfg s n)[k]? with
    | none =>
      rw [halt] at hstep
      cases hstep
    | some alt =>
      rw [halt] at hstep
      rcases Option.map_eq_some_iff.mp hstep with ⟨owner, howner, rfl⟩
      exact ⟨n, alt.1, alt.2, owner, rfl, List.mem_of_getElem? halt, howner, rfl⟩
  · right
    dsimp only [step] at hstep
    cases halt : (listenAlts s l)[k]? with
    | none =>
      rw [halt] at hstep
      cases hstep
    | some alt =>
      rw [halt] at hstep
      rcases Option.map_eq_some_iff.mp hstep with ⟨owner, howner, rfl⟩
      exact ⟨l, alt.1, alt.2, owner, rfl, List.mem_of_getElem? halt, howner, rfl⟩

/-- The program points of the other threads, but for a listen thread that is started. -/
theorem sendEffect_cases (cfg : Config Node Server) (s : State Node Server) (n : Node)
    (target : SendPc) :
    (sendEffect cfg s n target).sendPc = s.sendPc ∧
      ((sendEffect cfg s n target).listenPc = s.listenPc ∨
        (s.sendPc n = .createHold ∧ (sendEffect cfg s n target).listenPc =
          update s.listenPc (cfg.listenServer n) .started)) := by
  unfold sendEffect
  dsimp only
  split
  · exact ⟨rfl, .inl rfl⟩
  · exact ⟨rfl, .inl rfl⟩
  next hpc => exact ⟨rfl, .inr ⟨hpc, rfl⟩⟩
  · exact ⟨rfl, .inl rfl⟩
  · exact ⟨rfl, .inl rfl⟩

/-- Points in front of the start of a listen thread. -/
def Creating (pc : SendPc) : Prop := pc = .create ∨ pc = .createHold

/-- The points of remove_send_thread_from_listen_thread. -/
def Removing (pc : SendPc) : Prop :=
  pc = .remove ∨ pc = .removeHold ∨ pc = .join ∨ pc = .free ∨ pc = .freeHold

structure Inv (cfg : Config Node Server) (s : State Node Server) : Prop where
  owned : Owned s.owner (held cfg s)
  idle : ∀ n, Creating (s.sendPc n) → s.listenPc (cfg.listenServer n) = .idle

omit [DecidableEq Node] [DecidableEq Server] in
/-- Who creates a listen server has the mutex of the global object. -/
theorem Inv.global (hinv : Inv cfg s) (hn : Creating (s.sendPc n)) :
    s.owner .global = some (.send n) := by
  refine (hinv.owned _ _).mpr ?_
  rcases hn with hn | hn
  · simp [held, hn, sendHeld]
  · simp [held, hn, sendHeld]

omit [DecidableEq Node] [DecidableEq Server] in
theorem init_inv : Inv cfg (init : State Node Server) := by
  constructor
  · intro m t
    cases t with
    | send n => simp [init, held, sendHeld]
    | listen l => simp [init, held, listenHeld]
  · intro n hn
    rfl

omit [DecidableEq Server] in
/-- A listen server is created when there is none. -/
theorem sendAlts_creating : ∀ alt ∈ sendAlts cfg s n, Creating alt.2 →
    (s.listenPc (cfg.listenServer n) = .idle ∧ s.sendPc n = .prepareHold) ∨ s.sendPc n = .create := by
  unfold sendAlts
  cases s.sendPc n
  all_goals dsimp only
  all_goals try split_ifs with hif
  all_goals simp [Creating, *]

omit [DecidableEq Server] in
/-- A thread comes to the removal from the end of its run only. -/
theorem sendAlts_removing : ∀ alt ∈ sendAlts cfg s n, Removing alt.2 → ¬ Removing (s.sendPc n) →
    s.sendPc n = .endedHold ∧ cfg.isServerPart n = true ∧ cfg.useExternalConnect = false := by
  unfold sendAlts
  cases s.sendPc n
  all_goals dsimp only
  all_goals try split_ifs with hif
  all_goals simp [Removing]
  simpa using hif

theorem send_inv (hinv : Inv cfg s) {act : Act (Mutex Node Server)} {target : SendPc}
    {owner : Mutex Node Server → Option (Thread Node Server)}
    (halt : (act, target) ∈ sendAlts cfg s n) (happly : act.apply (.send n) s.owner = some owner) :
    Inv cfg { sendEffect cfg s n target with
      owner := owner
      sendPc := update (sendEffect cfg s n target).sendPc n target } := by
  rcases sendEffect_cases cfg s n target with ⟨hsend, hlisten⟩
  rw [hsend]
  constructor
  · refine owned_apply hinv.owned happly ?_ ?_
    · have hmoves := sendAlts_moves (act, target) halt
      simpa [held] using hmoves
    · intro u hu
      cases u with
      | send m =>
        have hm : m ≠ n := fun h => hu (by rw [h])
        simp [held, update_of_ne hm]
      | listen l =>
        dsimp only [held]
        rcases hlisten with hlisten | ⟨hpc, hlisten⟩
        · rw [hlisten]
        · rw [hlisten]
          by_cases hl : l = cfg.listenServer n
          · -- the listen thread that is started was not there before
            rw [hl, update_self, hinv.idle n (.inr hpc)]
            rfl
          · rw [update_of_ne hl]
  · intro m hm
    dsimp only at hm ⊢
    by_cases hmn : m = n
    · subst hmn
      rw [update_self] at hm
      have hpc := sendAlts_creating (act, target) halt hm
      rcases hlisten with hlisten | ⟨hhold, _⟩
      · rw [hlisten]
        rcases hpc with ⟨hidle, _⟩ | hpc
        · exact hidle
        · exact hinv.idle m (.inl hpc)
      · rcases hpc with ⟨_, hpc⟩ | hpc
        · rw [hhold] at hpc
          cases hpc
        · rw [hhold] at hpc
          cases hpc
    · rw [update_of_ne hmn] at hm
      rcases hlisten with hlisten | ⟨hhold, _⟩
      · rw [hlisten]
        exact hinv.idle m hm
      · -- only one thread has the global mutex
        have howner := (hinv.global hm).symm.trans (hinv.global (.inr hhold))
        cases howner
        exact absurd rfl hmn

theorem listen_inv (hinv : Inv cfg s) {act : Act (Mutex Node Server)} {target : ListenPc Node}
    {owner : Mutex Node Server → Option (Thread Node Server)}
    (halt : (act, target) ∈ listenAlts s l) (happly : act.apply (.listen l) s.owner = some owner) :
    Inv cfg { s with owner := owner, listenPc := update s.listenPc l target } := by
  constructor
  · refine owned_apply hinv.owned happly ?_ ?_
    · have hmoves := listenAlts_moves (act, target) halt
      simpa [held] using hmoves
    · intro u hu
      cases u with
      | send m => rfl
      | listen l' =>
        have hl : l' ≠ l := fun h => hu (by rw [h])
        simp [held, update_of_ne hl]
  · intro m hm
    dsimp only at hm ⊢
    have hidle := hinv.idle m hm
    by_cases hl : cfg.listenServer m = l
    · unfold listenAlts at halt
      rw [← hl, hidle] at halt
      cases halt
    · rw [update_of_ne hl, hidle]

theorem step_inv (hstep : step cfg s a = some s') (hinv : Inv cfg s) : Inv cfg s' := by
  rcases step_cases hstep with ⟨n, act, target, owner, _, halt, happly, rfl⟩ |
    ⟨l, act, target, owner, _, halt, happly, rfl⟩
  · exact send_inv hinv halt happly
  · exact listen_inv hinv halt happly

/-! ## Lock order -/

omit [DecidableEq Server] in
theorem send_requests {m : Node} (hheld : .node m ∈ sendHeld cfg n (s.sendPc n))
    (hremoving : ¬ Removing (s.sendPc n)) : wantsOf (sendAlts cfg s n) ≠ some (.listen l) := by
  unfold sendAlts
  revert hheld hremoving
  cases s.sendPc n
  all_goals dsimp only
  all_goals try split_ifs
  all_goals simp [sendHeld, wantsOf, Removing]

omit [DecidableEq Node] [DecidableEq Server] in
theorem listen_requests {l' : Server} (hheld : .node n ∈ listenHeld l (s.listenPc l)) :
    wantsOf (listenAlts s l) ≠ some (.listen l') := by
  unfold listenAlts
  revert hheld
  cases s.listenPc l with
  | search rest => simp [listenHeld]
  | leaveHold rest => simp [listenHeld]
  | _ => simp [listenHeld, wantsOf]

/-- No send thread is in the removal. -/
structure Safe (cfg : Config Node Server) (s : State Node Server) : Prop extends Inv cfg s where
  removing : ∀ n, ¬ Removing (s.sendPc n)

omit [DecidableEq Server] in
theorem Safe.lockRule (h : Safe cfg s) : LockRule cfg s := by
  intro t n l howner
  have hheld := (h.owned _ _).mp howner
  cases t with
  | send m => exact send_requests hheld (h.removing m)
  | listen l' => exact listen_requests hheld

omit [DecidableEq Server] in
theorem LockRule.noDeadlock (h : LockRule cfg s) : NoDeadlock cfg s := by
  intro t u n l _ _ howner
  exact h u n l howner

theorem step_safe (hok : Ok cfg s a) (hstep : step cfg s a = some s') (h : Safe cfg s) :
    Safe cfg s' := by
  refine ⟨step_inv hstep h.toInv, ?_⟩
  rcases step_cases hstep with
    ⟨n, act, target, owner, ha, halt, _, rfl⟩ | ⟨l, _, target, owner, _, _, _, rfl⟩
  · intro m hm
    dsimp only at hm
    rw [(sendEffect_cases cfg s n target).1] at hm
    by_cases hmn : m = n
    · subst hmn
      rw [update_self] at hm
      rcases sendAlts_removing (act, target) halt hm (h.removing m) with ⟨hpc, hserver, hexternal⟩
      rw [hok m ha hpc hserver] at hexternal
      cases hexternal
    · rw [update_of_ne hmn] at hm
      exact h.removing m hm
  · exact h.removing

/-- The removal asks for the mutex of the listen server with the one of the node. -/
theorem step_breaks (hok : ¬ Ok cfg s a) (hstep : step cfg s a = some s') (h : Safe cfg s) :
    ¬ LockRule cfg s' := by
  have hinv := step_inv hstep h.toInv
  unfold Ok at hok
  push Not at hok
  rcases hok with ⟨n, ha, hpc, hserver, hexternal⟩
  have hexternal' : cfg.useExternalConnect = false := by simpa using hexternal
  rcases step_cases hstep with ⟨m, act, target, owner, ha', halt, _, hs'⟩ | ⟨l, _, _, _, ha', _⟩
  · rw [ha] at ha'
    cases ha'
    have htarget : target = .remove := by
      unfold sendAlts at halt
      rw [hpc] at halt
      simpa [hserver, hexternal'] using (Prod.mk.inj (List.mem_singleton.mp halt)).2
    have hremove : s'.sendPc n = .remove := by
      rw [hs', htarget]
      exact update_self _ _ _
    intro hrule
    refine hrule (.send n) n (cfg.listenServer n) ((hinv.owned _ _).mpr ?_) ?_
    · simp [held, hremove, sendHeld]
    · simp [requests, sendAlts, hremove, wantsOf]
  · rw [ha] at ha'
    cases ha'

end

/-- The lock order is kept exactly in the runs in which no send thread on the server side
of its link comes to its end. -/
theorem lock_order_iff (cfg : Config Node Server) (as : List (Thread Node Server × Nat)) :
    Run.Always (step cfg) (fun s => LockRule cfg s ∧ NoDeadlock cfg s) init as ↔
      Run.Along (step cfg) (Ok cfg) init as := by
  refine Run.always_iff_along (step cfg) (Ok cfg) (Safe cfg) _ ?_ ?_ ?_ as ⟨init_inv, ?_⟩
  · intro s h
    exact ⟨h.lockRule, h.lockRule.noDeadlock⟩
  · intro s a s' hok hstep h
    exact step_safe hok hstep h
  · intro s a s' hok hstep h hP
    exact step_breaks hok hstep h hP.1
  · intro n hn
    simp [init, Removing] at hn

/-- One node connection on the server side of its link. -/
def serverSide : Config Nat Nat where
  useExternalConnect := false
  isServerPart := fun _ => true
  listenServer := fun _ => 0

/-- The send thread starts the listen thread, which gets a connection and searches for its
node; the send thread comes to its end. -/
def endingRun : List (Thread Nat Nat × Nat) :=
  [(.send 1, 0), (.send 1, 0), (.send 1, 0), (.send 1, 0), (.send 1, 0), (.send 1, 0),
    (.listen 0, 0), (.listen 0, 0), (.listen 0, 0), (.listen 0, 0),
    (.send 1, 0), (.send 1, 1), (.send 1, 0), (.send 1, 0), (.send 1, 1),
    (.listen 0, 0), (.listen 0, 1), (.listen 0, 1), (.listen 0, 0), (.listen 0, 1), (.listen 0, 0),
    (.send 1, 0), (.send 1, 0), (.send 1, 0)]

theorem ending_deadlock : ∃ s, Run.exec (step serverSide) init endingRun = some s ∧
    s.owner (.listen 0) = some (.listen 0) ∧ requests serverSide s (.listen 0) = some (.node 1) ∧
    s.owner (.node 1) = some (.send 1) ∧ requests serverSide s (.send 1) = some (.listen 0) ∧
    ¬ NoDeadlock serverSide s := by
  refine ⟨_, rfl, rfl, rfl, rfl, rfl, ?_⟩
  intro h
  exact h (.listen 0) (.send 1) 1 0 rfl rfl rfl rfl

end IClaustron.Apid.LockOrder
