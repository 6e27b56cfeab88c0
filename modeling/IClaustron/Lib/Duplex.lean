import IClaustron.Lib.Run

/-!
# Lib.Duplex — two programs that send each other lines

1. **Programs**: send a line, receive one, or end with a result.
2. **The two together**: each has a queue of lines that the other one sent. A program that
   failed closes the connection; the other one then finds no line when its queue is empty.
3. **One alone**: the result of a program for given lines.

* `step_commute` — a step of one side does not disturb the other one.
* `agree` — so every run can be completed to the same end.
-/

namespace Lib.Duplex

/-- A program over lines of type `L`, with results in `Except ε α`. -/
inductive Proc (L ε α : Type) where
  | send (line : L) (next : Proc L ε α)
  | recv (next : L → Proc L ε α)
  | done (result : Except ε α)

variable {L ε α β : Type}

/-- The result for the lines of a peer; `closed` is the error when there are no more. -/
def Proc.facing (closed : ε) : Proc L ε α → List L → Except ε α
  | .send _ next, lines => next.facing closed lines
  | .recv next, line :: lines => (next line).facing closed lines
  | .recv _, [] => .error closed
  | .done result, _ => result

def Proc.failed : Proc L ε α → Bool
  | .done (.error _) => true
  | _ => false

/-- A step of a program: what it is then, its queue, and what it sends. -/
def Proc.step (closed : ε) (peerFailed : Bool) :
    Proc L ε α → List L → Option (Proc L ε α × List L × List L)
  | .send line next, queue => some (next, queue, [line])
  | .recv next, line :: queue => some (next line, queue, [])
  | .recv _, [] => if peerFailed then some (.done (.error closed), [], []) else none
  | .done _, _ => none

structure Net (L ε α β : Type) where
  client : Proc L ε α
  server : Proc L ε β
  toServer : List L
  toClient : List L

inductive Side where
  | client
  | server
deriving DecidableEq

def Net.step (closed : ε) (s : Net L ε α β) : Side → Option (Net L ε α β)
  | .client => (s.client.step closed s.server.failed s.toClient).map fun (client, queue, sent) =>
    { s with client, toClient := queue, toServer := s.toServer ++ sent }
  | .server => (s.server.step closed s.client.failed s.toServer).map fun (server, queue, sent) =>
    { s with server, toServer := queue, toClient := s.toClient ++ sent }

variable {closed : ε} {p : Proc L ε α} {queue : List L}

/-- A step that is possible stays possible, and does the same, when lines are added to the
queue. -/
theorem Proc.step_more {p' : Proc L ε α} {queue' sent : List L} (failed : Bool) (more : List L)
    (h : p.step closed false queue = some (p', queue', sent)) :
    p.step closed failed (queue ++ more) = some (p', queue' ++ more, sent) := by
  cases p with
  | send line next =>
    cases h
    rfl
  | recv next =>
    cases queue with
    | nil => cases h
    | cons line queue =>
      cases h
      rfl
  | done result => cases h

theorem Proc.step_failed {failed : Bool} (h : p.failed = true) :
    p.step closed failed queue = none := by
  cases p with
  | send line next => cases h
  | recv next => cases h
  | done result => rfl

/-- A program that takes a step has not failed before. -/
theorem Proc.not_failed {failed : Bool} {out : Proc L ε α × List L × List L}
    (h : p.step closed failed queue = some out) : p.failed = false := by
  by_contra hFailed
  rw [Bool.not_eq_false] at hFailed
  rw [Proc.step_failed hFailed] at h
  cases h

theorem commute_sides {s a b : Net L ε α β} (ha : s.step closed .client = some a)
    (hb : s.step closed .server = some b) :
    ∃ q, a.step closed .server = some q ∧ b.step closed .client = some q := by
  unfold Net.step at ha hb
  obtain ⟨⟨client, toClient, sentC⟩, hClient, rfl⟩ := Option.map_eq_some_iff.mp ha
  obtain ⟨⟨server, toServer, sentS⟩, hServer, rfl⟩ := Option.map_eq_some_iff.mp hb
  have hClientUp := Proc.not_failed hClient
  have hServerUp := Proc.not_failed hServer
  rw [hClientUp] at hServer
  rw [hServerUp] at hClient
  have hServer' := Proc.step_more client.failed sentC hServer
  have hClient' := Proc.step_more server.failed sentS hClient
  refine ⟨⟨client, server, toServer ++ sentC, toClient ++ sentS⟩, ?_, ?_⟩
  · simp only [Net.step, hServer', Option.map_some]
  · simp only [Net.step, hClient', Option.map_some]

theorem step_commute (closed : ε) : Run.Commute (Net.step closed (L := L) (α := α) (β := β)) := by
  intro s x y sx sy hne hx hy
  cases x with
  | client =>
    cases y with
    | client => exact absurd rfl hne
    | server => exact commute_sides hx hy
  | server =>
    cases y with
    | client =>
      obtain ⟨q, h, h'⟩ := commute_sides hy hx
      exact ⟨q, h', h⟩
    | server => exact absurd rfl hne

/-- Every run is completed to the end that one run reaches, in as many steps as are left. -/
theorem agree {s s' q : Net L ε α β} {as bs : List Side}
    (hend : Run.exec (Net.step closed) s as = some q) (hstop : ∀ a, q.step closed a = none)
    (hrun : Run.exec (Net.step closed) s bs = some s') :
    ∃ cs, Run.exec (Net.step closed) s' cs = some q ∧ bs.length + cs.length = as.length :=
  Run.exec_commute _ (step_commute closed) hend hstop hrun

end Lib.Duplex
