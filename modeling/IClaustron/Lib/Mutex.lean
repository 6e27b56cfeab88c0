import Mathlib.Data.List.Basic

/-!
# Lib.Mutex — the calls of one thread on one mutex

What a thread does to a mutex is the list of its calls. `LockState.run` says in what
state they leave the thread: without the mutex, with it, or after a wrong call.
-/

namespace Lib

inductive LockOp where
  | lock
  | unlock
deriving DecidableEq

/-- The state of a mutex as its user sees it; `broken` after a lock by the thread
that has it, or an unlock by one that does not. -/
inductive LockState where
  | free
  | held
  | broken
deriving DecidableEq

def LockState.apply : LockState → LockOp → LockState
  | .free, .lock => .held
  | .held, .unlock => .free
  | _, _ => .broken

def LockState.run (l : LockState) (ops : List LockOp) : LockState := ops.foldl LockState.apply l

/-- Calls that take a thread without the mutex to one without it. -/
def Sections (ops : List LockOp) : Prop := LockState.free.run ops = .free

instance (ops : List LockOp) : Decidable (Sections ops) :=
  inferInstanceAs (Decidable (_ = _))

namespace Sections

theorem nil : Sections [] := rfl

theorem one : Sections [.lock, .unlock] := rfl

theorem append {ops ops' : List LockOp} (h : Sections ops) (h' : Sections ops') :
    Sections (ops ++ ops') := by
  unfold Sections LockState.run at *
  rw [List.foldl_append, h, h']

end Sections

end Lib
