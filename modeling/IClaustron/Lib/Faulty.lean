import Mathlib.Data.List.Basic

/-!
# Lib.Faulty — programs whose operations may fail

A program is a tree of calls on an outer state, each with a reply that decides how it
goes on. In a run at most one thing goes wrong: the program stops in front of a call,
or a call has no effect and its reply is an error. What has happened is kept in a
history, and `spare` says that the fault is still to come.

* `run_op` and `run_bind` — how a run of one call, and of a sequence, has gone;
* `Prog.Only` — programs with operations of one kind: what these keep, a run keeps.
-/

namespace Lib.Faulty

/-- Programs with operations in `ω` and replies in `ρ`. -/
inductive Prog (ω ρ α : Type) : Type where
  | ret (a : α)
  | call (op : ω) (next : ρ → Prog ω ρ α)

variable {ω ρ σ α β : Type}

def Prog.bind : Prog ω ρ α → (α → Prog ω ρ β) → Prog ω ρ β
  | .ret a, f => f a
  | .call op next, f => .call op fun r => (next r).bind f

instance : Monad (Prog ω ρ) where
  pure := .ret
  bind := .bind

/-- One operation. -/
def Prog.op (op : ω) : Prog ω ρ ρ := .call op .ret

inductive Event (ω ρ : Type) where
  | done (op : ω)
  | failed (op : ω) (reply : ρ)
deriving DecidableEq

structure Conf (σ ω ρ : Type) where
  state : σ
  hist : List (Event ω ρ)
  spare : Bool

/-- Runs of a program: `none` when it was stopped. `sem` is what an operation does, and
`bad` are the replies of one that fails. -/
inductive Run (sem : ω → σ → σ × ρ) (bad : ω → ρ → Prop) :
    Prog ω ρ α → Conf σ ω ρ → Conf σ ω ρ → Option α → Prop where
  | ret {a : α} {c : Conf σ ω ρ} : Run sem bad (.ret a) c c (some a)
  | done {op : ω} {next : ρ → Prog ω ρ α} {s : σ} {h : List (Event ω ρ)} {b : Bool}
      {c : Conf σ ω ρ} {res : Option α} :
    Run sem bad (next (sem op s).2) ⟨(sem op s).1, h ++ [.done op], b⟩ c res →
    Run sem bad (.call op next) ⟨s, h, b⟩ c res
  | stop {op : ω} {next : ρ → Prog ω ρ α} {s : σ} {h : List (Event ω ρ)} :
    Run sem bad (.call op next) ⟨s, h, true⟩ ⟨s, h, false⟩ none
  | failed {op : ω} {next : ρ → Prog ω ρ α} {s : σ} {h : List (Event ω ρ)} {r : ρ}
      {c : Conf σ ω ρ} {res : Option α} :
    bad op r → Run sem bad (next r) ⟨s, h ++ [.failed op r], false⟩ c res →
    Run sem bad (.call op next) ⟨s, h, true⟩ c res

variable {sem : ω → σ → σ × ρ} {bad : ω → ρ → Prop}

variable {c c' : Conf σ ω ρ} {res : Option α} {p : Prog ω ρ α} {P : ω → Prop}

/-- A call is done, stopped before, or fails. -/
theorem run_op {op : ω} {res : Option ρ} (hrun : Run sem bad (Prog.op op) c c' res) :
    (c' = ⟨(sem op c.state).1, c.hist ++ [.done op], c.spare⟩ ∧ res = some (sem op c.state).2) ∨
      (c.spare = true ∧ c' = ⟨c.state, c.hist, false⟩ ∧ res = none) ∨
      (c.spare = true ∧ ∃ r, bad op r ∧ c' = ⟨c.state, c.hist ++ [.failed op r], false⟩ ∧
        res = some r) := by
  cases hrun with
  | done hrun =>
    cases hrun
    exact .inl ⟨rfl, rfl⟩
  | stop => exact .inr (.inl ⟨rfl, rfl, rfl⟩)
  | failed hbad hrun =>
    cases hrun
    exact .inr (.inr ⟨rfl, _, hbad, rfl, rfl⟩)

theorem run_pure {a : α} (hrun : Run sem bad (pure a : Prog ω ρ α) c c' res) :
    c' = c ∧ res = some a := by
  cases hrun
  exact ⟨rfl, rfl⟩

/-- A sequence: the second part runs from where the first one has returned. -/
theorem run_bind {f : α → Prog ω ρ β} {res : Option β} (hrun : Run sem bad (p >>= f) c c' res) :
    (∃ c₁ a, Run sem bad p c c₁ (some a) ∧ Run sem bad (f a) c₁ c' res) ∨
      (Run sem bad p c c' none ∧ res = none) := by
  induction p generalizing c with
  | ret a => exact .inl ⟨c, a, Run.ret, hrun⟩
  | call op next ih =>
    cases hrun with
    | done hrun =>
      rcases ih _ hrun with ⟨c₁, a, hp, hf⟩ | ⟨hp, hres⟩
      · exact .inl ⟨c₁, a, Run.done hp, hf⟩
      · exact .inr ⟨Run.done hp, hres⟩
    | stop => exact .inr ⟨Run.stop, rfl⟩
    | failed hbad hrun =>
      rcases ih _ hrun with ⟨c₁, a, hp, hf⟩ | ⟨hp, hres⟩
      · exact .inl ⟨c₁, a, Run.failed hbad hp, hf⟩
      · exact .inr ⟨Run.failed hbad hp, hres⟩

/-- A program that nothing happens to runs to its end. -/
theorem exists_undisturbed (sem : ω → σ → σ × ρ) (bad : ω → ρ → Prop) (p : Prog ω ρ α)
    (c : Conf σ ω ρ) : ∃ c' a, Run sem bad p c c' (some a) ∧
      ∀ op r, Event.failed op r ∈ c'.hist → Event.failed op r ∈ c.hist := by
  induction p generalizing c with
  | ret a => exact ⟨c, a, Run.ret, fun _ _ h => h⟩
  | call op next ih =>
    rcases ih (sem op c.state).2 ⟨(sem op c.state).1, c.hist ++ [.done op], c.spare⟩ with
      ⟨c', a, hrun, hhist⟩
    refine ⟨c', a, Run.done hrun, ?_⟩
    intro op' r h
    simpa using hhist op' r h

/-! ## Programs with operations of one kind -/

/-- What was called. -/
def Event.call : Event ω ρ → ω
  | .done op => op
  | .failed op _ => op

/-- Every operation of the program is in `P`. -/
def Prog.Only (P : ω → Prop) : Prog ω ρ α → Prop
  | .ret _ => True
  | .call op next => P op ∧ ∀ r, (next r).Only P

theorem only_op {op : ω} (hop : P op) : (Prog.op op : Prog ω ρ ρ).Only P :=
  ⟨hop, fun _ => trivial⟩

theorem only_bind {f : α → Prog ω ρ β} (hp : p.Only P) (hf : ∀ a, (f a).Only P) :
    (p >>= f).Only P := by
  induction p with
  | ret a => exact hf a
  | call op next ih => exact ⟨hp.1, fun r => ih r (hp.2 r)⟩

/-- The history of a run grows by operations of the program. -/
theorem Run.hist_only (hrun : Run sem bad p c c' res) (hp : p.Only P) :
    ∃ new, c'.hist = c.hist ++ new ∧ ∀ e ∈ new, P e.call := by
  induction hrun with
  | ret => exact ⟨[], (List.append_nil _).symm, nofun⟩
  | @done op next s h b c' res hrun ih =>
    rcases ih (hp.2 _) with ⟨new, hhist, hnew⟩
    refine ⟨.done op :: new, by rw [hhist, List.append_assoc]; rfl, ?_⟩
    intro e he
    rcases List.mem_cons.mp he with rfl | he
    · exact hp.1
    · exact hnew e he
  | stop => exact ⟨[], (List.append_nil _).symm, nofun⟩
  | @failed op next s h r c' res _ hrun ih =>
    rcases ih (hp.2 _) with ⟨new, hhist, hnew⟩
    refine ⟨.failed op r :: new, by rw [hhist, List.append_assoc]; rfl, ?_⟩
    intro e he
    rcases List.mem_cons.mp he with rfl | he
    · exact hp.1
    · exact hnew e he

/-- What the operations of the program keep holds at the end of a run. -/
theorem Run.state_only {I : σ → Prop} (hrun : Run sem bad p c c' res) (hp : p.Only P)
    (hkeep : ∀ op s, P op → I s → I (sem op s).1) (hI : I c.state) : I c'.state := by
  induction hrun with
  | ret => exact hI
  | done hrun ih => exact ih (hp.2 _) (hkeep _ _ hp.1 hI)
  | stop => exact hI
  | failed _ hrun ih => exact ih (hp.2 _) hI

/-- There is one fault at most: when it has been, the rest of the run is undisturbed. -/
theorem Run.spare (hrun : Run sem bad p c c' res) (hc : c.spare = false) :
    c'.spare = false ∧ res ≠ none := by
  induction hrun with
  | ret => exact ⟨hc, nofun⟩
  | done hrun ih => exact ih hc
  | stop => cases hc
  | failed => cases hc

end Lib.Faulty
