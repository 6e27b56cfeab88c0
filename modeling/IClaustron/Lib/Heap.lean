import Mathlib.Logic.Function.Basic
import Mathlib.Tactic.SplitIfs

/-!
# Lib.Heap — objects behind pointers

A heap maps addresses to objects; a freed or never allocated address holds
nothing. Addresses are handed out in increasing order, so an object returned by
`calloc` is different from every earlier one. Whether an allocation succeeds is
decided by a parameter that is asked once for every attempt.
-/

namespace Lib

abbrev Ptr := Nat

structure Heap (κ : Type*) where
  cells : Ptr → Option κ
  fresh : Nat

namespace Heap

variable {κ : Type*}

/-- The heap before the first allocation. -/
def empty : Heap κ := ⟨fun _ => none, 0⟩

def set (h : Heap κ) (p : Ptr) (c : κ) : Heap κ :=
  { h with cells := Function.update h.cells p (some c) }

def free (h : Heap κ) (p : Ptr) : Heap κ :=
  { h with cells := Function.update h.cells p none }

/-- Allocate an object with the given initial content. -/
def calloc (ok : Nat → Bool) (h : Heap κ) (c : κ) : Heap κ × Option Ptr :=
  if ok h.fresh then ({ h.set h.fresh c with fresh := h.fresh + 1 }, some h.fresh)
  else ({ h with fresh := h.fresh + 1 }, none)

/-- Nothing is stored at an address that has not been handed out. -/
def Bounded (h : Heap κ) : Prop := ∀ p c, h.cells p = some c → p < h.fresh

@[simp] theorem set_self (h : Heap κ) (p : Ptr) (c : κ) : (h.set p c).cells p = some c := by
  simp [set]

@[simp] theorem set_of_ne (h : Heap κ) {p q : Ptr} (c : κ) (hne : q ≠ p) :
    (h.set p c).cells q = h.cells q := by
  simp [set, hne]

@[simp] theorem set_fresh (h : Heap κ) (p : Ptr) (c : κ) : (h.set p c).fresh = h.fresh := rfl

theorem set_same {h : Heap κ} {p : Ptr} {c : κ} (hc : h.cells p = some c) : h.set p c = h := by
  unfold set
  rw [← hc, Function.update_eq_self]

@[simp] theorem free_self (h : Heap κ) (p : Ptr) : (h.free p).cells p = none := by
  simp [free]

@[simp] theorem free_of_ne (h : Heap κ) {p q : Ptr} (hne : q ≠ p) :
    (h.free p).cells q = h.cells q := by
  simp [free, hne]

theorem bounded_empty : (empty : Heap κ).Bounded := by
  intro p c hp
  cases hp

theorem Bounded.set {h : Heap κ} (hb : h.Bounded) {p : Ptr} (hp : p < h.fresh) (c : κ) :
    (h.set p c).Bounded := by
  intro q d hq
  by_cases hqp : q = p
  · subst hqp
    exact hp
  · rw [set_of_ne h c hqp] at hq
    exact hb q d hq

theorem calloc_ok {ok : Nat → Bool} (hok : ∀ n, ok n) (h : Heap κ) (c : κ) :
    calloc ok h c = ({ h.set h.fresh c with fresh := h.fresh + 1 }, some h.fresh) := by
  simp [calloc, hok]

/-- An allocation that succeeds does what it does when memory never runs out. -/
theorem calloc_of_ok {ok : Nat → Bool} {h : Heap κ} (hok : ok h.fresh = true) (c : κ) :
    calloc ok h c = calloc (fun _ => true) h c := by
  simp [calloc, hok]

theorem calloc_of_not {ok : Nat → Bool} {h : Heap κ} (hok : ok h.fresh = false) (c : κ) :
    calloc ok h c = ({ h with fresh := h.fresh + 1 }, none) := by
  simp [calloc, hok]

/-- Every attempt takes an address. -/
theorem calloc_fresh (ok : Nat → Bool) (h : Heap κ) (c : κ) :
    (calloc ok h c).1.fresh = h.fresh + 1 := by
  unfold calloc
  split_ifs <;> rfl

theorem Bounded.calloc {h : Heap κ} (hb : h.Bounded) (c : κ) :
    ({ h.set h.fresh c with fresh := h.fresh + 1 } : Heap κ).Bounded := by
  intro q d hq
  by_cases hqp : q = h.fresh
  · subst hqp
    exact Nat.lt_succ_self _
  · have hq' : h.cells q = some d := by
      rw [← set_of_ne h c hqp]
      exact hq
    exact Nat.lt_succ_of_lt (hb q d hq')

end Heap

end Lib
