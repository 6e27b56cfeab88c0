import IClaustron.LinkedList.Sll

/-!
# LinkedList.Dll — doubly linked intrusive lists

Model of IC_INSERT_DLL and IC_REMOVE_DLL in include/ic_linked_list.h. When IC_REMOVE_DLL takes the
first of several objects away, the next one keeps its `prev`.

* `intrusive_lists_iff` — when the lists of both kinds are the sequences of their objects.
-/

namespace IClaustron.LinkedList

open Lib List Function

variable {α : Type} [DecidableEq α]

/-! ## Model -/

/-- The two fields of the parent object, and the links of the objects. -/
structure Dlist (α : Type) where
  first : Option α
  last : Option α
  next : α → Option α
  prev : α → Option α

omit [DecidableEq α] in
def Dlist.empty (next prev : α → Option α) : Dlist α where
  first := none
  last := none
  next := next
  prev := prev

/-- IC_INSERT_DLL. It is `none` when `last` is used and is NULL. -/
def insertDll (s : Dlist α) (object : α) : Option (Dlist α) :=
  match s.first with
  | some _ => do
    let last ← s.last
    let next := update s.next last (some object)
    return { s with
      last := some object
      next := update next object none
      prev := update s.prev object (some last) }
  | none =>
    some {
      first := some object
      last := some object
      next := update s.next object none
      prev := update s.prev object none }

/-- What IC_REMOVE_DLL does before it clears the links of the object. -/
def unlinkDll (s : Dlist α) (object : α) : Option (Dlist α) :=
  match s.next object with
  | some next =>
    match s.prev object with
    | some prev =>
      some { s with
        next := update s.next prev (some next)
        prev := update s.prev next (some prev) }
    -- we are the first object
    | none => if s.first = some object then some { s with first := some next } else none
  -- we are the last object
  | none =>
    if s.last = some object then
      match s.prev object with
      | some prev =>
        some { s with last := some prev, next := update s.next prev none }
      -- we are the only object
      | none =>
        if s.first = some object then some { s with first := none, last := none } else none
    else none

/-- IC_REMOVE_DLL. It is `none` when an assertion fails. -/
def removeDll (s : Dlist α) (object : α) : Option (Dlist α) := do
  let s ← unlinkDll s object
  return { s with
    next := update s.next object none
    prev := update s.prev object none }

inductive DllOp (α : Type) where
  | insert (object : α)
  | remove (object : α)

def dllOp (s : Dlist α) : DllOp α → Option (Dlist α)
  | .insert object => insertDll s object
  | .remove object => removeDll s object

/-- The list is a sequence of objects, in both directions. -/
structure Dlist.Refines (s : Dlist α) (l : List α) : Prop where
  forward : Chain s.next s.first l
  backward : Chain s.prev s.last l.reverse
  first : s.first = l.head?
  last : s.last = l.getLast?

/-- The sequence after an operation. -/
def dllAbs (l : List α) : DllOp α → List α
  | .insert object => l ++ [object]
  | .remove object => l.erase object

/-- An operation on the list and on the sequence. -/
def dllStep (s : Dlist α × List α) (op : DllOp α) : Option (Dlist α × List α) := do
  let list ← dllOp s.1 op
  return (list, dllAbs s.2 op)

/-- Only members are removed. -/
def OfMember (l : List α) : DllOp α → Prop
  | .insert _ => True
  | .remove object => object ∈ l

/-- The macro goes through, and the list is the sequence behind it. -/
def DllGoes (s : Dlist α × List α) (op : DllOp α) : Prop :=
  OfMember s.2 op ∧ ∃ list, dllOp s.1 op = some list ∧ list.Refines (dllAbs s.2 op)

/-- Objects are not inserted twice, and not removed from the front of other objects. -/
def dllOk (s : Dlist α × List α) : DllOp α → Prop
  | .insert object => object ∉ s.2
  | .remove object => object ∈ s.2 ∧ (s.2.head? = some object → s.2 = [object])

variable {s : Dlist α} {l l₁ l₂ : List α} {x y q : α}

omit [DecidableEq α] in
theorem Dlist.Refines.dll (h : s.Refines l) : Lib.Dll s.next s.prev s.first l := by
  refine ⟨h.forward, back_iff_chain.mpr ?_⟩
  rw [← h.last]
  exact h.backward

omit [DecidableEq α] in
theorem refines_of_dll (h : Lib.Dll s.next s.prev s.first l) (hLast : s.last = l.getLast?) :
    s.Refines l where
  forward := h.chain
  backward := hLast ▸ back_iff_chain.mp h.back
  first := h.chain.head?_eq
  last := hLast

/-! ## Insertion -/

theorem insertDll_iff (h : s.Refines l) :
    (∃ s', insertDll s x = some s' ∧ s'.Refines (l ++ [x])) ↔ x ∉ l := by
  constructor
  · rintro ⟨s', -, h'⟩ hMem
    have hTwice := h'.forward.nodup
    rw [nodup_append] at hTwice
    exact hTwice.2.2 x hMem x (mem_singleton_self x) rfl
  · intro hNew
    rcases eq_nil_or_concat l with rfl | ⟨l₁, q, rfl⟩
    · have hFirst : s.first = none := h.first
      refine ⟨_, by rw [insertDll, hFirst], refines_of_dll ⟨⟨rfl, ?_⟩, ?_, trivial⟩ rfl⟩
      · show update s.next x none x = none
        rw [update_self]
      · show update s.prev x none x = none
        rw [update_self]
    · rw [concat_eq_append] at h hNew ⊢
      have hLast : s.last = some q := h.last.trans getLast?_concat
      have hSome : ∃ y, s.first = some y := by
        rw [h.first]
        cases l₁ with
        | nil => exact ⟨q, rfl⟩
        | cons y ys => exact ⟨y, rfl⟩
      rcases hSome with ⟨y, hFirst⟩
      refine ⟨_, by rw [insertDll, hFirst, hLast]; rfl, refines_of_dll ?_ ?_⟩
      · rw [append_assoc]
        exact hFirst ▸ h.dll.concat hNew
      · exact getLast?_concat.symm

/-! ## Removal -/

/-- The links of an object that is not in the list are cleared. -/
theorem clear_refines (h : Lib.Dll s.next s.prev s.first l) (hLast : s.last = l.getLast?)
    (hx : x ∉ l) :
    Dlist.Refines { s with
      next := update s.next x none
      prev := update s.prev x none } l := by
  have hNe : ∀ y ∈ l, y ≠ x := by
    rintro y hy rfl
    exact hx hy
  refine refines_of_dll (h.congr ?_ ?_) hLast
  · intro y hy
    exact (update_of_ne (hNe y hy) _ _).symm
  · intro y hy
    exact (update_of_ne (hNe y hy) _ _).symm

theorem removeDll_only (h : s.Refines [x]) :
    ∃ s', removeDll s x = some s' ∧ s'.Refines [] := by
  have hNext : s.next x = none := h.forward.2
  have hPrev : s.prev x = none := h.backward.2
  have hFirst : s.first = some x := h.first
  have hLast : s.last = some x := h.last
  have hUnlink : unlinkDll s x = some { s with first := none, last := none } := by
    rw [unlinkDll, hNext, hPrev]
    dsimp only
    rw [if_pos hLast, if_pos hFirst]
  refine ⟨_, by rw [removeDll, hUnlink]; rfl, ?_⟩
  exact clear_refines (s := { s with first := none, last := none }) ⟨rfl, trivial⟩ rfl
    not_mem_nil

/-- The object behind the first one still points back at it. -/
theorem removeDll_first (h : s.Refines (x :: y :: l)) :
    ¬∃ s', removeDll s x = some s' ∧ s'.Refines (y :: l) := by
  have hNext : s.next x = some y := h.forward.2.1
  have hFirst : s.first = some x := h.first
  have hBack := h.dll.back
  have hNe : y ≠ x := by
    rintro rfl
    exact (nodup_cons.mp h.forward.nodup).1 mem_cons_self
  have hUnlink : unlinkDll s x = some { s with first := some y } := by
    rw [unlinkDll, hNext, hBack.1]
    dsimp only
    rw [if_pos hFirst]
  rintro ⟨s', hRemove, h'⟩
  rw [removeDll, hUnlink] at hRemove
  cases hRemove
  have hPrev : update s.prev x none y = none := h'.dll.back.1
  rw [update_of_ne hNe, hBack.2.1] at hPrev
  cases hPrev

theorem removeDll_last (h : s.Refines (l₁ ++ [q, x])) :
    ∃ s', removeDll s x = some s' ∧ s'.Refines (l₁ ++ [q]) := by
  have hNodup := h.forward.nodup
  rw [append_cons, nodup_append] at hNodup
  have hx : x ∉ l₁ ++ [q] := fun hMem =>
    hNodup.2.2 x hMem x (mem_singleton_self x) rfl
  have hBack := (back_append_cons.mp h.dll.back).2
  have hPrev : s.prev x = some q := hBack.1
  have hNext : s.next x = none := by
    rcases seg_append.mp h.forward with ⟨m, -, -, -, hNext⟩
    exact hNext
  have hLast : s.last = some x := by
    rw [h.last, append_cons]
    exact getLast?_concat
  have hUnlink : unlinkDll s x =
      some { s with last := some q, next := update s.next q none } := by
    rw [unlinkDll, hNext, hPrev]
    dsimp only
    rw [if_pos hLast]
  have hErase := h.dll.erase_mid
  rw [hNext, setLink_none] at hErase
  refine ⟨_, by rw [removeDll, hUnlink]; rfl, ?_⟩
  exact clear_refines (s := { s with last := some q, next := update s.next q none })
    hErase getLast?_concat.symm hx

theorem removeDll_middle (h : s.Refines (l₁ ++ q :: x :: y :: l₂)) :
    ∃ s', removeDll s x = some s' ∧ s'.Refines (l₁ ++ q :: y :: l₂) := by
  have hNodup := h.forward.nodup
  have hx : x ∉ l₁ ++ q :: y :: l₂ := by
    rw [append_cons] at hNodup
    intro hMem
    rw [append_cons] at hMem
    rcases mem_append.mp hMem with hMem | hMem
    · exact (nodup_append.mp hNodup).2.2 x hMem x mem_cons_self rfl
    · exact (nodup_cons.mp (nodup_append.mp hNodup).2.1).1 hMem
  have hPrev : s.prev x = some q := (back_append_cons.mp h.dll.back).2.1
  have hNext : s.next x = some y := by
    rcases seg_append.mp h.forward with ⟨m, -, -, -, hNext, -⟩
    exact hNext
  have hUnlink : unlinkDll s x = some { s with
      next := update s.next q (some y)
      prev := update s.prev y (some q) } := by
    rw [unlinkDll, hNext, hPrev]
  have hErase := h.dll.erase_mid
  rw [hNext, setLink_some] at hErase
  refine ⟨_, by rw [removeDll, hUnlink]; rfl, ?_⟩
  refine clear_refines (s := { s with
      next := update s.next q (some y)
      prev := update s.prev y (some q) }) hErase ?_ hx
  show s.last = _
  rw [h.last]
  simp only [getLast?_append, getLast?_cons_cons]

/-- A member can be removed unless it is the first of several. -/
theorem removeDll_iff (h : s.Refines l) (hMem : x ∈ l) :
    (∃ s', removeDll s x = some s' ∧ s'.Refines (l.erase x)) ↔ (l.head? = some x → l = [x]) := by
  rcases append_of_mem hMem with ⟨l₁, l₂, rfl⟩
  have hNodup := h.forward.nodup
  have hx₁ : x ∉ l₁ := fun hIn => (disjoint_of_nodup_append hNodup) hIn mem_cons_self
  rw [erase_append_right _ hx₁, erase_cons_head]
  rcases eq_nil_or_concat l₁ with rfl | ⟨l₁, q, rfl⟩
  · cases l₂ with
    | nil => exact iff_of_true (removeDll_only h) fun _ => rfl
    | cons y l₂ =>
      refine iff_of_false (removeDll_first h) fun hOne => ?_
      cases hOne rfl
  · rw [concat_eq_append] at h hx₁ ⊢
    rw [append_assoc, singleton_append] at h ⊢
    rw [append_assoc, singleton_append]
    have hHead : (l₁ ++ q :: x :: l₂).head? ≠ some x := by
      intro hEq
      apply hx₁
      cases l₁ with
      | nil =>
        cases hEq
        exact mem_singleton_self _
      | cons z zs =>
        cases hEq
        exact mem_cons_self
    refine iff_of_true ?_ fun hEq => absurd hEq hHead
    cases l₂ with
    | nil => exact removeDll_last h
    | cons y l₂ => exact removeDll_middle h

/-! ## Runs -/

theorem dllGoes_iff {s : Dlist α × List α} (h : s.1.Refines s.2) (op : DllOp α) :
    DllGoes s op ↔ dllOk s op := by
  cases op with
  | insert x => exact (and_iff_right trivial).trans (insertDll_iff h)
  | remove x => exact and_congr_right fun hMem => removeDll_iff h hMem

theorem dllRuns_iff (next prev : α → Option α) (ops : List (DllOp α)) :
    Run.Runs dllStep DllGoes (Dlist.empty next prev, []) ops ↔
      Run.Meets dllStep dllOk (Dlist.empty next prev, []) ops := by
  refine Run.runs_iff_meets dllStep (fun s => s.1.Refines s.2) (fun s op h => dllGoes_iff h op)
    (fun s op h hOk => ?_) ops ⟨rfl, rfl, rfl, rfl⟩
  rcases ((dllGoes_iff h op).mpr hOk).2 with ⟨list, hOp, hRefines⟩
  refine ⟨(list, dllAbs s.2 op), ?_, hRefines⟩
  rw [dllStep, hOp]
  rfl

/-- From empty lists on, every operation of a sequence goes through and leaves the list as the
sequence says exactly if no object is inserted into a singly linked list with objects, or removed
from one without, and none is inserted into a doubly linked list twice, or removed from the front
of other objects there. -/
theorem intrusive_lists_iff (next prev : α → Option α) (ops : List (SllOp α))
    (ops' : List (DllOp α)) :
    (Run.Runs sllStep SllGoes (Sll.empty next, []) ops ↔
      Run.Meets sllStep sllOk (Sll.empty next, []) ops) ∧
    (Run.Runs dllStep DllGoes (Dlist.empty next prev, []) ops' ↔
      Run.Meets dllStep dllOk (Dlist.empty next prev, []) ops') :=
  ⟨sllRuns_iff next ops, dllRuns_iff next prev ops'⟩

/-- The third insertion loses the second object, and a removal from the front breaks the links
back. -/
theorem objects_lost :
    ¬Run.Runs sllStep SllGoes (Sll.empty fun _ : Nat => none, [])
      [.insert 1, .insert 2, .insert 3] ∧
    ((Run.exec sllStep (Sll.empty fun _ : Nat => none, [])
      [.insert 1, .insert 2, .insert 3]).bind fun s => visits s.1.next 3 s.1.first) =
      some [1, 3] ∧
    ¬Run.Runs dllStep DllGoes (Dlist.empty (fun _ : Nat => none) fun _ => none, [])
      [.insert 1, .insert 2, .remove 1] := by
  refine ⟨?_, rfl, ?_⟩
  · rw [sllRuns_iff]
    rintro ⟨-, h⟩
    cases (h _ rfl).1
  · rw [dllRuns_iff]
    rintro ⟨-, h⟩
    have hOnly := (((h _ rfl).2 _ rfl).1).2 rfl
    cases hOnly

end IClaustron.LinkedList
