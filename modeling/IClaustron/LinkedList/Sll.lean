import IClaustron.Lib.Dll
import IClaustron.Lib.Run

/-!
# LinkedList.Sll — singly linked intrusive lists

Model of IC_INSERT_SLL, IC_REMOVE_FIRST_SLL and FOR_EACH_SLL in include/ic_linked_list.h. A parent
object has the fields `first` and `last` of a list; the objects are linked by a field `next` of
their own.

IC_INSERT_SLL forgets `last` when the list has a first object: the third object is linked behind
the first one again, and the second one is lost.

* `sllRuns_iff` — a list is the sequence of its objects exactly as long as objects are only
  inserted into an empty list;
* `Shows.insert` — after insertions it shows the first and the last object.
-/

namespace IClaustron.LinkedList

open Lib List Function

variable {α : Type}

/-! ## Model -/

/-- The two fields of the parent object, and the link of the objects. -/
structure Sll (α : Type) where
  first : Option α
  last : Option α
  next : α → Option α

/-- A parent object without objects. -/
def Sll.empty (next : α → Option α) : Sll α where
  first := none
  last := none
  next := next

/-- IC_INSERT_SLL. It is `none` when `last` is used and is NULL. -/
def insertSll [DecidableEq α] (s : Sll α) (object : α) : Option (Sll α) :=
  match s.first with
  | some _ => do
    let last ← s.last
    let next := update s.next last (some object)
    return { s with next := update next object none }
  | none =>
    some { first := some object, last := some object, next := update s.next object none }

/-- IC_REMOVE_FIRST_SLL. It is `none` when its ic_require fails. -/
def removeFirstSll (s : Sll α) : Option (Sll α) :=
  match s.first with
  | some first =>
    some { s with first := s.next first, last := if s.next first = none then none else s.last }
  | none => none

/-- The objects that FOR_EACH_SLL visits, or `none` when there are more than `n`. -/
def visits (next : α → Option α) : Nat → Option α → Option (List α)
  | _, none => some []
  | 0, some _ => none
  | n + 1, some x => do
    let xs ← visits next n (next x)
    return x :: xs

inductive SllOp (α : Type) where
  | insert (object : α)
  | removeFirst

/-! ## Refinement -/

/-- The list is a sequence of objects. -/
structure Sll.Refines (s : Sll α) (l : List α) : Prop where
  forward : Chain s.next s.first l
  first : s.first = l.head?
  last : s.last = l.getLast?

/-- The sequence after an operation. -/
def sllAbs (l : List α) : SllOp α → List α
  | .insert object => l ++ [object]
  | .removeFirst => l.tail

def sllOp [DecidableEq α] (s : Sll α) : SllOp α → Option (Sll α)
  | .insert object => insertSll s object
  | .removeFirst => removeFirstSll s

/-- An operation on the list and on the sequence. -/
def sllStep [DecidableEq α] (s : Sll α × List α) (op : SllOp α) : Option (Sll α × List α) := do
  let list ← sllOp s.1 op
  return (list, sllAbs s.2 op)

/-- The macro goes through, and the list is the sequence behind it. -/
def SllGoes [DecidableEq α] (s : Sll α × List α) (op : SllOp α) : Prop :=
  ∃ list, sllOp s.1 op = some list ∧ list.Refines (sllAbs s.2 op)

/-- Objects are inserted into an empty list and removed from one that is not. -/
def sllOk (s : Sll α × List α) : SllOp α → Prop
  | .insert _ => s.2 = []
  | .removeFirst => s.2 ≠ []

variable {s : Sll α} {l : List α} {x : α}

theorem Sll.Refines.eq_nil (h : s.Refines l) (hFirst : s.first = none) : l = [] := by
  have hHead := h.first
  rw [hFirst] at hHead
  exact head?_eq_none_iff.mp hHead.symm

theorem Sll.Refines.eq_cons (h : s.Refines l) (hFirst : s.first = some x) : ∃ xs, l = x :: xs := by
  have hChain := h.forward
  rw [hFirst] at hChain
  exact hChain.eq_cons

theorem removeFirstSll_iff (h : s.Refines l) :
    (∃ s', removeFirstSll s = some s' ∧ s'.Refines l.tail) ↔ l ≠ [] := by
  cases hFirst : s.first with
  | none =>
    refine iff_of_false ?_ (not_not.mpr (h.eq_nil hFirst))
    rintro ⟨s', hRemove, -⟩
    rw [removeFirstSll, hFirst] at hRemove
    cases hRemove
  | some y =>
    rcases h.eq_cons hFirst with ⟨xs, rfl⟩
    refine iff_of_true ⟨_, by rw [removeFirstSll, hFirst], ?_⟩ (cons_ne_nil y xs)
    have hRest : Chain s.next (s.next y) xs := h.forward.2
    cases xs with
    | nil =>
      rw [chain_nil] at hRest
      exact ⟨hRest, hRest, if_pos hRest⟩
    | cons z zs =>
      have hSome : s.next y ≠ none := by
        rw [hRest.1]
        exact Option.some_ne_none z
      refine ⟨hRest, hRest.1, ?_⟩
      show (if s.next y = none then none else s.last) = _
      rw [if_neg hSome, h.last, getLast?_cons_cons]
      rfl

section

variable [DecidableEq α]

/-- `last` stays as it was in a list that is not empty. -/
theorem insertSll_iff (h : s.Refines l) :
    (∃ s', insertSll s x = some s' ∧ s'.Refines (l ++ [x])) ↔ l = [] := by
  cases hFirst : s.first with
  | none =>
    have hNil := h.eq_nil hFirst
    subst hNil
    refine iff_of_true ⟨_, by rw [insertSll, hFirst], ⟨rfl, ?_⟩, rfl, rfl⟩ rfl
    exact update_self x none s.next
  | some y =>
    rcases h.eq_cons hFirst with ⟨xs, rfl⟩
    refine iff_of_false ?_ (cons_ne_nil y xs)
    rintro ⟨s', hInsert, h'⟩
    have hLast : s.last = some ((y :: xs).getLast (cons_ne_nil y xs)) := by
      rw [h.last, getLast?_eq_some_getLast]
    rw [insertSll, hFirst, hLast] at hInsert
    cases hInsert
    have hX : s.last = some x := hLast.trans (h'.last.trans getLast?_concat)
    -- the object inserted is the last one already: the list visits it only once
    have hMem : x ∈ y :: xs := by
      rw [h.last] at hX
      exact mem_of_mem_getLast? hX
    have hTwice := h'.forward.nodup
    rw [nodup_append] at hTwice
    exact hTwice.2.2 x hMem x (mem_singleton_self x) rfl

theorem sllGoes_iff {s : Sll α × List α} (h : s.1.Refines s.2) (op : SllOp α) :
    SllGoes s op ↔ sllOk s op := by
  cases op with
  | insert x => exact insertSll_iff h
  | removeFirst => exact removeFirstSll_iff h

/-- From an empty list on, every operation goes through and leaves the list as the sequence says
exactly if no object is inserted into a list that is not empty, and none removed from one that
is. -/
theorem sllRuns_iff (next : α → Option α) (ops : List (SllOp α)) :
    Run.Runs sllStep SllGoes (Sll.empty next, []) ops ↔
      Run.Meets sllStep sllOk (Sll.empty next, []) ops := by
  refine Run.runs_iff_meets sllStep (fun s => s.1.Refines s.2) (fun s op h => sllGoes_iff h op)
    (fun s op h hOk => ?_) ops ⟨rfl, rfl, rfl⟩
  rcases (sllGoes_iff h op).mpr hOk with ⟨list, hOp, hRefines⟩
  refine ⟨(list, sllAbs s.2 op), ?_, hRefines⟩
  rw [sllStep, hOp]
  rfl

end

/-! ## Insertions only -/

/-- The first and the last object. -/
def ends : List α → List α
  | [] => []
  | [x] => [x]
  | x :: y :: l => [x, (y :: l).getLast (List.cons_ne_nil y l)]

/-- A list after the insertion of the objects `l`. -/
structure Sll.Shows (s : Sll α) (l : List α) : Prop where
  forward : Chain s.next s.first (ends l)
  last : s.last = l.head?

theorem head?_ends (l : List α) : (ends l).head? = l.head? := by
  rcases l with _ | ⟨x, _ | ⟨y, l⟩⟩
  · rfl
  · rfl
  · rfl

theorem ends_sublist (l : List α) : (ends l).Sublist l := by
  rcases l with _ | ⟨x, _ | ⟨y, l⟩⟩
  · exact List.Sublist.refl _
  · exact List.Sublist.refl _
  · exact (singleton_sublist.mpr (getLast_mem _)).cons_cons x

theorem ends_append (y : α) (l : List α) (x : α) : ends (y :: l ++ [x]) = [y, x] := by
  cases l with
  | nil => rfl
  | cons z zs =>
    show [y, (z :: zs ++ [x]).getLast _] = [y, x]
    rw [getLast_append_singleton]

theorem Sll.Shows.empty (next : α → Option α) : (Sll.empty next).Shows [] := ⟨rfl, rfl⟩

/-- Another object is inserted. -/
theorem Sll.Shows.insert [DecidableEq α] (h : s.Shows l) (hNew : x ∉ l) :
    ∃ s', insertSll s x = some s' ∧ s'.Shows (l ++ [x]) := by
  cases l with
  | nil =>
    have hFirst : s.first = none := h.forward
    refine ⟨_, by rw [insertSll, hFirst], ⟨rfl, ?_⟩, rfl⟩
    exact update_self x none s.next
  | cons y ys =>
    have hFirst : s.first = some y := h.forward.head?_eq.trans (head?_ends (y :: ys))
    have hLast : s.last = some y := h.last
    have hNe : y ≠ x := fun hEq => hNew (hEq ▸ mem_cons_self)
    rcases s with ⟨first, last, next⟩
    cases hFirst
    cases hLast
    refine ⟨_, rfl, ?_, rfl⟩
    rw [ends_append]
    refine ⟨rfl, ?_, ?_⟩
    · show update (update next y (some x)) x none y = some x
      rw [update_of_ne hNe, update_self]
    · show update (update next y (some x)) x none x = none
      rw [update_self]

/-- A list that ends is visited. -/
theorem visits_of_chain {next : α → Option α} {a : Option α} (h : Chain next a l) {n : Nat}
    (hLen : l.length ≤ n) : visits next n a = some l := by
  induction l generalizing a n with
  | nil =>
    rw [chain_nil] at h
    subst h
    cases n <;> rfl
  | cons x xs ih =>
    rcases h with ⟨rfl, hRest⟩
    cases n with
    | zero => cases hLen
    | succ n =>
      rw [visits, ih hRest (Nat.le_of_succ_le_succ hLen)]
      rfl

end IClaustron.LinkedList
