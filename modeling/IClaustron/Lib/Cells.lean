import Mathlib.Data.Finset.Card
import Mathlib.Data.Finset.Range
import Mathlib.Logic.Function.Basic

/-!
# Lib.Cells — arrays of cells that may be empty

An array is a function from its indices. `Inj` says that nothing is in two cells, `Holds` what is in
some cell, and `occupied` collects the indices of the cells that are not empty.

* `inj_put`, `inj_clear`, `inj_swapRemove` — the changes that keep the contents apart.
* `holds_put`, `holds_clear`, `holds_swapRemove` — what is held afterwards.
* `Stack` — the first cells as a stack that elements can also be taken out of.
-/

namespace Lib.Cells

open Function

variable {α β : Type}

/-- Nothing is in two cells. -/
def Inj (f : Nat → Option α) : Prop := ∀ i j x, f i = some x → f j = some x → i = j

/-- `x` is in a cell. -/
def Holds (f : Nat → Option α) (x : α) : Prop := ∃ i, f i = some x

/-- The last entry takes the place of the one that goes. -/
def swapRemove (f : Nat → Option α) (k last : Nat) : Nat → Option α :=
  update (update f k (f last)) last none

/-- The first `n` cells. -/
def upTo (n : Nat) (f : Nat → Option α) : Nat → Option α := fun i => if i < n then f i else none

/-- The cells below `n` that are not empty. -/
def occupied (n : Nat) (f : Nat → Option α) : Finset Nat :=
  (Finset.range n).filter fun i => (f i).isSome

variable {f g : Nat → Option α} {i j k last n : Nat} {x y : α}

/-! ## Single cells -/

theorem put_eq_some : update f i (some y) j = some x ↔
    j = i ∧ x = y ∨ j ≠ i ∧ f j = some x := by
  by_cases hj : j = i
  · subst hj
    simp [eq_comm]
  · simp [hj]

theorem clear_eq_some : update f i none j = some x ↔ j ≠ i ∧ f j = some x := by
  by_cases hj : j = i
  · subst hj
    simp
  · simp [hj]

theorem swapRemove_eq_some : swapRemove f k last i = some x ↔
    i ≠ last ∧ (i = k ∧ f last = some x ∨ i ≠ k ∧ f i = some x) := by
  unfold swapRemove
  rw [clear_eq_some]
  by_cases hi : i = k
  · subst hi
    simp
  · simp [hi]

theorem swapRemove_of_ne (hi : i ≠ last) :
    swapRemove f k last i = if i = k then f last else f i := by
  unfold swapRemove
  rw [update_of_ne hi]
  split_ifs with hik
  · rw [hik, update_self]
  · rw [update_of_ne hik]

theorem swapRemove_last : swapRemove f k last last = none := update_self ..

theorem inj_put (h : Inj f) (hx : ¬Holds f x) : Inj (update f i (some x)) := by
  intro j k y hj hk
  rw [put_eq_some] at hj hk
  rcases hj with ⟨rfl, rfl⟩ | ⟨-, hj⟩
  · rcases hk with ⟨rfl, -⟩ | ⟨-, hk⟩
    · rfl
    · exact absurd ⟨k, hk⟩ hx
  · rcases hk with ⟨rfl, rfl⟩ | ⟨-, hk⟩
    · exact absurd ⟨j, hj⟩ hx
    · exact h _ _ _ hj hk

theorem inj_clear (h : Inj f) : Inj (update f i none) := by
  intro j k y hj hk
  exact h _ _ _ (clear_eq_some.mp hj).2 (clear_eq_some.mp hk).2

theorem inj_swapRemove (h : Inj f) : Inj (swapRemove f k last) := by
  intro i j y hi hj
  rw [swapRemove_eq_some] at hi hj
  rcases hi with ⟨hi', ⟨rfl, hi⟩ | ⟨hik, hi⟩⟩
  · rcases hj with ⟨hj', ⟨rfl, hj⟩ | ⟨hjk, hj⟩⟩
    · rfl
    · exact absurd (h _ _ _ hj hi) hj'
  · rcases hj with ⟨hj', ⟨rfl, hj⟩ | ⟨hjk, hj⟩⟩
    · exact absurd (h _ _ _ hi hj) hi'
    · exact h _ _ _ hi hj

theorem holds_put (hi : f i = none) :
    Holds (update f i (some x)) y ↔ y = x ∨ Holds f y := by
  constructor
  · rintro ⟨j, hj⟩
    rcases put_eq_some.mp hj with ⟨-, hy⟩ | ⟨-, hj⟩
    · exact .inl hy
    · exact .inr ⟨j, hj⟩
  · rintro (rfl | ⟨j, hj⟩)
    · exact ⟨i, put_eq_some.mpr (.inl ⟨rfl, rfl⟩)⟩
    · refine ⟨j, put_eq_some.mpr (.inr ⟨?_, hj⟩)⟩
      rintro rfl
      rw [hi] at hj
      cases hj

theorem holds_clear (h : Inj f) :
    Holds (update f i none) y ↔ Holds f y ∧ f i ≠ some y := by
  constructor
  · rintro ⟨j, hj⟩
    obtain ⟨hne, hj⟩ := clear_eq_some.mp hj
    exact ⟨⟨j, hj⟩, fun hi => hne (h _ _ _ hj hi)⟩
  · rintro ⟨⟨j, hj⟩, hi⟩
    refine ⟨j, clear_eq_some.mpr ⟨?_, hj⟩⟩
    rintro rfl
    exact hi hj

theorem holds_swapRemove (h : Inj f) :
    Holds (swapRemove f k last) y ↔ Holds f y ∧ f k ≠ some y := by
  constructor
  · rintro ⟨j, hj⟩
    obtain ⟨hjl, ⟨rfl, hLast⟩ | ⟨hjk, hj⟩⟩ := swapRemove_eq_some.mp hj
    · exact ⟨⟨last, hLast⟩, fun hk => hjl (h _ _ _ hk hLast)⟩
    · exact ⟨⟨j, hj⟩, fun hk => hjk (h _ _ _ hj hk)⟩
  · rintro ⟨⟨j, hj⟩, hk⟩
    have hjk : j ≠ k := by
      rintro rfl
      exact hk hj
    by_cases hjl : j = last
    · subst hjl
      exact ⟨k, swapRemove_eq_some.mpr ⟨Ne.symm hjk, .inl ⟨rfl, hj⟩⟩⟩
    · exact ⟨j, swapRemove_eq_some.mpr ⟨hjl, .inr ⟨hjk, hj⟩⟩⟩

/-! ## Counting -/

theorem mem_occupied : i ∈ occupied n f ↔ i < n ∧ (f i).isSome := by
  unfold occupied
  rw [Finset.mem_filter, Finset.mem_range]

theorem card_occupied_put (hi : i < n) (hEmpty : f i = none) :
    (occupied n (update f i (some x))).card = (occupied n f).card + 1 := by
  have hInsert : occupied n (update f i (some x)) = insert i (occupied n f) := by
    ext j
    rw [Finset.mem_insert, mem_occupied, mem_occupied]
    by_cases hj : j = i
    · subst hj
      simp [hi]
    · simp [hj]
  rw [hInsert, Finset.card_insert_of_notMem]
  rw [mem_occupied, hEmpty]
  simp

theorem card_occupied_clear (hi : i < n) (hTaken : f i = some x) :
    (occupied n (update f i none)).card = (occupied n f).card - 1 := by
  have hErase : occupied n (update f i none) = (occupied n f).erase i := by
    ext j
    rw [Finset.mem_erase, mem_occupied, mem_occupied]
    by_cases hj : j = i
    · subst hj
      simp
    · simp [hj]
  rw [hErase, Finset.card_erase_of_mem]
  rw [mem_occupied, hTaken]
  exact ⟨hi, rfl⟩

theorem card_occupied_swapRemove (hLast : last < n) (hTaken : f k = some x)
    (hTaken' : f last = some y) :
    (occupied n (swapRemove f k last)).card = (occupied n f).card - 1 := by
  have hErase : occupied n (swapRemove f k last) = (occupied n f).erase last := by
    ext j
    rw [Finset.mem_erase, mem_occupied, mem_occupied]
    unfold swapRemove
    by_cases hj : j = last
    · subst hj
      simp
    · by_cases hk : j = k
      · subst hk
        simp [hj, hTaken, hTaken']
      · simp [hj, hk]
  rw [hErase, Finset.card_erase_of_mem]
  rw [mem_occupied, hTaken']
  exact ⟨hLast, rfl⟩

/-! ## The first cells -/

theorem upTo_eq_some : upTo n f i = some x ↔ i < n ∧ f i = some x := by
  unfold upTo
  split_ifs with hi
  · simp [hi]
  · simp [hi]

theorem upTo_push : upTo (n + 1) (update f n (some x)) =
    update (upTo n f) n (some x) := by
  funext i
  unfold upTo
  by_cases hi : i = n
  · subst hi
    simp
  · have hLt : i < n + 1 ↔ i < n := by omega
    rw [update_of_ne hi, update_of_ne hi]
    exact if_congr hLt rfl rfl

theorem upTo_pop : upTo n f = update (upTo (n + 1) f) n none := by
  funext i
  unfold upTo
  by_cases hi : i = n
  · subst hi
    simp
  · have hLt : i < n + 1 ↔ i < n := by omega
    rw [update_of_ne hi]
    exact (if_congr hLt rfl rfl).symm

theorem upTo_swapRemove (hk : k < n + 1) :
    upTo n (swapRemove f k n) = swapRemove (upTo (n + 1) f) k n := by
  funext i
  unfold upTo swapRemove
  by_cases hi : i = n
  · subst hi
    simp
  · have hLt : i < n + 1 ↔ i < n := by omega
    by_cases hik : i = k
    · subst hik
      have hin : i < n := by omega
      simp [hi, hin]
    · rw [update_of_ne hi, update_of_ne hik, update_of_ne hi,
        update_of_ne hik]
      exact (if_congr hLt rfl rfl).symm

/-- The first `n` cells hold these elements, each of them once. -/
structure Stack [DecidableEq α] (n : Nat) (f : Nat → Option α) (xs : List α) : Prop where
  nodup : xs.Nodup
  mem : ∀ x, x ∈ xs ↔ Holds (upTo n f) x
  full : ∀ i < n, (f i).isSome
  apart : Inj (upTo n f)

variable [DecidableEq α] {xs : List α}

theorem stack_nil (f : Nat → Option α) : Stack 0 f [] where
  nodup := List.nodup_nil
  mem := by simp [Holds, upTo]
  full := by
    intro i hi
    cases hi
  apart := by
    intro i j x hi
    simp [upTo] at hi

theorem Stack.eq_nil (h : Stack 0 f xs) : xs = [] := by
  rw [List.eq_nil_iff_forall_not_mem]
  intro x hx
  obtain ⟨i, hi⟩ := (h.mem x).mp hx
  exact absurd (upTo_eq_some.mp hi).1 (Nat.not_lt_zero i)

theorem Stack.perm {ys : List α} (h : Stack n f xs) (hPerm : xs.Perm ys) : Stack n f ys where
  nodup := hPerm.nodup_iff.mp h.nodup
  mem := fun x => hPerm.mem_iff.symm.trans (h.mem x)
  full := h.full
  apart := h.apart

theorem Stack.push (h : Stack n f xs) (hx : x ∉ xs) :
    Stack (n + 1) (update f n (some x)) (x :: xs) where
  nodup := List.nodup_cons.mpr ⟨hx, h.nodup⟩
  mem := by
    intro y
    have hEmpty : upTo n f n = none := if_neg (lt_irrefl n)
    rw [upTo_push, holds_put hEmpty, List.mem_cons, h.mem]
  full := by
    intro i hi
    by_cases hin : i = n
    · subst hin
      simp
    · rw [update_of_ne hin]
      exact h.full i (by omega)
  apart := by
    rw [upTo_push]
    exact inj_put h.apart fun hHolds => hx ((h.mem x).mpr hHolds)

/-- The last cell is taken away. -/
theorem Stack.pop (h : Stack (n + 1) f xs) : ∃ x ∈ xs, f n = some x ∧ Stack n f (xs.erase x) := by
  obtain ⟨x, hx⟩ := Option.isSome_iff_exists.mp (h.full n (Nat.lt_succ_self n))
  have hAt : upTo (n + 1) f n = some x := upTo_eq_some.mpr ⟨Nat.lt_succ_self n, hx⟩
  refine ⟨x, (h.mem x).mpr ⟨n, hAt⟩, hx, h.nodup.erase x, ?_, ?_, ?_⟩
  · intro y
    rw [upTo_pop, holds_clear h.apart, h.nodup.mem_erase_iff, h.mem, hAt, and_comm]
    refine and_congr_right fun _ => not_congr ?_
    rw [Option.some.injEq]
    exact eq_comm
  · exact fun i hi => h.full i (Nat.lt_succ_of_lt hi)
  · rw [upTo_pop]
    exact inj_clear h.apart

/-- The last cell takes the place of one that goes. -/
theorem Stack.swapRemove (h : Stack (n + 1) f xs) (hk : k < n + 1) (hx : f k = some x) :
    Stack n (Cells.swapRemove f k n) (xs.erase x) := by
  have hAt : upTo (n + 1) f k = some x := upTo_eq_some.mpr ⟨hk, hx⟩
  refine ⟨h.nodup.erase x, ?_, ?_, ?_⟩
  · intro y
    rw [upTo_swapRemove hk, holds_swapRemove h.apart, h.nodup.mem_erase_iff, h.mem, hAt, and_comm]
    refine and_congr_right fun _ => not_congr ?_
    rw [Option.some.injEq]
    exact eq_comm
  · intro i hi
    unfold Cells.swapRemove
    rw [update_of_ne hi.ne]
    by_cases hik : i = k
    · subst hik
      rw [update_self]
      exact h.full n (Nat.lt_succ_self n)
    · rw [update_of_ne hik]
      exact h.full i (Nat.lt_succ_of_lt hi)
  · rw [upTo_swapRemove hk]
    exact inj_swapRemove h.apart

end Lib.Cells
