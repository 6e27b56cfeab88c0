import Mathlib.Data.List.Sort
import Mathlib.Data.List.Nodup
import Mathlib.Data.List.Perm.Subperm

/-!
# Lib.Sorting — sorting by a comparator

A sorting procedure that is told by a comparator how two elements stand to each other, as the C
library's is.

* `Sorter.strict` — elements with different keys come out in strictly ascending order of them.
* `exists_split_iff` — neighbours in such an order are elements with no key in between.
-/

namespace Lib

open List

/-- A procedure that brings any list into the order of any comparator which is one. -/
structure Sorter (α : Type) where
  sort : (α → α → Int) → List α → List α
  perm : ∀ cmp l, (sort cmp l).Perm l
  ordered : ∀ cmp l, (∀ a b, cmp a b ≤ 0 ∨ cmp b a ≤ 0) →
    (∀ a b c, cmp a b ≤ 0 → cmp b c ≤ 0 → cmp a c ≤ 0) →
    (sort cmp l).Pairwise fun a b => cmp a b ≤ 0

variable {α κ : Type} [LinearOrder κ]

def insertionSorter (α : Type) : Sorter α where
  sort cmp l := l.insertionSort fun a b => cmp a b ≤ 0
  perm _ l := List.perm_insertionSort _ l
  ordered cmp l hTotal hTrans :=
    haveI : Std.Total fun a b => cmp a b ≤ 0 := ⟨hTotal⟩
    haveI : IsTrans α fun a b => cmp a b ≤ 0 := ⟨hTrans⟩
    List.pairwise_insertionSort _ l

namespace Sorter

variable (sorter : Sorter α) {cmp : α → α → Int} (key : α → κ)

theorem ordered_by (hCmp : ∀ a b, cmp a b ≤ 0 ↔ key a ≤ key b) (l : List α) :
    (sorter.sort cmp l).Pairwise fun a b => key a ≤ key b := by
  have hOrdered := sorter.ordered cmp l
    (fun a b => by rw [hCmp, hCmp]; exact le_total _ _)
    (fun a b c => by rw [hCmp, hCmp, hCmp]; exact le_trans)
  exact hOrdered.imp fun {a b} h => (hCmp a b).mp h

theorem strict (hCmp : ∀ a b, cmp a b ≤ 0 ↔ key a ≤ key b) {l : List α} (hl : l.Nodup)
    (hKey : ∀ a ∈ l, ∀ b ∈ l, key a = key b → a = b) :
    (sorter.sort cmp l).Pairwise fun a b => key a < key b := by
  have hPerm := sorter.perm cmp l
  have hNodup : (sorter.sort cmp l).Pairwise (· ≠ ·) := hPerm.nodup_iff.mpr hl
  refine ((sorter.ordered_by key hCmp l).and hNodup).imp_of_mem ?_
  intro a b ha hb h
  refine lt_of_le_of_ne h.1 fun hEq => h.2 ?_
  exact hKey a (hPerm.mem_iff.mp ha) b (hPerm.mem_iff.mp hb) hEq

end Sorter

/-- In a strictly ascending list, what holds up to two neighbours holds up to the keys. -/
theorem exists_split_iff (key : α → κ) {R : α → α → Prop} {S : α → Prop} {l : List α}
    (hl : l.Pairwise fun a b => key a < key b) :
    (∃ l₁ a b l₂, l = l₁ ++ a :: b :: l₂ ∧ R a b ∧ ∀ c ∈ l₁ ++ [a], S c) ↔
      ∃ a ∈ l, ∃ b ∈ l, key a < key b ∧ (∀ c ∈ l, ¬ (key a < key c ∧ key c < key b)) ∧ R a b ∧
        ∀ c ∈ l, key c ≤ key a → S c := by
  constructor
  · rintro ⟨l₁, a, b, l₂, rfl, hR, hS⟩
    rw [pairwise_append, pairwise_cons, pairwise_cons] at hl
    rcases hl with ⟨_, ⟨hA, hB, _⟩, hFront⟩
    have hPlace : ∀ c ∈ l₁ ++ a :: b :: l₂,
        c ∈ l₁ ++ [a] ∧ key c ≤ key a ∨ key a < key c ∧ key b ≤ key c := by
      intro c hc
      rcases mem_append.mp hc with hc | hc
      · exact .inl ⟨mem_append_left _ hc, (hFront c hc a mem_cons_self).le⟩
      rcases mem_cons.mp hc with rfl | hc
      · exact .inl ⟨mem_append_right _ (mem_singleton.mpr rfl), le_rfl⟩
      rcases mem_cons.mp hc with rfl | hIn
      · exact .inr ⟨hA c hc, le_rfl⟩
      · exact .inr ⟨hA c hc, (hB c hIn).le⟩
    refine ⟨a, by simp, b, by simp, hA b mem_cons_self, ?_, hR, ?_⟩
    · rintro c hc ⟨hAbove, hBelow⟩
      rcases hPlace c hc with ⟨_, hLe⟩ | ⟨_, hLe⟩
      · exact absurd hAbove (not_lt.mpr hLe)
      · exact absurd hBelow (not_lt.mpr hLe)
    · intro c hc hLe
      rcases hPlace c hc with ⟨hIn, _⟩ | ⟨hLt, _⟩
      · exact hS c hIn
      · exact absurd hLt (not_lt.mpr hLe)
  · rintro ⟨a, ha, b, hb, hLt, hBetween, hR, hS⟩
    rcases append_of_mem ha with ⟨l₁, l', rfl⟩
    rw [pairwise_append, pairwise_cons] at hl
    rcases hl with ⟨_, ⟨hA, hTail⟩, hFront⟩
    have hBTail : b ∈ l' := by
      rcases mem_append.mp hb with hIn | hIn
      · exact absurd hLt (hFront b hIn a mem_cons_self).asymm
      rcases mem_cons.mp hIn with rfl | hIn
      · exact absurd hLt (lt_irrefl _)
      · exact hIn
    rcases l' with _ | ⟨c, l₂⟩
    · exact absurd hBTail not_mem_nil
    have hc : c = b := by
      rcases mem_cons.mp hBTail with rfl | hIn
      · rfl
      -- a first element behind `a` other than `b` would lie between the two
      · refine absurd ⟨hA c mem_cons_self, ?_⟩ (hBetween c (by simp))
        exact (pairwise_cons.mp hTail).1 b hIn
    subst hc
    refine ⟨l₁, a, c, l₂, rfl, hR, fun x hx => ?_⟩
    rcases mem_append.mp hx with hIn | hIn
    · exact hS x (mem_append_left _ hIn) (hFront x hIn a mem_cons_self).le
    · rw [mem_singleton.mp hIn]
      exact hS a ha le_rfl

/-- Different numbers below `n` are `n` many only if they are all of them. -/
theorem length_eq_iff_of_lt {l : List Nat} {n : Nat} (hl : l.Nodup) (hLt : ∀ i ∈ l, i < n) :
    l.length = n ↔ ∀ i < n, i ∈ l := by
  have hSub : l.Subperm (List.range n) :=
    hl.subperm fun i hi => mem_range.mpr (hLt i hi)
  constructor
  · intro hLength i hi
    have hPerm := hSub.perm_of_length_le (by rw [length_range, hLength])
    exact hPerm.mem_iff.mpr (mem_range.mpr hi)
  · intro hAll
    have hPerm : l.Perm (List.range n) :=
      (perm_ext_iff_of_nodup hl nodup_range).mpr fun i =>
        ⟨fun hi => mem_range.mpr (hLt i hi), fun hi => hAll i (mem_range.mp hi)⟩
    rw [hPerm.length_eq, length_range]

end Lib
