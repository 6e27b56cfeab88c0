import IClaustron.Lib.Chain

/-!
# Lib.Dll — doubly linked lists in a pointer memory

A list is a chain of its `next` links whose cells point back by their `prev` links
(`Back`); `back_iff_chain` says that the links back are a chain too, from the other end. The edits
are those of an intrusive list: link a cell in at the front (`Dll.push`) or at the end
(`Dll.concat`) and unlink a cell (`Dll.erase`). `setLink` writes the link of a cell that may be
NULL.
-/

namespace Lib

open List Function

variable {α : Type*} {next prev prev' : α → Option α} {a b c : Option α} {l : List α} {x : α}

/-- Every cell points back at the one before it, the first one at `b`. -/
def Back (prev : α → Option α) : Option α → List α → Prop
  | _, [] => True
  | b, x :: xs => prev x = b ∧ Back prev (some x) xs

theorem Back.congr (h : ∀ y ∈ l, prev y = prev' y) (hb : Back prev b l) : Back prev' b l := by
  induction l generalizing b with
  | nil => trivial
  | cons y ys ih =>
    rcases hb with ⟨hy, hys⟩
    refine ⟨?_, ih (fun z hz => h z (mem_cons_of_mem y hz)) hys⟩
    rw [← h y mem_cons_self]
    exact hy

theorem back_append_cons {l₁ l₂ : List α} {q : α} :
    Back prev b (l₁ ++ q :: l₂) ↔ Back prev b (l₁ ++ [q]) ∧ Back prev (some q) l₂ := by
  induction l₁ generalizing b with
  | nil => simp [Back]
  | cons y ys ih => simp [Back, ih, and_assoc]

/-- The links back are a segment from the last cell on. -/
theorem back_iff_seg : Back prev b l ↔ Seg prev (l.getLast?.or b) l.reverse b := by
  induction l generalizing b with
  | nil => exact iff_of_true trivial rfl
  | cons y ys ih =>
    have hLast : (y :: ys).getLast?.or b = ys.getLast?.or (some y) := by
      rw [getLast?_cons]
      cases ys.getLast? <;> rfl
    rw [Back, ih, hLast, reverse_cons, seg_append]
    constructor
    · rintro ⟨hy, hSeg⟩
      exact ⟨some y, hSeg, rfl, hy⟩
    · rintro ⟨m, hSeg, rfl, hy⟩
      exact ⟨hy, hSeg⟩

/-- The links back are a chain from the last cell on. -/
theorem back_iff_chain : Back prev none l ↔ Chain prev l.getLast? l.reverse := by
  rw [back_iff_seg, Option.or_none, Chain]

theorem Chain.head?_eq (h : Chain next a l) : a = l.head? := by
  cases l with
  | nil => exact h
  | cons y ys => exact h.1

/-- A doubly linked list with its first cell. -/
structure Dll (next prev : α → Option α) (first : Option α) (l : List α) : Prop where
  chain : Chain next first l
  back : Back prev none l

theorem Dll.nodup (h : Dll next prev a l) : l.Nodup := h.chain.nodup

/-- Cells outside of the list may change. -/
theorem Dll.congr {next' : α → Option α} (h : Dll next prev a l)
    (hnext : ∀ y ∈ l, next y = next' y) (hprev : ∀ y ∈ l, prev y = prev' y) :
    Dll next' prev' a l :=
  ⟨h.chain.congr hnext, h.back.congr hprev⟩

/-- Links back stay in the list. -/
theorem Back.prev_mem {q : α} (h : Back prev b l) (hx : x ∈ l) (hq : prev x = some q) :
    some q = b ∨ q ∈ l := by
  induction l generalizing b with
  | nil => cases hx
  | cons y ys ih =>
    rcases h with ⟨hy, hys⟩
    rcases mem_cons.mp hx with rfl | hx
    · exact Or.inl (hq.symm.trans hy)
    · rcases ih hys hx with hqy | hmem
      · cases hqy
        exact Or.inr mem_cons_self
      · exact Or.inr (mem_cons_of_mem y hmem)

theorem Dll.prev_mem {q : α} (h : Dll next prev a l) (hx : x ∈ l) (hq : prev x = some q) : q ∈ l := by
  rcases h.back.prev_mem hx hq with hnone | hmem
  · cases hnone
  · exact hmem

/-- Writes the link of a cell, unless the pointer to it is NULL. -/
def setLink [DecidableEq α] (f : α → Option α) (p : Option α) (v : Option α) : α → Option α :=
  match p with
  | none => f
  | some q => update f q v

section SetLink

variable [DecidableEq α]

@[simp] theorem setLink_none (f : α → Option α) (v : Option α) : setLink f none v = f := rfl

@[simp] theorem setLink_some (f : α → Option α) (q : α) (v : Option α) :
    setLink f (some q) v = update f q v := rfl

theorem setLink_of_ne {f : α → Option α} {p v : Option α} (h : p ≠ some x) : setLink f p v x = f x := by
  cases p with
  | none => rfl
  | some q =>
    rw [setLink_some, update_of_ne]
    rintro rfl
    exact h rfl

/-- The first cell of a list gets another cell before it. -/
theorem Back.setHead (h : Back prev b l) (hl : l.Nodup) :
    Back (setLink prev l.head? c) c l := by
  cases l with
  | nil => trivial
  | cons y ys =>
    refine ⟨by simp, h.2.congr ?_⟩
    intro z hz
    have hne : z ≠ y := by
      rintro rfl
      exact (nodup_cons.mp hl).1 hz
    simp [hne]

theorem Dll.push (h : Dll next prev a l) (hx : x ∉ l) :
    Dll (update next x a) (update (setLink prev a (some x)) x none) (some x)
      (x :: l) := by
  refine ⟨⟨rfl, ?_⟩, ?_, ?_⟩
  · rw [update_self]
    exact Seg.update hx h.chain
  · simp
  · have hback := h.back.setHead (c := some x) h.nodup
    rw [← h.chain.head?_eq] at hback
    refine hback.congr ?_
    intro y hy
    rw [update_of_ne]
    rintro rfl
    exact hx hy

/-- The last cell gets another cell behind it. -/
theorem Dll.concat {q : α} (h : Dll next prev a (l ++ [q])) (hx : x ∉ l ++ [q]) :
    Dll (update (update next q (some x)) x none)
      (update prev x (some q)) a (l ++ q :: [x]) := by
  have hq : q ∉ l := by
    intro hmem
    exact (disjoint_of_nodup_append h.nodup) hmem (mem_singleton_self q)
  have hne : q ≠ x := by
    rintro rfl
    exact hx (mem_append_right _ (mem_singleton_self q))
  have hxl : x ∉ l := fun hmem => hx (mem_append_left _ hmem)
  constructor
  · obtain ⟨m, hseg, hm, -⟩ := seg_append.mp h.chain
    refine seg_append.mpr ⟨m, (hseg.update hq).update hxl, hm, ?_, ?_⟩
    · rw [update_of_ne hne, update_self]
    · rw [update_self]
      rfl
  · refine back_append_cons.mpr ⟨h.back.congr fun y hy => ?_, ?_, trivial⟩
    · rw [update_of_ne]
      rintro rfl
      exact hx hy
    · rw [update_self]

/-- Unlinks the first cell. -/
theorem Dll.erase_head (h : Dll next prev a (x :: l)) :
    Dll next (setLink prev (next x) none) (next x) l := by
  have hchain : Chain next (next x) l := h.chain.2
  refine ⟨hchain, ?_⟩
  rw [hchain.head?_eq]
  exact h.back.2.setHead (nodup_cons.mp h.nodup).2

/-- Unlinks the cell `x` behind the cell `q`. -/
theorem Dll.erase_mid {l₁ l₂ : List α} {q : α} (h : Dll next prev a (l₁ ++ q :: x :: l₂)) :
    Dll (update next q (next x)) (setLink prev (next x) (some q)) a (l₁ ++ q :: l₂) := by
  have hnodup := h.nodup
  have hback := back_append_cons.mp h.back
  obtain ⟨m, hseg, hq, hx, hchain⟩ := seg_append.mp h.chain
  have hq₁ : q ∉ l₁ := by
    intro hmem
    exact (disjoint_of_nodup_append hnodup) hmem mem_cons_self
  have hnodup₂ : (q :: x :: l₂).Nodup := (nodup_append.mp hnodup).2.1
  have hq₂ : q ∉ l₂ := fun hmem => (nodup_cons.mp hnodup₂).1 (mem_cons_of_mem x hmem)
  have hnodup₃ : l₂.Nodup := (nodup_cons.mp (nodup_cons.mp hnodup₂).2).2
  have hhead : next x = l₂.head? := Chain.head?_eq hchain
  constructor
  · refine seg_append.mpr ⟨m, hseg.update hq₁, hq, ?_⟩
    rw [update_self]
    exact Seg.update hq₂ hchain
  · rw [back_append_cons, hhead]
    refine ⟨hback.1.congr ?_, hback.2.2.setHead hnodup₃⟩
    -- The cell behind `x` is not one of those before it.
    intro y hy
    cases hl : l₂.head? with
    | none => rfl
    | some z =>
      have hz : z ∈ l₂ := mem_of_mem_head? hl
      have hne : y ≠ z := by
        rintro rfl
        rcases mem_append.mp hy with hy | hy
        · exact (disjoint_of_nodup_append hnodup) hy (by simp [hz])
        · rw [mem_singleton] at hy
          exact hq₂ (hy ▸ hz)
      simp [hne]

/-- Unlinks a cell, wherever it is. -/
theorem Dll.erase (h : Dll next prev a l) (hx : x ∈ l) :
    Dll (setLink next (prev x) (next x)) (setLink prev (next x) (prev x))
      (if prev x = none then next x else a) (l.erase x) := by
  obtain ⟨l₁, l₂, rfl⟩ := append_of_mem hx
  have hnodup := h.nodup
  have hx₁ : x ∉ l₁ := by
    intro hmem
    exact (disjoint_of_nodup_append hnodup) hmem mem_cons_self
  rw [erase_append_right _ hx₁, erase_cons_head]
  rcases eq_nil_or_concat l₁ with rfl | ⟨l₁, q, rfl⟩
  · have hprev : prev x = none := h.back.1
    rw [hprev, setLink_none, if_pos rfl]
    exact h.erase_head
  · rw [concat_eq_append, append_assoc, singleton_append] at h ⊢
    have hprev : prev x = some q := (back_append_cons.mp h.back).2.1
    rw [hprev, setLink_some, if_neg (by simp)]
    exact h.erase_mid

end SetLink

end Lib
