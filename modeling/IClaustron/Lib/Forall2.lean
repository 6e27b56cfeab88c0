import Mathlib.Data.List.Forall2

/-!
# Lib.Forall2 — lists that are related entry by entry

`List.Forall₂` along filters and maps, where the relation is used for the entries of
the two lists only.
-/

namespace Lib

open List

variable {α β γ : Type*} {R S : α → β → Prop} {xs : List α} {ys : List β}

section

variable (h : List.Forall₂ R xs ys)

include h

theorem forall₂_imp_mem (himp : ∀ x ∈ xs, ∀ y ∈ ys, R x y → S x y) : List.Forall₂ S xs ys := by
  induction h with
  | nil => exact List.Forall₂.nil
  | cons hxy _ ih =>
    constructor
    · exact himp _ mem_cons_self _ mem_cons_self hxy
    · apply ih
      intro x hx y hy
      exact himp x (mem_cons_of_mem _ hx) y (mem_cons_of_mem _ hy)

/-- Two filters that agree on related entries. -/
theorem forall₂_filter {p : α → Bool} {q : β → Bool} (hpq : ∀ x ∈ xs, ∀ y ∈ ys, R x y → p x = q y) :
    List.Forall₂ R (xs.filter p) (ys.filter q) := by
  induction h with
  | nil => exact List.Forall₂.nil
  | @cons x y xs ys hxy _ ih =>
    have hhead := hpq x mem_cons_self y mem_cons_self hxy
    have htail := ih fun x' hx' y' hy' =>
      hpq x' (mem_cons_of_mem _ hx') y' (mem_cons_of_mem _ hy')
    cases hq : q y with
    | true =>
      rw [filter_cons_of_pos (hhead.trans hq), filter_cons_of_pos hq]
      exact List.Forall₂.cons hxy htail
    | false =>
      have hp : ¬p x = true := by simp [hhead, hq]
      rw [filter_cons_of_neg hp, filter_cons_of_neg (by simp [hq])]
      exact htail

theorem forall₂_mem_right {y : β} (hy : y ∈ ys) : ∃ x ∈ xs, R x y := by
  induction h with
  | nil => cases hy
  | cons hxy _ ih =>
    rcases mem_cons.mp hy with rfl | hy
    · exact ⟨_, mem_cons_self, hxy⟩
    · rcases ih hy with ⟨x, hx, hR⟩
      exact ⟨x, mem_cons_of_mem _ hx, hR⟩

theorem forall₂_mem_left {x : α} (hx : x ∈ xs) : ∃ y ∈ ys, R x y := by
  rcases forall₂_mem_right h.flip hx with ⟨y, hy, hR⟩
  exact ⟨y, hy, hR⟩

theorem forall₂_getElem?_left {i : Nat} {x : α} (hx : xs[i]? = some x) :
    ∃ y, ys[i]? = some y ∧ R x y := by
  induction h generalizing i with
  | nil => cases hx
  | cons hxy _ ih =>
    cases i with
    | zero =>
      cases hx
      exact ⟨_, rfl, hxy⟩
    | succ i => exact ih hx

theorem forall₂_getElem?_right {i : Nat} {y : β} (hy : ys[i]? = some y) :
    ∃ x, xs[i]? = some x ∧ R x y :=
  forall₂_getElem?_left h.flip hy

end

/-- Entries that are related through a partial function, and their values. -/
theorem forall₂_filterMap {f : α → Option γ} {T : γ → β → Prop}
    (h : List.Forall₂ (fun x y => ∃ z, f x = some z ∧ T z y) xs ys) :
    List.Forall₂ T (xs.filterMap f) ys := by
  induction h with
  | nil => exact List.Forall₂.nil
  | cons hxy _ ih =>
    rcases hxy with ⟨z, hz, hT⟩
    rw [filterMap_cons_some hz]
    exact List.Forall₂.cons hT ih

theorem forall₂_flatMap_eq {f : α → List γ} {g : β → List γ} (h : List.Forall₂ R xs ys)
    (hfg : ∀ x ∈ xs, ∀ y ∈ ys, R x y → f x = g y) : xs.flatMap f = ys.flatMap g := by
  have heq : List.Forall₂ (fun x y => f x = g y) xs ys := forall₂_imp_mem h hfg
  clear h hfg
  induction heq with
  | nil => rfl
  | cons hxy _ ih => rw [flatMap_cons, flatMap_cons, hxy, ih]

/-- The last entries are related, and what is in front of them. -/
theorem forall₂_concat_left {x : α} (h : List.Forall₂ R (xs ++ [x]) ys) :
    ∃ ys' y, ys = ys' ++ [y] ∧ List.Forall₂ R xs ys' ∧ R x y := by
  induction xs generalizing ys with
  | nil =>
    rcases h with _ | ⟨hxy, ⟨⟩⟩
    exact ⟨[], _, rfl, .nil, hxy⟩
  | cons x' xs ih =>
    rcases h with _ | ⟨hxy, hRest⟩
    rcases ih hRest with ⟨ys', y, rfl, hFront, hLast⟩
    exact ⟨_ :: ys', y, rfl, .cons hxy hFront, hLast⟩

end Lib
