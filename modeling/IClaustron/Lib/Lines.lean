import Mathlib.Data.List.Basic

/-!
# Lib.Lines — sequences of terminated lines

`unlines sep ls` is the text whose lines are `ls`, each of them ended by `sep`;
`complete sep text` are the lines that are ended in a text, and what
`List.splitOn` finds behind the last of them is the unfinished line.

* `splitOn_unlines_append` — splitting takes off the lines a text begins with;
* `complete_unlines_append` — so `complete` finds them;
* `exists_unlines` — every text has this form;
* `filter_unlines` — without the separators the lines follow each other;
* `Fits` — every line is shorter than a bound, and how that is read off a text.
-/

namespace Lib

open List

variable {α : Type*} {sep : α}

def unlines (sep : α) (ls : List (List α)) : List α := ls.flatMap (· ++ [sep])

/-- The lines of a text that are ended by `sep`. -/
def complete [BEq α] (sep : α) (text : List α) : List (List α) := (text.splitOn sep).dropLast

@[simp] theorem unlines_nil : unlines sep [] = [] := rfl

@[simp] theorem unlines_cons (l : List α) (ls : List (List α)) :
    unlines sep (l :: ls) = l ++ sep :: unlines sep ls := by
  simp [unlines]

theorem unlines_append (ls ls' : List (List α)) :
    unlines sep (ls ++ ls') = unlines sep ls ++ unlines sep ls' :=
  flatMap_append

theorem length_unlines (sep : α) (ls : List (List α)) :
    (unlines sep ls).length = ls.flatten.length + ls.length := by
  induction ls with
  | nil => rfl
  | cons l ls ih =>
    rw [unlines_cons, length_append, length_cons, ih, flatten_cons,
      length_append, length_cons]
    omega

variable {ls : List (List α)} {l text : List α}

theorem filter_unlines [DecidableEq α] (h : ∀ l ∈ ls, sep ∉ l) :
    (unlines sep ls).filter (· ≠ sep) = ls.flatten := by
  induction ls with
  | nil => rfl
  | cons l ls ih =>
    have hLine : l.filter (· ≠ sep) = l := by
      rw [filter_eq_self]
      intro c hc
      have hNe : c ≠ sep := by
        intro hEq
        exact h l (by simp) (hEq ▸ hc)
      simpa using hNe
    have hRest := ih (fun l' hl' => h l' (by simp [hl']))
    rw [unlines_cons, filter_append, hLine, filter_cons_of_neg (by simp), hRest,
      flatten_cons]

/-- Every text is a sequence of lines and an unfinished one. -/
theorem exists_unlines [DecidableEq α] (sep : α) (text : List α) :
    ∃ ls last, text = unlines sep ls ++ last ∧ (∀ l ∈ ls, sep ∉ l) ∧ sep ∉ last := by
  induction text with
  | nil => exact ⟨[], [], rfl, by simp, by simp⟩
  | cons c text ih =>
    rcases ih with ⟨ls, last, rfl, hLines, hLast⟩
    by_cases hc : c = sep
    · refine ⟨[] :: ls, last, by simp [hc], ?_, hLast⟩
      exact forall_mem_cons.mpr ⟨not_mem_nil, hLines⟩
    · rcases ls with _ | ⟨l, ls⟩
      · refine ⟨[], c :: last, rfl, hLines, ?_⟩
        exact not_mem_cons_of_ne_of_not_mem (fun h => hc h.symm) hLast
      · rw [forall_mem_cons] at hLines
        refine ⟨(c :: l) :: ls, last, by simp, ?_, hLast⟩
        exact forall_mem_cons.mpr
          ⟨not_mem_cons_of_ne_of_not_mem (fun h => hc h.symm) hLines.1, hLines.2⟩

theorem count_unlines [DecidableEq α] (h : ∀ l ∈ ls, sep ∉ l) :
    (unlines sep ls).count sep = ls.length := by
  induction ls with
  | nil => rfl
  | cons l ls ih =>
    rw [forall_mem_cons] at h
    rw [unlines_cons, count_append, count_eq_zero_of_not_mem h.1, count_cons_self,
      ih h.2, Nat.zero_add, length_cons]

variable [BEq α] [LawfulBEq α]

theorem splitOn_unlines_append (h : ∀ l ∈ ls, sep ∉ l) (text : List α) :
    (unlines sep ls ++ text).splitOn sep = ls ++ text.splitOn sep := by
  induction ls with
  | nil => rfl
  | cons l ls ih =>
    rw [unlines_cons, append_assoc, cons_append,
      splitOn_append_cons_self_of_not_mem (h l mem_cons_self),
      ih fun l' hl' => h l' (mem_cons_of_mem l hl'), cons_append]

theorem complete_unlines_append (h : ∀ l ∈ ls, sep ∉ l) (text : List α) :
    complete sep (unlines sep ls ++ text) = ls ++ complete sep text := by
  unfold complete
  rw [splitOn_unlines_append h, dropLast_append_of_ne_nil (splitOn_ne_nil sep text)]

theorem complete_of_not_mem (h : sep ∉ text) : complete sep text = [] := by
  unfold complete
  rw [splitOn_eq_singleton h]
  rfl

theorem complete_append_cons (h : sep ∉ l) (text : List α) :
    complete sep (l ++ sep :: text) = l :: complete sep text := by
  unfold complete
  rw [splitOn_append_cons_self_of_not_mem h,
    dropLast_cons_of_ne_nil (splitOn_ne_nil sep text)]

/-- The first separator of a text is in one place. -/
theorem first_sep_unique {l' text' : List α} (hl : sep ∉ l) (hl' : sep ∉ l')
    (h : l ++ sep :: text = l' ++ sep :: text') : l = l' ∧ text = text' := by
  have hsplit := congrArg (List.splitOn sep) h
  rw [splitOn_append_cons_self_of_not_mem hl,
    splitOn_append_cons_self_of_not_mem hl'] at hsplit
  have hhead : l = l' := (List.cons.inj hsplit).1
  refine ⟨hhead, ?_⟩
  rw [hhead] at h
  exact (List.cons.inj (append_cancel_left h)).2

/-! ## Lines of bounded length -/

/-- Every line of the text, also the unfinished one, is shorter than `n`. -/
def Fits (sep : α) (n : Nat) (text : List α) : Prop := ∀ l ∈ text.splitOn sep, l.length < n

variable {n : Nat}

theorem fits_unlines_append (h : ∀ l ∈ ls, sep ∉ l) :
    Fits sep n (unlines sep ls ++ text) ↔ (∀ l ∈ ls, l.length < n) ∧ Fits sep n text := by
  unfold Fits
  rw [splitOn_unlines_append h, forall_mem_append]

theorem fits_append_cons (h : sep ∉ l) :
    Fits sep n (l ++ sep :: text) ↔ l.length < n ∧ Fits sep n text := by
  unfold Fits
  rw [splitOn_append_cons_self_of_not_mem h, forall_mem_cons]

theorem fits_of_not_mem (h : sep ∉ text) : Fits sep n text ↔ text.length < n := by
  unfold Fits
  rw [splitOn_eq_singleton h, forall_mem_singleton]

/-- The beginning of a line is short enough too. -/
theorem Fits.length_lt (h : sep ∉ l) (hfits : Fits sep n (l ++ text)) : l.length < n := by
  by_cases hmem : sep ∈ text
  · rcases eq_append_cons_of_mem hmem with ⟨a, b, rfl, ha⟩
    rw [← append_assoc, fits_append_cons (by simp [h, ha])] at hfits
    rw [length_append] at hfits
    omega
  · rw [fits_of_not_mem (by simp [h, hmem]), length_append] at hfits
    omega

end Lib
