import Mathlib.Data.List.Nodup

/-!
# Lib.Firsts — the first occurrences in a list, and sending to them

* `nodup_firsts`, `mem_firsts` — every element is taken once.
* `firsts_append` — a scan that goes on behind another one.
* `sendEach_ok`, `sendEach_failed` — the two ways in which the sending ends.
-/

namespace Lib

open List

variable {α : Type*} [DecidableEq α]

/-! ## First occurrences -/

/-- The elements that are not in `seen` and do not occur before. -/
def firsts (seen : List α) : List α → List α
  | [] => []
  | a :: l => if a ∈ seen then firsts (seen ++ [a]) l else a :: firsts (seen ++ [a]) l

theorem firsts_append (seen l m : List α) :
    firsts seen (l ++ m) = firsts seen l ++ firsts (seen ++ l) m := by
  induction l generalizing seen with
  | nil => simp [firsts]
  | cons a l ih =>
    have hRest := ih (seen ++ [a])
    rw [append_assoc, singleton_append] at hRest
    rw [cons_append, firsts, firsts]
    by_cases ha : a ∈ seen
    · rw [if_pos ha, if_pos ha, hRest]
    · rw [if_neg ha, if_neg ha, hRest, cons_append]

theorem mem_firsts {seen l : List α} {a : α} : a ∈ firsts seen l ↔ a ∈ l ∧ a ∉ seen := by
  induction l generalizing seen with
  | nil => simp [firsts]
  | cons b l ih =>
    rw [firsts]
    by_cases hb : b ∈ seen
    · rw [if_pos hb, ih]
      constructor
      · rintro ⟨hMem, hSeen⟩
        exact ⟨mem_cons_of_mem b hMem, fun h => hSeen (mem_append_left _ h)⟩
      · rintro ⟨hMem, hSeen⟩
        have hne : a ≠ b := fun h => hSeen (h ▸ hb)
        refine ⟨(mem_cons.mp hMem).resolve_left hne, ?_⟩
        simp [hSeen, hne]
    · rw [if_neg hb, mem_cons, mem_cons, ih]
      by_cases hab : a = b
      · subst hab
        simp [hb]
      · simp [hab]

theorem nodup_firsts (seen l : List α) : (firsts seen l).Nodup := by
  induction l generalizing seen with
  | nil => exact nodup_nil
  | cons a l ih =>
    rw [firsts]
    by_cases ha : a ∈ seen
    · rw [if_pos ha]
      exact ih _
    · rw [if_neg ha]
      refine nodup_cons.mpr ⟨fun h => ?_, ih _⟩
      have hSeen := (mem_firsts.mp h).2
      exact hSeen (mem_append_right _ (mem_singleton_self a))

theorem firsts_eq_nil {seen l : List α} : firsts seen l = [] ↔ ∀ a ∈ l, a ∈ seen := by
  rw [eq_nil_iff_forall_not_mem]
  constructor
  · intro h a ha
    exact not_not.mp fun hSeen => h a (mem_firsts.mpr ⟨ha, hSeen⟩)
  · intro h a ha
    exact (mem_firsts.mp ha).2 (h a (mem_firsts.mp ha).1)

/-! ## Sending -/

/-- The code of the last action, `ret` if there was none, and the elements that it was done to.
A code other than 0 ends it. -/
def sendEach (act : α → Int) (ret : Int) : List α → Int × List α
  | [] => (ret, [])
  | a :: l =>
    if act a ≠ 0 then (act a, [a])
    else
      let (ret, sent) := sendEach act 0 l
      (ret, a :: sent)

omit [DecidableEq α] in
theorem sendEach_ok {act : α → Int} {l : List α} (h : ∀ a ∈ l, act a = 0) (ret : Int) :
    sendEach act ret l = (if l = [] then ret else 0, l) := by
  induction l generalizing ret with
  | nil => rfl
  | cons a l ih =>
    have ha : act a = 0 := h a mem_cons_self
    rw [sendEach, if_neg (not_not.mpr ha), ih (fun b hb => h b (mem_cons_of_mem a hb)),
      if_neg (cons_ne_nil a l), ite_self]

omit [DecidableEq α] in
theorem sendEach_failed {act : α → Int} {l : List α} (h : ∃ a ∈ l, act a ≠ 0) (ret : Int) :
    ∃ sent a, sendEach act ret l = (act a, sent ++ [a]) ∧ act a ≠ 0 ∧ a ∈ l ∧ (∀ b ∈ sent, act b = 0) ∧
      ∀ b ∈ sent, b ∈ l := by
  induction l generalizing ret with
  | nil => simp at h
  | cons a l ih =>
    by_cases ha : act a = 0
    · have hRest : ∃ b ∈ l, act b ≠ 0 := by
        rcases h with ⟨b, hb, hFail⟩
        rcases mem_cons.mp hb with rfl | hb
        · exact absurd ha hFail
        · exact ⟨b, hb, hFail⟩
      rcases ih hRest 0 with ⟨sent, b, hSend, hFail, hb, hOk, hMem⟩
      refine ⟨a :: sent, b, ?_, hFail, mem_cons_of_mem a hb, ?_, ?_⟩
      · rw [sendEach, if_neg (not_not.mpr ha), hSend]
        rfl
      · exact forall_mem_cons.mpr ⟨ha, hOk⟩
      · exact forall_mem_cons.mpr
          ⟨mem_cons_self, fun c hc => mem_cons_of_mem a (hMem c hc)⟩
    · exact ⟨[], a, by rw [sendEach, if_pos ha]; rfl, ha, mem_cons_self, by simp, by simp⟩

end Lib
