import Mathlib.Data.Nat.Basic

/-!
# Lib.Search — the first index at which a test succeeds

A test that has no answer stops the search.

* `firstIndex_found`, `firstIndex_before`, `firstIndex_missing` — what the outcome says about the
  indices.
* `firstIndex_isSome` — whether something is found when every test has an answer.
-/

namespace Lib

/-- The search from `i` on, over `left` indices. -/
def firstIndex (test : Nat → Option Bool) : Nat → Nat → Option (Option Nat)
  | 0, _ => some none
  | left + 1, i =>
    match test i with
    | none => none
    | some true => some (some i)
    | some false => firstIndex test left (i + 1)

variable {test : Nat → Option Bool} {left i k : Nat}

theorem firstIndex_found (h : firstIndex test left i = some (some k)) :
    i ≤ k ∧ k < i + left ∧ test k = some true := by
  induction left generalizing i with
  | zero => cases h
  | succ left ih =>
    unfold firstIndex at h
    split at h
    · cases h
    · rename_i hTest
      cases h
      exact ⟨le_rfl, Nat.lt_add_of_pos_right (Nat.succ_pos left), hTest⟩
    · obtain ⟨hLe, hLt, hTest⟩ := ih h
      exact ⟨Nat.le_of_succ_le hLe, by omega, hTest⟩

/-- Before the index that is found the test fails. -/
theorem firstIndex_before (h : firstIndex test left i = some (some k)) :
    ∀ j, i ≤ j → j < k → test j = some false := by
  induction left generalizing i with
  | zero => cases h
  | succ left ih =>
    unfold firstIndex at h
    split at h
    · cases h
    · cases h
      intro j hLe hLt
      omega
    · rename_i hTest
      intro j hLe hLt
      rcases Nat.eq_or_lt_of_le hLe with rfl | hLt'
      · exact hTest
      · exact ih h j hLt' hLt

theorem firstIndex_missing (h : firstIndex test left i = some none) :
    ∀ k, i ≤ k → k < i + left → test k = some false := by
  induction left generalizing i with
  | zero =>
    intro k hLe hLt
    omega
  | succ left ih =>
    unfold firstIndex at h
    split at h
    · cases h
    · cases h
    · rename_i hTest
      intro k hLe hLt
      rcases Nat.eq_or_lt_of_le hLe with rfl | hLt'
      · exact hTest
      · exact ih h k hLt' (by omega)

theorem firstIndex_isSome {answer : Nat → Bool}
    (h : ∀ k, i ≤ k → k < i + left → test k = some (answer k)) :
    ∃ found, firstIndex test left i = some found ∧
      (found.isSome = true ↔ ∃ k, i ≤ k ∧ k < i + left ∧ answer k = true) := by
  have hOutcome : firstIndex test left i ≠ none := by
    induction left generalizing i with
    | zero => exact nofun
    | succ left ih =>
      rw [firstIndex, h i (Nat.le_refl i) (by omega)]
      cases answer i with
      | true => exact nofun
      | false => exact ih fun k hLow hHigh => h k (by omega) (by omega)
  rcases Option.ne_none_iff_exists'.mp hOutcome with ⟨found, hFirst⟩
  refine ⟨found, hFirst, ?_⟩
  cases found with
  | none =>
    refine iff_of_false Bool.false_ne_true ?_
    rintro ⟨k, hLow, hHigh, hk⟩
    have hMissing := firstIndex_missing hFirst k hLow hHigh
    rw [h k hLow hHigh, hk] at hMissing
    cases hMissing
  | some k =>
    rcases firstIndex_found hFirst with ⟨hLow, hHigh, hk⟩
    rw [h k hLow hHigh] at hk
    exact iff_of_true rfl ⟨k, hLow, hHigh, Option.some.inj hk⟩

end Lib
