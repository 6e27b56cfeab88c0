import Mathlib.Data.List.Basic

/-!
# Lib.Result — computations that may fail

How `Except` computations are taken apart: a sequence succeeds if its first part
does and the rest succeeds on its value.
-/

namespace Lib.Result

universe u v

variable {ε : Type u} {α β : Type v}

variable {x : Except ε α} {f : α → Except ε β} {a : α} {P : Prop}

theorem bind_eq_ok {b : β} : x >>= f = .ok b ↔ ∃ a, x = .ok a ∧ f a = .ok b := by
  cases x with
  | error e =>
    constructor
    · intro h
      cases h
    · rintro ⟨a, h, -⟩
      cases h
  | ok a =>
    constructor
    · intro h
      exact ⟨a, rfl, h⟩
    · rintro ⟨a', h, hf⟩
      cases h
      exact hf

theorem bind_eq_error {e : ε} :
    x >>= f = .error e ↔ x = .error e ∨ ∃ a, x = .ok a ∧ f a = .error e := by
  cases x with
  | error e' =>
    constructor
    · rintro ⟨⟩
      exact .inl rfl
    · rintro (⟨⟨⟩⟩ | ⟨a, h, -⟩)
      · rfl
      · cases h
  | ok a =>
    constructor
    · intro h
      exact .inr ⟨a, rfl, h⟩
    · rintro (h | ⟨a', h, hf⟩)
      · cases h
      · cases h
        exact hf

theorem pure_eq_ok {b : α} : (pure a : Except ε α) = .ok b ↔ a = b := by
  constructor
  · rintro ⟨⟩
    rfl
  · rintro rfl
    rfl

/-- A sequence whose first part succeeds. -/
theorem bind_of_ok (h : x = .ok a) (f : α → Except ε β) : x >>= f = f a := by
  rw [h]
  rfl

/-! ## Conditions for a success -/

/-- The computation succeeds, with this value, exactly if the condition holds. -/
structure Decides (P : Prop) (x : Except ε α) (a : α) : Prop where
  ok : P → x = .ok a
  error : ¬ P → ∃ e, x = .error e

theorem Decides.ok_iff {b : α} (h : Decides P x a) : x = .ok b ↔ P ∧ b = a := by
  by_cases hP : P
  · rw [h.ok hP]
    constructor
    · rintro ⟨⟩
      exact ⟨hP, rfl⟩
    · rintro ⟨-, rfl⟩
      rfl
  · rcases h.error hP with ⟨e, he⟩
    rw [he]
    constructor
    · rintro ⟨⟩
    · rintro ⟨hP', -⟩
      exact absurd hP' hP

theorem Decides.of_iff {Q : Prop} (h : Decides P x a) (hPQ : P ↔ Q) : Decides Q x a :=
  ⟨fun hQ => h.ok (hPQ.mpr hQ), fun hQ => h.error fun hP => hQ (hPQ.mp hP)⟩

/-- A sequence succeeds under the conditions of its two parts. -/
theorem Decides.bind {Q : Prop} {b : β} (h : Decides P x a) (hf : P → Decides Q (f a) b) :
    Decides (P ∧ Q) (x >>= f) b := by
  constructor
  · rintro ⟨hP, hQ⟩
    rw [bind_of_ok (h.ok hP)]
    exact (hf hP).ok hQ
  · intro hPQ
    by_cases hP : P
    · rw [bind_of_ok (h.ok hP)]
      exact (hf hP).error fun hQ => hPQ ⟨hP, hQ⟩
    · rcases h.error hP with ⟨e, he⟩
      rw [he]
      exact ⟨e, rfl⟩

/-- The second part of the sequence always succeeds. -/
theorem Decides.andThen {b : β} (h : Decides P x a) (hf : f a = .ok b) : Decides P (x >>= f) b := by
  have hbind : Decides (P ∧ True) (x >>= f) b :=
    h.bind fun _ => ⟨fun _ => hf, fun hne => absurd trivial hne⟩
  exact hbind.of_iff (and_iff_left trivial)

end Lib.Result
