/-!
# Lib.OptionRel — programs that do the same to similar states

Two programs in `Option` agree when both stop or both return, with related results
(`Option.Rel`). The lemmas put such agreements together along the `do` notation.

* `Rel.bind` — a step, and what follows it.
* `Rel.returns` — where one program returns, so does the other.
-/

namespace Option.Rel

universe u

variable {α β γ δ : Type u} {R : α → β → Prop} {Q : γ → δ → Prop} {x : Option α} {y : Option β}

theorem mono {R' : α → β → Prop} (h : Rel R x y) (hR : ∀ a b, R a b → R' a b) : Rel R' x y := by
  cases h with
  | some h => exact .some (hR _ _ h)
  | none => exact .none

/-- What is known of the results can be used. -/
theorem imp {R' : α → β → Prop} (h : Rel R x y)
    (hR : ∀ a b, x = Option.some a → y = Option.some b → R a b → R' a b) : Rel R' x y := by
  cases h with
  | some h => exact .some (hR _ _ rfl rfl h)
  | none => exact .none

theorem bind {f : α → Option γ} {g : β → Option δ} (h : Rel R x y)
    (hf : ∀ a b, x = Option.some a → y = Option.some b → R a b → Rel Q (f a) (g b)) :
    Rel Q (x >>= f) (y >>= g) := by
  cases h with
  | some h => exact hf _ _ rfl rfl h
  | none => exact .none

theorem returns {a : α} (h : Rel R x y) (hx : x = Option.some a) :
    ∃ b, y = Option.some b ∧ R a b := by
  cases h with
  | some h =>
    cases hx
    exact ⟨_, rfl, h⟩
  | none => cases hx

theorem refl {R : α → α → Prop} (hR : ∀ a, x = Option.some a → R a a) : Rel R x x := by
  cases x with
  | none => exact .none
  | some a => exact .some (hR a rfl)

theorem same (x : Option α) : Rel (· = ·) x x := refl fun _ _ => rfl

/-- Where the relation is equality, the programs are equal. -/
theorem eq {x y : Option α} (h : Rel (fun a b => b = a) x y) : y = x := by
  cases h with
  | some h => exact congrArg Option.some h
  | none => rfl

end Option.Rel
