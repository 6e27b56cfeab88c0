import Mathlib.Logic.Function.Basic
import Mathlib.Data.List.Basic

/-!
# Lib.Locks — threads that take and give back mutexes

A thread at a program point holds the mutexes of that point. A system is well locked
when every transition changes them as its action on a mutex says; then the owners of the
mutexes are what the program points say (`owned_apply`).
-/

namespace Lib.Locks

open Function

variable {μ τ : Type*}

/-- What a transition does to the mutexes. -/
inductive Act (μ : Type*) where
  | tau
  | lock (m : μ)
  | unlock (m : μ)
deriving DecidableEq

/-- A mutex is locked when nobody has it. -/
def Act.apply [DecidableEq μ] (t : τ) (owner : μ → Option τ) : Act μ → Option (μ → Option τ)
  | .tau => some owner
  | .lock m =>
    match owner m with
    | none => some (update owner m (some t))
    | some _ => none
  | .unlock m => some (update owner m none)

/-- The mutexes of the program point before and after the transition. -/
def Act.Moves (before after : List μ) : Act μ → Prop
  | .tau => ∀ m, m ∈ after ↔ m ∈ before
  | .lock x => ∀ m, m ∈ after ↔ m = x ∨ m ∈ before
  | .unlock x => x ∈ before ∧ ∀ m, m ∈ after ↔ m ≠ x ∧ m ∈ before

@[simp] theorem moves_tau {before : List μ} : (Act.tau).Moves before before := fun _ => Iff.rfl

@[simp] theorem moves_lock {before : List μ} {x : μ} : (Act.lock x).Moves before (x :: before) :=
  fun _ => List.mem_cons

@[simp] theorem moves_unlock {after : List μ} {x : μ} (hx : x ∉ after) :
    (Act.unlock x).Moves (x :: after) after := by
  refine ⟨List.mem_cons_self, ?_⟩
  intro m
  rw [List.mem_cons]
  constructor
  · intro hm
    refine ⟨?_, Or.inr hm⟩
    rintro rfl
    exact hx hm
  · rintro ⟨hne, heq | hm⟩
    · exact absurd heq hne
    · exact hm

/-- The owners are what the program points say. -/
def Owned (owner : μ → Option τ) (held : τ → List μ) : Prop :=
  ∀ m t, owner m = some t ↔ m ∈ held t

variable [DecidableEq μ] {owner owner' : μ → Option τ} {held held' : τ → List μ} {t : τ}

/-- One thread makes a transition, and the others stay where they are. -/
theorem owned_apply (hown : Owned owner held) {act : Act μ} (happly : act.apply t owner = some owner')
    (hmoves : act.Moves (held t) (held' t)) (hothers : ∀ u, u ≠ t → held' u = held u) :
    Owned owner' held' := by
  intro m u
  cases act with
  | tau =>
    cases happly
    rw [hown m u]
    by_cases hu : u = t
    · rw [hu, hmoves m]
    · rw [hothers u hu]
  | lock x =>
    dsimp only [Act.apply] at happly
    cases hfree : owner x with
    | some v =>
      rw [hfree] at happly
      cases happly
    | none =>
      rw [hfree] at happly
      cases happly
      have hnobody : ∀ v, x ∉ held v := by
        intro v hv
        rw [(hown x v).mpr hv] at hfree
        cases hfree
      by_cases hm : m = x
      · subst hm
        rw [update_self]
        by_cases hu : u = t
        · subst hu
          exact iff_of_true rfl ((hmoves m).mpr (Or.inl rfl))
        · rw [hothers u hu]
          exact iff_of_false (fun h => hu (Option.some.inj h).symm) (hnobody u)
      · rw [update_of_ne hm, hown m u]
        by_cases hu : u = t
        · rw [hu, hmoves m, or_iff_right hm]
        · rw [hothers u hu]
  | unlock x =>
    cases happly
    rcases hmoves with ⟨hx, hmoves⟩
    have howner : owner x = some t := (hown x t).mpr hx
    by_cases hm : m = x
    · subst hm
      rw [update_self]
      refine iff_of_false nofun ?_
      by_cases hu : u = t
      · rw [hu, hmoves m]
        exact fun h => h.1 rfl
      · rw [hothers u hu]
        intro hmem
        have := (hown m u).mpr hmem
        rw [howner] at this
        exact hu (Option.some.inj this).symm
    · rw [update_of_ne hm, hown m u]
      by_cases hu : u = t
      · rw [hu, hmoves m, and_iff_right hm]
      · rw [hothers u hu]

end Lib.Locks
