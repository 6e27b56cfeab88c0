import Mathlib.Algebra.Ring.Nat
import Mathlib.Data.List.Basic
import Mathlib.Logic.Function.Iterate

/-!
# Lib.Run — runs of a labelled machine

A machine is a step function `σ → α → Option σ`: every nondeterministic choice
is part of the label, and `none` means that the label is not a step of the
machine in that state (it is disabled, or the program stops there).

* `exec` runs a list of labels;
* `invariant` is the usual induction: what holds initially and is kept by a
  step holds in every state reached;
* `Along` says that a condition on (state, label) is met by every step of a
  run, and `invariant_along` is the induction for such runs;
* `always_iff_along` turns "a step meeting the condition keeps the invariant,
  any other breaks the property" into an equivalence about whole runs,
  `always_iff_history` does it for a condition on a label and on what the labels
  in front of it add up to, and `along_congr` for two conditions;
* `runs_iff_meets` is about machines that a label can stop: the whole list is run
  exactly if each label meets a condition;
* `Forced` says that a run is the only one there is, and `forced_run` that every
  run is a part of it;
* `exists_iterate_iff` is about programs without choices.
-/

namespace Lib.Run

open Option Function

variable {σ α : Type*} (step : σ → α → Option σ)

/-- Run a list of labels; `none` as soon as one of them is not a step. -/
def exec : σ → List α → Option σ
  | s, [] => some s
  | s, a :: as => (step s a).bind fun s' => exec s' as

@[simp] theorem exec_nil (s : σ) : exec step s [] = some s := rfl

@[simp] theorem exec_cons (s : σ) (a : α) (as : List α) :
    exec step s (a :: as) = (step s a).bind fun s' => exec step s' as := rfl

theorem exec_append (s : σ) (as bs : List α) :
    exec step s (as ++ bs) = (exec step s as).bind fun s' => exec step s' bs := by
  induction as generalizing s with
  | nil => rfl
  | cons a as ih =>
    cases h : step s a with
    | none => simp [h]
    | some s' => simp [h, ih]

variable {q s s' s₁ : σ} {as bs : List α} {P ok : σ → α → Prop}

/-- Invariant induction along a run. -/
theorem invariant (inv : σ → Prop) (hstep : ∀ s a s', step s a = some s' → inv s → inv s')
    (hrun : exec step s as = some s') (hs : inv s) : inv s' := by
  induction as generalizing s with
  | nil =>
    cases hrun
    exact hs
  | cons a as ih =>
    rw [exec_cons, bind_eq_some_iff] at hrun
    obtain ⟨s₁, h₁, hrun⟩ := hrun
    exact ih hrun (hstep s a s₁ h₁ hs)

/-- Every step that the run from `s` takes meets the condition `ok`. -/
def Along (ok : σ → α → Prop) : σ → List α → Prop
  | _, [] => True
  | s, a :: as => ∀ s', step s a = some s' → ok s a ∧ Along ok s' as

theorem along_cons {a : α} (h : step s a = some s₁) :
    Along step ok s (a :: as) ↔ ok s a ∧ Along step ok s₁ as := by
  constructor
  · exact fun hall => hall s₁ h
  · intro hall s' h'
    rw [h] at h'
    cases h'
    exact hall

instance decidableAlong (ok : σ → α → Prop) [∀ s a, Decidable (ok s a)] :
    ∀ s as, Decidable (Along step ok s as)
  | _, [] => isTrue trivial
  | s, a :: as =>
    match h : step s a with
    | none => isTrue fun _ h' => absurd (h.symm.trans h') nofun
    | some s' =>
      have := decidableAlong ok s' as
      decidable_of_iff (ok s a ∧ Along step ok s' as) (along_cons step h).symm

/-- A condition that the labels meet in every state. -/
theorem along_of_forall (h : ∀ a ∈ as, ∀ s, ok s a) (s : σ) : Along step ok s as := by
  induction as generalizing s with
  | nil => exact trivial
  | cons a as ih =>
    intro s' _
    exact ⟨h a List.mem_cons_self s, ih (fun b hb => h b (List.mem_cons_of_mem a hb)) s'⟩

theorem along_append (bs : List α) (h : exec step s as = some s₁) (has : Along step ok s as)
    (hbs : Along step ok s₁ bs) : Along step ok s (as ++ bs) := by
  induction as generalizing s with
  | nil =>
    cases h
    exact hbs
  | cons a as ih =>
    rw [exec_cons, bind_eq_some_iff] at h
    obtain ⟨s₂, h₂, hrun⟩ := h
    obtain ⟨hok, hoks⟩ := (along_cons step h₂).mp has
    exact (along_cons step h₂).mpr ⟨hok, ih hrun hoks⟩

/-- The condition is met along both parts of a run. -/
theorem along_of_append (h : exec step s as = some s₁) (hall : Along step ok s (as ++ bs)) :
    Along step ok s as ∧ Along step ok s₁ bs := by
  induction as generalizing s with
  | nil =>
    cases h
    exact ⟨trivial, hall⟩
  | cons a as ih =>
    rw [exec_cons, bind_eq_some_iff] at h
    obtain ⟨s₂, h₂, hrun⟩ := h
    obtain ⟨hok, hoks⟩ := (along_cons step h₂).mp hall
    obtain ⟨has, hbs⟩ := ih hrun hoks
    exact ⟨(along_cons step h₂).mpr ⟨hok, has⟩, hbs⟩

/-- What the invariant says of a step is met along the run. -/
theorem along_of_inv (inv : σ → Prop)
    (hstep : ∀ s a s', ok s a → step s a = some s' → inv s → inv s')
    (hP : ∀ s a, ok s a → inv s → P s a) (hok : Along step ok s as) (hs : inv s) :
    Along step P s as := by
  induction as generalizing s with
  | nil => exact trivial
  | cons a as ih =>
    intro s' h
    obtain ⟨hok₁, hoks⟩ := hok s' h
    exact ⟨hP s a hok₁ hs, ih hoks (hstep s a s' hok₁ h hs)⟩

/-- Invariant induction along a run whose steps all meet a condition. -/
theorem invariant_along (ok : σ → α → Prop) (inv : σ → Prop)
    (hstep : ∀ s a s', ok s a → step s a = some s' → inv s → inv s') (hok : Along step ok s as)
    (hrun : exec step s as = some s') (hs : inv s) : inv s' := by
  induction as generalizing s with
  | nil =>
    cases hrun
    exact hs
  | cons a as ih =>
    rw [exec_cons, bind_eq_some_iff] at hrun
    obtain ⟨s₁, h₁, hrun⟩ := hrun
    obtain ⟨hok₁, hoks⟩ := hok s₁ h₁
    exact ih hoks hrun (hstep s a s₁ hok₁ h₁ hs)

/-- `P` holds in every state that the run from `s` reaches. -/
def Always (P : σ → Prop) (s : σ) (as : List α) : Prop :=
  ∀ pre s', pre <+: as → exec step s pre = some s' → P s'

theorem always_cons {P : σ → Prop} {a : α} :
    Always step P s (a :: as) ↔ P s ∧ ∀ s', step s a = some s' → Always step P s' as := by
  constructor
  · intro h
    refine ⟨h [] s List.nil_prefix rfl, fun s₁ h₁ pre s' hpre hrun => ?_⟩
    refine h (a :: pre) s' (List.cons_prefix_cons.mpr ⟨rfl, hpre⟩) ?_
    rw [exec_cons, h₁]
    exact hrun
  · rintro ⟨hs, h⟩ pre s' hpre hrun
    cases pre with
    | nil =>
      cases hrun
      exact hs
    | cons b pre =>
      obtain ⟨rfl, htail⟩ := List.cons_prefix_cons.mp hpre
      rw [exec_cons, bind_eq_some_iff] at hrun
      obtain ⟨s₁, h₁, hrun⟩ := hrun
      exact h s₁ h₁ pre s' htail hrun

instance decidableAlways (P : σ → Prop) [∀ s, Decidable (P s)] :
    ∀ s as, Decidable (Always step P s as)
  | s, [] => decidable_of_iff (P s) <| by
    constructor
    · intro hs pre s' hpre hrun
      rw [List.prefix_nil.mp hpre] at hrun
      cases hrun
      exact hs
    · exact fun h => h [] s List.nil_prefix rfl
  | s, a :: as =>
    match h : step s a with
    | none => decidable_of_iff (P s) <| by
      rw [always_cons, and_iff_left]
      intro s' h'
      exact absurd (h.symm.trans h') nofun
    | some s' =>
      have := decidableAlways P s' as
      decidable_of_iff (P s ∧ Always step P s' as) <| by
        rw [always_cons]
        constructor
        · rintro ⟨hs, hall⟩
          refine ⟨hs, fun s₁ h₁ => ?_⟩
          cases h.symm.trans h₁
          exact hall
        · exact fun hall => ⟨hall.1, hall.2 s' h⟩

/-- When a step that meets `ok` keeps the invariant, and one that does not
breaks `P` at once, the run is safe exactly if every step meets `ok`. -/
theorem always_iff_along (ok : σ → α → Prop) (inv P : σ → Prop) (hP : ∀ s, inv s → P s)
    (hkeep : ∀ s a s', ok s a → step s a = some s' → inv s → inv s')
    (hbreak : ∀ s a s', ¬ ok s a → step s a = some s' → inv s → ¬ P s') (as : List α) (hs : inv s) :
    Always step P s as ↔ Along step ok s as := by
  induction as generalizing s with
  | nil =>
    refine ⟨fun _ => trivial, fun _ pre s' hpre hrun => ?_⟩
    rw [List.prefix_nil.mp hpre] at hrun
    cases hrun
    exact hP s hs
  | cons a as ih =>
    rw [always_cons]
    constructor
    · rintro ⟨-, h⟩ s₁ h₁
      have hok : ok s a := by
        by_contra hno
        exact hbreak s a s₁ hno h₁ hs (h s₁ h₁ [] s₁ List.nil_prefix rfl)
      exact ⟨hok, (ih (hkeep s a s₁ hok h₁ hs)).mp (h s₁ h₁)⟩
    · intro h
      refine ⟨hP s hs, fun s₁ h₁ => ?_⟩
      obtain ⟨hok, hoks⟩ := h s₁ h₁
      exact (ih (hkeep s a s₁ hok h₁ hs)).mpr hoks

/-- As `always_iff_along`, for a condition on a label and on what the labels in
front of it add up to: the states of the machine are not in it. -/
theorem always_iff_history {β : Type*} (next : β → α → β) (fit : β → α → Prop)
    (inv : σ → β → Prop) (P : σ → Prop) (hP : ∀ s b, inv s b → P s)
    (hkeep : ∀ s a s' b, fit b a → step s a = some s' → inv s b → inv s' (next b a))
    (hbreak : ∀ s a s' b, ¬ fit b a → step s a = some s' → inv s b → ¬ P s') (as : List α) {b : β}
    (hs : inv s b) :
    Always step P s as ↔ ∀ pre a, pre ++ [a] <+: as → (exec step s (pre ++ [a])).isSome →
      fit (pre.foldl next b) a := by
  induction as generalizing s b with
  | nil =>
    constructor
    · intro _ pre a hpre
      exact absurd (List.prefix_nil.mp hpre) (by simp)
    · intro _ pre s' hpre hrun
      rw [List.prefix_nil.mp hpre] at hrun
      cases hrun
      exact hP s b hs
  | cons a as ih =>
    rw [always_cons]
    constructor
    · rintro ⟨-, h⟩ pre c hpre hrun
      have hfit : ∀ s₁, step s a = some s₁ → fit b a := by
        intro s₁ h₁
        by_contra hno
        exact hbreak s a s₁ b hno h₁ hs (h s₁ h₁ [] s₁ List.nil_prefix rfl)
      obtain ⟨s', hrun⟩ := isSome_iff_exists.mp hrun
      cases pre with
      | nil =>
        obtain ⟨rfl, -⟩ := List.cons_prefix_cons.mp hpre
        obtain ⟨s₁, h₁, -⟩ := bind_eq_some_iff.mp hrun
        exact hfit s₁ h₁
      | cons d pre =>
        obtain ⟨rfl, htail⟩ := List.cons_prefix_cons.mp hpre
        obtain ⟨s₁, h₁, hrun⟩ := bind_eq_some_iff.mp hrun
        exact (ih (hkeep s d s₁ b (hfit s₁ h₁) h₁ hs)).mp (h s₁ h₁) pre c htail
          (isSome_iff_exists.mpr ⟨s', hrun⟩)
    · intro h
      refine ⟨hP s b hs, fun s₁ h₁ => ?_⟩
      have hfit : fit b a := h [] a (List.cons_prefix_cons.mpr ⟨rfl, List.nil_prefix⟩) (by simp [h₁])
      refine (ih (hkeep s a s₁ b hfit h₁ hs)).mpr fun pre c hpre hrun => ?_
      refine h (a :: pre) c (List.cons_prefix_cons.mpr ⟨rfl, hpre⟩) ?_
      rw [List.cons_append, exec_cons, h₁]
      exact hrun

/-- Two conditions that agree under an invariant agree along a run. -/
theorem along_congr {ok' : σ → α → Prop} (inv : σ → Prop)
    (hkeep : ∀ s a s', step s a = some s' → inv s → inv s')
    (hiff : ∀ s a s', step s a = some s' → inv s → (ok s a ↔ ok' s a)) (as : List α) (hs : inv s) :
    Along step ok s as ↔ Along step ok' s as := by
  induction as generalizing s with
  | nil => exact Iff.rfl
  | cons a as ih =>
    constructor
    · intro h s₁ h₁
      exact ⟨(hiff s a s₁ h₁ hs).mp (h s₁ h₁).1, (ih (hkeep s a s₁ h₁ hs)).mp (h s₁ h₁).2⟩
    · intro h s₁ h₁
      exact ⟨(hiff s a s₁ h₁ hs).mpr (h s₁ h₁).1, (ih (hkeep s a s₁ h₁ hs)).mpr (h s₁ h₁).2⟩

/-- The whole list is run, and each of its labels comes in a state in which `P` holds for it. -/
def Runs (P : σ → α → Prop) : σ → List α → Prop
  | _, [] => True
  | s, a :: as => P s a ∧ ∃ s', step s a = some s' ∧ Runs P s' as

/-- Each label that the run comes to meets the condition `ok`, whether it is a step or not. -/
def Meets (ok : σ → α → Prop) : σ → List α → Prop
  | _, [] => True
  | s, a :: as => ok s a ∧ ∀ s', step s a = some s' → Meets ok s' as

/-- When `P` is the condition `ok` under an invariant, and a label that meets `ok` is a step, a list
is run as it should exactly if each label that the run comes to meets `ok`. -/
theorem runs_iff_meets (inv : σ → Prop) (hiff : ∀ s a, inv s → (P s a ↔ ok s a))
    (hstep : ∀ s a, inv s → ok s a → ∃ s', step s a = some s' ∧ inv s') (as : List α) (hs : inv s) :
    Runs step P s as ↔ Meets step ok s as := by
  induction as generalizing s with
  | nil => exact Iff.rfl
  | cons a as ih =>
    constructor
    · rintro ⟨hP, s₁, h₁, hRest⟩
      have hok := (hiff s a hs).mp hP
      refine ⟨hok, fun s₂ h₂ => ?_⟩
      cases h₁.symm.trans h₂
      rcases hstep s a hs hok with ⟨s₂, h₂, hs₂⟩
      cases h₁.symm.trans h₂
      exact (ih hs₂).mp hRest
    · rintro ⟨hok, hRest⟩
      rcases hstep s a hs hok with ⟨s₁, h₁, hs₁⟩
      exact ⟨(hiff s a hs).mpr hok, s₁, h₁, (ih hs₁).mpr (hRest s₁ h₁)⟩

theorem exec_of_runs (h : Runs step P s as) : ∃ s', exec step s as = some s' := by
  induction as generalizing s with
  | nil => exact ⟨s, rfl⟩
  | cons a as ih =>
    rcases h with ⟨-, s₁, h₁, hRest⟩
    rcases ih hRest with ⟨s', hRun⟩
    refine ⟨s', ?_⟩
    rw [exec_cons, h₁]
    exact hRun

/-- In every state of the run its next label is the only step, and at its end there is
none. -/
def Forced : σ → List α → Prop
  | s, [] => ∀ a, step s a = none
  | s, a :: as => (∀ b, b ≠ a → step s b = none) ∧ ∃ s', step s a = some s' ∧ Forced s' as

/-- Every run can be completed to the forced one, and stops only at its end. -/
theorem forced_run (h : Forced step s as) (hend : exec step s as = some q)
    (hrun : exec step s bs = some s') :
    (∃ cs, exec step s' cs = some q) ∧ ((∀ a, step s' a = none) → s' = q) := by
  induction as generalizing s bs with
  | nil =>
    cases bs with
    | nil =>
      cases hend
      cases hrun
      exact ⟨⟨[], rfl⟩, fun _ => rfl⟩
    | cons b bs =>
      rw [exec_cons, h b] at hrun
      cases hrun
  | cons a as ih =>
    obtain ⟨honly, s₁, h₁, hforced⟩ := h
    rw [exec_cons, h₁, bind_some] at hend
    cases bs with
    | nil =>
      cases hrun
      refine ⟨⟨a :: as, ?_⟩, fun hstop => ?_⟩
      · rw [exec_cons, h₁, bind_some, hend]
      · rw [hstop a] at h₁
        cases h₁
    | cons b bs =>
      by_cases hba : b = a
      · subst hba
        rw [exec_cons, h₁, bind_some] at hrun
        exact ih hforced hend hrun
      · rw [exec_cons, honly b hba] at hrun
        cases hrun

/-- Different steps of one state lead to a common state. -/
def Commute : Prop :=
  ∀ s a b sa sb, a ≠ b → step s a = some sa → step s b = some sb →
    ∃ q, step sa b = some q ∧ step sb a = some q

/-- After any first step the end is still reached, with one step less. -/
theorem exec_commute_step [DecidableEq α] (hcommute : Commute step) {b : α}
    (hend : exec step s as = some q) (hstop : ∀ a, step q a = none) (hb : step s b = some s') :
    ∃ cs, exec step s' cs = some q ∧ cs.length + 1 = as.length := by
  induction as generalizing s s' with
  | nil =>
    cases hend
    rw [hstop b] at hb
    cases hb
  | cons a as ih =>
    rw [exec_cons] at hend
    obtain ⟨s₁, ha, hend⟩ := bind_eq_some_iff.mp hend
    by_cases hab : a = b
    · subst hab
      rw [ha] at hb
      cases hb
      exact ⟨as, hend, rfl⟩
    · obtain ⟨q', hq, hq'⟩ := hcommute s a b s₁ s' hab ha hb
      obtain ⟨cs, hcs, hlen⟩ := ih hend hq
      refine ⟨a :: cs, ?_, ?_⟩
      · rw [exec_cons, hq', bind_some, hcs]
      · rw [List.length_cons, List.length_cons, hlen]

theorem exec_commute [DecidableEq α] (hcommute : Commute step) (hend : exec step s as = some q)
    (hstop : ∀ a, step q a = none) (hrun : exec step s bs = some s') :
    ∃ cs, exec step s' cs = some q ∧ bs.length + cs.length = as.length := by
  induction bs generalizing s as with
  | nil =>
    cases hrun
    exact ⟨as, hend, Nat.zero_add _⟩
  | cons b bs ih =>
    rw [exec_cons] at hrun
    obtain ⟨s₁, hb, hrun⟩ := bind_eq_some_iff.mp hrun
    obtain ⟨as', hend', hlen'⟩ := exec_commute_step step hcommute hend hstop hb
    obtain ⟨cs, hcs, hlen⟩ := ih hend' hrun
    refine ⟨cs, hcs, ?_⟩
    rw [List.length_cons, ← hlen']
    omega

/-- A program without choices that comes to rest in `q` ends nowhere else. -/
theorem exists_iterate_iff {f : σ → σ} {n : Nat} (hn : f^[n] s = q) (hq : f q = q) {P : σ → Prop}
    (hP : ∀ s, P s → f s = s) : (∃ m, P (f^[m] s)) ↔ P q := by
  constructor
  · rintro ⟨m, hm⟩
    have hend : f^[m] s = q :=
      calc f^[m] s = f^[n] (f^[m] s) := (iterate_fixed (hP _ hm) n).symm
        _ = f^[m] (f^[n] s) := by
          rw [← iterate_add_apply, ← iterate_add_apply, Nat.add_comm]
        _ = q := by rw [hn, iterate_fixed hq]
    rw [← hend]
    exact hm
  · intro h
    exact ⟨n, hn ▸ h⟩

end Lib.Run
