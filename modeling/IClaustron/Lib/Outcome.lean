import Mathlib.Data.List.Basic

/-!
# Lib.Outcome — actions on a state that return, fail or abort

An action that fails keeps what it has done: the error comes with the state. An action that
aborts has stopped the program.

* `bind_eq_ok` — a sequence returns when both parts do.
* `After` — what holds when an action has returned, and when it has failed; `after_bind`,
  `after_loop`, `after_andThen`, `after_onError` and `after_handle` put it together.
* `Ends` — the state that an action leaves, returned or failed; `ends_bind` and `ends_andThen` say
  where a sequence has ended, and `loop_of_error` where a loop fails.
-/

namespace Lib

inductive Outcome (σ ε α : Type) where
  | ok (a : α) (s : σ)
  | error (code : ε) (s : σ)
  | abort

/-- Whether the program has returned with a state of this kind. -/
def Outcome.okWith {σ ε α : Type} (p : σ → Bool) : Outcome σ ε α → Bool
  | .ok _ s => p s
  | _ => false

theorem Outcome.exists_ok {σ ε α : Type} {p : σ → Bool} {o : Outcome σ ε α} (h : o.okWith p = true) :
    ∃ a s, o = .ok a s ∧ p s = true := by
  cases o with
  | ok a s => exact ⟨a, s, rfl, h⟩
  | error code s => cases h
  | abort => cases h

/-- An action on a state. -/
def Attempt (σ ε α : Type) := σ → Outcome σ ε α

variable {ε' : Type}

namespace Attempt

variable {σ ε α β : Type}

def pure (a : α) : Attempt σ ε α := fun s => .ok a s

def bind (m : Attempt σ ε α) (f : α → Attempt σ ε β) : Attempt σ ε β := fun s =>
  match m s with
  | .ok a s => f a s
  | .error code s => .error code s
  | .abort => .abort

instance : Monad (Attempt σ ε) where
  pure := pure
  bind := bind

theorem bind_assoc' {γ : Type} (m : Attempt σ ε α) (f : α → Attempt σ ε β)
    (g : β → Attempt σ ε γ) : bind (bind m f) g = bind m fun a => bind (f a) g := by
  funext s
  unfold bind
  cases m s with
  | ok a s₁ => rfl
  | error code s₁ => rfl
  | abort => rfl

theorem bind_pure' (m : Attempt σ ε α) : bind m pure = m := by
  funext s
  unfold bind
  cases m s with
  | ok a s₁ => rfl
  | error code s₁ => rfl
  | abort => rfl

instance : LawfulMonad (Attempt σ ε) :=
  LawfulMonad.mk' (Attempt σ ε) (fun m => bind_pure' m) (fun _ _ => rfl) bind_assoc'

/-- Change the state. -/
def modify (f : σ → σ) : Attempt σ ε Unit := fun s => .ok () (f s)

def throw (code : ε) : Attempt σ ε α := fun s => .error code s

/-- `f` is done to the state when the action has returned or failed. -/
def andThen (m : Attempt σ ε α) (f : σ → σ) : Attempt σ ε α := fun s =>
  match m s with
  | .ok a s => .ok a (f s)
  | .error code s => .error code (f s)
  | .abort => .abort

/-- The codes of a failure by other codes. -/
def mapError {ε' : Type} (m : Attempt σ ε α) (f : ε → ε') : Attempt σ ε' α := fun s =>
  match m s with
  | .ok a s => .ok a s
  | .error code s => .error (f code) s
  | .abort => .abort

/-- When the action has failed, `f` is done as well; the code stays. -/
def onError {ε' : Type} (m : Attempt σ ε α) (f : Attempt σ ε' Unit) : Attempt σ ε α := fun s =>
  match m s with
  | .ok a s => .ok a s
  | .error code s =>
    match f s with
    | .ok _ s => .error code s
    | .error _ s => .error code s
    | .abort => .abort
  | .abort => .abort

/-- What is done next, when the action has returned and when it has failed. -/
def handle {ε' : Type} (m : Attempt σ ε α) (f : α → Attempt σ ε' β) (g : ε → Attempt σ ε' β) :
    Attempt σ ε' β := fun s =>
  match m s with
  | .ok a s => f a s
  | .error code s => g code s
  | .abort => .abort

/-- The return code is not looked at. -/
def ignore (m : Attempt σ ε α) : Attempt σ ε Unit := fun s =>
  match m s with
  | .ok _ s => .ok () s
  | .error _ s => .ok () s
  | .abort => .abort

/-- The action several times. -/
def loop : Nat → Attempt σ ε Unit → Attempt σ ε Unit
  | 0, _ => pure ()
  | n + 1, m => bind m fun _ => loop n m

variable {m : Attempt σ ε α} {f : α → Attempt σ ε β} {s s' : σ}

theorem bind_eq_ok {b : β} : (m >>= f) s = .ok b s' ↔ ∃ a s₁, m s = .ok a s₁ ∧ f a s₁ = .ok b s' := by
  show bind m f s = _ ↔ _
  unfold bind
  constructor
  · intro h
    cases hm : m s with
    | ok a s₁ =>
      rw [hm] at h
      exact ⟨a, s₁, rfl, h⟩
    | error code s₁ =>
      rw [hm] at h
      cases h
    | abort =>
      rw [hm] at h
      cases h
  · rintro ⟨a, s₁, hm, hf⟩
    rw [hm]
    exact hf

theorem pure_eq_ok {a a' : α} : (Pure.pure a : Attempt σ ε α) s = .ok a' s' ↔ a' = a ∧ s' = s := by
  show Outcome.ok a s = Outcome.ok a' s' ↔ _
  rw [Outcome.ok.injEq]
  exact ⟨fun h => ⟨h.1.symm, h.2.symm⟩, fun h => ⟨h.1.symm, h.2.symm⟩⟩

theorem throw_eq_ok {code : ε} {a : α} : (throw code : Attempt σ ε α) s = .ok a s' ↔ False := by
  constructor
  · rintro h
    cases h
  · exact False.elim

theorem bind_of_ok {a : α} {s₁ : σ} (h : m s = .ok a s₁) : (m >>= f) s = f a s₁ := by
  show bind m f s = _
  unfold bind
  rw [h]

theorem bind_of_error {code : ε} {s₁ : σ} (h : m s = .error code s₁) :
    (m >>= f) s = .error code s₁ := by
  show bind m f s = _
  unfold bind
  rw [h]

theorem andThen_of_ok {g : σ → σ} {a : α} {s₁ : σ} (h : m s = .ok a s₁) :
    m.andThen g s = .ok a (g s₁) := by
  unfold andThen
  rw [h]

theorem andThen_of_error {g : σ → σ} {code : ε} {s₁ : σ} (h : m s = .error code s₁) :
    m.andThen g s = .error code (g s₁) := by
  unfold andThen
  rw [h]

theorem andThen_bind_of_ok {g : σ → σ} {a : α} {s₁ : σ} (h : m s = .ok a s₁) :
    (m >>= f).andThen g s = (f a).andThen g s₁ := by
  unfold andThen
  rw [bind_of_ok h]

theorem andThen_eq_ok {g : σ → σ} {a : α} :
    m.andThen g s = .ok a s' ↔ ∃ s₁, m s = .ok a s₁ ∧ s' = g s₁ := by
  unfold andThen
  cases h : m s with
  | ok a' s₁ =>
    simp only [Outcome.ok.injEq]
    constructor
    · rintro ⟨rfl, rfl⟩
      exact ⟨s₁, ⟨rfl, rfl⟩, rfl⟩
    · rintro ⟨s₂, ⟨rfl, rfl⟩, rfl⟩
      exact ⟨rfl, rfl⟩
  | error code s₁ => simp
  | abort => simp

theorem onError_congr {m' : Attempt σ ε α} {g : Attempt σ ε' Unit} (h : m s = m' s) :
    m.onError g s = m'.onError g s := by
  unfold onError
  rw [h]

theorem onError_of_error {g : Attempt σ ε' Unit} {code : ε} {s₁ s₂ : σ} (h : m s = .error code s₁)
    (hg : g s₁ = .ok () s₂) : m.onError g s = .error code s₂ := by
  unfold onError
  rw [h]
  dsimp only
  rw [hg]

theorem onError_eq_ok {g : Attempt σ ε' Unit} {a : α} :
    m.onError g s = .ok a s' ↔ m s = .ok a s' := by
  unfold onError
  cases m s with
  | ok a' s₁ => simp
  | error code s₁ =>
    dsimp only
    cases g s₁ <;> simp
  | abort => simp

theorem mapError_eq_ok {g : ε → ε'} {a : α} : m.mapError g s = .ok a s' ↔ m s = .ok a s' := by
  unfold mapError
  cases m s <;> simp

/-- What the state keeps, whether the action returns or fails. -/
def Keeps (P : σ → Prop) (m : Attempt σ ε α) : Prop :=
  ∀ s, P s → match m s with
    | .ok _ s' => P s'
    | .error _ s' => P s'
    | .abort => True

section Keeps

variable {P : σ → Prop}

theorem keeps_bind (hm : Keeps P m) (hf : ∀ a, Keeps P (f a)) : Keeps P (m >>= f) := by
  intro s hs
  have h := hm s hs
  show match bind m f s with
    | .ok _ s' => P s'
    | .error _ s' => P s'
    | .abort => True
  unfold bind
  cases hm' : m s with
  | ok a s₁ =>
    rw [hm'] at h
    exact hf a s₁ h
  | error code s₁ =>
    rw [hm'] at h
    exact h
  | abort => trivial

theorem keeps_pure {a : α} : Keeps P (Pure.pure a : Attempt σ ε α) := fun _ hs => hs

end Keeps

/-- The action does not abort; `post` holds when it has returned, and `fail` when it has failed. -/
def After (post : α → σ → Prop) (fail : ε → σ → Prop) : Outcome σ ε α → Prop
  | .ok a s => post a s
  | .error code s => fail code s
  | .abort => False

variable {mid post : α → σ → Prop} {post' : β → σ → Prop} {fail midFail : ε → σ → Prop}

theorem After.cases {o : Outcome σ ε α} (h : After post fail o) :
    (∃ a s, o = .ok a s ∧ post a s) ∨ ∃ code s, o = .error code s ∧ fail code s := by
  cases o with
  | ok a s => exact .inl ⟨a, s, rfl, h⟩
  | error code s => exact .inr ⟨code, s, rfl, h⟩
  | abort => exact h.elim

theorem After.mono {o : Outcome σ ε α} (h : After mid midFail o) (hPost : ∀ a s, mid a s → post a s)
    (hFail : ∀ code s, midFail code s → fail code s) : After post fail o := by
  cases o with
  | ok a s => exact hPost a s h
  | error code s => exact hFail code s h
  | abort => exact h

theorem after_bind (hm : After mid fail (m s)) (hf : ∀ a s', mid a s' → After post' fail (f a s')) :
    After post' fail ((m >>= f) s) := by
  rcases hm.cases with ⟨a, s₁, h, hMid⟩ | ⟨code, s₁, h, hFail⟩
  · rw [bind_of_ok h]
    exact hf a s₁ hMid
  · rw [bind_of_error h]
    exact hFail

theorem after_loop {inv : σ → Prop} {m : Attempt σ ε Unit}
    (hm : ∀ s, inv s → After (fun _ => inv) fail (m s)) (n : Nat) :
    ∀ s, inv s → After (fun _ => inv) fail (loop n m s) := by
  induction n with
  | zero => exact fun s hs => hs
  | succ n ih => exact fun s hs => after_bind (hm s hs) fun _ => ih

theorem after_andThen {g : σ → σ} (mid : α → σ → Prop) (midFail : ε → σ → Prop)
    (hm : After mid midFail (m s))
    (hg : ∀ a s, mid a s → post a (g s)) (hg' : ∀ code s, midFail code s → fail code (g s)) :
    After post fail (m.andThen g s) := by
  rcases hm.cases with ⟨a, s₁, h, hMid⟩ | ⟨code, s₁, h, hFail⟩
  · rw [andThen_of_ok h]
    exact hg a s₁ hMid
  · rw [andThen_of_error h]
    exact hg' code s₁ hFail

theorem after_onError {g : Attempt σ ε' Unit} (hm : After post midFail (m s))
    (hg : ∀ code s, midFail code s → After (fun _ => fail code) (fun _ => fail code) (g s)) :
    After post fail (m.onError g s) := by
  rcases hm.cases with ⟨a, s₁, h, hPost⟩ | ⟨code, s₁, h, hMid⟩
  · unfold onError
    rw [h]
    exact hPost
  · rcases (hg code s₁ hMid).cases with ⟨u, s₂, hEnd, hFail⟩ | ⟨code', s₂, hEnd, hFail⟩
    · unfold onError
      rw [h]
      dsimp only
      rw [hEnd]
      exact hFail
    · unfold onError
      rw [h]
      dsimp only
      rw [hEnd]
      exact hFail

theorem after_handle {fail' : ε' → σ → Prop} {g : α → Attempt σ ε' β} {g' : ε → Attempt σ ε' β}
    (hm : After mid midFail (m s)) (hg : ∀ a s, mid a s → After post' fail' (g a s))
    (hg' : ∀ code s, midFail code s → After post' fail' (g' code s)) :
    After post' fail' (m.handle g g' s) := by
  unfold handle
  rcases hm.cases with ⟨a, s₁, h, hMid⟩ | ⟨code, s₁, h, hFail⟩
  · rw [h]
    exact hg a s₁ hMid
  · rw [h]
    exact hg' code s₁ hFail

/-- The action has left `s'`, returned or failed. -/
def Ends (m : Attempt σ ε α) (s s' : σ) : Prop := (∃ a, m s = .ok a s') ∨ ∃ code, m s = .error code s'

/-- A sequence ends where its first part fails, or where its second part ends. -/
theorem ends_bind : Ends (m >>= f) s s' ↔
    (∃ code, m s = .error code s') ∨ ∃ a s₁, m s = .ok a s₁ ∧ Ends (f a) s₁ s' := by
  cases hm : m s with
  | ok a s₁ =>
    unfold Ends
    rw [bind_of_ok hm]
    simp
  | error code s₁ =>
    unfold Ends
    rw [bind_of_error hm]
    simp
  | abort =>
    have hBind : (m >>= f) s = .abort := by
      show bind m f s = _
      unfold bind
      rw [hm]
    unfold Ends
    rw [hBind]
    simp

theorem ends_andThen {g : σ → σ} :
    Ends (m.andThen g) s s' ↔ ∃ s₁, Ends m s s₁ ∧ s' = g s₁ := by
  unfold Ends andThen
  cases m s with
  | ok a s₁ => simp [eq_comm]
  | error code s₁ => simp [eq_comm]
  | abort => simp

theorem ends_ignore : Ends m.ignore s s' ↔ Ends m s s' := by
  unfold Ends ignore
  cases m s with
  | ok a s₁ => simp
  | error code s₁ => simp
  | abort => simp

theorem After.ends {post : σ → Prop} {fail : ε → σ → Prop}
    (h : After (fun _ : α => post) fail (m s)) (hFail : ∀ code s, fail code s → post s)
    (hEnds : Ends m s s') : post s' := by
  rcases hEnds with ⟨a, hm⟩ | ⟨code, hm⟩
  · rw [hm] at h
    exact h
  · rw [hm] at h
    exact hFail code s' h

/-- A loop fails in the round that fails. -/
theorem loop_of_error {m : Attempt σ ε Unit} {k n : Nat} {u : Unit} {s₁ : σ} {code : ε} (hk : k < n)
    (hLoop : loop k m s = .ok u s₁) (hm : m s₁ = .error code s') :
    loop n m s = .error code s' := by
  induction k generalizing n s with
  | zero =>
    rcases Nat.exists_eq_succ_of_ne_zero (Nat.ne_of_gt hk) with ⟨n, rfl⟩
    obtain ⟨-, rfl⟩ : u = () ∧ s₁ = s := pure_eq_ok.mp hLoop
    exact bind_of_error hm
  | succ k ih =>
    rcases Nat.exists_eq_succ_of_ne_zero (Nat.ne_of_gt (Nat.lt_of_le_of_lt (Nat.zero_le _) hk)) with
      ⟨n, rfl⟩
    rcases bind_eq_ok.mp hLoop with ⟨a, s₂, hFirst, hRest⟩
    exact (bind_of_ok hFirst).trans (ih (Nat.lt_of_succ_lt_succ hk) hRest)

end Attempt

end Lib
