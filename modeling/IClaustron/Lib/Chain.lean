import Mathlib.Data.List.Nodup
import Mathlib.Logic.Function.Basic

/-!
# Lib.Chain — singly linked chains in a pointer memory

`next : α → Option α` is the link field of every cell, `none` the NULL pointer.
`Seg next a l b` says that following `next` from `a` visits exactly the cells
`l`, in order, and stops at `b`; `Chain next a l` is a NULL-terminated segment.

The lemmas say when two memories have the same chain (`Seg.congr`,
`Seg.update`), how chains are cut and joined (`seg_append`), that a chain is
determined by its head (`Chain.det`) and that it is acyclic (`Chain.nodup`).
-/

namespace Lib

variable {α : Type*}

/-- Following `next` from `a` visits the cells `l` and stops at `b`. -/
def Seg (next : α → Option α) : Option α → List α → Option α → Prop
  | a, [], b => a = b
  | a, x :: xs, b => a = some x ∧ Seg next (next x) xs b

/-- A NULL-terminated chain. -/
def Chain (next : α → Option α) (a : Option α) (l : List α) : Prop :=
  Seg next a l none

/-- The cell `p` is found by following `next` from `a`. -/
inductive OnChain (next : α → Option α) : Option α → α → Prop where
  | head (p : α) : OnChain next (some p) p
  | tail {x p : α} : OnChain next (next x) p → OnChain next (some x) p

variable {next next' : α → Option α} {a b : Option α} {l : List α}

@[simp] theorem seg_nil : Seg next a [] b ↔ a = b := Iff.rfl

@[simp] theorem seg_cons {x : α} : Seg next a (x :: l) b ↔ a = some x ∧ Seg next (next x) l b :=
  Iff.rfl

@[simp] theorem chain_nil : Chain next a [] ↔ a = none := Iff.rfl

@[simp] theorem chain_cons {x : α} : Chain next a (x :: l) ↔ a = some x ∧ Chain next (next x) l :=
  Iff.rfl

theorem chain_none : Chain next none l ↔ l = [] := by
  cases l with
  | nil => simp
  | cons x xs => simp

/-- A chain with a first cell starts with it. -/
theorem Chain.eq_cons {x : α} (h : Chain next (some x) l) : ∃ xs, l = x :: xs := by
  cases l with
  | nil => cases h
  | cons y ys =>
    cases h.1
    exact ⟨ys, rfl⟩

/-- A segment only depends on the links of its own cells. -/
theorem Seg.congr (h : ∀ x ∈ l, next x = next' x) (hs : Seg next a l b) : Seg next' a l b := by
  induction l generalizing a with
  | nil => exact hs
  | cons x xs ih =>
    obtain ⟨ha, hs⟩ := hs
    refine ⟨ha, ih (fun y hy => h y (List.mem_cons_of_mem x hy)) ?_⟩
    rw [← h x List.mem_cons_self]
    exact hs

theorem Chain.congr (h : ∀ x ∈ l, next x = next' x) (hs : Chain next a l) : Chain next' a l :=
  Seg.congr h hs

/-- Frame rule: writing the link of a cell outside the segment. -/
theorem Seg.update [DecidableEq α] {p : α} {v : Option α} (hp : p ∉ l) (hs : Seg next a l b) :
    Seg (Function.update next p v) a l b := by
  refine hs.congr fun x hx => ?_
  rw [Function.update_of_ne]
  rintro rfl
  exact hp hx

theorem seg_append {l₁ l₂ : List α} :
    Seg next a (l₁ ++ l₂) b ↔ ∃ m, Seg next a l₁ m ∧ Seg next m l₂ b := by
  induction l₁ generalizing a with
  | nil => simp
  | cons x xs ih => simp [ih, and_assoc]

/-- Writing NULL into the last cell of a segment cuts it off. -/
theorem Seg.cut [DecidableEq α] {x : α} (hx : x ∉ l) (hs : Seg next a (l ++ [x]) b) :
    Chain (Function.update next x none) a (l ++ [x]) := by
  obtain ⟨m, hl, hm, -⟩ := seg_append.mp hs
  exact seg_append.mpr ⟨m, hl.update hx, hm, by simp⟩

/-- A chain is determined by its first cell. -/
theorem Chain.det {l' : List α} (h : Chain next a l) (h' : Chain next a l') : l = l' := by
  induction l generalizing a l' with
  | nil =>
    rw [chain_nil] at h
    subst h
    exact (chain_none.mp h').symm
  | cons x xs ih =>
    obtain ⟨rfl, h⟩ := h
    cases l' with
    | nil => cases h'
    | cons y ys =>
      obtain ⟨hxy, h'⟩ := h'
      cases hxy
      rw [ih h h']

/-- A cell that occurs in a chain starts a chain of its own, a suffix of it. -/
theorem Chain.suffix {x : α} (h : Chain next a l) (hx : x ∈ l) :
    ∃ l', Chain next (some x) (x :: l') ∧ l'.length < l.length := by
  induction l generalizing a with
  | nil => cases hx
  | cons y ys ih =>
    obtain ⟨-, h⟩ := h
    rcases List.mem_cons.mp hx with rfl | hx
    · exact ⟨ys, ⟨rfl, h⟩, Nat.lt_succ_self _⟩
    · obtain ⟨l', hl', hlt⟩ := ih h hx
      exact ⟨l', hl', Nat.lt_succ_of_lt hlt⟩

/-- A NULL-terminated chain visits no cell twice. -/
theorem Chain.nodup (h : Chain next a l) : l.Nodup := by
  induction l generalizing a with
  | nil => exact List.nodup_nil
  | cons x xs ih =>
    refine List.nodup_cons.mpr ⟨fun hx => ?_, ih h.2⟩
    -- a second visit of `x` would start the same chain with a shorter tail
    obtain ⟨l', hl', hlt⟩ := Chain.suffix h.2 hx
    have heq : xs = l' := Chain.det h.2 hl'.2
    rw [heq] at hlt
    exact Nat.lt_irrefl _ hlt

theorem Chain.onChain_iff {p : α} (h : Chain next a l) : OnChain next a p ↔ p ∈ l := by
  constructor
  · intro hp
    induction hp generalizing l with
    | head p =>
      cases l with
      | nil => cases h
      | cons x xs =>
        cases h.1
        exact List.mem_cons_self
    | tail _ ih =>
      cases l with
      | nil => cases h
      | cons y ys =>
        cases h.1
        exact List.mem_cons_of_mem _ (ih h.2)
  · intro hp
    induction l generalizing a with
    | nil => cases hp
    | cons x xs ih =>
      obtain ⟨rfl, h⟩ := h
      rcases List.mem_cons.mp hp with rfl | hp
      · exact OnChain.head _
      · exact OnChain.tail (ih h hp)

/-- Follow `next` at most `n` times. -/
def advance (next : α → Option α) : Nat → Option α → Option α
  | 0, a => a
  | _ + 1, none => none
  | n + 1, some x => advance next n (next x)

@[simp] theorem advance_none (n : Nat) : advance next n none = none := by
  cases n <;> rfl

/-- Advancing along a chain drops its first cells. -/
theorem Chain.advance (h : Chain next a l) (n : Nat) :
    Seg next a (l.take n) (advance next n a) ∧ Chain next (advance next n a) (l.drop n) := by
  induction n generalizing a l with
  | zero => exact ⟨by simp [Lib.advance], by simpa [Lib.advance] using h⟩
  | succ n ih =>
    cases l with
    | nil =>
      rw [chain_nil] at h
      subst h
      simp [Lib.advance]
    | cons x xs =>
      obtain ⟨rfl, h⟩ := h
      have hx := ih h
      exact ⟨⟨rfl, hx.1⟩, hx.2⟩

end Lib
