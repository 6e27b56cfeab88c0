import Mathlib.Data.List.Basic

/-!
# Lib.Scan — to look for the end of a run of elements

A scanner goes on while what it finds has a property, and gives back where it stops and what it
has found there. Behind the last element there is nothing to be found.

* `scan_append` — it stops at the end of a run.
* `scanBelow_append`, `scanBelow_none` — so does one with a limit, if the run ends below it.
* `exists_run` — every sequence begins with a run, which may be empty.
-/

namespace Lib

variable {α : Type}

/-- The first element without the property, and its position; the first one is at `pos`. -/
def scan (p : α → Bool) (pos : Nat) : List α → Option (α × Nat)
  | [] => none
  | a :: l => if p a then scan p (pos + 1) l else some (a, pos)

/-- The same for a scanner that fails when it comes to the position `limit`. -/
def scanBelow (p : α → Bool) (limit pos : Nat) : List α → Option (α × Nat)
  | [] => none
  | a :: l =>
    if p a then if pos + 1 < limit then scanBelow p limit (pos + 1) l else none
    else some (a, pos)

/-- The run ends there. -/
def Stops (p : α → Bool) (post : List α) : Prop := ∀ a ∈ post.head?, p a = false

variable {p : α → Bool} {run post l : List α} {a : α} {pos : Nat}

theorem scan_append (hRun : ∀ b ∈ run, p b = true) (ha : p a = false) :
    scan p pos (run ++ a :: l) = some (a, pos + run.length) := by
  induction run generalizing pos with
  | nil =>
    rw [List.nil_append, scan, ha]
    rfl
  | cons b run ih =>
    have hb : p b = true := hRun b List.mem_cons_self
    rw [List.cons_append, scan, if_pos hb, ih fun c hc => hRun c (List.mem_cons_of_mem b hc),
      List.length_cons, Nat.add_assoc, Nat.add_comm 1]

theorem scanBelow_append {limit : Nat} (hRun : ∀ b ∈ run, p b = true) (ha : p a = false)
    (hBelow : pos + run.length < limit) :
    scanBelow p limit pos (run ++ a :: l) = some (a, pos + run.length) := by
  induction run generalizing pos with
  | nil =>
    rw [List.nil_append, scanBelow, ha]
    rfl
  | cons b run ih =>
    have hb : p b = true := hRun b List.mem_cons_self
    rw [List.length_cons] at hBelow
    have hNext : pos + 1 < limit := by omega
    rw [List.cons_append, scanBelow, if_pos hb, if_pos hNext,
      ih (fun c hc => hRun c (List.mem_cons_of_mem b hc)) (by omega), List.length_cons,
      Nat.add_assoc, Nat.add_comm 1]

/-- A run that comes to the limit. -/
theorem scanBelow_none {limit : Nat} (hRun : ∀ b ∈ run, p b = true) (hNe : run ≠ [])
    (hLimit : limit ≤ pos + run.length) : scanBelow p limit pos (run ++ l) = none := by
  induction run generalizing pos with
  | nil => exact absurd rfl hNe
  | cons b run ih =>
    have hb : p b = true := hRun b List.mem_cons_self
    rw [List.cons_append, scanBelow, if_pos hb]
    rw [List.length_cons] at hLimit
    split_ifs with hNext
    · refine ih (fun c hc => hRun c (List.mem_cons_of_mem b hc)) ?_ (by omega)
      rintro rfl
      rw [List.length_nil] at hLimit
      omega
    · rfl

/-- The element behind the run may be the one that ends the text. -/
theorem scan_text (hRun : ∀ b ∈ run, p b = true) (hStops : Stops p post) (ha : p a = false) :
    scan p pos (run ++ (post ++ a :: l)) = some (post.headD a, pos + run.length) := by
  cases post with
  | nil => exact scan_append hRun ha
  | cons b post => exact scan_append hRun (hStops b rfl)

theorem scanBelow_text {limit : Nat} (hRun : ∀ b ∈ run, p b = true) (hStops : Stops p post)
    (ha : p a = false) (hBelow : pos + run.length < limit) :
    scanBelow p limit pos (run ++ (post ++ a :: l)) = some (post.headD a, pos + run.length) := by
  cases post with
  | nil => exact scanBelow_append hRun ha hBelow
  | cons b post => exact scanBelow_append hRun (hStops b rfl) hBelow

theorem exists_run (p : α → Bool) (l : List α) :
    ∃ run post, l = run ++ post ∧ (∀ b ∈ run, p b = true) ∧ Stops p post := by
  induction l with
  | nil => exact ⟨[], [], rfl, fun b hb => absurd hb List.not_mem_nil, fun b hb => nomatch hb⟩
  | cons a l ih =>
    by_cases ha : p a = true
    · rcases ih with ⟨run, post, rfl, hRun, hStops⟩
      exact ⟨a :: run, post, rfl, List.forall_mem_cons.mpr ⟨ha, hRun⟩, hStops⟩
    · refine ⟨[], a :: l, rfl, fun b hb => absurd hb List.not_mem_nil, fun b hb => ?_⟩
      obtain rfl : a = b := Option.some.inj hb
      exact Bool.eq_false_iff.mpr ha

end Lib
