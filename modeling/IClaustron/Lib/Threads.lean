import Mathlib.Data.List.Nodup

/-!
# Lib.Threads — counting the threads at a program point

The threads of a program are the list of their program points. These are the facts
about `countP` that such developments need: what a step of one thread does to a
count, what waking some of them does, and that a count of one singles out a thread.
-/

namespace Lib.Threads

open List

variable {π : Type*} {p : π → Bool} {l : List π} {i j : Nat} {a b : π}

/-- One thread moves from `a` to `b`. -/
theorem countP_set (h : l[i]? = some a) :
    (l.set i b).countP p + (if p a then 1 else 0) = l.countP p + (if p b then 1 else 0) := by
  induction l generalizing i with
  | nil => cases h
  | cons x l ih =>
    cases i with
    | zero =>
      cases h
      simp only [set_cons_zero, countP_cons]
      omega
    | succ i =>
      have hih := ih h
      simp only [set_cons_succ, countP_cons]
      omega

/-- Nobody comes to the program point. -/
theorem countP_mapIdx_le {f : Nat → π → π} (h : ∀ i a, p (f i a) = true → p a = true) :
    (l.mapIdx f).countP p ≤ l.countP p := by
  induction l generalizing f with
  | nil => simp
  | cons x l ih =>
    have hih : (l.mapIdx fun i => f (i + 1)).countP p ≤ l.countP p := ih fun i a => h (i + 1) a
    rw [mapIdx_cons, countP_cons, countP_cons]
    by_cases hx : p (f 0 x) = true
    · rw [if_pos hx, if_pos (h 0 x hx)]
      omega
    · rw [if_neg hx]
      omega

/-- Nobody comes to the program point, and thread `i` leaves it. -/
theorem countP_mapIdx_lt {f : Nat → π → π} (h : ∀ i a, p (f i a) = true → p a = true)
    (hi : l[i]? = some a) (ha : p a = true) (hleave : p (f i a) = false) :
    (l.mapIdx f).countP p + 1 ≤ l.countP p := by
  induction l generalizing f i with
  | nil => cases hi
  | cons x l ih =>
    rw [mapIdx_cons, countP_cons, countP_cons]
    cases i with
    | zero =>
      cases hi
      have hrest : (l.mapIdx fun i => f (i + 1)).countP p ≤ l.countP p :=
        countP_mapIdx_le fun i a => h (i + 1) a
      rw [hleave, if_pos ha, if_neg Bool.false_ne_true]
      omega
    | succ i =>
      have hih : (l.mapIdx fun i => f (i + 1)).countP p + 1 ≤ l.countP p :=
        ih (fun i a => h (i + 1) a) hi hleave
      by_cases hx : p (f 0 x) = true
      · rw [if_pos hx, if_pos (h 0 x hx)]
        omega
      · rw [if_neg hx]
        omega

theorem countP_pos_of_get (h : l[i]? = some a) (ha : p a = true) : 0 < l.countP p :=
  countP_pos_iff.mpr ⟨a, mem_of_getElem? h, ha⟩

/-- At most one thread is there. -/
theorem eq_of_countP_le_one (hcount : l.countP p ≤ 1) (hi : l[i]? = some a) (ha : p a = true)
    (hj : l[j]? = some b) (hb : p b = true) : i = j := by
  induction l generalizing i j with
  | nil => cases hi
  | cons x l ih =>
    rw [countP_cons] at hcount
    cases i with
    | zero =>
      cases j with
      | zero => rfl
      | succ j =>
        cases hi
        have hpos : 0 < l.countP p := countP_pos_of_get hj hb
        rw [if_pos ha] at hcount
        omega
    | succ i =>
      cases j with
      | zero =>
        cases hj
        have hpos : 0 < l.countP p := countP_pos_of_get hi ha
        rw [if_pos hb] at hcount
        omega
      | succ j => rw [ih (by omega) hi hj]

end Lib.Threads
