import Mathlib.Data.List.TakeDrop

/-!
# Lib.Overwrite — replacing a range of a sequence

`overwrite l pos data` is what `memcpy(l + pos, data, |data|)` leaves in `l`.
The lemmas say how it acts on a concatenation, which is how a copy that crosses
from one block into the next is reduced to copies inside the blocks.
-/

namespace Lib

open List

variable {α : Type*}

def overwrite (l : List α) (pos : Nat) (data : List α) : List α :=
  l.take pos ++ data ++ l.drop (pos + data.length)

@[simp] theorem overwrite_nil (l : List α) (pos : Nat) : overwrite l pos [] = l := by
  simp [overwrite]

variable {data l l₁ l₂ : List α} {pos : Nat}

theorem length_overwrite (h : pos + data.length ≤ l.length) :
    (overwrite l pos data).length = l.length := by
  simp only [overwrite, length_append, length_take, length_drop]
  omega

theorem getElem?_overwrite (h : pos ≤ l.length) (i : Nat) :
    (overwrite l pos data)[i]? =
      if pos ≤ i ∧ i < pos + data.length then data[i - pos]? else l[i]? := by
  have hTake : (l.take pos).length = pos := length_take_of_le h
  unfold overwrite
  split_ifs with hIn
  · rw [append_assoc, getElem?_append_right (by omega), hTake,
      getElem?_append_left (by omega)]
  · by_cases hBefore : i < pos
    · rw [append_assoc, getElem?_append_left (by omega), getElem?_take_of_lt hBefore]
    · have hLen : (l.take pos ++ data).length = pos + data.length := by
        rw [length_append, hTake]
      rw [getElem?_append_right (by omega), hLen, getElem?_drop]
      congr 1
      omega

/-- A range inside the first part of a concatenation. -/
theorem overwrite_append_left (h : pos + data.length ≤ l₁.length) :
    overwrite (l₁ ++ l₂) pos data = overwrite l₁ pos data ++ l₂ := by
  simp only [overwrite]
  rw [take_append_of_le_length (by omega), drop_append_of_le_length h]
  simp

/-- A range inside the second part of a concatenation. -/
theorem overwrite_append_right (h : l₁.length ≤ pos) :
    overwrite (l₁ ++ l₂) pos data = l₁ ++ overwrite l₂ (pos - l₁.length) data := by
  simp only [overwrite]
  rw [take_append, drop_append, take_of_length_le h,
    drop_of_length_le (by omega)]
  have hsub : pos + data.length - l₁.length = pos - l₁.length + data.length := by omega
  simp [hsub]

/-- A range that starts in the first part and goes on into the second one. -/
theorem overwrite_append_split (hpos : pos ≤ l₁.length) (hlen : l₁.length - pos ≤ data.length) :
    overwrite (l₁ ++ l₂) pos data =
      overwrite l₁ pos (data.take (l₁.length - pos)) ++
        overwrite l₂ 0 (data.drop (l₁.length - pos)) := by
  have htake : (data.take (l₁.length - pos)).length = l₁.length - pos := by
    rw [length_take]
    omega
  have hnext : pos + data.length - l₁.length = (data.drop (l₁.length - pos)).length := by
    rw [length_drop]
    omega
  have hend : l₁.drop (pos + data.length) = [] := drop_of_length_le (by omega)
  have hend' : l₁.drop (pos + (l₁.length - pos)) = [] := drop_of_length_le (by omega)
  simp only [overwrite, htake, hend']
  rw [take_append_of_le_length hpos, drop_append, hend, hnext]
  simp [← append_assoc (data.take _)]

/-- Writing at the end of what is used extends it. -/
theorem take_overwrite_end (h : pos ≤ l.length) :
    (overwrite l pos data).take (pos + data.length) = l.take pos ++ data := by
  have hlen : (l.take pos ++ data).length = pos + data.length := by
    rw [length_append, length_take]
    omega
  rw [overwrite, ← hlen, take_left']
  rfl

/-- A write below `n` acts on the first `n` elements alone. -/
theorem take_overwrite {n : Nat} (h : pos + data.length ≤ n) (hn : n ≤ l.length) :
    (overwrite l pos data).take n = overwrite (l.take n) pos data := by
  have hl : l = l.take n ++ l.drop n := (take_append_drop n l).symm
  have hlen : (l.take n).length = n := by
    rw [length_take]
    omega
  conv_lhs => rw [hl]
  rw [overwrite_append_left (by omega)]
  have hlen' : (overwrite (l.take n) pos data).length = n := by
    rw [length_overwrite (by omega), hlen]
  rw [take_append_of_le_length (by omega), take_of_length_le (by omega)]

/-- A write up to the end leaves the first `n` elements if and only if it writes what is there. -/
theorem take_overwrite_over_iff {n : Nat} (hPos : pos ≤ l.length) (hn : n ≤ l.length)
    (hOver : l.length ≤ pos + data.length) :
    (overwrite l pos (data.take (l.length - pos))).take n = l.take n ↔
      (l.take n).drop pos <+: data := by
  have hTake : (l.take pos).length = pos := length_take_of_le hPos
  have hData : (data.take (l.length - pos)).length = l.length - pos :=
    length_take_of_le (by omega)
  have hEnd : overwrite l pos (data.take (l.length - pos)) =
      l.take pos ++ data.take (l.length - pos) := by
    unfold overwrite
    rw [hData, drop_of_length_le (by omega), append_nil]
  rw [hEnd]
  rcases Nat.lt_or_ge pos n with hLt | hGe
  · have hLeft : (l.take pos ++ data.take (l.length - pos)).take n =
        l.take pos ++ data.take (n - pos) := by
      rw [take_append, hTake, take_of_length_le (by omega), take_take]
      congr 2
      omega
    have hRight : l.take n = l.take pos ++ (l.take n).drop pos := by
      have hSplit := take_append_drop pos (l.take n)
      rw [take_take, Nat.min_eq_left (Nat.le_of_lt hLt)] at hSplit
      exact hSplit.symm
    have hLength : ((l.take n).drop pos).length = n - pos := by
      rw [length_drop, length_take_of_le hn]
    rw [hLeft, prefix_iff_eq_take, hLength]
    constructor
    · intro hEq
      rw [hRight] at hEq
      exact (append_cancel_left hEq).symm
    · intro hEq
      rw [← hEq]
      exact hRight.symm
  · refine iff_of_true ?_ ?_
    · rw [take_append_of_le_length (by omega), take_take, Nat.min_eq_left hGe]
    · rw [drop_of_length_le (by rw [length_take_of_le hn]; exact hGe)]
      exact nil_prefix

end Lib
