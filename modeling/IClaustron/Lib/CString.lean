import Mathlib.Data.List.Basic

/-!
# Lib.CString — strings with a NUL byte in a memory of bytes

* `holdsString_store` — a string that was written is there.
* `HoldsString.frame` — it stays as long as its bytes do.
* `HoldsString.unique` — there is one string at a place.
-/

namespace Lib

/-! ## Bytes -/

abbrev ByteMemory := Nat → UInt8

/-- The memory with these bytes from `p` on. -/
def ByteMemory.store (m : ByteMemory) (p : Nat) (bytes : List UInt8) : ByteMemory := fun j =>
  if p ≤ j then bytes[j - p]?.getD (m j) else m j

variable {p : Nat} {m : ByteMemory} {s : List UInt8}

theorem ByteMemory.store_outside (m : ByteMemory) {j : Nat} {bytes : List UInt8}
    (h : j < p ∨ p + bytes.length ≤ j) : m.store p bytes j = m j := by
  rw [store]
  rcases h with hBefore | hBehind
  · rw [if_neg (by omega)]
  · rw [if_pos (by omega), List.getElem?_eq_none (by omega), Option.getD_none]

theorem ByteMemory.store_inside (m : ByteMemory) {i : Nat} {bytes : List UInt8}
    (h : i < bytes.length) : m.store p bytes (p + i) = bytes[i] := by
  rw [store, if_pos (Nat.le_add_right p i), Nat.add_sub_cancel_left,
    List.getElem?_eq_getElem h, Option.getD_some]

/-! ## Strings -/

/-- The string `s` stands at `p`, with a NUL byte behind it. -/
structure HoldsString (m : ByteMemory) (p : Nat) (s : List UInt8) : Prop where
  bytes : ∀ i (h : i < s.length), m (p + i) = s[i]
  terminated : m (p + s.length) = 0

theorem holdsString_store (m : ByteMemory) (p : Nat) (s : List UInt8) :
    HoldsString (m.store p (s ++ [0])) p s where
  bytes i h := by
    rw [ByteMemory.store_inside m (by rw [List.length_append]; omega),
      List.getElem_append_left h]
  terminated := by
    rw [ByteMemory.store_inside m (by rw [List.length_append, List.length_singleton]; omega),
      List.getElem_append_right (Nat.le_refl _)]
    simp

theorem HoldsString.frame {m' : ByteMemory} (h : HoldsString m p s)
    (hSame : ∀ j, p ≤ j → j ≤ p + s.length → m' j = m j) : HoldsString m' p s where
  bytes i hi := by
    rw [hSame (p + i) (Nat.le_add_right p i) (by omega), h.bytes i hi]
  terminated := by
    rw [hSame (p + s.length) (Nat.le_add_right p _) (Nat.le_refl _), h.terminated]

theorem HoldsString.length_le {s' : List UInt8} (h : HoldsString m p s) (h' : HoldsString m p s')
    (hNul : 0 ∉ s) : s.length ≤ s'.length := by
  by_contra hLonger
  have hLt : s'.length < s.length := by omega
  have hZero : s[s'.length] = 0 := (h.bytes s'.length hLt).symm.trans h'.terminated
  exact hNul (hZero ▸ List.getElem_mem hLt)

theorem HoldsString.unique {s' : List UInt8} (h : HoldsString m p s) (h' : HoldsString m p s')
    (hNul : 0 ∉ s) (hNul' : 0 ∉ s') : s = s' := by
  have hLength : s.length = s'.length :=
    Nat.le_antisymm (h.length_le h' hNul) (h'.length_le h hNul')
  refine List.ext_getElem hLength fun i hi hi' => ?_
  rw [← h.bytes i hi, ← h'.bytes i hi']

end Lib
