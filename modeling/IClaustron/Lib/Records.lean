import IClaustron.Lib.Overwrite
import Mathlib.Tactic.Ring

/-!
# Lib.Records — arrays of words in a byte string

Words of `w` bytes are stored one after the other, the low byte first. Reading
and overwriting the bytes of one record is reading and setting one element of
the array of words.
-/

namespace Lib

/-- The `w` low bytes of a number, the lowest first. -/
def toBytes : Nat → Nat → List UInt8
  | 0, _ => []
  | w + 1, v => UInt8.ofNat v :: toBytes w (v / 256)

def ofBytes : List UInt8 → Nat
  | [] => 0
  | b :: bs => b.toNat + 256 * ofBytes bs

@[simp] theorem length_toBytes (w v : Nat) : (toBytes w v).length = w := by
  induction w generalizing v with
  | zero => rfl
  | succ w ih => simp [toBytes, ih]

theorem ofBytes_toBytes (w v : Nat) : ofBytes (toBytes w v) = v % 256 ^ w := by
  induction w generalizing v with
  | zero => simp [toBytes, ofBytes, Nat.mod_one]
  | succ w ih =>
    have hlow : (UInt8.ofNat v).toNat = v % 256 := UInt8.toNat_ofNat'
    rw [toBytes, ofBytes, ih, hlow, Nat.pow_succ, Nat.mul_comm (256 ^ w), Nat.mod_mul]

/-- The byte string of an array of words. -/
def encodeAll (w : Nat) (vs : List Nat) : List UInt8 := vs.flatMap (toBytes w)

@[simp] theorem encodeAll_nil (w : Nat) : encodeAll w [] = [] := rfl

@[simp] theorem encodeAll_cons (w v : Nat) (vs : List Nat) :
    encodeAll w (v :: vs) = toBytes w v ++ encodeAll w vs := rfl

theorem encodeAll_append (w : Nat) (us vs : List Nat) :
    encodeAll w (us ++ vs) = encodeAll w us ++ encodeAll w vs := by
  simp [encodeAll]

@[simp] theorem length_encodeAll (w : Nat) (vs : List Nat) :
    (encodeAll w vs).length = w * vs.length := by
  induction vs with
  | nil => simp
  | cons v vs ih =>
    rw [encodeAll_cons, List.length_append, ih, length_toBytes, List.length_cons]
    ring

/-- The bytes of one record. -/
theorem take_drop_encodeAll {w i v : Nat} {vs : List Nat} (h : vs[i]? = some v) :
    ((encodeAll w vs).drop (w * i)).take w = toBytes w v := by
  induction vs generalizing i with
  | nil => simp at h
  | cons u us ih =>
    cases i with
    | zero =>
      simp only [List.getElem?_cons_zero, Option.some.injEq] at h
      subst h
      simp
    | succ i =>
      rw [List.getElem?_cons_succ] at h
      have hlen : (toBytes w u).length ≤ w * (i + 1) := by
        rw [length_toBytes, Nat.mul_succ]
        exact Nat.le_add_left _ _
      have hidx : w * (i + 1) - (toBytes w u).length = w * i := by
        rw [length_toBytes, Nat.mul_succ, Nat.add_sub_cancel]
      rw [encodeAll_cons, List.drop_append, List.drop_of_length_le hlen, List.nil_append, hidx, ih h]

/-- Overwriting the bytes of one record. -/
theorem overwrite_encodeAll {w i v : Nat} {vs : List Nat} (h : i < vs.length) :
    overwrite (encodeAll w vs) (w * i) (toBytes w v) = encodeAll w (vs.set i v) := by
  induction vs generalizing i with
  | nil => simp at h
  | cons u us ih =>
    cases i with
    | zero => simp [overwrite]
    | succ i =>
      have hlen : (toBytes w u).length ≤ w * (i + 1) := by
        rw [length_toBytes, Nat.mul_succ]
        exact Nat.le_add_left _ _
      have hidx : w * (i + 1) - (toBytes w u).length = w * i := by
        rw [length_toBytes, Nat.mul_succ, Nat.add_sub_cancel]
      rw [encodeAll_cons, overwrite_append_right hlen, hidx, ih (by simpa using h), List.set_cons_succ,
        encodeAll_cons]

end Lib
