import IClaustron.Lib.Words
import Mathlib.Data.Nat.Bitwise

/-!
# Lib.Fields — bit fields of 32-bit words

* `pack_read` — each field is read back.
* `shiftLeft_or` — fields that do not overlap add up.
* `toNat_field` — a shift and a mask read the field.
* `swapBytes_swapBytes` — twice the other byte order is the word.
-/

namespace Lib

/-! ## Layout -/

/-- The number with these fields, each given by its width and its value. -/
def pack : List (Nat × Nat) → Nat
  | [] => 0
  | (width, value) :: fields => value + 2 ^ width * pack fields

/-- The first bit of the field `i`. -/
def offset (fields : List (Nat × Nat)) (i : Nat) : Nat := ((fields.take i).map Prod.fst).sum

theorem pack_read {fields : List (Nat × Nat)} (hFits : ∀ f ∈ fields, f.2 < 2 ^ f.1) {i : Nat}
    (hi : i < fields.length) :
    pack fields / 2 ^ offset fields i % 2 ^ fields[i].1 = fields[i].2 := by
  induction fields generalizing i with
  | nil => simp at hi
  | cons f fields ih =>
    obtain ⟨width, value⟩ := f
    have hValue : value < 2 ^ width := hFits (width, value) (by simp)
    cases i with
    | zero => simp [pack, offset, Nat.mod_eq_of_lt hValue]
    | succ i =>
      have hRest := ih (fun f hf => hFits f (by simp [hf])) (i := i) (by simpa using hi)
      have hDiv : (value + 2 ^ width * pack fields) / 2 ^ width = pack fields := by
        rw [Nat.add_mul_div_left _ _ (Nat.two_pow_pos width), Nat.div_eq_of_lt hValue,
          Nat.zero_add]
      have hOffset : offset ((width, value) :: fields) (i + 1) = width + offset fields i := by
        simp [offset]
      rw [pack, hOffset, Nat.pow_add, ← Nat.div_div_eq_div_mul, hDiv]
      exact hRest

/-! ## Writing -/

/-- Fields that do not overlap: the bits above `i` and a number below them. -/
theorem shiftLeft_or (a : Nat) {i b : Nat} (h : b < 2 ^ i) : a <<< i ||| b = a * 2 ^ i + b := by
  rw [← Nat.shiftLeft_add_eq_or_of_lt h, Nat.shiftLeft_eq]

theorem toNat_shiftLeft_fits (a k : UInt32) {n : Nat} (hk : k.toNat = n) (hn : n < 32)
    (h : a.toNat * 2 ^ n < 2 ^ 32) : (a <<< k).toNat = a.toNat <<< n := by
  rw [UInt32.toNat_shiftLeft, hk, Nat.mod_eq_of_lt hn, Nat.mod_eq_of_lt]
  rwa [Nat.shiftLeft_eq]

/-! ## Reading -/

theorem toNat_field (w k mask : UInt32) {n m : Nat} (hk : k.toNat = n) (hn : n < 32)
    (hMask : mask.toNat = 2 ^ m - 1) : ((w >>> k) &&& mask).toNat = w.toNat / 2 ^ n % 2 ^ m := by
  rw [UInt32.toNat_and, UInt32.toNat_shiftRight, hk, Nat.mod_eq_of_lt hn, hMask,
    Nat.and_two_pow_sub_one_eq_mod, Nat.shiftRight_eq_div_pow]

theorem toNat_and_low (w mask : UInt32) {m : Nat} (hMask : mask.toNat = 2 ^ m - 1) :
    (w &&& mask).toNat = w.toNat % 2 ^ m := by
  rw [UInt32.toNat_and, hMask, Nat.and_two_pow_sub_one_eq_mod]

theorem toNat_and_bit (w mask : UInt32) {n : Nat} (hMask : mask.toNat = 2 ^ n) :
    (w &&& mask).toNat = w.toNat / 2 ^ n % 2 * 2 ^ n := by
  have hAnd := Nat.and_two_pow w.toNat n
  rw [Nat.testBit_eq_decide_div_mod_eq] at hAnd
  rw [UInt32.toNat_and, hMask, hAnd]
  rcases Nat.mod_two_eq_zero_or_one (w.toNat / 2 ^ n) with h0 | h1
  · simp [h0]
  · simp [h1]

/-- A bit that is tested with a mask. -/
theorem flag_eq (w mask : UInt32) {n : Nat} (hMask : mask.toNat = 2 ^ n) :
    (w &&& mask != 0) = decide (w.toNat / 2 ^ n % 2 = 1) := by
  have hBit := toNat_and_bit w mask hMask
  have hPos : 0 < 2 ^ n := Nat.two_pow_pos n
  rcases Nat.mod_two_eq_zero_or_one (w.toNat / 2 ^ n) with h0 | h1
  · have hZero : w &&& mask = 0 := by
      apply UInt32.toNat_inj.mp
      rw [hBit, h0, Nat.zero_mul]
      rfl
    simp [hZero, h0]
  · have hNonzero : w &&& mask ≠ 0 := by
      intro hZero
      rw [hZero, h1, Nat.one_mul] at hBit
      exact hPos.ne hBit
    simp [hNonzero, h1]

/-! ## Byte order -/

theorem toNat_bytesWord (a b c d : UInt8) :
    (bytesWord a b c d).toNat = ((a.toNat * 256 + b.toNat) * 256 + c.toNat) * 256 + d.toNat := by
  have ha := a.toNat_lt
  have hb := b.toNat_lt
  have hc := c.toNat_lt
  have hd := d.toNat_lt
  refine UInt32.toNat_ofNat_of_lt' ?_
  show _ < 2 ^ 32
  omega

/-- The word with its bytes in the other order. -/
def swapBytes (w : UInt32) : UInt32 :=
  bytesWord w.toUInt8 (w >>> 8).toUInt8 (w >>> 16).toUInt8 (w >>> 24).toUInt8

theorem toNat_swapBytes (w : UInt32) :
    (swapBytes w).toNat = ((w.toNat % 256 * 256 + w.toNat / 2 ^ 8 % 256) * 256 +
      w.toNat / 2 ^ 16 % 256) * 256 + w.toNat / 2 ^ 24 % 256 := by
  have h24 := toNat_shiftRight_toUInt8 w (k := 24) 24 rfl
  have h16 := toNat_shiftRight_toUInt8 w (k := 16) 16 rfl
  have h8 := toNat_shiftRight_toUInt8 w (k := 8) 8 rfl
  rw [swapBytes, toNat_bytesWord, h24, h16, h8, UInt32.toNat_toUInt8]

/-- The bytes of a number that is put together from bytes. -/
theorem bytes_of_sum {a b c d : Nat} (ha : a < 256) (hb : b < 256) (hc : c < 256) (hd : d < 256) :
    (((a * 256 + b) * 256 + c) * 256 + d) % 256 = d ∧
      (((a * 256 + b) * 256 + c) * 256 + d) / 2 ^ 8 % 256 = c ∧
      (((a * 256 + b) * 256 + c) * 256 + d) / 2 ^ 16 % 256 = b ∧
      (((a * 256 + b) * 256 + c) * 256 + d) / 2 ^ 24 % 256 = a := by
  refine ⟨?_, ?_, ?_, ?_⟩
  all_goals omega

@[simp] theorem swapBytes_swapBytes (w : UInt32) : swapBytes (swapBytes w) = w := by
  have hw := w.toNat_lt
  have hPos : 0 < 256 := by decide
  have hSum : ((w.toNat / 2 ^ 24 % 256 * 256 + w.toNat / 2 ^ 16 % 256) * 256
      + w.toNat / 2 ^ 8 % 256) * 256 + w.toNat % 256 = w.toNat := by
    omega
  obtain ⟨h0, h8, h16, h24⟩ := bytes_of_sum (Nat.mod_lt w.toNat hPos)
    (Nat.mod_lt (w.toNat / 2 ^ 8) hPos) (Nat.mod_lt (w.toNat / 2 ^ 16) hPos)
    (Nat.mod_lt (w.toNat / 2 ^ 24) hPos)
  apply UInt32.toNat_inj.mp
  rw [toNat_swapBytes, toNat_swapBytes w, h0, h8, h16, h24, hSum]

end Lib
