import Mathlib.Algebra.Ring.Nat
import Mathlib.Data.List.Basic

/-!
# Lib.Words — 32-bit words in network byte order

`bytesOfWords` is the memory of an array of words that are stored with htonl,
`wordsOfBytes` are the words that ntohl reads from it.

* `wordsOfBytes_bytesOfWords` — the words are read back.
-/

namespace Lib

def wordBytes (w : UInt32) : List UInt8 :=
  [(w >>> 24).toUInt8, (w >>> 16).toUInt8, (w >>> 8).toUInt8, w.toUInt8]

def bytesWord (a b c d : UInt8) : UInt32 :=
  UInt32.ofNat (((a.toNat * 256 + b.toNat) * 256 + c.toNat) * 256 + d.toNat)

def bytesOfWords (ws : List UInt32) : List UInt8 := ws.flatMap wordBytes

/-- The complete words of a memory. -/
def wordsOfBytes : List UInt8 → List UInt32
  | a :: b :: c :: d :: bytes => bytesWord a b c d :: wordsOfBytes bytes
  | _ => []

@[simp] theorem bytesOfWords_cons (w : UInt32) (ws : List UInt32) :
    bytesOfWords (w :: ws) = wordBytes w ++ bytesOfWords ws := by
  simp [bytesOfWords]

theorem length_wordsOfBytes (bytes : List UInt8) : (wordsOfBytes bytes).length = bytes.length / 4 := by
  fun_induction wordsOfBytes bytes with
  | case1 a b c d bytes ih =>
    simp only [List.length_cons, ih]
    omega
  | case2 bytes hShort =>
    have hLen : bytes.length < 4 := by
      match bytes with
      | [] => simp
      | [_] => simp
      | [_, _] => simp
      | [_, _, _] => simp
      | a :: b :: c :: d :: rest => exact absurd rfl (hShort a b c d rest)
    rw [List.length_nil]
    omega

theorem toNat_shiftRight_toUInt8 (w : UInt32) {k : UInt32} (n : Nat) (h : k.toNat % 32 = n) :
    (w >>> k).toUInt8.toNat = w.toNat / 2 ^ n % 256 := by
  rw [UInt32.toNat_toUInt8, UInt32.toNat_shiftRight, h, Nat.shiftRight_eq_div_pow]

theorem bytesWord_wordBytes (w : UInt32) :
    bytesWord (w >>> 24).toUInt8 (w >>> 16).toUInt8 (w >>> 8).toUInt8 w.toUInt8 = w := by
  have hw := w.toNat_lt
  have h0 : w.toUInt8.toNat = w.toNat % 256 := UInt32.toNat_toUInt8 w
  have hSum : ((w.toNat / 2 ^ 24 % 256 * 256 + w.toNat / 2 ^ 16 % 256) * 256
      + w.toNat / 2 ^ 8 % 256) * 256 + w.toNat % 256 = w.toNat := by
    omega
  unfold bytesWord
  rw [toNat_shiftRight_toUInt8 w 24 rfl, toNat_shiftRight_toUInt8 w 16 rfl,
    toNat_shiftRight_toUInt8 w 8 rfl, h0, hSum, UInt32.ofNat_toNat]

theorem wordsOfBytes_bytesOfWords (ws : List UInt32) : wordsOfBytes (bytesOfWords ws) = ws := by
  induction ws with
  | nil => rfl
  | cons w ws ih =>
    rw [bytesOfWords_cons, wordBytes, List.cons_append, List.cons_append, List.cons_append,
      List.cons_append, List.nil_append, wordsOfBytes, bytesWord_wordBytes, ih]

end Lib
