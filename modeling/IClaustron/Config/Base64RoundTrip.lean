import IClaustron.Config.Base64

/-!
# Config.Base64RoundTrip — the announced length of a base64 text

Model of the lengths of ic_base64_encode in protocol/ic_base64.c, which are computed in 32 bits
before the text is written, and of the assertion at its end.

* `encodeLength_eq` — below the limit the announced length is that of the text;
* `base64_round_trip` — lines of at most 76 characters fill it, and the text without its line
  ends is decoded to the bytes that were encoded.

Scope limits: the memory is there. The counters of ic_base64_decode stay below the lengths of the
source and of the destination, which have 32 bits.
-/

namespace IClaustron.Config

open Lib Protocol List

/-! ## Model -/

/-- `dst_len`. -/
def encodeLength (srcLen : UInt32) : UInt32 :=
  let realQuads := (srcLen + 2) / 3
  let noCrs := (realQuads + 18) / 19
  4 * realQuads + noCrs

/-- What `ic_base64_encode` leaves: the announced length, the size of the memory, and the bytes
that were written there. -/
structure Encoded where
  destLen : UInt32
  size : UInt32
  dest : Bytes

/-- `ic_base64_encode`. -/
def icBase64Encode (src : Bytes) : Encoded where
  destLen := encodeLength (UInt32.ofNat src.length)
  size := encodeLength (UInt32.ofNat src.length) + 1
  dest := base64Encode src ++ [0]

/-- `dst == end_dst`. -/
def Encoded.Asserted (e : Encoded) : Prop := e.dest.length = e.destLen.toNat + 1

/-! ## Lengths -/

/-- `real_quads`. -/
def realQuads (n : Nat) : Nat := (n + 2) / 3

theorem length_encodeLoop {crCount : Nat} (src : Bytes) (h : crCount < 19) :
    (encodeLoop crCount src).length =
      4 * realQuads src.length + (crCount + realQuads src.length + 18) / 19 := by
  unfold realQuads
  fun_induction encodeLoop crCount src with
  | case1 crCount a b c src hFull ih | case2 crCount a b c src hMore ih =>
    have hRest := ih (by omega)
    simp only [encodeQuad, length_append, length_cons, length_nil] at hRest ⊢
    omega
  | case3 crCount a =>
    simp only [encodeOne, length_append, length_cons, length_nil]
    omega
  | case4 crCount a b =>
    simp only [encodeTwo, length_append, length_cons, length_nil]
    omega
  | case5 crCount hSome =>
    simp only [length_cons, length_nil]
    omega
  | case6 crCount hNone =>
    have hZero : crCount = 0 := by simpa using hNone
    rw [hZero]
    rfl

theorem length_base64Encode (src : Bytes) : (base64Encode src).length =
    4 * realQuads src.length + (realQuads src.length + 18) / 19 := by
  have hLength := length_encodeLoop src (show 0 < 19 by decide)
  rwa [Nat.zero_add] at hLength

/-- No sum in `ic_base64_encode` overflows. -/
theorem encodeLength_eq {n : Nat} (h : 4 * realQuads n + realQuads n / 19 + 2 < 2 ^ 32) :
    (encodeLength (UInt32.ofNat n)).toNat = 4 * realQuads n + (realQuads n + 18) / 19 ∧
      (encodeLength (UInt32.ofNat n) + 1).toNat =
        4 * realQuads n + (realQuads n + 18) / 19 + 1 := by
  have hLen : n + 2 < 2 ^ 32 := by
    unfold realQuads at h
    omega
  have hSrc : (UInt32.ofNat n).toNat = n := UInt32.toNat_ofNat_of_lt' (by
    show n < 2 ^ 32
    omega)
  have hQuads : ((UInt32.ofNat n + 2) / 3).toNat = realQuads n := by
    rw [UInt32.toNat_div, UInt32.toNat_add, hSrc]
    show (n + 2) % 2 ^ 32 / 3 = _
    rw [Nat.mod_eq_of_lt hLen]
    rfl
  have hCrs : (((UInt32.ofNat n + 2) / 3 + 18) / 19).toNat = (realQuads n + 18) / 19 := by
    rw [UInt32.toNat_div, UInt32.toNat_add, hQuads]
    show (realQuads n + 18) % 2 ^ 32 / 19 = _
    rw [Nat.mod_eq_of_lt (by omega)]
  have hAll : (encodeLength (UInt32.ofNat n)).toNat =
      4 * realQuads n + (realQuads n + 18) / 19 := by
    unfold encodeLength
    rw [UInt32.toNat_add, UInt32.toNat_mul, hQuads, hCrs]
    show (4 * realQuads n % 2 ^ 32 + (realQuads n + 18) / 19) % 2 ^ 32 = _
    omega
  constructor
  · exact hAll
  · rw [UInt32.toNat_add, hAll]
    show (_ + 1) % 2 ^ 32 = _
    omega

/-! ## Lines -/

/-- Lines that are full but for the last one. -/
theorem length_flatten_of_full {n : Nat} {ls : List Bytes} (hNe : ls ≠ [])
    (hFull : ∀ l ∈ ls.dropLast, l.length = n) :
    ls.flatten.length = n * (ls.length - 1) + (ls.getLast hNe).length := by
  have hSum : (ls.dropLast.map List.length).sum = n * ls.dropLast.length := by
    rw [map_congr_left hFull, map_const', sum_replicate_nat, Nat.mul_comm]
  have hSplit := dropLast_append_getLast hNe
  rw [length_dropLast] at hSum
  calc ls.flatten.length = (ls.dropLast ++ [ls.getLast hNe]).flatten.length := by rw [hSplit]
    _ = n * (ls.length - 1) + (ls.getLast hNe).length := by
      rw [flatten_append, length_append, length_flatten, hSum]
      simp

/-- The lines of the text, the last one included, have room for 19 quads. -/
theorem line_le {x : Bytes} {ls : List Bytes} (h : TextLines (base64Encode x) (quads x) ls) :
    ∀ l ∈ ls, l.length ≤ configLineLen := by
  have hText : (base64Encode x).length = ls.flatten.length + ls.length := by
    rw [h.unlines_eq, length_unlines]
  have hQuads : ls.flatten.length = 4 * realQuads x.length := by
    rw [h.flatten_eq, length_quads, Nat.mul_comm]
    rfl
  rw [length_base64Encode] at hText
  intro l hl
  have hNe : ls ≠ [] := ne_nil_of_mem hl
  have hLast := length_flatten_of_full hNe h.full
  rw [← dropLast_append_getLast hNe, mem_append, mem_singleton] at hl
  rcases hl with hl | rfl
  · exact Nat.le_of_eq (h.full l hl)
  · unfold configLineLen at hLast ⊢
    omega

/-! ## Round trip -/

theorem base64_round_trip (x : Bytes)
    (h : 4 * realQuads x.length + realQuads x.length / 19 + 2 < 2 ^ 32) :
    (icBase64Encode x).Asserted ∧
      (icBase64Encode x).dest.length = (icBase64Encode x).size.toNat ∧
      ∃ text ls, (icBase64Encode x).dest = text ++ [0] ∧
        text.length = (icBase64Encode x).destLen.toNat ∧
        text = unlines carriageReturn ls ∧
        (∀ l ∈ ls, l.length ≤ 76 ∧ carriageReturn ∉ l) ∧
        ∀ chars, chars = text.filter (· ≠ carriageReturn) →
          base64Decode (3 * chars.length / 4) chars = .ok x := by
  obtain ⟨hLen, hSize⟩ := encodeLength_eq h
  obtain ⟨ls, hLines⟩ := encodeLoop_lines 0 x [] (by decide) rfl List.not_mem_nil
  rw [List.nil_append, List.nil_append] at hLines
  have hText := length_base64Encode x
  have hDest : (icBase64Encode x).dest.length = (base64Encode x).length + 1 := by
    simp [icBase64Encode]
  refine ⟨?_, ?_, base64Encode x, ls, rfl, ?_, hLines.unlines_eq, ?_, ?_⟩
  · rw [Encoded.Asserted, hDest, hText]
    exact congrArg (· + 1) hLen.symm
  · rw [hDest, hText]
    exact hSize.symm
  · rw [hText]
    exact hLen.symm
  · intro l hl
    constructor
    · exact line_le hLines l hl
    · exact hLines.noCr l hl
  · intro chars hChars
    have hQuads : chars = quads x := by
      rw [hChars, base64Encode, hLines.unlines_eq, filter_unlines hLines.noCr, hLines.flatten_eq]
    rw [hQuads]
    apply base64Decode_quads
    rw [length_quads]
    omega

theorem base64_round_trip_hello : base64Decode 6 (quads [104, 101, 108, 108, 111]) =
    .ok [104, 101, 108, 108, 111] := by
  obtain ⟨hAsserted, hSize, text, ls, hDest, hLen, hLines, hLe, hDecode⟩ :=
    base64_round_trip [104, 101, 108, 108, 111] (by decide)
  have hText : text = base64Encode [104, 101, 108, 108, 111] :=
    (List.append_cancel_right hDest).symm
  exact hDecode (quads [104, 101, 108, 108, 111]) (by rw [hText]; decide)

end IClaustron.Config
