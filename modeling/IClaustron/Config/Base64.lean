import IClaustron.Lib.Lines
import IClaustron.Lib.Result
import IClaustron.Protocol.Connection

/-!
# Config.Base64 — base64 text of a configuration

Model of protocol/ic_base64.c and of the part of rec_get_config_reply
(api/ic_apic_conf_read_proto.ic) that puts the received lines together. The encoder
ends a line after 19 quads and after the last quad; the decoder knows no line ends,
they are taken off by the receiver.

* `recConfig_encode` — the receiver hands over the quads of the text in order;
* `decode_quads` — decoding the quads gives the bytes that were encoded.
-/

namespace IClaustron.Config

open Lib Protocol List

/-! ## Model -/

/-- `decode_table`, from '+' (43) to 'z' (122): 64 stands for '=' and 65 for a byte
that is not used in base64. -/
def decodeTable : List UInt8 :=
  [62, 65, 65, 65, 63, 52, 53, 54, 55, 56, 57, 58, 59, 60, 61, 65, 65, 65, 64, 65,
   65, 65,  0,  1,  2,  3,  4,  5,  6,  7,  8,  9, 10, 11, 12, 13, 14, 15, 16, 17,
   18, 19, 20, 21, 22, 23, 24, 25, 65, 65, 65, 65, 65, 65, 26, 27, 28, 29, 30, 31,
   32, 33, 34, 35, 36, 37, 38, 39, 40, 41, 42, 43, 44, 45, 46, 47, 48, 49, 50, 51]

def encodeTable : List UInt8 :=
  [0x41, 0x42, 0x43, 0x44, 0x45, 0x46, 0x47, 0x48, 0x49, 0x4A, 0x4B, 0x4C, 0x4D, 0x4E, 0x4F, 0x50,
   0x51, 0x52, 0x53, 0x54, 0x55, 0x56, 0x57, 0x58, 0x59, 0x5A, 0x61, 0x62, 0x63, 0x64, 0x65, 0x66,
   0x67, 0x68, 0x69, 0x6A, 0x6B, 0x6C, 0x6D, 0x6E, 0x6F, 0x70, 0x71, 0x72, 0x73, 0x74, 0x75, 0x76,
   0x77, 0x78, 0x79, 0x7A, 0x30, 0x31, 0x32, 0x33, 0x34, 0x35, 0x36, 0x37, 0x38, 0x39, 0x2B, 0x2F]

/-- '=' -/
def padChar : UInt8 := 61

inductive Base64Error where
  /-- return code 1 -/
  | malformed
  /-- bytes outside of the source or the destination are used -/
  | outOfBounds
  deriving DecidableEq

/-- One source byte: its six bits and `conv_len` after it. -/
def decodeChar (convLen : Nat) (decChar : UInt8) : Except Base64Error (UInt8 × Nat) :=
  if decChar < 43 ∨ 122 < decChar then .error .malformed
  else
    let convChar := decodeTable.getD (decChar - 43).toNat 65
    if convChar = 65 then .error .malformed
    else if convChar = 64 then
      if convLen - 1 = 0 then .error .malformed else .ok (convChar &&& 63, convLen - 1)
    else .ok (convChar &&& 63, convLen)

/-- Four source bytes: the three bytes they are written as and `conv_len`. -/
def decodeQuad (c0 c1 c2 c3 : UInt8) : Except Base64Error (Bytes × Nat) := do
  let (d0, n) ← decodeChar 3 c0
  let (d1, n) ← decodeChar n c1
  let (d2, n) ← decodeChar n c2
  let (d3, n) ← decodeChar n c3
  return ([(d0 <<< 2) + (d1 >>> 4), ((d1 &&& 0xF) <<< 4) + (d2 >>> 2), ((d2 &&& 3) <<< 6) + d3], n)

/-- A quad that the end of the source cuts off: the bytes behind it are read too. -/
def decodeCutOff (convLen : Nat) : Bytes → Except Base64Error (Bytes × Nat)
  | [] => .error .outOfBounds
  | c :: cs => do
    let (_, convLen) ← decodeChar convLen c
    decodeCutOff convLen cs

/-- The loop of `ic_base64_decode`, with the bytes of the destination from the current
position on that are written and the sum of the `conv_len`. -/
def decodeLoop (destLen : Nat) : Nat → Bool → Bytes → Except Base64Error (Bytes × Nat)
  | _, _, [] => .ok ([], 0)
  | inx, last, c0 :: c1 :: c2 :: c3 :: src =>
    -- `decode_len != src_len` after the loop
    if destLen ≤ inx then .error .malformed
    else if last then .error .malformed
    else do
      let (dest, convLen) ← decodeQuad c0 c1 c2 c3
      if destLen < inx + 3 then throw .outOfBounds
      let (dests, totConvLen) ← decodeLoop destLen (inx + 3) (decide (convLen < 3)) src
      return (dest ++ dests, convLen + totConvLen)
  | inx, last, src =>
    if destLen ≤ inx then .error .malformed
    else if last then .error .malformed
    else decodeCutOff 3 src

/-- `ic_base64_decode`: the destination up to the length that is returned. -/
def base64Decode (destLen : Nat) (src : Bytes) : Except Base64Error Bytes := do
  let (dest, totConvLen) ← decodeLoop destLen 0 false src
  return dest.take totConvLen

/-- The character of six bits. -/
def encodeChar (c : UInt8) : UInt8 := encodeTable.getD c.toNat 0

/-- A quad of `ic_base64_encode`. -/
def encodeQuad (a b c : UInt8) : Bytes :=
  [encodeChar (a >>> 2), encodeChar (((a &&& 0x3) <<< 4) + (b >>> 4)),
   encodeChar (((b &&& 0xF) <<< 2) + (c >>> 6)), encodeChar (c &&& 0x3F)]

/-- The quad of one byte that is left over. -/
def encodeOne (a : UInt8) : Bytes :=
  [encodeChar (a >>> 2), encodeChar ((a &&& 0x3) <<< 4), padChar, padChar]

/-- The quad of two bytes that are left over. -/
def encodeTwo (a b : UInt8) : Bytes :=
  [encodeChar (a >>> 2), encodeChar (((a &&& 0x3) <<< 4) + (b >>> 4)),
   encodeChar ((b &&& 0xF) <<< 2), padChar]

/-- The loop of `ic_base64_encode` and what follows it, from `cr_count` on. -/
def encodeLoop : Nat → Bytes → Bytes
  | crCount, a :: b :: c :: src =>
    if crCount + 1 = 19 then encodeQuad a b c ++ carriageReturn :: encodeLoop 0 src
    else encodeQuad a b c ++ encodeLoop (crCount + 1) src
  | _, [a] => encodeOne a ++ [carriageReturn]
  | _, [a, b] => encodeTwo a b ++ [carriageReturn]
  | crCount, [] => if crCount ≠ 0 then [carriageReturn] else []

/-- `ic_base64_encode`, without the NUL byte behind the text. -/
def base64Encode (src : Bytes) : Bytes := encodeLoop 0 src

/-- CONFIG_LINE_LEN. -/
def configLineLen : Nat := 76

/-- RECEIVE_CONFIG_STATE of `rec_get_config_reply`: the text that is handed to
`translate_config`, or `none` when a line has a wrong length or none comes. -/
def recConfig (contentLength : Nat) (configBuf : Bytes) (recConfigSize : Nat) :
    List Bytes → Option Bytes
  | [] => none
  | line :: lines =>
    let configBuf := configBuf ++ line
    let recConfigSize := recConfigSize + (line.length + 1)
    if contentLength ≤ recConfigSize then some configBuf
    else if line.length ≠ configLineLen then none
    else recConfig contentLength configBuf recConfigSize lines

/-! ## Quads -/

/-! ### Bits of bytes -/

theorem toNat_and_mask (a : UInt8) {m : UInt8} (n : Nat) (h : m.toNat = 2 ^ n - 1) :
    (a &&& m).toNat = a.toNat % 2 ^ n := by
  rw [UInt8.toNat_and, h, Nat.and_two_pow_sub_one_eq_mod]

theorem toNat_shl (a : UInt8) {k : UInt8} (n : Nat) (h : k.toNat % 8 = n) :
    (a <<< k).toNat = a.toNat * 2 ^ n % 256 := by
  rw [UInt8.toNat_shiftLeft, h, Nat.shiftLeft_eq]

theorem toNat_shr (a : UInt8) {k : UInt8} (n : Nat) (h : k.toNat % 8 = n) :
    (a >>> k).toNat = a.toNat / 2 ^ n := by
  rw [UInt8.toNat_shiftRight, h, Nat.shiftRight_eq_div_pow]

theorem toNat_joinHigh (a b : UInt8) :
    (((a &&& 0x3) <<< 4) + (b >>> 4)).toNat = a.toNat % 4 * 16 + b.toNat / 16 := by
  have ha := a.toNat_lt
  have hb := b.toNat_lt
  rw [UInt8.toNat_add, toNat_shl _ 4 rfl, toNat_shr _ 4 rfl, toNat_and_mask a 2 rfl]
  omega

theorem toNat_joinLow (b c : UInt8) :
    (((b &&& 0xF) <<< 2) + (c >>> 6)).toNat = b.toNat % 16 * 4 + c.toNat / 64 := by
  have hb := b.toNat_lt
  have hc := c.toNat_lt
  rw [UInt8.toNat_add, toNat_shl _ 2 rfl, toNat_shr _ 6 rfl, toNat_and_mask b 4 rfl]
  omega

/-! ### Three bytes from four times six bits -/

variable {d0 d1 d2 d3 a b c : UInt8}

theorem byte0 (h0 : d0.toNat = a.toNat / 4) (h1 : d1.toNat / 16 = a.toNat % 4) :
    (d0 <<< 2) + (d1 >>> 4) = a := by
  have ha := a.toNat_lt
  apply UInt8.toNat.inj
  rw [UInt8.toNat_add, toNat_shl _ 2 rfl, toNat_shr _ 4 rfl]
  omega

theorem byte1 (h1 : d1.toNat % 16 = b.toNat / 16) (h2 : d2.toNat / 4 = b.toNat % 16) :
    ((d1 &&& 0xF) <<< 4) + (d2 >>> 2) = b := by
  have hb := b.toNat_lt
  apply UInt8.toNat.inj
  rw [UInt8.toNat_add, toNat_shl _ 4 rfl, toNat_shr _ 2 rfl, toNat_and_mask d1 4 rfl]
  omega

theorem byte2 (h2 : d2.toNat % 4 = c.toNat / 64) (h3 : d3.toNat = c.toNat % 64) :
    ((d2 &&& 3) <<< 6) + d3 = c := by
  have hc := c.toNat_lt
  apply UInt8.toNat.inj
  rw [UInt8.toNat_add, toNat_shl _ 6 rfl, toNat_and_mask d2 2 rfl]
  omega

/-! ### The tables are inverse to each other -/

theorem decodeTable_encodeTable : ∀ k : Fin 64,
    ¬(encodeTable.getD k 0 < 43 ∨ 122 < encodeTable.getD k 0) ∧
      decodeTable.getD (encodeTable.getD k 0 - 43).toNat 65 = UInt8.ofNat k := by
  decide

theorem decodeChar_encodeChar {c : UInt8} (h : c.toNat < 64) (convLen : Nat) :
    decodeChar convLen (encodeChar c) = .ok (c, convLen) := by
  obtain ⟨hRange, hTable⟩ := decodeTable_encodeTable ⟨c.toNat, h⟩
  have hc : UInt8.ofNat c.toNat = c := UInt8.ofNat_toNat
  have h65 : c ≠ 65 := by
    rintro rfl
    exact absurd h (by decide)
  have h64 : c ≠ 64 := by
    rintro rfl
    exact absurd h (by decide)
  have hMask : c &&& 63 = c := by
    apply UInt8.toNat.inj
    rw [UInt8.toNat_and]
    exact (Nat.and_two_pow_sub_one_eq_mod c.toNat 6).trans (Nat.mod_eq_of_lt h)
  unfold decodeChar encodeChar
  rw [if_neg hRange]
  simp only [hTable, hc, if_neg h65, if_neg h64, hMask]

theorem decodeChar_padChar {convLen : Nat} (h : 2 ≤ convLen) :
    decodeChar convLen padChar = .ok (0, convLen - 1) := by
  have h1 : convLen - 1 ≠ 0 := by omega
  show (if convLen - 1 = 0 then _ else _) = _
  rw [if_neg h1]
  rfl

/-! ### Decoding a quad -/

theorem decodeQuad_of_ok {c0 c1 c2 c3 : UInt8} {n0 n1 n2 n3 : Nat}
    (h0 : decodeChar 3 c0 = .ok (d0, n0)) (h1 : decodeChar n0 c1 = .ok (d1, n1))
    (h2 : decodeChar n1 c2 = .ok (d2, n2)) (h3 : decodeChar n2 c3 = .ok (d3, n3)) :
    decodeQuad c0 c1 c2 c3 =
      .ok ([(d0 <<< 2) + (d1 >>> 4), ((d1 &&& 0xF) <<< 4) + (d2 >>> 2), ((d2 &&& 3) <<< 6) + d3],
        n3) := by
  unfold decodeQuad
  simp only [Result.bind_of_ok h0, Result.bind_of_ok h1, Result.bind_of_ok h2,
    Result.bind_of_ok h3]
  rfl

theorem decodeQuad_three (a b c : UInt8) :
    decodeQuad (encodeChar (a >>> 2)) (encodeChar (((a &&& 0x3) <<< 4) + (b >>> 4)))
      (encodeChar (((b &&& 0xF) <<< 2) + (c >>> 6))) (encodeChar (c &&& 0x3F)) =
      .ok ([a, b, c], 3) := by
  have ha := a.toNat_lt
  have hb := b.toNat_lt
  have hc := c.toNat_lt
  have h0 : (a >>> 2).toNat = a.toNat / 4 := toNat_shr a 2 rfl
  have h1 := toNat_joinHigh a b
  have h2 := toNat_joinLow b c
  have h3 : (c &&& 0x3F).toNat = c.toNat % 64 := toNat_and_mask c 6 rfl
  rw [decodeQuad_of_ok (decodeChar_encodeChar (by omega) _) (decodeChar_encodeChar (by omega) _)
    (decodeChar_encodeChar (by omega) _) (decodeChar_encodeChar (by omega) _),
    byte0 h0 (by omega), @byte1 _ _ b (by omega) (by omega), byte2 (by omega) h3]

theorem decodeQuad_two (a b : UInt8) :
    ∃ x, decodeQuad (encodeChar (a >>> 2)) (encodeChar (((a &&& 0x3) <<< 4) + (b >>> 4)))
      (encodeChar ((b &&& 0xF) <<< 2)) padChar = .ok ([a, b, x], 2) := by
  have ha := a.toNat_lt
  have hb := b.toNat_lt
  have h0 : (a >>> 2).toNat = a.toNat / 4 := toNat_shr a 2 rfl
  have h1 := toNat_joinHigh a b
  have h2 : ((b &&& 0xF) <<< 2).toNat = b.toNat % 16 * 4 := by
    rw [toNat_shl _ 2 rfl, toNat_and_mask b 4 rfl]
    omega
  rw [decodeQuad_of_ok (decodeChar_encodeChar (by omega) _) (decodeChar_encodeChar (by omega) _)
    (decodeChar_encodeChar (by omega) _) (decodeChar_padChar (by omega)),
    byte0 h0 (by omega), @byte1 _ _ b (by omega) (by omega)]
  exact ⟨_, rfl⟩

theorem decodeQuad_one (a : UInt8) :
    ∃ x y, decodeQuad (encodeChar (a >>> 2)) (encodeChar ((a &&& 0x3) <<< 4)) padChar padChar =
      .ok ([a, x, y], 1) := by
  have ha := a.toNat_lt
  have h0 : (a >>> 2).toNat = a.toNat / 4 := toNat_shr a 2 rfl
  have h1 : ((a &&& 0x3) <<< 4).toNat = a.toNat % 4 * 16 := by
    rw [toNat_shl _ 4 rfl, toNat_and_mask a 2 rfl]
    omega
  rw [decodeQuad_of_ok (decodeChar_encodeChar (by omega) _) (decodeChar_encodeChar (by omega) _)
    (decodeChar_padChar (by omega)) (decodeChar_padChar (by omega)),
    byte0 h0 (by omega)]
  exact ⟨_, _, rfl⟩

/-! ## Decoding the text -/

/-- The quads of the text without the line ends. -/
def quads : Bytes → Bytes
  | a :: b :: c :: src => encodeQuad a b c ++ quads src
  | [a] => encodeOne a
  | [a, b] => encodeTwo a b
  | [] => []

theorem decodeLoop_nil (destLen inx : Nat) (last : Bool) :
    decodeLoop destLen inx last [] = .ok ([], 0) := by
  rw [decodeLoop]

theorem decodeLoop_quad {destLen inx convLen totConvLen : Nat} {c0 c1 c2 c3 : UInt8}
    {src dest dests : Bytes} (hRoom : inx + 3 ≤ destLen)
    (hQuad : decodeQuad c0 c1 c2 c3 = .ok (dest, convLen))
    (hLoop : decodeLoop destLen (inx + 3) (decide (convLen < 3)) src = .ok (dests, totConvLen)) :
    decodeLoop destLen inx false (c0 :: c1 :: c2 :: c3 :: src) =
      .ok (dest ++ dests, convLen + totConvLen) := by
  have hDone : ¬destLen ≤ inx := by omega
  have hFull : ¬destLen < inx + 3 := by omega
  rw [decodeLoop, if_neg hDone]
  simp only [Bool.false_eq_true, if_false, Result.bind_of_ok hQuad, if_neg hFull,
    Result.bind_of_ok hLoop]
  rfl

theorem decodeLoop_quads (destLen : Nat) (src : Bytes) : ∀ inx,
    inx + (src.length + 2) / 3 * 3 ≤ destLen →
    ∃ pad, decodeLoop destLen inx false (quads src) = .ok (src ++ pad, src.length) := by
  fun_induction quads src with
  | case1 a b c src ih =>
    intro inx hRoom
    simp only [length_cons] at hRoom
    obtain ⟨pad, hLoop⟩ := ih (inx + 3) (by omega)
    have hAll := decodeLoop_quad (by omega) (decodeQuad_three a b c) hLoop
    refine ⟨pad, hAll.trans ?_⟩
    rw [length_cons, length_cons, length_cons, Nat.add_comm]
    rfl
  | case2 a =>
    intro inx hRoom
    simp only [length_cons, length_nil] at hRoom
    obtain ⟨x, y, hQuad⟩ := decodeQuad_one a
    have hAll := decodeLoop_quad (show inx + 3 ≤ destLen by omega) hQuad (decodeLoop_nil _ _ _)
    exact ⟨[x, y], hAll⟩
  | case3 a b =>
    intro inx hRoom
    simp only [length_cons, length_nil] at hRoom
    obtain ⟨x, hQuad⟩ := decodeQuad_two a b
    have hAll := decodeLoop_quad (show inx + 3 ≤ destLen by omega) hQuad (decodeLoop_nil _ _ _)
    exact ⟨[x], hAll⟩
  | case4 =>
    intro inx hRoom
    exact ⟨[], decodeLoop_nil _ _ _⟩

theorem base64Decode_quads {destLen : Nat} {src : Bytes} (h : (src.length + 2) / 3 * 3 ≤ destLen) :
    base64Decode destLen (quads src) = .ok src := by
  obtain ⟨pad, hLoop⟩ := decodeLoop_quads destLen src 0 (by omega)
  unfold base64Decode
  simp only [Result.bind_of_ok hLoop]
  show Except.ok ((src ++ pad).take src.length) = .ok src
  rw [take_left]

theorem length_quads (src : Bytes) : (quads src).length = (src.length + 2) / 3 * 4 := by
  fun_induction quads src with
  | case1 a b c src ih =>
    rw [length_append, ih]
    simp only [encodeQuad, length_cons, length_nil]
    omega
  | case2 a => simp [encodeOne]
  | case3 a b => simp [encodeTwo]
  | case4 => rfl

/-! ## Lines of the text -/

theorem encodeChar_ne_carriageReturn (c : UInt8) : encodeChar c ≠ carriageReturn := by
  have hTable : ∀ k : Fin 64, encodeTable.getD k 0 ≠ carriageReturn := by decide
  by_cases h : c.toNat < 64
  · exact hTable ⟨c.toNat, h⟩
  · unfold encodeChar
    rw [getD_eq_getElem?_getD, getElem?_eq_none (Nat.le_of_not_lt h)]
    decide

theorem padChar_ne_carriageReturn : padChar ≠ carriageReturn := by decide

/-- What `encodeLoop` writes behind a line that has begun is a sequence of lines. -/
structure TextLines (text chars : Bytes) (ls : List Bytes) : Prop where
  unlines_eq : text = unlines carriageReturn ls
  flatten_eq : ls.flatten = chars
  noCr : ∀ l ∈ ls, carriageReturn ∉ l
  full : ∀ l ∈ ls.dropLast, l.length = configLineLen

theorem TextLines.line {line : Bytes} (h : carriageReturn ∉ line) :
    TextLines (line ++ [carriageReturn]) line [line] where
  unlines_eq := by simp
  flatten_eq := by simp
  noCr := by simpa using h
  full := by simp

theorem TextLines.cons {line text chars : Bytes} {ls : List Bytes}
    (h : TextLines text chars ls) (hLine : carriageReturn ∉ line)
    (hFull : line.length = configLineLen) :
    TextLines (line ++ carriageReturn :: text) (line ++ chars) (line :: ls) where
  unlines_eq := by rw [unlines_cons, h.unlines_eq]
  flatten_eq := by rw [flatten_cons, h.flatten_eq]
  noCr := by
    intro l hl
    rcases mem_cons.mp hl with rfl | hl
    · exact hLine
    · exact h.noCr l hl
  full := by
    intro l hl
    cases ls with
    | nil => exact absurd hl (by simp)
    | cons l' ls =>
      rw [dropLast_cons_cons] at hl
      rcases mem_cons.mp hl with rfl | hl
      · exact hFull
      · exact h.full l hl

theorem carriageReturn_notMem_encodeQuad (a b c : UInt8) : carriageReturn ∉ encodeQuad a b c := by
  simp [encodeQuad, (encodeChar_ne_carriageReturn _).symm]

theorem carriageReturn_notMem_encodeTwo (a b : UInt8) : carriageReturn ∉ encodeTwo a b := by
  simp [encodeTwo, (encodeChar_ne_carriageReturn _).symm, padChar_ne_carriageReturn.symm]

theorem carriageReturn_notMem_encodeOne (a : UInt8) : carriageReturn ∉ encodeOne a := by
  simp [encodeOne, (encodeChar_ne_carriageReturn _).symm, padChar_ne_carriageReturn.symm]

/-- `line` is what stands on the line that is not yet ended. -/
theorem encodeLoop_lines (crCount : Nat) (src : Bytes) : ∀ line : Bytes,
    crCount < 19 → line.length = 4 * crCount → carriageReturn ∉ line →
    ∃ ls, TextLines (line ++ encodeLoop crCount src) (line ++ quads src) ls := by
  fun_induction encodeLoop crCount src with
  | case1 crCount a b c src hFull ih =>
    intro line hCount hLine hNoCr
    obtain ⟨ls, h⟩ := ih [] (by decide) rfl not_mem_nil
    have hLine' : carriageReturn ∉ line ++ encodeQuad a b c := by
      simp [hNoCr, carriageReturn_notMem_encodeQuad]
    have hLen : (line ++ encodeQuad a b c).length = configLineLen := by
      simp only [encodeQuad, configLineLen, length_append, length_cons, length_nil]
      omega
    have hCons := h.cons hLine' hLen
    rw [nil_append, nil_append, append_assoc, append_assoc] at hCons
    exact ⟨_, hCons⟩
  | case2 crCount a b c src hMore ih =>
    intro line hCount hLine hNoCr
    have hLine' : carriageReturn ∉ line ++ encodeQuad a b c := by
      simp [hNoCr, carriageReturn_notMem_encodeQuad]
    have hLen : (line ++ encodeQuad a b c).length = 4 * (crCount + 1) := by
      simp only [encodeQuad, length_append, length_cons, length_nil]
      omega
    obtain ⟨ls, h⟩ := ih _ (by omega) hLen hLine'
    rw [append_assoc, append_assoc] at h
    exact ⟨ls, h⟩
  | case3 crCount a =>
    intro line hCount hLine hNoCr
    have hLine' : carriageReturn ∉ line ++ encodeOne a := by
      simp [hNoCr, carriageReturn_notMem_encodeOne]
    rw [← append_assoc]
    exact ⟨_, TextLines.line hLine'⟩
  | case4 crCount a b =>
    intro line hCount hLine hNoCr
    have hLine' : carriageReturn ∉ line ++ encodeTwo a b := by
      simp [hNoCr, carriageReturn_notMem_encodeTwo]
    rw [← append_assoc]
    exact ⟨_, TextLines.line hLine'⟩
  | case5 crCount hSome =>
    intro line hCount hLine hNoCr
    rw [quads, append_nil]
    exact ⟨_, TextLines.line hNoCr⟩
  | case6 crCount hNone =>
    intro line hCount hLine hNoCr
    have hZero : crCount = 0 := by simpa using hNone
    have hEmpty : line = [] := length_eq_zero_iff.mp (by omega)
    subst hEmpty
    exact ⟨[], rfl, rfl, by simp, by simp⟩

/-! ## Receiving the text -/

theorem recConfig_lines (contentLength : Nat) (ls : List Bytes) : ∀ configBuf recConfigSize,
    ls ≠ [] → (∀ l ∈ ls.dropLast, l.length = configLineLen) →
    contentLength = recConfigSize + (unlines carriageReturn ls).length →
    recConfig contentLength configBuf recConfigSize ls = some (configBuf ++ ls.flatten) := by
  induction ls with
  | nil =>
    intro _ _ hne
    exact absurd rfl hne
  | cons l ls ih =>
    intro configBuf recConfigSize _ hFull hLen
    rw [unlines_cons, length_append, length_cons] at hLen
    cases ls with
    | nil =>
      have hEnd : contentLength ≤ recConfigSize + (l.length + 1) := by
        rw [unlines_nil, length_nil] at hLen
        omega
      rw [recConfig, if_pos hEnd, flatten_cons, flatten_nil, append_nil]
    | cons l' ls =>
      rw [dropLast_cons_cons] at hFull
      -- the next line has at least its line end
      have hMore : ¬contentLength ≤ recConfigSize + (l.length + 1) := by
        rw [unlines_cons, length_append, length_cons] at hLen
        omega
      have hl := hFull l mem_cons_self
      rw [recConfig, if_neg hMore, if_neg (not_not.mpr hl),
        ih _ _ (cons_ne_nil _ _) (fun l hl => hFull l (mem_cons_of_mem _ hl)) (by omega),
        @List.flatten_cons _ l, append_assoc]

/-- The receiver gets the lines of the text and hands over its quads. -/
theorem recConfig_encode {src : Bytes} (h : src ≠ []) :
    recConfig (base64Encode src).length [] 0 (complete carriageReturn (base64Encode src)) =
      some (quads src) := by
  obtain ⟨ls, hLines⟩ := encodeLoop_lines 0 src [] (by decide) rfl not_mem_nil
  rw [nil_append, nil_append] at hLines
  have hne : ls ≠ [] := by
    rintro rfl
    have hLen := length_quads src
    rw [← hLines.flatten_eq] at hLen
    have hPos := length_pos_of_ne_nil h
    simp only [flatten_nil, length_nil] at hLen
    omega
  have hText : base64Encode src = unlines carriageReturn ls := hLines.unlines_eq
  have hComplete := complete_unlines_append hLines.noCr []
  rw [append_nil, complete_of_not_mem not_mem_nil, append_nil] at hComplete
  rw [hText, hComplete, recConfig_lines _ ls _ _ hne hLines.full (by omega), hLines.flatten_eq,
    nil_append]

end IClaustron.Config
