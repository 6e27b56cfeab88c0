import IClaustron.Config.Base64
import IClaustron.Protocol.Messages

/-!
# Config.Base64Strict — which base64 texts are decoded

What ic_base64_decode of protocol/ic_base64.c does with any source and any destination. It takes
a text apart quad by quad, counts the '=' in a quad without a look at their places, and checks the
ends of the source and of the destination between quads only.

* `strict_iff` — when the decoder stays inside of both buffers and accepts canonical texts only.

Scope limits: `inx` and `decode_len` do not pass 2 ^ 32, as both buffers are shorter.
-/

namespace IClaustron.Config

open Lib Protocol List Result

/-! ## Canonical texts -/

/-- The six bits of a character; '=' stands for no bits. -/
def sixBits (c : UInt8) : Nat := if c = padChar then 0 else encodeTable.idxOf c

/-- The bytes of the 24 bits of four characters. -/
def threeBytes (c0 c1 c2 c3 : UInt8) : Bytes :=
  let bits := ((sixBits c0 * 64 + sixBits c1) * 64 + sixBits c2) * 64 + sixBits c3
  [UInt8.ofNat (bits / 65536), UInt8.ofNat (bits / 256), UInt8.ofNat bits]

def textBytes : Bytes → Bytes
  | c0 :: c1 :: c2 :: c3 :: text => threeBytes c0 c1 c2 c3 ++ textBytes text
  | _ => []

/-- Characters of the alphabet, with `pads` times '=' behind them. -/
def PadsLast (text : Bytes) (pads : Nat) : Prop :=
  ∃ chars, text = chars ++ List.replicate pads padChar ∧ ∀ c ∈ chars, c ∈ encodeTable

/-- A text in quads that `dest` is encoded by. -/
structure CanonicalText (text dest : Bytes) (pads : Nat) : Prop where
  inQuads : text.length % 4 = 0
  padsLast : PadsLast text pads
  padsLe : pads ≤ 2
  destEq : dest = (textBytes text).take ((textBytes text).length - pads)

/-- No byte outside of the buffers is used, and what is accepted is canonical and fits. -/
def StrictlyDecoded (destLen : Nat) (src : Bytes) : Prop :=
  base64Decode destLen src ≠ .error .outOfBounds ∧
  ∀ dest, base64Decode destLen src = .ok dest →
    (∃ pads, CanonicalText src dest pads) ∧ dest.length ≤ destLen

/-- Characters among which the decoder finds no fault. -/
def Readable (chars : Bytes) : Prop :=
  (∀ c ∈ chars, c ∈ encodeTable ∨ c = padChar) ∧ chars.count padChar ≤ 2

/-- Nothing goes wrong with the next quad: if no fault is found in it, it is complete, there is
room for three bytes, and as the last quad it has its '=' at the end. -/
def NextQuad (destLen inx : Nat) (rest : Bytes) : Prop :=
  inx < destLen → rest ≠ [] → Readable (rest.take 4) →
    4 ≤ rest.length ∧ inx + 3 ≤ destLen ∧ (rest.length = 4 → ∃ pads, PadsLast rest pads)

/-- Nothing goes wrong with a quad that has only characters of the alphabet in front of it. -/
def SafeText (destLen inx : Nat) (src : Bytes) : Prop :=
  ∀ front rest, src = front ++ rest → front.length % 4 = 0 → (∀ c ∈ front, c ∈ encodeTable) →
    NextQuad destLen (inx + front.length / 4 * 3) rest

/-! ## Characters -/

/-- The decoder goes on behind `c`. -/
def Fits (convLen : Nat) (c : UInt8) : Prop := c ∈ encodeTable ∨ c = padChar ∧ 2 ≤ convLen

/-- `conv_len` behind `c`. -/
def convAfter (convLen : Nat) (c : UInt8) : Nat := if c = padChar then convLen - 1 else convLen

theorem padChar_notMem : padChar ∉ encodeTable := by decide

variable {c c0 c1 c2 c3 : UInt8} {src : Bytes} {last : Bool} {pads : Nat}

theorem sixBits_lt (h : c ∈ encodeTable ∨ c = padChar) : sixBits c < 64 := by
  unfold sixBits
  rcases h with h | h
  · have hLt := idxOf_lt_length_iff.mpr h
    split
    · decide
    · exact hLt
  · rw [if_pos h]
    decide

/-- Where the decoding table has six bits for a byte, it is their character. -/
theorem encodeTable_decodeTable : ∀ k : Fin 80, decodeTable.getD k 65 ≠ 65 →
    decodeTable.getD k 65 = 64 ∧ UInt8.ofNat (k + 43) = padChar ∨
      decodeTable.getD k 65 ≠ 64 ∧ UInt8.ofNat (k + 43) ∈ encodeTable := by
  decide

theorem decodeChar_mem (h : c ∈ encodeTable) (convLen : Nat) :
    decodeChar convLen c = .ok (UInt8.ofNat (sixBits c), convLen) := by
  have hLt : encodeTable.idxOf c < 64 := idxOf_lt_length_iff.mpr h
  have hSix : sixBits c = encodeTable.idxOf c := by
    unfold sixBits
    rw [if_neg]
    rintro rfl
    exact padChar_notMem h
  have hNat : (UInt8.ofNat (encodeTable.idxOf c)).toNat = encodeTable.idxOf c := by
    rw [UInt8.toNat_ofNat']
    exact Nat.mod_eq_of_lt (by omega)
  have hChar : encodeChar (UInt8.ofNat (encodeTable.idxOf c)) = c := by
    unfold encodeChar
    rw [hNat, getD_eq_getElem?_getD, getElem?_eq_getElem (idxOf_lt_length_iff.mpr h),
      Option.getD_some, getElem_idxOf]
  have hDecoded := decodeChar_encodeChar (c := UInt8.ofNat (encodeTable.idxOf c))
    (by rw [hNat]; exact hLt) convLen
  rwa [hChar, ← hSix] at hDecoded

/-- A byte that the decoder takes is in the alphabet, or '='. -/
theorem decodeChar_notMem (hChar : c ∉ encodeTable) (hPad : c ≠ padChar) (convLen : Nat) :
    decodeChar convLen c = .error .malformed := by
  unfold decodeChar
  by_cases hRange : c < 43 ∨ 122 < c
  · rw [if_pos hRange]
  rw [if_neg hRange]
  have hBounds : 43 ≤ c.toNat ∧ c.toNat ≤ 122 := by
    simpa [not_or, UInt8.lt_iff_toNat_lt] using hRange
  have hIndex : (c - 43).toNat = c.toNat - 43 :=
    UInt8.toNat_sub_of_le _ _ (UInt8.le_iff_toNat_le.mpr hBounds.1)
  have hBack : UInt8.ofNat ((c - 43).toNat + 43) = c := by
    rw [hIndex, Nat.sub_add_cancel hBounds.1, UInt8.ofNat_toNat]
  have hTable := encodeTable_decodeTable ⟨(c - 43).toNat, by omega⟩
  simp only [hBack] at hTable
  by_cases h65 : decodeTable.getD (c - 43).toNat 65 = 65
  · dsimp only
    rw [if_pos h65]
  · rcases hTable h65 with ⟨-, h⟩ | ⟨-, h⟩
    · exact absurd h hPad
    · exact absurd h hChar

theorem decodeChar_pos {convLen : Nat} (h : Fits convLen c) :
    decodeChar convLen c = .ok (UInt8.ofNat (sixBits c), convAfter convLen c) := by
  rcases h with h | ⟨rfl, h⟩
  · have hPad : c ≠ padChar := by
      rintro rfl
      exact padChar_notMem h
    rw [decodeChar_mem h, convAfter, if_neg hPad]
  · rw [decodeChar_padChar h]
    rfl

theorem decodeChar_neg {convLen : Nat} (h : ¬Fits convLen c) :
    decodeChar convLen c = .error .malformed := by
  rcases not_or.mp h with ⟨hChar, hPad⟩
  by_cases hIs : c = padChar
  · subst hIs
    have hLast : convLen - 1 = 0 := by
      have hLt : ¬2 ≤ convLen := fun hLe => hPad ⟨rfl, hLe⟩
      omega
    show (if convLen - 1 = 0 then _ else _) = _
    rw [if_pos hLast]
  · exact decodeChar_notMem hChar hIs convLen

/-- The decoder goes on behind each of the characters. -/
def AllFit : Nat → Bytes → Prop
  | _, [] => True
  | convLen, c :: cs => Fits convLen c ∧ AllFit (convAfter convLen c) cs

theorem allFit_iff (chars : Bytes) : ∀ convLen, 1 ≤ convLen →
    (AllFit convLen chars ↔
      (∀ c ∈ chars, c ∈ encodeTable ∨ c = padChar) ∧ chars.count padChar < convLen) := by
  induction chars with
  | nil =>
    intro convLen hPos
    exact iff_of_true trivial ⟨forall_mem_nil _, hPos⟩
  | cons c cs ih =>
    intro convLen hPos
    rw [forall_mem_cons, AllFit]
    by_cases hPad : c = padChar
    · subst hPad
      rw [count_cons_self, convAfter, if_pos rfl]
      constructor
      · rintro ⟨hFits, hRest⟩
        rcases hFits with h | ⟨-, h⟩
        · exact absurd h padChar_notMem
        have hAll := (ih _ (by omega)).mp hRest
        exact ⟨⟨.inr rfl, hAll.1⟩, by omega⟩
      · rintro ⟨⟨-, hAll⟩, hCount⟩
        exact ⟨.inr ⟨rfl, by omega⟩, (ih _ (by omega)).mpr ⟨hAll, by omega⟩⟩
    · rw [count_cons_of_ne hPad, convAfter, if_neg hPad, ih _ hPos]
      constructor
      · rintro ⟨hFits, hAll, hCount⟩
        exact ⟨⟨hFits.imp_right And.left, hAll⟩, hCount⟩
      · rintro ⟨⟨hFits, hAll⟩, hCount⟩
        exact ⟨.inl (hFits.resolve_right hPad), hAll, hCount⟩

theorem readable_iff (chars : Bytes) : Readable chars ↔ AllFit 3 chars := by
  rw [allFit_iff chars 3 (by decide), Readable, Nat.lt_succ_iff]

/-! ## Quads -/

/-- The three bytes that are written are those of the 24 bits. -/
theorem threeBytes_eq (h0 : sixBits c0 < 64) (h1 : sixBits c1 < 64) (h2 : sixBits c2 < 64)
    (h3 : sixBits c3 < 64) :
    [(UInt8.ofNat (sixBits c0) <<< 2) + (UInt8.ofNat (sixBits c1) >>> 4),
      ((UInt8.ofNat (sixBits c1) &&& 0xF) <<< 4) + (UInt8.ofNat (sixBits c2) >>> 2),
      ((UInt8.ofNat (sixBits c2) &&& 3) <<< 6) + UInt8.ofNat (sixBits c3)] =
      threeBytes c0 c1 c2 c3 := by
  unfold threeBytes
  dsimp only
  rw [@byte0 _ _ (UInt8.ofNat ((((sixBits c0 * 64 + sixBits c1) * 64 + sixBits c2) * 64 +
      sixBits c3) / 65536)),
    @byte1 _ _ (UInt8.ofNat ((((sixBits c0 * 64 + sixBits c1) * 64 + sixBits c2) * 64 +
      sixBits c3) / 256)),
    @byte2 _ _ (UInt8.ofNat (((sixBits c0 * 64 + sixBits c1) * 64 + sixBits c2) * 64 +
      sixBits c3))]
  all_goals
    simp only [UInt8.toNat_ofNat']
    omega

theorem convAfter_four (c0 c1 c2 c3 : UInt8) :
    convAfter (convAfter (convAfter (convAfter 3 c0) c1) c2) c3 =
      3 - [c0, c1, c2, c3].count padChar := by
  simp only [convAfter, count_cons, count_nil, beq_iff_eq]
  split_ifs <;> rfl

theorem decodeQuad_pos (h : Readable [c0, c1, c2, c3]) :
    decodeQuad c0 c1 c2 c3 =
      .ok (threeBytes c0 c1 c2 c3, 3 - [c0, c1, c2, c3].count padChar) := by
  have hLt : ∀ c ∈ [c0, c1, c2, c3], sixBits c < 64 := fun c hc => sixBits_lt (h.1 c hc)
  rcases (readable_iff _).mp h with ⟨h0, h1, h2, h3, -⟩
  rw [decodeQuad_of_ok (decodeChar_pos h0) (decodeChar_pos h1) (decodeChar_pos h2)
    (decodeChar_pos h3), threeBytes_eq (hLt c0 (by simp)) (hLt c1 (by simp)) (hLt c2 (by simp))
    (hLt c3 (by simp)), convAfter_four]

theorem decodeQuad_neg (h : ¬Readable [c0, c1, c2, c3]) :
    decodeQuad c0 c1 c2 c3 = .error .malformed := by
  rw [readable_iff] at h
  unfold decodeQuad
  by_cases h0 : Fits 3 c0
  swap
  · rw [decodeChar_neg h0]
    rfl
  simp only [bind_of_ok (decodeChar_pos h0)]
  by_cases h1 : Fits (convAfter 3 c0) c1
  swap
  · rw [decodeChar_neg h1]
    rfl
  simp only [bind_of_ok (decodeChar_pos h1)]
  by_cases h2 : Fits (convAfter (convAfter 3 c0) c1) c2
  swap
  · rw [decodeChar_neg h2]
    rfl
  simp only [bind_of_ok (decodeChar_pos h2)]
  have h3 : ¬Fits (convAfter (convAfter (convAfter 3 c0) c1) c2) c3 := fun h3 =>
    h ⟨h0, h1, h2, h3, trivial⟩
  rw [decodeChar_neg h3]
  rfl

theorem decodeCutOff_pos (chars : Bytes) : ∀ convLen, AllFit convLen chars →
    decodeCutOff convLen chars = .error .outOfBounds := by
  induction chars with
  | nil => exact fun _ _ => rfl
  | cons c cs ih =>
    rintro convLen ⟨hFits, hRest⟩
    rw [decodeCutOff, bind_of_ok (decodeChar_pos hFits)]
    exact ih _ hRest

theorem decodeCutOff_neg (chars : Bytes) : ∀ convLen, ¬AllFit convLen chars →
    decodeCutOff convLen chars = .error .malformed := by
  induction chars with
  | nil => exact fun _ h => absurd trivial h
  | cons c cs ih =>
    intro convLen h
    by_cases hFits : Fits convLen c
    · rw [decodeCutOff, bind_of_ok (decodeChar_pos hFits)]
      exact ih _ fun hRest => h ⟨hFits, hRest⟩
    · rw [decodeCutOff, decodeChar_neg hFits]
      rfl

/-! ## The text -/

section

variable {destLen inx : Nat}

/-- A text is safe if its first quad is, and what follows it where it is in the alphabet. -/
theorem safeText_iff (src : Bytes) : SafeText destLen inx src ↔ NextQuad destLen inx src ∧
    ∀ quad text, src = quad ++ text → quad.length = 4 → (∀ c ∈ quad, c ∈ encodeTable) →
      SafeText destLen (inx + 3) text := by
  constructor
  · intro h
    refine ⟨h [] src rfl rfl fun c hc => absurd hc not_mem_nil, ?_⟩
    rintro quad text rfl hLen hQuad front rest rfl hFront hChars
    have hNext := h (quad ++ front) rest (append_assoc _ _ _).symm
      (by rw [length_append]; omega) fun c hc => (mem_append.mp hc).elim (hQuad c) (hChars c)
    have hInx : inx + (quad ++ front).length / 4 * 3 = inx + 3 + front.length / 4 * 3 := by
      rw [length_append, hLen]
      omega
    rwa [hInx] at hNext
  · rintro ⟨hFirst, hMore⟩ front rest rfl hFront hChars
    by_cases hEmpty : front = []
    · subst hEmpty
      exact hFirst
    -- the front starts with a quad
    have hPos := length_pos_of_ne_nil hEmpty
    have hSplit : front ++ rest = front.take 4 ++ (front.drop 4 ++ rest) := by
      rw [← append_assoc, take_append_drop]
    have hNext := hMore (front.take 4) (front.drop 4 ++ rest) hSplit
      (by rw [length_take]; omega) (fun c hc => hChars c (mem_of_mem_take hc))
      (front.drop 4) rest rfl (by rw [length_drop]; omega)
      fun c hc => hChars c (mem_of_mem_drop hc)
    have hInx : inx + 3 + (front.drop 4).length / 4 * 3 = inx + front.length / 4 * 3 := by
      rw [length_drop]
      omega
    rwa [hInx] at hNext

/-- A text whose first quad is not in the alphabet is safe if that quad is. -/
theorem safeText_iff_of_notMem (h : ¬∀ c ∈ [c0, c1, c2, c3], c ∈ encodeTable) :
    SafeText destLen inx (c0 :: c1 :: c2 :: c3 :: src) ↔
      NextQuad destLen inx (c0 :: c1 :: c2 :: c3 :: src) := by
  rw [safeText_iff, and_iff_left]
  intro quad text hSrc hLen hQuad
  have hTake := congrArg (List.take 4) hSrc
  rw [take_left' hLen] at hTake
  rw [← hTake] at hQuad
  exact absurd hQuad h

/-- And one whose first quad is, if that quad and what follows it are. -/
theorem safeText_iff_of_mem (h : ∀ c ∈ [c0, c1, c2, c3], c ∈ encodeTable) :
    SafeText destLen inx (c0 :: c1 :: c2 :: c3 :: src) ↔
      NextQuad destLen inx (c0 :: c1 :: c2 :: c3 :: src) ∧ SafeText destLen (inx + 3) src := by
  rw [safeText_iff]
  constructor
  · rintro ⟨hFirst, hMore⟩
    exact ⟨hFirst, hMore [c0, c1, c2, c3] src rfl rfl h⟩
  · rintro ⟨hFirst, hMore⟩
    refine ⟨hFirst, fun quad text hSrc hLen _ => ?_⟩
    have hDrop := congrArg (List.drop 4) hSrc
    rw [drop_left' hLen] at hDrop
    rwa [← hDrop]

/-- What `StrictlyDecoded` says from a quad of the text on. -/
def StrictLoop (destLen inx : Nat) (last : Bool) (src : Bytes) : Prop :=
  decodeLoop destLen inx last src ≠ .error .outOfBounds ∧
  ∀ found, decodeLoop destLen inx last src = .ok found → ∃ pads, PadsLast src pads

theorem strictLoop_malformed (h : decodeLoop destLen inx last src = .error .malformed) :
    StrictLoop destLen inx last src := by
  unfold StrictLoop
  rw [h]
  exact ⟨nofun, nofun⟩

theorem not_strictLoop (h : decodeLoop destLen inx last src = .error .outOfBounds) :
    ¬StrictLoop destLen inx last src := fun hStrict => hStrict.1 h

theorem length_lt_four (h : ∀ c0 c1 c2 c3 text, src = c0 :: c1 :: c2 :: c3 :: text → False) :
    src.length < 4 := by
  rcases src with _ | ⟨c0, _ | ⟨c1, _ | ⟨c2, _ | ⟨c3, src⟩⟩⟩⟩
  case cons.cons.cons.cons => exact absurd rfl (h _ _ _ _ _)
  all_goals simp only [length_cons, length_nil]; omega

/-- A text of less than four characters ends in a quad, or is empty. -/
theorem decodeLoop_short (hShort : src.length < 4) (hSome : src ≠ []) :
    decodeLoop destLen inx last src =
      if destLen ≤ inx then .error .malformed
      else if last then .error .malformed else decodeCutOff 3 src := by
  rcases src with _ | ⟨c0, _ | ⟨c1, _ | ⟨c2, _ | ⟨c3, src⟩⟩⟩⟩
  · exact absurd rfl hSome
  · rfl
  · rfl
  · rfl
  · simp only [length_cons] at hShort
    omega

/-- Nothing is accepted behind the last quad. -/
theorem decodeLoop_last (hSome : src ≠ []) :
    decodeLoop destLen inx true src = .error .malformed := by
  by_cases hShort : src.length < 4
  · rw [decodeLoop_short hShort hSome]
    split <;> rfl
  rcases src with _ | ⟨c0, _ | ⟨c1, _ | ⟨c2, _ | ⟨c3, src⟩⟩⟩⟩
  case cons.cons.cons.cons =>
    rw [decodeLoop]
    split <;> rfl
  all_goals exact absurd (by simp) hShort

/-- Pads behind a quad of the alphabet are pads of the text. -/
theorem padsLast_append {quad : Bytes} (h : ∀ c ∈ quad, c ∈ encodeTable) (hSrc : PadsLast src pads)
    : PadsLast (quad ++ src) pads := by
  rcases hSrc with ⟨chars, rfl, hChars⟩
  exact ⟨quad ++ chars, (append_assoc _ _ _).symm,
    fun c hc => (mem_append.mp hc).elim (h c) (hChars c)⟩

/-- And the pads of the text are pads of what stands behind the quad. -/
theorem padsLast_of_append {quad : Bytes} (h : PadsLast (quad ++ src) pads)
    (hQuad : ∀ c ∈ quad, c ∈ encodeTable) : PadsLast src pads := by
  rcases h with ⟨chars, hEq, hChars⟩
  rcases append_eq_append_iff.mp hEq with ⟨more, rfl, rfl⟩ | ⟨more, rfl, hMore⟩
  · exact ⟨more, rfl, fun c hc => hChars c (mem_append_right _ hc)⟩
  · -- pads in the quad would be in the alphabet
    have hNil : more = [] := by
      apply eq_nil_iff_forall_not_mem.mpr
      intro c hc
      have hPad : c = padChar :=
        eq_of_mem_replicate (hMore ▸ mem_append_left src hc)
      subst hPad
      exact padChar_notMem (hQuad _ (mem_append_right _ hc))
    subst hNil
    exact ⟨[], hMore.symm, forall_mem_nil _⟩

/-- The pads of a text are its '='. -/
theorem PadsLast.count_eq {text : Bytes} (h : PadsLast text pads) : text.count padChar = pads := by
  rcases h with ⟨chars, rfl, hChars⟩
  have hNone : chars.count padChar = 0 :=
    count_eq_zero.mpr fun hMem => padChar_notMem (hChars _ hMem)
  rw [count_append, hNone, count_replicate_self, Nat.zero_add]

/-- A quad of the alphabet is decoded, and what follows it decides. -/
theorem strictLoop_of_mem (hMem : ∀ c ∈ [c0, c1, c2, c3], c ∈ encodeTable)
    (hRoom : inx + 3 ≤ destLen) :
    StrictLoop destLen inx false (c0 :: c1 :: c2 :: c3 :: src) ↔
      StrictLoop destLen (inx + 3) false src := by
  have hCount : [c0, c1, c2, c3].count padChar = 0 :=
    count_eq_zero.mpr fun h => padChar_notMem (hMem _ h)
  have hQuad := decodeQuad_pos ⟨fun c hc => .inl (hMem c hc), by rw [hCount]; decide⟩
  rw [hCount] at hQuad
  have hStep : decodeLoop destLen inx false (c0 :: c1 :: c2 :: c3 :: src) = (do
      let found ← decodeLoop destLen (inx + 3) false src
      return (threeBytes c0 c1 c2 c3 ++ found.1, 3 + found.2)) := by
    rw [decodeLoop, if_neg (by omega)]
    simp only [Bool.false_eq_true, if_false, bind_of_ok hQuad,
      if_neg (Nat.not_lt.mpr hRoom)]
    rfl
  unfold StrictLoop
  rw [hStep]
  cases decodeLoop destLen (inx + 3) false src with
  | error e =>
    refine and_congr (not_congr Iff.rfl) (iff_of_true ?_ ?_)
    · intro _ h
      cases h
    · intro _ h
      cases h
  | ok found =>
    refine and_congr (iff_of_true ?_ ?_) ?_
    · intro h
      cases h
    · intro h
      cases h
    constructor
    · intro h _ _
      exact (h _ rfl).imp fun _ hPads => @padsLast_of_append _ _ [c0, c1, c2, c3] hPads hMem
    · intro h _ _
      exact (h _ rfl).imp fun _ hPads => @padsLast_append _ _ [c0, c1, c2, c3] hMem hPads

/-- A quad with a '=' is the last one, and all is well exactly if its '=' are at its end. -/
theorem strictLoop_last (hRead : Readable [c0, c1, c2, c3]) (hRoom : inx + 3 ≤ destLen) :
    StrictLoop destLen inx false [c0, c1, c2, c3] ↔ ∃ pads, PadsLast [c0, c1, c2, c3] pads := by
  have hStep : decodeLoop destLen inx false [c0, c1, c2, c3] =
      .ok (threeBytes c0 c1 c2 c3, 3 - [c0, c1, c2, c3].count padChar) := by
    have hAll := decodeLoop_quad hRoom (decodeQuad_pos hRead) (decodeLoop_nil destLen (inx + 3) _)
    rwa [append_nil] at hAll
  unfold StrictLoop
  rw [hStep]
  constructor
  · rintro ⟨-, h⟩
    exact h _ rfl
  · exact fun h => ⟨nofun, fun _ _ => h⟩

/-- The decoder is strict on exactly the safe texts. -/
theorem strictLoop_iff (src : Bytes) : ∀ inx,
    StrictLoop destLen inx false src ↔ SafeText destLen inx src := by
  fun_induction textBytes src with
  | case1 c0 c1 c2 c3 src ih =>
    intro inx
    have hTake : (c0 :: c1 :: c2 :: c3 :: src).take 4 = [c0, c1, c2, c3] := rfl
    by_cases hDone : destLen ≤ inx
    · -- the destination is full, and the text goes on
      have hNext : ∀ rest k, NextQuad destLen (inx + k) rest := fun _ _ h => absurd h (by omega)
      refine iff_of_true (strictLoop_malformed ?_) fun _ _ _ _ _ => hNext _ _
      rw [decodeLoop, if_pos hDone]
    by_cases hRead : Readable [c0, c1, c2, c3]
    swap
    · have hMem : ¬∀ c ∈ [c0, c1, c2, c3], c ∈ encodeTable := fun h =>
        hRead ⟨fun c hc => .inl (h c hc), by
          rw [count_eq_zero.mpr fun hPad => padChar_notMem (h _ hPad)]
          decide⟩
      rw [safeText_iff_of_notMem hMem]
      refine iff_of_true (strictLoop_malformed ?_) fun _ _ h => absurd h hRead
      rw [decodeLoop, if_neg hDone, decodeQuad_neg hRead]
      rfl
    by_cases hRoom : inx + 3 ≤ destLen
    swap
    · refine iff_of_false (not_strictLoop ?_) fun hSafe => hRoom ?_
      · rw [decodeLoop, if_neg hDone, decodeQuad_pos hRead]
        simp only [Bool.false_eq_true, if_false, bind_of_ok rfl,
          if_pos (Nat.not_le.mp hRoom)]
        rfl
      · exact (((safeText_iff _).mp hSafe).1 (by omega) (cons_ne_nil _ _) hRead).2.1
    by_cases hMem : ∀ c ∈ [c0, c1, c2, c3], c ∈ encodeTable
    · rw [strictLoop_of_mem hMem hRoom, ih (inx + 3), safeText_iff_of_mem hMem,
        and_iff_right]
      refine fun _ _ _ => ⟨by simp only [length_cons]; omega, hRoom, fun hLen => ⟨0, ?_⟩⟩
      have hNil : src = [] := length_eq_zero_iff.mp (by simpa using hLen)
      subst hNil
      exact ⟨[c0, c1, c2, c3], rfl, hMem⟩
    rw [safeText_iff_of_notMem hMem]
    cases src with
    | nil =>
      rw [strictLoop_last hRead hRoom]
      constructor
      · exact fun h _ _ _ => ⟨Nat.le_refl 4, hRoom, fun _ => h⟩
      · exact fun h => (h (by omega) (cons_ne_nil _ _) hRead).2.2 rfl
    | cons c src =>
      -- a text that goes on behind a '=' is refused
      refine iff_of_true (strictLoop_malformed ?_) fun _ _ _ =>
        ⟨by simp only [length_cons]; omega, hRoom, fun hLen => ?_⟩
      · -- the quad has a '=', as it is readable and not all in the alphabet
        have hPad : padChar ∈ [c0, c1, c2, c3] := by
          rcases not_forall.mp hMem with ⟨c, hc⟩
          rcases Classical.not_imp.mp hc with ⟨hIn, hNot⟩
          rwa [← (hRead.1 c hIn).resolve_left hNot]
        have hCount : 3 - [c0, c1, c2, c3].count padChar < 3 := by
          have hPos := count_pos_iff.mpr hPad
          omega
        have hLast : decodeLoop destLen (inx + 3) true (c :: src) = .error .malformed :=
          decodeLoop_last (cons_ne_nil _ _)
        rw [decodeLoop, if_neg hDone, decodeQuad_pos hRead]
        simp only [Bool.false_eq_true, if_false, bind_of_ok rfl,
          if_neg (Nat.not_lt.mpr hRoom), decide_eq_true hCount, hLast]
        rfl
      · simp only [length_cons] at hLen
        omega
  | case2 src hShort =>
    intro inx
    have hLen := length_lt_four hShort
    cases src with
    | nil =>
      refine iff_of_true ⟨?_, ?_⟩ ?_
      · rw [decodeLoop_nil]
        intro h
        cases h
      · rw [decodeLoop_nil]
        exact fun _ _ => ⟨0, [], rfl, forall_mem_nil _⟩
      · intro front rest hSrc _ _ _ hRest
        exact absurd (append_eq_nil_iff.mp hSrc.symm).2 hRest
    | cons c src =>
      have hSome : c :: src ≠ [] := cons_ne_nil _ _
      have hTake : (c :: src).take 4 = c :: src := take_of_length_le (Nat.le_of_lt hLen)
      have hLoop : decodeLoop destLen inx false (c :: src) = _ := decodeLoop_short hLen hSome
      -- the quad in front of which nothing stands is the only one
      have hSafe : SafeText destLen inx (c :: src) ↔ NextQuad destLen inx (c :: src) := by
        rw [safeText_iff, and_iff_left]
        intro quad text hSrc hQuad
        have hLe := congrArg List.length hSrc
        rw [length_append] at hLe
        omega
      rw [hSafe]
      by_cases hDone : destLen ≤ inx
      · rw [if_pos hDone] at hLoop
        exact iff_of_true (strictLoop_malformed hLoop) fun h => absurd h (Nat.not_lt.mpr hDone)
      rw [if_neg hDone, if_neg Bool.false_ne_true] at hLoop
      by_cases hRead : Readable (c :: src)
      · rw [decodeCutOff_pos _ _ ((readable_iff _).mp hRead)] at hLoop
        refine iff_of_false (not_strictLoop hLoop) fun h => ?_
        have hFour := (h (Nat.not_le.mp hDone) hSome (hTake.symm ▸ hRead)).1
        omega
      · rw [decodeCutOff_neg _ _ fun h => hRead ((readable_iff _).mpr h)] at hLoop
        refine iff_of_true (strictLoop_malformed hLoop) fun _ _ h => ?_
        rw [hTake] at h
        exact absurd h hRead

/-- What an accepted text is decoded to, and how many of its bytes count. -/
theorem decodeLoop_ok (src : Bytes) : ∀ {inx last dest totConvLen}, inx ≤ destLen →
    decodeLoop destLen inx last src = .ok (dest, totConvLen) →
    dest = textBytes src ∧ totConvLen + src.count padChar = dest.length ∧ src.count padChar ≤ 2 ∧
      src.length % 4 = 0 ∧ inx + dest.length ≤ destLen := by
  fun_induction textBytes src with
  | case1 c0 c1 c2 c3 src ih =>
    intro inx last dest totConvLen hInx h
    rw [decodeLoop] at h
    by_cases hDone : destLen ≤ inx
    · rw [if_pos hDone] at h
      cases h
    rw [if_neg hDone] at h
    cases last with
    | true => cases h
    | false =>
      by_cases hRead : Readable [c0, c1, c2, c3]
      swap
      · rw [decodeQuad_neg hRead] at h
        cases h
      rw [decodeQuad_pos hRead] at h
      by_cases hRoom : destLen < inx + 3
      · simp only [Bool.false_eq_true, if_false, bind_of_ok rfl, if_pos hRoom] at h
        cases h
      simp only [Bool.false_eq_true, if_false, bind_of_ok rfl, if_neg hRoom] at h
      rcases bind_eq_ok.mp h with ⟨-, -, h⟩
      rcases bind_eq_ok.mp h with ⟨⟨dests, rest⟩, hRest, hOk⟩
      cases hOk
      have hThree : (threeBytes c0 c1 c2 c3).length = 3 := rfl
      have hQuadLe := hRead.2
      have hAppend : (c0 :: c1 :: c2 :: c3 :: src).count padChar =
          [c0, c1, c2, c3].count padChar + src.count padChar :=
        @count_append _ _ _ [c0, c1, c2, c3] src
      rcases ih (Nat.not_lt.mp hRoom) hRest with ⟨rfl, hSum, hLe, hLen, hFit⟩
      -- a '=' in the quad is followed by nothing
      have hOne : [c0, c1, c2, c3].count padChar = 0 ∨ src.count padChar = 0 := by
        by_cases hPads : 3 - [c0, c1, c2, c3].count padChar < 3
        · right
          by_cases hNil : src = []
          · rw [hNil]
            rfl
          · rw [decide_eq_true hPads, decodeLoop_last hNil] at hRest
            cases hRest
        · left
          omega
      dsimp only at hFit hSum ⊢
      rw [hAppend, length_append, hThree]
      refine ⟨rfl, by omega, by omega, ?_, by omega⟩
      simp only [length_cons]
      omega
  | case2 src hShort =>
    intro inx last dest totConvLen hInx h
    by_cases hNil : src = []
    · subst hNil
      rw [decodeLoop_nil] at h
      cases h
      exact ⟨rfl, rfl, Nat.zero_le _, rfl, hInx⟩
    -- what the end of the text cuts off is not accepted
    · rw [decodeLoop_short (length_lt_four hShort) hNil] at h
      split at h
      · cases h
      split at h
      · cases h
      by_cases hRead : AllFit 3 src
      · rw [decodeCutOff_pos _ _ hRead] at h
        cases h
      · rw [decodeCutOff_neg _ _ hRead] at h
        cases h

end

/-- The decoder keeps to its buffers and accepts canonical texts that fit only, exactly if nothing
goes wrong with any quad that has only characters of the alphabet in front of it. -/
theorem strict_iff (destLen : Nat) (src : Bytes) :
    StrictlyDecoded destLen src ↔ SafeText destLen 0 src := by
  rw [← strictLoop_iff src 0]
  unfold StrictlyDecoded StrictLoop base64Decode
  cases hLoop : decodeLoop destLen 0 false src with
  | error e =>
    refine and_congr ?_ (iff_of_true nofun nofun)
    cases e with
    | malformed => exact iff_of_true nofun nofun
    | outOfBounds => exact iff_of_false (fun h => h rfl) fun h => h rfl
  | ok found =>
    rcases found with ⟨dest, totConvLen⟩
    rcases decodeLoop_ok src (Nat.zero_le _) hLoop with ⟨rfl, hSum, hLe, hLen, hFit⟩
    refine and_congr (iff_of_true nofun nofun) ?_
    constructor
    · intro h _ _
      rcases (h _ rfl).1 with ⟨pads, hText⟩
      exact ⟨pads, hText.padsLast⟩
    · rintro h dest ⟨⟩
      rcases h _ rfl with ⟨pads, hPads⟩
      have hCount := hPads.count_eq
      refine ⟨⟨pads, hLen, hPads, hCount ▸ hLe, ?_⟩, ?_⟩
      · rw [← hCount, ← hSum, Nat.add_sub_cancel]
      · rw [List.length_take]
        omega

/-- A text with a '=' inside of a quad is accepted; the byte behind a cut-off quad is read, and a
destination of one byte is written three bytes. -/
theorem base64Decode_notStrict :
    (base64Decode 3 (ascii "A=AA") = .ok [0, 0] ∧ ¬StrictlyDecoded 3 (ascii "A=AA")) ∧
    ¬StrictlyDecoded 3 (ascii "A") ∧ ¬StrictlyDecoded 1 (ascii "AAAA") := by
  have hOk : base64Decode 3 (ascii "A=AA") = .ok [0, 0] := by decide
  refine ⟨⟨hOk, fun h => ?_⟩, fun h => h.1 (by decide), fun h => h.1 (by decide)⟩
  rcases (h.2 _ hOk).1 with ⟨pads, hText⟩
  rcases hText.padsLast with ⟨chars, hEq, hChars⟩
  have hCount : pads = 1 := hText.padsLast.count_eq.symm
  subst hCount
  have hLast := congrArg List.getLast? hEq
  rw [List.getLast?_append] at hLast
  cases hLast

end IClaustron.Config
