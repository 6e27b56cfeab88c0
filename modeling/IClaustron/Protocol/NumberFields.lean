import IClaustron.Protocol.RoundTrip
import Mathlib.Data.List.GetD

/-!
# Protocol.NumberFields — numbers in the lines of the protocol

A line can end in an unsigned number, in a signed one, or in several numbers. Each kind has its own
checker in comm/ic_protocol_support.c, over one conversion in util/ic_string.c that takes the text of
a number by its length.

* `recNumber_iff` — the greatest 32-bit number does not come back, nor does a line that is cut.
* `recIntNumber_iff` — a negative number comes back without its sign, except the least one.
* `manyInt_exact_iff` — the checker of several numbers rejects every line it is meant for, and accepts
  lines with another prefix.
* `number_fields_iff` — the three together.

Scope limits: ic_check_buf_with_many_int reads behind a line that is shorter than the prefix before it
rejects it. What is there has no influence, and is not in the model.
-/

namespace IClaustron.Protocol

open Lib List Option

/-! ## Model -/

/-- `ic_rec_number`; `number` is what the caller's variable holds before the call. -/
def recNumber (word : Bytes) (number : Nat) (s : Sock) : Except Stop (Nat × Sock) := do
  let (id, s) ← recNumberImpl word false s
  pure (id.getD number, s)

/-- `ic_check_buf_with_signed_int`, with `none` for TRUE: the number and the sign flag. -/
def checkBufWithSignedInt (line word : Bytes) : Option (Nat × Bool) :=
  if line.length < word.length + 1 ∨ line.take word.length ≠ word then none
  else
    let strLen := valuePos word line
    -- behind a minus sign, where the sign is then looked for again
    let strLen := if line.getD strLen 0 = 45 then strLen + 1 else strLen
    match convertStrToIntFixedSize (line.drop strLen) with
    | none => none
    | some number => some (number, line.getD strLen 0 = 45)

/-- A number that is stored in an int. -/
def toInt (number : Int) : Int := number.bmod (2 ^ 32)

/-- `ic_rec_int_number`. -/
def recIntNumber (word : Bytes) (s : Sock) : Except Stop (Int × Sock) := do
  let (line, s) ← recLine s
  match checkBufWithSignedInt line word with
  | some (number, signFlag) =>
    if maxUint32 ≤ number then throw (.error protocolError)
    else
      let number := toInt number
      if signFlag then pure (toInt (-number), s) else pure (number, s)
  | none => throw (.error protocolError)

def isSeparator (c : UInt8) : Bool := c = spaceChar ∨ c = carriageReturn ∨ c = 0

/-- `ic_count_characters`. -/
def countCharacters (str : Bytes) : Nat := (str.takeWhile fun c => !isSeparator c).length

/-- The for loop of `ic_check_buf_with_many_int` with `left` rounds to go, from `ptr` to `end_ptr`. -/
def manyIntLoop : Nat → Bytes → Option (List Nat)
  | 0, _ => some []
  | left + 1, rest => do
    let numChars := countCharacters rest
    if rest.length ≤ numChars then none
    else
      let number ← convertStrToIntFixedSize (rest.take numChars)
      let rest := rest.drop numChars
      if rest.head? = some spaceChar then
        let numbers ← manyIntLoop left rest.tail
        some (number :: numbers)
      else if rest.head? = some carriageReturn ∧ left = 0 then some [number]
      else none

/-- `ic_check_buf_with_many_int`, with `none` for TRUE: the caller's array. A line that is too short
starts behind its end, so that the first round fails. -/
def checkBufWithManyInt (line word : Bytes) (numElements : Nat) (number : List Nat) :
    Option (List Nat) :=
  if line.length < word.length then
    if numElements = 0 then some number else none
  else if line.take word.length = word then
    (manyIntLoop numElements (line.drop (valuePos word line))).map (overwrite number 0)
  else some number

/-! ## What the lines should be -/

/-- A signed number as text. -/
def intStr (value : Int) : Bytes :=
  if value < 0 then 45 :: guint64Str value.natAbs else guint64Str value.natAbs

/-- Nothing or a space stands between the prefix and the first number. -/
def Separates (sep : Bytes) : Prop := sep = [] ∨ sep = [spaceChar]

/-- A decimal number of 64 bits. -/
structure IsNumber (text : Bytes) (number : Nat) : Prop where
  ne : text ≠ []
  digits : ∀ c ∈ text, isDigit c
  value : digitsVal text = number
  lt : number < 2 ^ 64

/-- The prefix, and the numbers with a space between any two. -/
def NumbersLine (word line : Bytes) (numbers : List Nat) : Prop :=
  ∃ sep texts, Separates sep ∧ List.Forall₂ IsNumber texts numbers ∧
    line = word ++ sep ++ [spaceChar].intercalate texts

/-- A text that the conversion takes as a number. -/
structure Converts (text : Bytes) : Prop where
  whole : ∀ c ∈ text, isSeparator c = false
  converts : (convertStrToIntFixedSize text).isSome

/-- The prefix, and texts that the conversion takes, with a space behind each of them and anything
behind the last space. -/
def SpacedLine (word line : Bytes) (numElements : Nat) : Prop :=
  ∃ sep texts tail, Separates sep ∧ texts.length = numElements ∧ (∀ text ∈ texts, Converts text) ∧
    line = word ++ sep ++ (unlines spaceChar texts ++ tail)

/-- The checker accepts the line exactly when it should, and then with its numbers. -/
def ManyIntExact (line word : Bytes) (numElements : Nat) (number : List Nat) : Prop :=
  ∀ result, checkBufWithManyInt line word numElements number = some result ↔
    ∃ numbers, numbers.length = numElements ∧ NumbersLine word line numbers ∧
      result = overwrite number 0 numbers

/-- Without numbers the line is the prefix. With numbers it is one that should be rejected, for
another reason than another prefix, and without a space behind each of its numbers. -/
def ManyIntHolds (line word : Bytes) (numElements : Nat) : Prop :=
  if numElements = 0 then NumbersLine word line []
  else
    (line.length < word.length ∨ line.take word.length = word) ∧
      (¬ ∃ numbers, numbers.length = numElements ∧ NumbersLine word line numbers) ∧
      ¬ SpacedLine word line numElements

variable {word line sep text rest : Bytes} {value number numElements readBufSize : Nat} {s : Sock}
  {w : Writer} {i : Int}

/-! ## Text -/

theorem digitsVal_append (ds es : Bytes) :
    digitsVal (ds ++ es) = digitsVal ds * 10 ^ es.length + digitsVal es := by
  induction es using List.reverseRecOn with
  | nil => simp [digitsVal]
  | append_singleton es e ih =>
    have hSnoc : ∀ fs : Bytes, digitsVal (fs ++ [e]) = digitsVal fs * 10 + (e.toNat - 48) := by
      intro fs
      unfold digitsVal
      rw [foldl_append]
      rfl
    rw [← append_assoc, hSnoc, hSnoc, ih, length_append, length_singleton, pow_succ]
    ring

/-- The first digits of a number are another number. -/
theorem digitsVal_take_guint64Str {k : Nat} (hPos : 0 < k) (hCut : k < (guint64Str value).length) :
    digitsVal ((guint64Str value).take k) < value := by
  have hVal := digitsVal_guint64Str value
  have hValue : value ≠ 0 := by
    rintro rfl
    have hOne : (guint64Str 0).length = 1 := rfl
    omega
  conv at hVal => lhs; rw [← take_append_drop k (guint64Str value), digitsVal_append]
  have hLong : 1 < 10 ^ ((guint64Str value).drop k).length := by
    apply Nat.one_lt_pow
    · rw [length_drop]
      omega
    · decide
  by_cases hZero : digitsVal ((guint64Str value).take k) = 0
  · omega
  · have hLt := (Nat.lt_mul_iff_one_lt_right (Nat.pos_of_ne_zero hZero)).mpr hLong
    omega

/-- What is found in digits is their number. -/
theorem convert_digits (hDigits : ∀ d ∈ text, isDigit d) (hLt : digitsVal text < 2 ^ 64)
    (h : convertStrToIntFixedSize text = some number) : number = digitsVal text := by
  unfold convertStrToIntFixedSize at h
  split at h
  · exact absurd h nofun
  · rename_i hLength
    have hNe : text ≠ [] := fun hNil => hLength (hNil ▸ rfl)
    rw [asciiStrtoull_digits hNe hDigits hLt] at h
    dsimp only at h
    rw [if_pos rfl] at h
    split at h
    · exact (Option.some.inj h).symm
    · exact absurd h nofun

/-- What ic_rec_with_cr gives of a line with line ends in it. -/
def firstLine (line : Bytes) : Bytes := line.takeWhile (· ≠ carriageReturn)

theorem firstLine_eq (h : carriageReturn ∉ line) : firstLine line = line := by
  unfold firstLine
  rw [takeWhile_eq_self_iff]
  intro c hc
  apply decide_eq_true
  rintro rfl
  exact h hc

theorem not_mem_firstLine (line : Bytes) : carriageReturn ∉ firstLine line := by
  intro h
  have hNe := mem_takeWhile_imp h
  exact absurd hNe (by decide)

theorem recLine_first (hZero : 0 ∉ line) (hFit : line.length < readBufSize)
    (h : Reads readBufSize (line ++ carriageReturn :: rest) s) :
    ∃ s', recLine s = .ok (firstLine line, s') := by
  have hMem : carriageReturn ∈ line ++ carriageReturn :: rest :=
    mem_append_right line mem_cons_self
  by_cases hEnd : carriageReturn ∈ line
  · rcases eq_append_cons_of_mem hEnd with ⟨a, b, rfl, ha⟩
    rw [append_assoc, cons_append] at h
    rw [length_append] at hFit
    have hPlain : Plain a := ⟨ha, fun hz => hZero (mem_append_left _ hz)⟩
    rcases recLine_spec hPlain (by omega) h with ⟨s', hRec, -, -⟩
    refine ⟨s', ?_⟩
    rw [hRec]
    have hFirst : firstLine (a ++ carriageReturn :: b) = a := by
      unfold firstLine
      rw [takeWhile_append_of_pos, takeWhile_cons_of_neg (by decide), append_nil]
      intro c hc
      apply decide_eq_true
      rintro rfl
      exact ha hc
    rw [hFirst]
  · rcases recLine_spec ⟨hEnd, hZero⟩ hFit h with ⟨s', hRec, -, -⟩
    refine ⟨s', ?_⟩
    rw [hRec, firstLine_eq hEnd]

/-! ## One number -/

/-- The checkers of one number find the prefix in the line. -/
theorem prefix_of_checkBufWithInt (h : checkBufWithInt line word = some number) :
    word.length + 1 ≤ line.length ∧ line.take word.length = word := by
  unfold checkBufWithInt at h
  split at h
  · exact absurd h nofun
  · rename_i hNot
    rw [not_or, not_not] at hNot
    exact ⟨Nat.le_of_not_lt hNot.1, hNot.2⟩

theorem prefix_of_checkBufWithSignedInt {found : Nat × Bool}
    (h : checkBufWithSignedInt line word = some found) :
    word.length + 1 ≤ line.length ∧ line.take word.length = word := by
  unfold checkBufWithSignedInt at h
  split at h
  · exact absurd h nofun
  · rename_i hNot
    rw [not_or, not_not] at hNot
    exact ⟨Nat.le_of_not_lt hNot.1, hNot.2⟩

/-- So the prefix is in one line. -/
theorem not_mem_of_take_firstLine (h : (firstLine line).take word.length = word) :
    carriageReturn ∉ word := by
  intro hMem
  rw [← h] at hMem
  exact not_mem_firstLine line (mem_of_mem_take hMem)

/-- The line that g_snprintf leaves of a prefix and a number. -/
def cutLine (word : Bytes) (value : Nat) : Bytes :=
  (word ++ [spaceChar] ++ guint64Str value).take 127

theorem checkBufWithInt_cutLine (hValue : value < 2 ^ 64) :
    checkBufWithInt (firstLine (cutLine word value)) word = some value ↔
      carriageReturn ∉ word ∧ word.length + 1 + (guint64Str value).length ≤ 127 := by
  have hEnds : carriageReturn ∉ word → carriageReturn ∉ cutLine word value := by
    intro hWord hMem
    rcases mem_append.mp (mem_of_mem_take hMem) with hMem | hMem
    · rcases mem_append.mp hMem with hMem | hMem
      · exact hWord hMem
      · exact absurd (mem_singleton.mp hMem) (by decide)
    · exact (plain_guint64Str value).1 hMem
  constructor
  · intro h
    rcases prefix_of_checkBufWithInt h with ⟨hLength, hTake⟩
    have hWord := not_mem_of_take_firstLine hTake
    refine ⟨hWord, ?_⟩
    rw [firstLine_eq (hEnds hWord)] at h hLength
    have hCut : (cutLine word value).length ≤ 127 := length_take_le _ _
    have hLine : cutLine word value =
        word ++ spaceChar :: (guint64Str value).take (127 - (word.length + 1)) := by
      unfold cutLine
      rw [take_append, take_of_length_le]
      · rw [append_assoc, length_append, length_singleton]
        rfl
      · rw [length_append, length_singleton]
        omega
    rw [hLine, checkBufWithInt_space] at h
    by_contra hLong
    by_cases hNone : 127 - (word.length + 1) = 0
    · -- nothing is left of the number
      rw [hNone, take_zero] at h
      exact absurd h nofun
    · have hLess : digitsVal ((guint64Str value).take (127 - (word.length + 1))) < value :=
        digitsVal_take_guint64Str (by omega) (by omega)
      have hDigits : ∀ d ∈ (guint64Str value).take (127 - (word.length + 1)), isDigit d :=
        fun d hd => isDigit_guint64Str (mem_of_mem_take hd)
      have hSame := convert_digits hDigits (by omega) h
      omega
  · rintro ⟨hWord, hLength⟩
    rw [firstLine_eq (hEnds hWord)]
    have hWhole : cutLine word value = word ++ spaceChar :: guint64Str value := by
      unfold cutLine
      rw [take_of_length_le, append_assoc]
      · rfl
      · rw [length_append, length_append, length_singleton]
        exact hLength
    rw [hWhole, checkBufWithInt_spaced hValue]

theorem recNumber_of_line (hZero : 0 ∉ line) (hFit : line.length < readBufSize)
    (h : Reads readBufSize (line ++ carriageReturn :: rest) s) :
    (∃ s', recNumber word number s = .ok (value, s')) ↔
      checkBufWithInt (firstLine line) word = some value ∧ value < maxUint32 := by
  rcases recLine_first hZero hFit h with ⟨s', hRec⟩
  unfold recNumber recNumberImpl
  rw [hRec]
  dsimp only [bind, Except.bind]
  cases hCheck : checkBufWithInt (firstLine line) word with
  | none => simp [throw, throwThe, MonadExceptOf.throw]
  | some found =>
    dsimp only
    by_cases hMax : maxUint32 ≤ found
    · rw [if_pos hMax]
      simp only [throw, throwThe, MonadExceptOf.throw, reduceCtorEq, exists_false, Option.some.injEq,
        false_iff, not_and, not_lt]
      rintro rfl
      exact hMax
    · rw [if_neg hMax]
      simp only [pure, Except.pure, getD_some, Except.ok.injEq, Prod.mk.injEq,
        exists_and_left, exists_eq', and_true, Option.some.injEq]
      constructor
      · rintro rfl
        exact ⟨rfl, Nat.lt_of_not_le hMax⟩
      · rintro ⟨rfl, -⟩
        rfl

/-- The line of a number is sent, and its number comes back when the prefix is in one line, nothing
is cut, and the number is not the greatest of 32 bits. -/
theorem recNumber_iff (hWord : 0 ∉ word) (hValue : value < 2 ^ 64) (hWrite : 128 < w.writeBufSize)
    (hRead : 127 < readBufSize) :
    ∃ w' sent, sendWithCrWithNumber w word value = some w' ∧ w'.text = w.text ++ sent ∧
      ∀ rest s, Reads readBufSize (sent ++ rest) s →
        ((∃ s', recNumber word number s = .ok (value, s')) ↔
          carriageReturn ∉ word ∧ word.length + 1 + (guint64Str value).length ≤ 127 ∧
            value < maxUint32) := by
  have hCut : (cutLine word value).length ≤ 127 := length_take_le _ _
  have hZero : 0 ∉ cutLine word value := by
    intro hMem
    rcases mem_append.mp (mem_of_mem_take hMem) with hMem | hMem
    · rcases mem_append.mp hMem with hMem | hMem
      · exact hWord hMem
      · exact absurd (mem_singleton.mp hMem) (by decide)
    · exact (plain_guint64Str value).2 hMem
  rcases sendWithCr_text w hZero (by omega) with ⟨w', hSend, -, hText⟩
  refine ⟨w', _, ?_, hText, fun rest s hReads => ?_⟩
  · unfold sendWithCrWithNumber
    rw [cStr_of_not_mem hWord]
    exact hSend
  · rw [append_assoc, singleton_append] at hReads
    rw [recNumber_of_line hZero (by omega) hReads, checkBufWithInt_cutLine hValue, and_assoc]

/-- The text behind the prefix, and behind the space when there is one. -/
theorem drop_valuePos_sep (hSep : Separates sep) (hHead : rest.head? ≠ some spaceChar) :
    valuePos word (word ++ sep ++ rest) = (word ++ sep).length := by
  unfold valuePos
  rcases hSep with rfl | rfl
  · rw [append_nil, if_neg]
    rw [getD_append_right _ _ _ _ (Nat.le_refl _), Nat.sub_self]
    cases rest with
    | nil => decide
    | cons c rest => exact fun hSpace => hHead (congrArg some hSpace)
  · rw [if_pos, length_append, length_singleton]
    rw [append_assoc, getD_append_right _ _ _ _ (Nat.le_refl _), Nat.sub_self]
    rfl

theorem head_guint64Str (n : Nat) :
    (guint64Str n).head? ≠ some spaceChar ∧ (guint64Str n).getD 0 0 ≠ 45 := by
  rcases exists_cons_of_ne_nil (guint64Str_ne_nil n) with ⟨c, cs, hcs⟩
  have hc := mem_guint64Str (hcs ▸ mem_cons_self : c ∈ guint64Str n)
  rw [hcs]
  constructor
  · intro h
    obtain rfl : c = spaceChar := Option.some.inj h
    exact absurd hc (by decide)
  · rintro rfl
    exact absurd hc (by decide)

/-- The sign flag is never set: the sign is looked for behind itself. -/
theorem checkBufWithSignedInt_intStr (hSep : Separates sep) (hAbs : i.natAbs < 2 ^ 64) :
    checkBufWithSignedInt (word ++ sep ++ intStr i) word = some (i.natAbs, false) := by
  have hPos : (intStr i).head? ≠ some spaceChar := by
    unfold intStr
    split
    · nofun
    · exact (head_guint64Str _).1
  have hNe : 0 < (intStr i).length := by
    unfold intStr
    split
    · exact Nat.succ_pos _
    · exact length_pos_of_ne_nil (guint64Str_ne_nil _)
  have hLong : ¬ (word ++ sep ++ intStr i).length < word.length + 1 := by
    rw [length_append, length_append]
    omega
  have hTake : ¬ (word ++ sep ++ intStr i).take word.length ≠ word := by
    rw [append_assoc, take_left]
    exact not_not.mpr rfl
  have hGetD : ∀ k, (word ++ sep ++ intStr i).getD ((word ++ sep).length + k) 0 =
      (intStr i).getD k 0 := by
    intro k
    rw [getD_append_right _ _ _ _ (Nat.le_add_right _ _), Nat.add_sub_cancel_left]
  have hDrop : ∀ k, (word ++ sep ++ intStr i).drop ((word ++ sep).length + k) =
      (intStr i).drop k := by
    intro k
    rw [drop_length_add_append]
  have hGetD₀ := hGetD 0
  have hDrop₀ := hDrop 0
  rw [Nat.add_zero] at hGetD₀ hDrop₀
  unfold checkBufWithSignedInt
  rw [if_neg (not_or.mpr ⟨hLong, hTake⟩), drop_valuePos_sep hSep hPos]
  dsimp only
  rw [hGetD₀]
  by_cases hNeg : i < 0
  · have hText : intStr i = 45 :: guint64Str i.natAbs := if_pos hNeg
    rw [if_pos (by rw [hText]; rfl), hDrop, hGetD, hText]
    rw [show (45 :: guint64Str i.natAbs).drop 1 = guint64Str i.natAbs from rfl,
      convert_guint64Str hAbs]
    dsimp only
    rw [show (45 :: guint64Str i.natAbs).getD 1 0 = (guint64Str i.natAbs).getD 0 0 from rfl,
      decide_eq_false (head_guint64Str _).2]
  · have hText : intStr i = guint64Str i.natAbs := if_neg hNeg
    have hMinus : (intStr i).getD 0 0 ≠ 45 := hText ▸ (head_guint64Str _).2
    rw [if_neg hMinus, hDrop₀, hGetD₀, decide_eq_false hMinus, hText, drop_zero,
      convert_guint64Str hAbs]

theorem toInt_natAbs (hi : -2 ^ 31 ≤ i ∧ i < 2 ^ 31) :
    toInt i.natAbs = i ↔ 0 ≤ i ∨ i = -2 ^ 31 := by
  unfold toInt Int.bmod
  dsimp only
  split <;> omega

theorem plain_intStr (i : Int) : Plain (intStr i) := by
  have h := plain_guint64Str i.natAbs
  unfold intStr
  split
  · constructor
    · rw [mem_cons, not_or]
      exact ⟨by decide, h.1⟩
    · rw [mem_cons, not_or]
      exact ⟨by decide, h.2⟩
  · exact h

theorem Separates.plain (h : Separates sep) : Plain sep := by
  rcases h with rfl | rfl
  · decide
  · decide

/-- A signed number comes back when it has no sign, and the least number of 32 bits, for which the
conversion to an int is the sign. -/
theorem recIntNumber_iff (hWord : 0 ∉ word) (hSep : Separates sep)
    (hi : -2 ^ 31 ≤ i ∧ i < 2 ^ 31) (hFit : (word ++ sep ++ intStr i).length < readBufSize)
    (h : Reads readBufSize (word ++ sep ++ intStr i ++ carriageReturn :: rest) s) :
    (∃ s', recIntNumber word s = .ok (i, s')) ↔
      carriageReturn ∉ word ∧ (0 ≤ i ∨ i = -2 ^ 31) := by
  have hZero : 0 ∉ word ++ sep ++ intStr i := by
    rw [mem_append, mem_append, not_or, not_or]
    exact ⟨⟨hWord, hSep.plain.2⟩, (plain_intStr i).2⟩
  rcases recLine_first hZero hFit h with ⟨s', hRec⟩
  by_cases hEnd : carriageReturn ∈ word
  · -- the prefix is not in the first line
    have hNone : checkBufWithSignedInt (firstLine (word ++ sep ++ intStr i)) word = none := by
      rw [eq_none_iff_forall_ne_some]
      intro found hSome
      exact not_mem_of_take_firstLine (prefix_of_checkBufWithSignedInt hSome).2 hEnd
    unfold recIntNumber
    rw [hRec]
    dsimp only [bind, Except.bind]
    rw [hNone]
    simp [throw, throwThe, MonadExceptOf.throw, hEnd]
  · have hLine : carriageReturn ∉ word ++ sep ++ intStr i := by
      rw [mem_append, mem_append, not_or, not_or]
      exact ⟨⟨hEnd, hSep.plain.1⟩, (plain_intStr i).1⟩
    have hSmall : ¬ maxUint32 ≤ i.natAbs := by
      have : maxUint32 = 2 ^ 32 - 1 := rfl
      omega
    unfold recIntNumber
    rw [hRec, firstLine_eq hLine]
    dsimp only [bind, Except.bind]
    rw [checkBufWithSignedInt_intStr hSep (by omega)]
    dsimp only
    rw [if_neg hSmall, ← toInt_natAbs hi]
    simp [pure, Except.pure, hEnd]

/-! ## Several numbers -/

theorem IsNumber.whole (h : IsNumber text number) : ∀ c ∈ text, isSeparator c = false := by
  intro c hc
  have hDigit : 48 ≤ c ∧ c ≤ 57 := of_decide_eq_true (h.digits c hc)
  apply decide_eq_false
  rintro (rfl | rfl | rfl) <;> exact absurd hDigit (by decide)

theorem not_mem_of_whole (h : ∀ c ∈ text, isSeparator c = false) : spaceChar ∉ text := by
  intro hMem
  exact absurd (h spaceChar hMem) (by decide)

theorem Converts.ne (h : Converts text) : text ≠ [] := by
  rintro rfl
  exact absurd h.converts (by decide)

/-- The characters before a space are counted. -/
theorem countCharacters_space (h : ∀ c ∈ text, isSeparator c = false) (rest : Bytes) :
    countCharacters (text ++ spaceChar :: rest) = text.length := by
  unfold countCharacters
  rw [takeWhile_append_of_pos, takeWhile_cons_of_neg (by decide), append_nil]
  intro c hc
  rw [h c hc]
  rfl

/-- One round, for a number with a space behind it. -/
theorem manyIntLoop_space (left : Nat) (h : ∀ c ∈ text, isSeparator c = false) (rest : Bytes) :
    manyIntLoop (left + 1) (text ++ spaceChar :: rest) =
      (convertStrToIntFixedSize text).bind fun number =>
        (manyIntLoop left rest).map (number :: ·) := by
  have hMore : ¬ (text ++ spaceChar :: rest).length ≤ text.length := by
    rw [length_append, length_cons]
    omega
  conv_lhs => unfold manyIntLoop
  rw [countCharacters_space h]
  dsimp only
  rw [if_neg hMore, take_left, drop_left, bind_eq_bind]
  congr 1
  funext number
  rw [head?_cons, if_pos rfl, tail_cons]
  cases manyIntLoop left rest with
  | none => rfl
  | some numbers => rfl

/-- A round that goes through has found a space. -/
theorem space_of_manyIntLoop {left : Nat} (hEnd : carriageReturn ∉ rest)
    (h : (manyIntLoop (left + 1) rest).isSome) :
    ∃ text tail, (∀ c ∈ text, isSeparator c = false) ∧ rest = text ++ spaceChar :: tail := by
  have hTake : rest.take (countCharacters rest) = rest.takeWhile fun c => !isSeparator c :=
    (prefix_iff_eq_take.mp (List.takeWhile_prefix _)).symm
  refine ⟨rest.take (countCharacters rest), (rest.drop (countCharacters rest)).tail, ?_, ?_⟩
  · intro c hc
    rw [hTake] at hc
    have hNot := mem_takeWhile_imp hc
    rwa [Bool.not_eq_true'] at hNot
  · have hNewline : (rest.drop (countCharacters rest)).head? ≠ some carriageReturn := by
      intro hHead
      exact hEnd (mem_of_mem_drop (mem_of_mem_head? hHead))
    have hSpace : (rest.drop (countCharacters rest)).head? = some spaceChar := by
      by_contra hNot
      have hNone : (manyIntLoop (left + 1) rest) = none := by
        unfold manyIntLoop
        simp only [if_neg hNot, if_neg (fun hBoth : _ ∧ left = 0 => hNewline hBoth.1),
          bind_eq_bind, bind_fun_none, ite_self]
      rw [hNone] at h
      exact absurd h nofun
    have hDrop := cons_head?_tail hSpace
    rw [hDrop, take_append_drop]

/-- The loop goes through exactly when there is a space behind each number. -/
theorem manyIntLoop_isSome_iff {left : Nat} (hEnd : carriageReturn ∉ rest) :
    (manyIntLoop left rest).isSome ↔
      ∃ texts tail, texts.length = left ∧ (∀ text ∈ texts, Converts text) ∧
        rest = unlines spaceChar texts ++ tail := by
  induction left generalizing rest with
  | zero =>
    constructor
    · intro _
      exact ⟨[], rest, rfl, nofun, rfl⟩
    · intro _
      rfl
  | succ left ih =>
    constructor
    · intro h
      rcases space_of_manyIntLoop hEnd h with ⟨text, tail, hWhole, rfl⟩
      rw [manyIntLoop_space left hWhole] at h
      have hTail : carriageReturn ∉ tail := fun hMem =>
        hEnd (mem_append_right _ (mem_cons_of_mem _ hMem))
      cases hNumber : convertStrToIntFixedSize text with
      | none =>
        rw [hNumber] at h
        exact absurd h nofun
      | some number =>
        rw [hNumber, bind_some, isSome_map] at h
        rcases (ih hTail).mp h with ⟨texts, last, hLength, hTexts, rfl⟩
        refine ⟨text :: texts, last, congrArg (· + 1) hLength, ?_, ?_⟩
        · exact forall_mem_cons.mpr ⟨⟨hWhole, by rw [hNumber]; rfl⟩, hTexts⟩
        · rw [unlines_cons, append_assoc, cons_append]
    · rintro ⟨texts, tail, hLength, hTexts, rfl⟩
      cases texts with
      | nil => exact absurd hLength nofun
      | cons text texts =>
        have hText := hTexts text mem_cons_self
        rw [unlines_cons, append_assoc, cons_append] at hEnd ⊢
        have hTail : carriageReturn ∉ unlines spaceChar texts ++ tail := fun hMem =>
          hEnd (mem_append_right _ (mem_cons_of_mem _ hMem))
        have hSome := (ih hTail).mpr
          ⟨texts, tail, Nat.succ.inj hLength, fun t ht => hTexts t (mem_cons_of_mem _ ht), rfl⟩
        rcases isSome_iff_exists.mp hText.converts with ⟨number, hNumber⟩
        rw [manyIntLoop_space left hText.whole, hNumber, bind_some, isSome_map]
        exact hSome

variable {texts : List Bytes} {numbers : List Nat}

/-- Joined with spaces there is one space less than behind each. -/
theorem unlines_eq_intercalate (h : texts ≠ []) :
    unlines spaceChar texts = [spaceChar].intercalate texts ++ [spaceChar] := by
  induction texts with
  | nil => exact absurd rfl h
  | cons text texts ih =>
    cases texts with
    | nil => simp [List.intercalate]
    | cons text' texts =>
      rw [unlines_cons, ih (cons_ne_nil _ _)]
      simp [List.intercalate]

theorem head_intercalate (h : List.Forall₂ IsNumber texts numbers) :
    ([spaceChar].intercalate texts).head? ≠ some spaceChar := by
  cases h with
  | nil => nofun
  | @cons text number texts numbers hText hTexts =>
    rcases exists_cons_of_ne_nil hText.ne with ⟨c, cs, rfl⟩
    have hHead : ([spaceChar].intercalate ((c :: cs) :: texts)).head? = some c := by
      cases texts with
      | nil => simp [List.intercalate]
      | cons text' texts => simp [List.intercalate]
    rw [hHead]
    intro hSpace
    exact not_mem_of_whole hText.whole (Option.some.inj hSpace ▸ mem_cons_self)

theorem head_unlines {tail : Bytes} (hNe : texts ≠ []) (h : ∀ text ∈ texts, Converts text) :
    (unlines spaceChar texts ++ tail).head? ≠ some spaceChar := by
  cases texts with
  | nil => exact absurd rfl hNe
  | cons text texts =>
    have hText := h text mem_cons_self
    rcases exists_cons_of_ne_nil hText.ne with ⟨c, cs, rfl⟩
    intro hSpace
    exact not_mem_of_whole hText.whole
      (Option.some.inj hSpace ▸ (mem_cons_self : c ∈ c :: cs))

theorem drop_front (hSep : Separates sep) (hHead : rest.head? ≠ some spaceChar) :
    (word ++ sep ++ rest).drop (valuePos word (word ++ sep ++ rest)) = rest := by
  rw [drop_valuePos_sep hSep hHead, drop_left]

/-- No line is a line of numbers and has a space behind each of as many. -/
theorem NumbersLine.not_spaced (h : NumbersLine word line numbers) (hSome : numbers ≠ []) :
    ¬ SpacedLine word line numbers.length := by
  rcases h with ⟨sep, texts, hSep, hNumbers, hLine⟩
  rintro ⟨sep', texts', tail, hSep', hLength', hTexts', hLine'⟩
  have hLength : texts.length = numbers.length := hNumbers.length_eq
  have hPos : 0 < numbers.length := length_pos_of_ne_nil hSome
  have hNe : texts ≠ [] := ne_nil_of_length_pos (by omega)
  have hNe' : texts' ≠ [] := ne_nil_of_length_pos (by omega)
  -- the same text behind the prefix, read in both ways
  have hText := @drop_front word _ _ hSep (head_intercalate hNumbers)
  have hText' := @drop_front word _ _ hSep' (@head_unlines texts' tail hNe' hTexts')
  rw [← hLine] at hText
  rw [← hLine'] at hText'
  have hSame : [spaceChar].intercalate texts = unlines spaceChar texts' ++ tail :=
    hText.symm.trans hText'
  have hWhole : ∀ t ∈ texts, spaceChar ∉ t := by
    intro t ht
    rcases mem_iff_get.mp ht with ⟨k, rfl⟩
    exact not_mem_of_whole (hNumbers.get k.isLt (hLength ▸ k.isLt)).whole
  have hWhole' : ∀ t ∈ texts', spaceChar ∉ t := fun t ht => not_mem_of_whole (hTexts' t ht).whole
  have hCount : (unlines spaceChar texts).count spaceChar = texts.length := count_unlines hWhole
  have hCount' : (unlines spaceChar texts').count spaceChar = texts'.length := count_unlines hWhole'
  rw [unlines_eq_intercalate hNe, hSame, count_append, count_append, hCount',
    count_singleton_self] at hCount
  omega

theorem NumbersLine.front (h : NumbersLine word line numbers) :
    ¬ line.length < word.length ∧ line.take word.length = word := by
  rcases h with ⟨sep, texts, -, -, rfl⟩
  constructor
  · rw [length_append, length_append]
    omega
  · rw [append_assoc, take_left]

theorem SpacedLine.front (h : SpacedLine word line numElements) :
    ¬ line.length < word.length ∧ line.take word.length = word := by
  rcases h with ⟨sep, texts, tail, -, -, -, rfl⟩
  constructor
  · rw [length_append, length_append]
    omega
  · rw [append_assoc, take_left]

/-- What stands between the prefix and the value. -/
theorem exists_sep (hTake : line.take word.length = word) :
    ∃ sep, Separates sep ∧ line = word ++ sep ++ line.drop (valuePos word line) := by
  have hLine : line = word ++ line.drop word.length := by
    conv_lhs => rw [← take_append_drop word.length line, hTake]
  unfold valuePos
  split
  · rename_i hSpace
    refine ⟨[spaceChar], .inr rfl, ?_⟩
    cases hDrop : line.drop word.length with
    | nil =>
      rw [hLine, hDrop, getD_append_right _ _ _ _ (Nat.le_refl _), Nat.sub_self] at hSpace
      exact absurd hSpace (by decide)
    | cons c rest =>
      rw [hLine, hDrop, getD_append_right _ _ _ _ (Nat.le_refl _), Nat.sub_self] at hSpace
      obtain rfl : c = spaceChar := hSpace
      have hRest : line.drop (word.length + 1) = rest := by
        rw [← drop_drop, hDrop]
        rfl
      rw [hRest, append_assoc]
      exact hLine.trans (by rw [hDrop]; rfl)
  · exact ⟨[], .inl rfl, by rw [append_nil]; exact hLine⟩

/-- Behind the prefix the loop goes through exactly for a line with a space behind each number. -/
theorem manyIntLoop_spaced (hEnd : carriageReturn ∉ line) (hTake : line.take word.length = word)
    (hNe : numElements ≠ 0) :
    (manyIntLoop numElements (line.drop (valuePos word line))).isSome ↔
      SpacedLine word line numElements := by
  rw [manyIntLoop_isSome_iff fun hMem => hEnd (mem_of_mem_drop hMem)]
  constructor
  · rintro ⟨texts, tail, hLength, hTexts, hRest⟩
    rcases exists_sep hTake with ⟨sep, hSep, hLine⟩
    exact ⟨sep, texts, tail, hSep, hLength, hTexts, hRest ▸ hLine⟩
  · rintro ⟨sep, texts, tail, hSep, hLength, hTexts, hLine⟩
    refine ⟨texts, tail, hLength, hTexts, ?_⟩
    have hSome : texts ≠ [] := by
      rintro rfl
      exact hNe hLength.symm
    have hText := @drop_front word _ _ hSep (@head_unlines texts tail hSome hTexts)
    rwa [← hLine] at hText

/-- Without numbers every line is accepted. -/
theorem checkBufWithManyInt_zero (numbers : List Nat) :
    checkBufWithManyInt line word 0 numbers = some numbers := by
  unfold checkBufWithManyInt
  split
  · rfl
  · split
    · rfl
    · rfl

theorem checkBufWithManyInt_none_iff (hEnd : carriageReturn ∉ line) (hNe : numElements ≠ 0) :
    checkBufWithManyInt line word numElements numbers = none ↔
      (line.length < word.length ∨ line.take word.length = word) ∧
        ¬ SpacedLine word line numElements := by
  unfold checkBufWithManyInt
  by_cases hShort : line.length < word.length
  · rw [if_pos hShort, if_neg hNe]
    exact ⟨fun _ => ⟨.inl hShort, fun hSpaced => hSpaced.front.1 hShort⟩, fun _ => rfl⟩
  · rw [if_neg hShort]
    by_cases hTake : line.take word.length = word
    · rw [if_pos hTake, map_eq_none_iff, ← manyIntLoop_spaced hEnd hTake hNe,
        not_isSome_iff_eq_none]
      exact ⟨fun hNone => ⟨.inr hTake, hNone⟩, fun h => h.2⟩
    · rw [if_neg hTake]
      refine ⟨nofun, fun h => ?_⟩
      rcases h.1 with h | h
      · exact absurd h hShort
      · exact absurd h hTake

/-- The checker does with a line what it should exactly when the line is not one of its numbers, and
it neither has another prefix nor a space behind each number; without numbers, when the line is the
prefix. -/
theorem manyInt_exact_iff (hEnd : carriageReturn ∉ line) (numbers : List Nat) :
    ManyIntExact line word numElements numbers ↔ ManyIntHolds line word numElements := by
  unfold ManyIntHolds
  by_cases hNone : numElements = 0
  · rw [if_pos hNone, hNone]
    constructor
    · intro h
      rcases (h numbers).mp (checkBufWithManyInt_zero numbers) with ⟨found, hLength, hLine, -⟩
      rwa [eq_nil_of_length_eq_zero hLength] at hLine
    · intro hLine result
      rw [checkBufWithManyInt_zero]
      constructor
      · intro h
        exact ⟨[], rfl, hLine, (Option.some.inj h).symm⟩
      · rintro ⟨found, hLength, -, rfl⟩
        rw [eq_nil_of_length_eq_zero hLength, overwrite_nil]
  · rw [if_neg hNone]
    constructor
    · intro h
      have hWrong : ¬ ∃ found, found.length = numElements ∧ NumbersLine word line found := by
        rintro ⟨found, rfl, hLine⟩
        have hSome := (h _).mpr ⟨found, rfl, hLine, rfl⟩
        have hFound : found ≠ [] := fun hNil => hNone (hNil ▸ rfl)
        have hReject := (@checkBufWithManyInt_none_iff word line _ numbers hEnd hNone).mpr
          ⟨.inr hLine.front.2, hLine.not_spaced hFound⟩
        rw [hReject] at hSome
        exact absurd hSome nofun
      have hReject : checkBufWithManyInt line word numElements numbers = none := by
        rw [eq_none_iff_forall_ne_some]
        intro result hSome
        rcases (h result).mp hSome with ⟨found, hLength, hLine, -⟩
        exact hWrong ⟨found, hLength, hLine⟩
      rcases (checkBufWithManyInt_none_iff hEnd hNone).mp hReject with ⟨hPrefix, hSpaced⟩
      exact ⟨hPrefix, hWrong, hSpaced⟩
    · rintro ⟨hPrefix, hWrong, hSpaced⟩ result
      rw [(checkBufWithManyInt_none_iff hEnd hNone).mpr ⟨hPrefix, hSpaced⟩]
      constructor
      · nofun
      · rintro ⟨found, hLength, hLine, -⟩
        exact absurd ⟨found, hLength, hLine⟩ hWrong

/-! ## The number fields -/

/-- What comes back of an unsigned number that is sent, of the text of a signed number, and of a line
with several numbers. -/
theorem number_fields_iff (hWord : 0 ∉ word) (hValue : value < 2 ^ 32)
    (hWrite : 128 < w.writeBufSize) (hRead : 127 < readBufSize) (hSep : Separates sep)
    (hi : -2 ^ 31 ≤ i ∧ i < 2 ^ 31) (hFit : (word ++ sep ++ intStr i).length < readBufSize)
    (hEnd : carriageReturn ∉ line) (numbers : List Nat) :
    (∃ w' sent, sendWithCrWithNumber w word value = some w' ∧ w'.text = w.text ++ sent ∧
        ∀ rest s, Reads readBufSize (sent ++ rest) s →
          ((∃ s', recNumber word number s = .ok (value, s')) ↔
            carriageReturn ∉ word ∧ word.length + 1 + (guint64Str value).length ≤ 127 ∧
              value < maxUint32)) ∧
      (∀ rest s, Reads readBufSize (word ++ sep ++ intStr i ++ carriageReturn :: rest) s →
        ((∃ s', recIntNumber word s = .ok (i, s')) ↔
          carriageReturn ∉ word ∧ (0 ≤ i ∨ i = -2 ^ 31))) ∧
      (ManyIntExact line word numElements numbers ↔ ManyIntHolds line word numElements) := by
  refine ⟨?_, ?_, ?_⟩
  · exact recNumber_iff hWord (by omega) hWrite hRead
  · intro rest s hReads
    exact recIntNumber_iff hWord hSep hi hFit hReads
  · exact manyInt_exact_iff hEnd numbers

/-- The greatest number but one, the least signed number, and a line that is too short. -/
theorem number_fields_iff_node :
    (∃ w' sent, sendWithCrWithNumber (Writer.create 256) (ascii "node:") 4294967294 = some w' ∧
        w'.text = sent ∧
        ∀ rest s, Reads 256 (sent ++ rest) s →
          ∃ s', recNumber (ascii "node:") 0 s = .ok (4294967294, s')) ∧
      (∀ rest s, Reads 256 (ascii "node: -2147483648\n" ++ rest) s →
        ∃ s', recIntNumber (ascii "node:") s = .ok (-2147483648, s')) ∧
      ManyIntExact (ascii "no") (ascii "node:") 2 [0, 0] := by
  rcases @number_fields_iff (ascii "node:") (ascii "no") (ascii " ") 4294967294 0 2 256
    (Writer.create 256) (-2147483648) (by decide) (by decide) (by decide) (by decide)
    (Or.inr rfl) (by decide) (by decide) (by decide) [0, 0] with ⟨hUnsigned, hSigned, hMany⟩
  refine ⟨?_, ?_, ?_⟩
  · rcases hUnsigned with ⟨w', sent, hSend, hText, hRec⟩
    refine ⟨w', sent, hSend, hText, fun rest s hReads => ?_⟩
    exact (hRec rest s hReads).mpr ⟨by decide, by decide, by decide⟩
  · intro rest s hReads
    exact (hSigned rest s hReads).mpr ⟨by decide, Or.inr rfl⟩
  · refine hMany.mpr ⟨Or.inl (by decide), ?_, ?_⟩
    · rintro ⟨found, -, hLine⟩
      exact hLine.front.1 (by decide)
    · intro hSpaced
      exact hSpaced.front.1 (by decide)

/-- The greatest number is sent and not received, -5 comes back as 5, and of "data: 1 2" and
"date: 1 2" the checker accepts the wrong one. -/
theorem greatest_number_sign_and_list :
    (sendWithCrWithNumber (Writer.create 256) (ascii "n:") 4294967295).map Writer.text =
        some (ascii "n: 4294967295\n") ∧
      recNumber (ascii "n:") 0 ⟨Connection.create 32, [.data 110 (ascii ": 4294967295\n")]⟩ =
        .error (.error protocolError) ∧
      ascii "n: " ++ intStr (-5) = ascii "n: -5" ∧
      (recIntNumber (ascii "n:") ⟨Connection.create 32, [.data 110 (ascii ": -5\n")]⟩).map
        Prod.fst = .ok 5 ∧
      NumbersLine (ascii "data:") (ascii "data: 1 2") [1, 2] ∧
      checkBufWithManyInt (ascii "data: 1 2") (ascii "data:") 2 [0, 0] = none ∧
      checkBufWithManyInt (ascii "date: 1 2") (ascii "data:") 2 [0, 0] = some [0, 0] := by
  refine ⟨by decide, rfl, by decide, ?_, ?_, by decide, by decide⟩
  · decide +kernel
  · refine ⟨[spaceChar], [ascii "1", ascii "2"], Or.inr rfl, ?_, by decide⟩
    have hOne : IsNumber (ascii "1") 1 :=
      ⟨by decide, List.forall_iff_forall_mem.mp (by decide), by decide, by decide⟩
    have hTwo : IsNumber (ascii "2") 2 :=
      ⟨by decide, List.forall_iff_forall_mem.mp (by decide), by decide, by decide⟩
    exact .cons hOne (.cons hTwo .nil)

end IClaustron.Protocol
