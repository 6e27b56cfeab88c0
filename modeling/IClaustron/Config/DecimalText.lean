import IClaustron.Config.VersionRoundTrip
import IClaustron.Protocol.NumberFields

/-!
# Config.DecimalText — numbers as texts, and texts as numbers

Model of ic_reverse_str and ic_guint64_str in util/ic_string.c, and of ic_conv_str_to_int in
util/ic_config_reader.c.

* `decimal_text_iff` — a number is printed and read back; and which texts are read as their digits
  say.

Scope limits: a text has a NUL byte behind it.
-/

namespace IClaustron.Config

open Lib Protocol List Option

/-! ## Model -/

/-- `ic_reverse_str`: what it writes to `out_buf`. It is `none` when there is no `end_char`. -/
def icReverseStr (inBuf : Bytes) (endChar : UInt8) : Option Bytes :=
  if endChar ∈ inBuf then some ((inBuf.takeWhile (· ≠ endChar)).reverse ++ [endChar]) else none

/-- The loop of `ic_guint64_str`: the digits from the last one on. -/
def digitLoop (val : UInt64) : Bytes :=
  if h : val = 0 then []
  else (48 + (val - val / 10 * 10).toUInt8) :: digitLoop (val / 10)
termination_by val.toNat
decreasing_by
  have hPos : 0 < val.toNat := Nat.pos_of_ne_zero fun hZero => h (UInt64.toNat_inj.mp hZero)
  rw [UInt64.toNat_div]
  exact Nat.div_lt_self hPos (by decide)

/-- `buf` of `ic_guint64_str`, without the NUL byte. -/
def reversedDigits (val : UInt64) : Bytes := if val = 0 then [48] else digitLoop val

/-- `ic_guint64_str`: the bytes behind `ptr`, and the length. It is `none` when `buf` is too
small. -/
def icGuint64Str (val : UInt64) : Option (Bytes × Nat) :=
  let buf := reversedDigits val ++ [0]
  if 128 < buf.length then none
  else do
    let ptr ← icReverseStr buf 0
    return (ptr, (reversedDigits val).length)

/-- The loop of `ic_conv_str_to_int` for the length, with at most `left` more digits. -/
def lengthLoop (str : Bytes) : Nat → Nat → Option Nat
  | 0, strLen => some strLen
  | left + 1, strLen => do
    let c ← str[strLen]?
    if isDigit c then lengthLoop str left (strLen + 1) else some strLen

/-- What `ic_conv_str_to_int` returns: 0 with a number and a length, or 1. -/
inductive Parsed where
  | ok (number : UInt64) (len : Nat)
  | error
  deriving DecidableEq

/-- `ic_conv_str_to_int`; `len` is `none` for NULL. It is `none` when it reads behind `str` or
writes behind the 64 bytes of `reverse_str`. -/
def icConvStrToInt (str : Bytes) (len : Option Nat) : Option Parsed := do
  let strLen ← lengthLoop str (min 62 (len.getD 62)) 0
  if 60 < strLen ∨ strLen = 0 then some .error
  else do
    let endChar ← str[strLen]?
    let revStr ← icReverseStr str endChar
    if 64 < revStr.length then none
    else some (.ok (convReversed 0 1 (revStr.takeWhile (· ≠ endChar))) strLen)

/-! ### Texts -/

/-- The digits that a text begins with, as far as the limit goes. -/
def leadingDigits (text : Bytes) : Option Nat → Bytes
  | none => text.takeWhile isDigit
  | some maxLen => (text.take maxLen).takeWhile isDigit

/-- The decimal text of a number, without zeros in front of it. -/
structure Canonical (str : Bytes) (val : UInt64) : Prop where
  decimal : Decimal str
  value : digitsVal str = val.toNat
  noZero : str.head? = some 48 → str = [48]

/-- What is to be returned for a text. -/
def parsedAs (text : Bytes) (len : Option Nat) : Parsed :=
  let digits := leadingDigits text len
  if digits ≠ [] ∧ digitsVal digits < 2 ^ 64 then
    .ok (UInt64.ofNat (digitsVal digits)) digits.length
  else .error

/-- The texts for which it is: those with no digits in front; those with at most 60 of them and a
number below 2 ^ 64, unless the limit is followed by a digit that is one of them and they are not
all zeros; and those with more than 60 digits of a number that is too large. -/
def WellRead (text : Bytes) (len : Option Nat) : Prop :=
  let digits := leadingDigits text len
  digits = [] ∨
  (digits.length ≤ 60 ∧ digitsVal digits < 2 ^ 64 ∧
    ∀ c ∈ (text.drop digits.length).head?, c ∈ digits → ∀ d ∈ digits, d = 48) ∨
  (60 < digits.length ∧ 2 ^ 64 ≤ digitsVal digits)

/-! ## Reversed texts -/

/-- What is in front of the first end character of a text. -/
theorem takeWhile_ne (front rest : Bytes) (c : UInt8) :
    (front ++ c :: rest).takeWhile (· ≠ c) = front.takeWhile (· ≠ c) := by
  induction front with
  | nil => simp
  | cons d front ih =>
    by_cases hd : d = c
    · simp [hd]
    · simp only [cons_append, takeWhile_cons, ne_eq, hd, not_false_eq_true, decide_true,
        if_true]
      rw [← ih]

theorem icReverseStr_eq (front rest : Bytes) (c : UInt8) :
    icReverseStr (front ++ c :: rest) c = some ((front.takeWhile (· ≠ c)).reverse ++ [c]) := by
  unfold icReverseStr
  rw [if_pos (mem_append_right _ mem_cons_self), takeWhile_ne]

/-- Reversed once more, it is a text without the end character. -/
theorem takeWhile_reversed (front : Bytes) (c : UInt8) :
    ((front.takeWhile (· ≠ c)).reverse ++ [c]).takeWhile (· ≠ c) =
      (front.takeWhile (· ≠ c)).reverse := by
  rw [takeWhile_ne, takeWhile_eq_self_iff]
  intro d hd
  exact mem_takeWhile_imp (p := fun x => decide (x ≠ c)) (mem_reverse.mp hd)

/-! ## Printing -/

/-- The digit of a round. -/
theorem digit_eq (val : UInt64) :
    48 + (val - val / 10 * 10).toUInt8 = UInt8.ofNat (48 + val.toNat % 10) := by
  have hMod : (val - val / 10 * 10).toNat = val.toNat % 10 := by
    have hLt := val.toNat_lt
    have hMul : (val / 10 * 10).toNat = val.toNat / 10 * 10 := by
      rw [UInt64.toNat_mul, UInt64.toNat_div]
      exact Nat.mod_eq_of_lt (by show val.toNat / 10 * 10 < 2 ^ 64; omega)
    rw [UInt64.toNat_sub_of_le _ _ (UInt64.le_iff_toNat_le.mpr (by rw [hMul]; omega)), hMul]
    omega
  apply UInt8.toNat_inj.mp
  rw [UInt8.toNat_add, UInt64.toNat_toUInt8, hMod, UInt8.toNat_ofNat']
  show (48 + val.toNat % 10 % 2 ^ 8) % 2 ^ 8 = (48 + val.toNat % 10) % 2 ^ 8
  omega

theorem digitLoop_eq (val : UInt64) :
    digitLoop val = (Nat.digits 10 val.toNat).map fun d => UInt8.ofNat (48 + d) := by
  fun_induction digitLoop val with
  | case1 => rfl
  | case2 val h ih =>
    have hPos : 0 < val.toNat := Nat.pos_of_ne_zero fun hZero => h (UInt64.toNat_inj.mp hZero)
    have hDiv : (val / 10).toNat = val.toNat / 10 := UInt64.toNat_div val 10
    rw [ih, hDiv, digit_eq, Nat.digits_def' (by decide) hPos, map_cons]

/-- The digits are those of the decimal text, in reverse. -/
theorem reversedDigits_eq (val : UInt64) : reversedDigits val = (guint64Str val.toNat).reverse := by
  unfold reversedDigits guint64Str
  by_cases h : val = 0
  · subst h
    rfl
  · have hNat : val.toNat ≠ 0 := fun hZero => h (UInt64.toNat_inj.mp hZero)
    rw [if_neg h, if_neg hNat, digitLoop_eq, ← map_reverse, reverse_reverse]

/-- The text of a number is its decimal text, with a NUL byte behind it. -/
theorem icGuint64Str_eq (val : UInt64) : icGuint64Str val =
    some (guint64Str val.toNat ++ [0], (guint64Str val.toNat).length) := by
  have hDigits : ∀ c ∈ reversedDigits val, c ≠ 0 := by
    intro c hc hZero
    rw [reversedDigits_eq, mem_reverse] at hc
    subst hZero
    exact absurd (isDigit_guint64Str hc) (by decide)
  have hLe : (guint64Str val.toNat).length ≤ 20 :=
    length_guint64Str_le (by decide) (Nat.lt_of_lt_of_le val.toNat_lt (by decide))
  have hRoom : ¬ 128 < (reversedDigits val ++ [0]).length := by
    rw [length_append, reversedDigits_eq, length_reverse, length_singleton]
    omega
  have hAll : (reversedDigits val).takeWhile (· ≠ 0) = reversedDigits val :=
    takeWhile_eq_self_iff.mpr fun c hc => decide_eq_true (hDigits c hc)
  have hReverse : icReverseStr (reversedDigits val ++ [0]) 0 =
      some ((reversedDigits val).reverse ++ [0]) := by
    rw [icReverseStr_eq, hAll]
  unfold icGuint64Str
  dsimp only
  rw [if_neg hRoom, hReverse, reversedDigits_eq, reverse_reverse, length_reverse]
  rfl

/-- It has a zero in front only if it is the one of 0. -/
theorem canonical_guint64Str (val : UInt64) : Canonical (guint64Str val.toNat) val := by
  refine ⟨⟨guint64Str_ne_nil _, fun c hc => isDigit_guint64Str hc⟩, digitsVal_guint64Str _, ?_⟩
  intro hHead
  by_cases hZero : val.toNat = 0
  · rw [hZero]
    rfl
  · exfalso
    have hNe : Nat.digits 10 val.toNat ≠ [] := Nat.digits_ne_nil_iff_ne_zero.mpr hZero
    have hLast := Nat.getLast_digit_ne_zero 10 hZero
    have hLt : (Nat.digits 10 val.toNat).getLast hNe < 10 :=
      Nat.digits_lt_base (by decide) (getLast_mem hNe)
    unfold guint64Str at hHead
    rw [if_neg hZero, head?_map, head?_reverse, getLast?_eq_some_getLast hNe,
      map_some] at hHead
    have hChar := Option.some.inj hHead
    generalize (Nat.digits 10 val.toNat).getLast hNe = d at hLast hLt hChar
    have hTable : ∀ d : Fin 10, UInt8.ofNat (48 + d) = 48 → d = 0 := by decide
    exact hLast (congrArg Fin.val (hTable ⟨d, hLt⟩ hChar))

/-! ## Parsing -/

section Parsing

variable {text : Bytes} {len : Option Nat} {stop : UInt8} {rest : Bytes}

/-- The loop stops at the end of the digits. -/
theorem lengthLoop_eq (hStop : isDigit stop = false) (left : Nat) :
    ∀ front text : Bytes, lengthLoop (front ++ (text ++ stop :: rest)) left front.length =
      some (front.length + ((text.take left).takeWhile isDigit).length) := by
  induction left with
  | zero =>
    intro front text
    rw [lengthLoop, take_zero, takeWhile_nil, length_nil, Nat.add_zero]
  | succ left ih =>
    intro front text
    cases text with
    | nil =>
      rw [lengthLoop, nil_append, getElem?_append_right (Nat.le_refl _), Nat.sub_self]
      simp [hStop]
    | cons c text =>
      rw [lengthLoop, cons_append, getElem?_append_right (Nat.le_refl _), Nat.sub_self,
        getElem?_cons_zero, bind_eq_bind, bind_some, take_succ_cons]
      by_cases hDigit : isDigit c = true
      · have hNext := ih (front ++ [c]) text
        rw [length_append, length_singleton, append_assoc, singleton_append]
          at hNext
        rw [if_pos hDigit, hNext, takeWhile_cons_of_pos hDigit, length_cons]
        congr 1
        omega
      · rw [if_neg hDigit, takeWhile_cons_of_neg hDigit, length_nil, Nat.add_zero]

/-- At most 62 of the leading digits are counted. -/
theorem lengthLoop_leadingDigits (hStop : isDigit stop = false) :
    lengthLoop (text ++ stop :: rest) (min 62 (len.getD 62)) 0 =
      some (min 62 (leadingDigits text len).length) := by
  have hLoop : lengthLoop ([] ++ (text ++ stop :: rest)) (min 62 (len.getD 62)) 0 = _ :=
    lengthLoop_eq hStop _ [] text
  rw [nil_append, length_nil, Nat.zero_add] at hLoop
  rw [hLoop]
  cases len with
  | none =>
    show some ((text.take 62).takeWhile isDigit).length = _
    rw [← take_takeWhile, length_take]
    rfl
  | some maxLen =>
    show some ((text.take (min 62 maxLen)).takeWhile isDigit).length = _
    rw [← take_take, ← take_takeWhile, length_take]
    rfl

theorem exists_rest (text : Bytes) (len : Option Nat) :
    ∃ rest, text = leadingDigits text len ++ rest := by
  cases len with
  | none => exact ⟨_, (takeWhile_append_dropWhile (p := isDigit)).symm⟩
  | some maxLen =>
    refine ⟨(text.take maxLen).dropWhile isDigit ++ text.drop maxLen, ?_⟩
    show text = (text.take maxLen).takeWhile isDigit ++ _
    rw [← append_assoc, takeWhile_append_dropWhile, take_append_drop]

theorem isDigit_leadingDigits {c : UInt8} (h : c ∈ leadingDigits text len) : isDigit c = true := by
  cases len with
  | none => exact mem_takeWhile_imp h
  | some maxLen => exact mem_takeWhile_imp h

/-- The number that is found: that of the digits in front of the first one that equals the
character behind them all. -/
theorem icConvStrToInt_eq (hStop : isDigit stop = false) :
    icConvStrToInt (text ++ stop :: rest) len =
      some (let digits := leadingDigits text len
        let endChar := (text.drop digits.length).headD stop
        if 60 < digits.length ∨ digits = [] then .error
        else .ok (convReversed 0 1 (digits.takeWhile (· ≠ endChar)).reverse) digits.length) := by
  rcases exists_rest text len with ⟨text', hText⟩
  unfold icConvStrToInt
  rw [lengthLoop_leadingDigits hStop]
  generalize leadingDigits text len = digits at hText ⊢
  subst hText
  dsimp only [bind, Option.bind]
  by_cases hError : 60 < digits.length ∨ digits = []
  · have hLen : 60 < min 62 digits.length ∨ min 62 digits.length = 0 := by
      rcases hError with hLong | rfl
      · left
        omega
      · right
        rfl
    rw [if_pos hError, if_pos hLen]
  · rw [not_or] at hError
    have hPos : digits.length ≠ 0 := fun h => hError.2 (length_eq_zero_iff.mp h)
    have hMin : min 62 digits.length = digits.length := by omega
    have hMem : digits ++ text' ++ stop :: rest = digits ++ text'.headD stop ::
        (text' ++ stop :: rest).tail := by
      rw [append_assoc]
      cases text' with
      | nil => rfl
      | cons c text' => rfl
    rw [hMin, if_neg (by omega), if_neg (by rw [not_or]; exact hError), drop_left, hMem,
      getElem?_append_right (Nat.le_refl _), Nat.sub_self, getElem?_cons_zero]
    dsimp only
    rw [icReverseStr_eq]
    dsimp only
    have hTake : (digits.takeWhile (· ≠ text'.headD stop)).length ≤ digits.length :=
      (List.takeWhile_prefix _).length_le
    rw [if_neg (by rw [length_append, length_reverse, length_singleton]; omega),
      takeWhile_reversed]

/-- A text of digits has the value 0 if all of them are zeros. -/
theorem digitsVal_eq_zero {digits : Bytes} (h : ∀ d ∈ digits, isDigit d = true) :
    digitsVal digits = 0 ↔ ∀ d ∈ digits, d = 48 := by
  induction digits with
  | nil => exact ⟨fun _ d hd => absurd hd not_mem_nil, fun _ => rfl⟩
  | cons c digits ih =>
    rw [forall_mem_cons] at h
    have hCons : digitsVal (c :: digits) = (c.toNat - 48) * 10 ^ digits.length + digitsVal digits := by
      rw [← singleton_append, digitsVal_append]
      simp [digitsVal]
    have hPow : 0 < 10 ^ digits.length := Nat.pow_pos (by decide)
    have hFirst : c.toNat - 48 = 0 ↔ c = 48 := by
      have hDigit : 48 ≤ c ∧ c ≤ 57 := of_decide_eq_true h.1
      have hLower : 48 ≤ c.toNat := UInt8.le_iff_toNat_le.mp hDigit.1
      constructor
      · intro hZero
        apply UInt8.toNat_inj.mp
        show c.toNat = 48
        omega
      · rintro rfl
        rfl
    rw [hCons, forall_mem_cons, ← ih h.2, ← hFirst, Nat.add_eq_zero_iff, Nat.mul_eq_zero]
    constructor
    · rintro ⟨hZero | hZero, hRest⟩
      · exact ⟨hZero, hRest⟩
      · omega
    · rintro ⟨hZero, hRest⟩
      exact ⟨.inl hZero, hRest⟩

/-- The first digits up to a character that is one of them have the same value only if all are
zeros. -/
theorem digitsVal_takeWhile {digits : Bytes} (h : ∀ d ∈ digits, isDigit d = true) (c : UInt8) :
    digitsVal (digits.takeWhile (· ≠ c)) ≤ digitsVal digits ∧
    (digitsVal (digits.takeWhile (· ≠ c)) = digitsVal digits ↔
      (c ∈ digits → ∀ d ∈ digits, d = 48)) := by
  have hSplit := takeWhile_append_dropWhile (p := fun x => decide (x ≠ c)) (l := digits)
  have hVal : digitsVal digits = digitsVal (digits.takeWhile (· ≠ c)) *
      10 ^ (digits.dropWhile (· ≠ c)).length + digitsVal (digits.dropWhile (· ≠ c)) := by
    rw [← digitsVal_append, hSplit]
  by_cases hMem : c ∈ digits
  · have hNe : digits.dropWhile (· ≠ c) ≠ [] := by
      intro hNil
      have hAll := dropWhile_eq_nil_iff.mp hNil c hMem
      exact of_decide_eq_true hAll rfl
    have hPow : 10 ≤ 10 ^ (digits.dropWhile (· ≠ c)).length := by
      have hLen := length_pos_iff.mpr hNe
      calc 10 = 10 ^ 1 := rfl
        _ ≤ 10 ^ (digits.dropWhile (· ≠ c)).length := Nat.pow_le_pow_right (by decide) hLen
    have hMul := Nat.mul_le_mul_left (digitsVal (digits.takeWhile (· ≠ c))) hPow
    refine ⟨by omega, ?_⟩
    rw [← digitsVal_eq_zero h]
    constructor
    · intro hEq _
      have hZero : digitsVal (digits.takeWhile (· ≠ c)) = 0 := by omega
      omega
    · intro hZero
      have hAll := hZero hMem
      omega
  · have hAll : digits.takeWhile (· ≠ c) = digits := by
      rw [takeWhile_eq_self_iff]
      intro d hd
      apply decide_eq_true
      rintro rfl
      exact hMem hd
    rw [hAll]
    exact ⟨Nat.le_refl _, iff_of_true rfl fun hIn => absurd hIn hMem⟩

/-- The texts that are read as their leading digits say. -/
theorem parsedAs_iff (text : Bytes) (len : Option Nat) :
    icConvStrToInt (text ++ [0]) len = some (parsedAs text len) ↔ WellRead text len := by
  have hDigits : ∀ d ∈ leadingDigits text len, isDigit d = true := fun d hd => isDigit_leadingDigits hd
  have hZero : (0 : UInt8) ∉ leadingDigits text len := fun hMem =>
    absurd (hDigits 0 hMem) (by decide)
  rw [icConvStrToInt_eq (by decide)]
  unfold parsedAs WellRead
  generalize leadingDigits text len = digits at hDigits hZero ⊢
  dsimp only
  rw [some_inj]
  by_cases hNil : digits = []
  · rw [if_pos (.inr hNil), if_neg fun h => h.1 hNil]
    exact iff_of_true rfl (.inl hNil)
  by_cases hLong : 60 < digits.length
  · rw [if_pos (.inl hLong)]
    by_cases hSmall : digitsVal digits < 2 ^ 64
    · rw [if_pos ⟨hNil, hSmall⟩]
      refine iff_of_false (fun h => nomatch h) ?_
      rintro (h | ⟨h, -⟩ | ⟨-, h⟩)
      · exact hNil h
      · omega
      · omega
    · rw [if_neg fun h => hSmall h.2]
      exact iff_of_true rfl (.inr (.inr ⟨hLong, Nat.not_lt.mp hSmall⟩))
  rw [if_neg (not_or.mpr ⟨hLong, hNil⟩)]
  by_cases hSmall : digitsVal digits < 2 ^ 64
  swap
  · rw [if_neg fun h => hSmall h.2]
    refine iff_of_false (fun h => nomatch h) ?_
    rintro (h | ⟨-, h, -⟩ | ⟨h, -⟩)
    · exact hNil h
    · exact hSmall h
    · exact hLong h
  rw [if_pos ⟨hNil, hSmall⟩]
  -- the number is that of the digits in front of the end character
  rcases digitsVal_takeWhile hDigits ((text.drop digits.length).headD 0) with ⟨hLe, hSame⟩
  have hNumber : ∀ c : UInt8,
      (convReversed 0 1 (digits.takeWhile (· ≠ c)).reverse).toNat =
        digitsVal (digits.takeWhile (· ≠ c)) % 2 ^ 64 := fun c =>
    convReversed_reverse fun d hd => hDigits d ((List.takeWhile_prefix _).subset hd)
  have hEnd : ((text.drop digits.length).headD 0 ∈ digits → ∀ d ∈ digits, d = 48) ↔
      ∀ c ∈ (text.drop digits.length).head?, c ∈ digits → ∀ d ∈ digits, d = 48 := by
    cases text.drop digits.length with
    | nil => exact ⟨fun _ _ hNone => (not_mem_none _ hNone).elim, fun _ hMem => absurd hMem hZero⟩
    | cons c rest =>
      constructor
      · rintro h c' ⟨⟩
        exact h
      · exact fun h => h c rfl
  constructor
  · intro h
    have hEq := (Parsed.ok.inj h).1
    have hNat := congrArg UInt64.toNat hEq
    rw [hNumber, UInt64.toNat_ofNat', Nat.mod_eq_of_lt (Nat.lt_of_le_of_lt hLe hSmall),
      Nat.mod_eq_of_lt hSmall] at hNat
    exact .inr (.inl ⟨Nat.not_lt.mp hLong, hSmall, hEnd.mp (hSame.mp hNat)⟩)
  · rintro (h | ⟨-, -, h⟩ | ⟨h, -⟩)
    · exact absurd h hNil
    · congr 1
      apply UInt64.toNat_inj.mp
      rw [hNumber, UInt64.toNat_ofNat', hSame.mpr (hEnd.mpr h)]
    · exact absurd h hLong

/-- A number is read back from its text, whatever comes behind it. -/
theorem icConvStrToInt_guint64Str (val : UInt64) (hStop : isDigit stop = false)
    (hLen : ∀ maxLen ∈ len, (guint64Str val.toNat).length ≤ maxLen) :
    icConvStrToInt (guint64Str val.toNat ++ stop :: rest) len =
      some (.ok val (guint64Str val.toNat).length) := by
  have hDigits : ∀ d ∈ guint64Str val.toNat, isDigit d = true := fun d hd => isDigit_guint64Str hd
  have hAll : leadingDigits (guint64Str val.toNat) len = guint64Str val.toNat := by
    cases len with
    | none => exact takeWhile_eq_self_iff.mpr hDigits
    | some maxLen =>
      show ((guint64Str val.toNat).take maxLen).takeWhile isDigit = _
      rw [take_of_length_le (hLen maxLen rfl), takeWhile_eq_self_iff]
      exact hDigits
  have hLe : (guint64Str val.toNat).length ≤ 20 :=
    length_guint64Str_le (by decide) (Nat.lt_of_lt_of_le val.toNat_lt (by decide))
  have hOther : (guint64Str val.toNat).takeWhile (· ≠ stop) = guint64Str val.toNat := by
    rw [takeWhile_eq_self_iff]
    intro d hd
    apply decide_eq_true
    rintro rfl
    rw [hDigits d hd] at hStop
    cases hStop
  have hNumber : convReversed 0 1 (guint64Str val.toNat).reverse = val := by
    apply UInt64.toNat_inj.mp
    rw [convReversed_reverse hDigits, digitsVal_guint64Str, Nat.mod_eq_of_lt val.toNat_lt]
  rw [icConvStrToInt_eq hStop, hAll]
  dsimp only
  rw [if_neg (not_or.mpr ⟨by omega, guint64Str_ne_nil _⟩), drop_length, headD_nil, hOther,
    hNumber]

end Parsing

/-- Every number is printed as its decimal text and read back from it, in front of anything that
does not go on with a digit. And a text, cut off at any limit, is read as its leading digits say
exactly if it has none, or has at most 60 of them, for a number of 64 bits, with none of them behind
the limit, or has more than 60 of them for a number that is too large. -/
theorem decimal_text_iff (val : UInt64) (text : Bytes) (len : Option Nat) :
    (∃ str, icGuint64Str val = some (str ++ [0], str.length) ∧ Canonical str val ∧
      ∀ stop rest maxLen, isDigit stop = false → (∀ n ∈ maxLen, str.length ≤ n) →
        icConvStrToInt (str ++ stop :: rest) maxLen = some (.ok val str.length)) ∧
    (icConvStrToInt (text ++ [0]) len = some (parsedAs text len) ↔ WellRead text len) :=
  ⟨⟨guint64Str val.toNat, icGuint64Str_eq val, canonical_guint64Str val,
    fun _ _ _ hStop hLen => icConvStrToInt_guint64Str val hStop hLen⟩, parsedAs_iff text len⟩

/-- The first digit of 11 alone is read as 0. -/
theorem cut_off_number : icConvStrToInt (ascii "11" ++ [0]) (some 1) = some (.ok 0 1) ∧
    parsedAs (ascii "11") (some 1) = .ok 1 1 := by
  decide

end IClaustron.Config
