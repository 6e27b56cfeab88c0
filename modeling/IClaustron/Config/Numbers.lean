import IClaustron.Config.Reader

/-!
# Config.Numbers — numbers in configuration files and in commands

`ic_conv_config_str_to_int` of util/ic_config_reader.c and `ic_found_num` of
util/ic_lex_support.c against what a string of digits with a unit denotes. The loop
computes modulo 2 ^ 64 and does not notice it, and the two words leave the function
before the value is set.

* `convDigits_eq` — what the loop makes of any string;
* `numbers_iff` — the strings for which the functions do what they are for;
* `overflow_accepted` — a number that is too large is found as 0.
-/

namespace IClaustron.Config

open Lib Protocol List

/-- `ic_found_num`, with which the lexers take a string of digits; `none` is an error. -/
def foundNum (str : Bytes) : Option (Option UInt64) := convConfigStrToInt str

/-! ## What a string denotes -/

/-- k, m and g, also in upper case. -/
def letterFactor (c : UInt8) : Option Nat :=
  if c = 107 ∨ c = 75 then some (2 ^ 10)
  else if c = 109 ∨ c = 77 then some (2 ^ 20)
  else if c = 103 ∨ c = 71 then some (2 ^ 30)
  else none

/-- The factor of what stands behind the digits. -/
def unitFactor : Bytes → Option Nat
  | [] => some 1
  | [c] => letterFactor c
  | _ => none

/-- The string is a number, of any size: one or more digits and at most one unit. -/
def Written (str : Bytes) (n : Nat) : Prop :=
  ∃ digits unit factor, str = digits ++ unit ∧ digits ≠ [] ∧ (∀ c ∈ digits, isDigit c = true) ∧
    unitFactor unit = some factor ∧ n = digitsVal digits * factor

/-- The number that a string denotes, if any. -/
def Denotes (str : Bytes) (n : Nat) : Prop :=
  Written str n ∧ n < 2 ^ 64 ∨ str = falseStr ∧ n = 0 ∨ str = trueStr ∧ n = 1

/-- On this string the conversion returns 0 with `*value` set to the number that is denoted, and an
error if there is none; `old` is what `*value` was. A string of digits of 2 ^ 64 or more is an error
for the lexers. -/
structure Converts (str : Bytes) (old : UInt64) : Prop where
  denoted : ∀ n, Denotes str n →
    ∃ value, convConfigStrToInt str = some value ∧ (value.getD old).toNat = n
  refused : (¬ ∃ n, Denotes str n) → convConfigStrToInt str = none
  overflow : (∀ c ∈ str, isDigit c = true) → 2 ^ 64 ≤ digitsVal str → foundNum str = none

/-! ## The loop -/

theorem digit_toNat {c : UInt8} (h : isDigit c = true) :
    (c - 48).toUInt64 = UInt64.ofNat (c.toNat - 48) := by
  have hLe : (48 : UInt8) ≤ c := by
    unfold isDigit at h
    rw [decide_eq_true_eq] at h
    exact h.1
  rw [← UInt64.ofNat_uInt8ToNat, UInt8.toNat_sub_of_le c 48 hLe]
  rfl

/-- The digits in front, in the arithmetic of 64 bits. -/
theorem convDigits_digits (digits rest : Bytes) (h : ∀ c ∈ digits, isDigit c = true) (a : Nat) :
    convDigits (UInt64.ofNat a) (digits ++ rest) =
      convDigits (UInt64.ofNat (digits.foldl (fun val d => val * 10 + (d.toNat - 48)) a)) rest := by
  induction digits generalizing a with
  | nil => rfl
  | cons c digits ih =>
    rw [forall_mem_cons] at h
    have hStep : UInt64.ofNat a * 10 + (c - 48).toUInt64 =
        UInt64.ofNat (a * 10 + (c.toNat - 48)) := by
      rw [digit_toNat h.1, UInt64.ofNat_add, UInt64.ofNat_mul]
      rfl
    rw [cons_append, convDigits, if_pos h.1, hStep, ih h.2]
    rfl

theorem unitOf_eq (c : UInt8) : unitOf c = (unitFactor [c]).map UInt64.ofNat := by
  show unitOf c = (letterFactor c).map UInt64.ofNat
  unfold unitOf letterFactor
  split_ifs
  · rfl
  · rfl
  · rfl
  · rfl

/-- Behind the digits. -/
theorem convDigits_unit {unit : Bytes} (h : ∀ c ∈ unit.head?, isDigit c = false) (a : Nat) :
    convDigits (UInt64.ofNat a) unit =
      (unitFactor unit).map fun factor => UInt64.ofNat (a * factor) := by
  cases unit with
  | nil => simp [convDigits, unitFactor]
  | cons c unit =>
    have hc : ¬ isDigit c = true := by
      rw [h c rfl]
      exact Bool.false_ne_true
    rw [convDigits, if_neg hc]
    cases unit with
    | nil =>
      rw [if_pos rfl, unitOf_eq, Option.map_map]
      refine congrArg (fun f => Option.map f (unitFactor [c])) (funext fun factor => ?_)
      exact (UInt64.ofNat_mul a factor).symm
    | cons d unit =>
      rw [if_neg (cons_ne_nil d unit)]
      rfl

/-- What the loop makes of a string: the digits in front, and what stands behind them. -/
theorem convDigits_eq (str : Bytes) :
    convDigits 0 str = (unitFactor (str.dropWhile isDigit)).map fun factor =>
      UInt64.ofNat (digitsVal (str.takeWhile isDigit) * factor) := by
  have hSplit := takeWhile_append_dropWhile (p := isDigit) (l := str)
  have hHead : ∀ c ∈ (str.dropWhile isDigit).head?, isDigit c = false := by
    intro c hc
    have := head?_dropWhile_not isDigit str
    rw [Option.mem_def] at hc
    rw [hc] at this
    simpa using this
  have hDigits : ∀ c ∈ str.takeWhile isDigit, isDigit c = true := fun c => mem_takeWhile_imp
  have hRun := convDigits_digits (str.takeWhile isDigit) (str.dropWhile isDigit) hDigits 0
  rw [hSplit] at hRun
  exact hRun.trans (convDigits_unit hHead _)

/-- A unit does not begin with a digit. -/
theorem not_digit_of_unitFactor {unit : Bytes} {factor : Nat} (h : unitFactor unit = some factor) :
    ∀ c ∈ unit.head?, isDigit c = false := by
  intro c hc
  match unit with
  | [] => cases hc
  | [d] =>
    cases hc
    have h : letterFactor c = some factor := h
    unfold letterFactor at h
    split_ifs at h with hk hm hg
    · rcases hk with rfl | rfl <;> decide
    · rcases hm with rfl | rfl <;> decide
    · rcases hg with rfl | rfl <;> decide
  | _ :: _ :: _ => cases h

variable {str : Bytes} {n : Nat}

/-- The digits and the unit of a number are found by the digits in front. -/
theorem written_iff : Written str n ↔ str.takeWhile isDigit ≠ [] ∧
    ∃ factor, unitFactor (str.dropWhile isDigit) = some factor ∧
      n = digitsVal (str.takeWhile isDigit) * factor := by
  constructor
  · rintro ⟨digits, unit, factor, rfl, hNe, hDigits, hUnit, hn⟩
    have hHead := not_digit_of_unitFactor hUnit
    rw [takeWhile_append_of_all hDigits hHead, dropWhile_append_of_all hDigits hHead]
    exact ⟨hNe, factor, hUnit, hn⟩
  · rintro ⟨hNe, factor, hUnit, hn⟩
    exact ⟨_, _, factor, takeWhile_append_dropWhile.symm, hNe,
      fun c => mem_takeWhile_imp, hUnit, hn⟩

theorem Written.unique {m : Nat} (hn : Written str n) (hm : Written str m) : n = m := by
  rcases written_iff.mp hn with ⟨-, f, hf, rfl⟩
  rcases written_iff.mp hm with ⟨-, g, hg, rfl⟩
  rw [hf] at hg
  rw [Option.some.inj hg]

/-- A number is computed modulo 2 ^ 64. -/
theorem Written.convDigits (h : Written str n) : convDigits 0 str = some (UInt64.ofNat n) := by
  rcases written_iff.mp h with ⟨-, factor, hUnit, rfl⟩
  rw [convDigits_eq, hUnit]
  rfl

/-- Apart from numbers, only nothing at all and a unit alone get through. -/
theorem convDigits_other (h : ¬ ∃ n, Written str n) :
    Config.convDigits 0 str = none ∨ (unitFactor str).isSome := by
  rw [convDigits_eq]
  cases hUnit : unitFactor (str.dropWhile isDigit) with
  | none => exact .inl rfl
  | some factor =>
    refine .inr ?_
    have hEmpty : str.takeWhile isDigit = [] := by
      by_contra hNe
      exact h ⟨_, written_iff.mpr ⟨hNe, factor, hUnit, rfl⟩⟩
    have hSplit := takeWhile_append_dropWhile (p := isDigit) (l := str)
    rw [hEmpty, nil_append] at hSplit
    rw [← hSplit, hUnit]
    rfl

/-! ## The words -/

theorem not_written_word (h : str = falseStr ∨ str = trueStr) : ¬ Written str n := by
  intro hw
  refine (written_iff.mp hw).1 ?_
  rcases h with rfl | rfl
  · decide
  · decide

theorem not_unit_word (h : str = falseStr ∨ str = trueStr) : unitFactor str = none := by
  rcases h with rfl | rfl
  · decide
  · decide

/-- A unit alone, or nothing, is not a number. -/
theorem not_written_unit (h : (unitFactor str).isSome) : ¬ Written str n := by
  rintro ⟨digits, unit, -, rfl, hNe, hDigits, -, -⟩
  rcases exists_cons_of_ne_nil hNe with ⟨c, digits, rfl⟩
  rcases Option.isSome_iff_exists.mp h with ⟨factor, hUnit⟩
  have := not_digit_of_unitFactor hUnit c rfl
  rw [hDigits c mem_cons_self] at this
  cases this

theorem not_denotes_unit (h : (unitFactor str).isSome) : ¬ ∃ n, Denotes str n := by
  rintro ⟨n, hw | ⟨rfl, -⟩ | ⟨rfl, -⟩⟩
  · exact not_written_unit h hw.1
  · cases h
  · cases h

theorem convConfigStrToInt_written (h : Written str n) :
    convConfigStrToInt str = some (some (UInt64.ofNat n)) := by
  have hWord : ¬ (str = falseStr ∨ str = trueStr) := fun hw => not_written_word hw h
  rw [convConfigStrToInt, if_neg hWord, h.convDigits]
  rfl

theorem convConfigStrToInt_word (h : str = falseStr ∨ str = trueStr) :
    convConfigStrToInt str = some none := if_pos h

theorem written_of_digits (hNe : str ≠ []) (h : ∀ c ∈ str, isDigit c = true) :
    Written str (digitsVal str) :=
  ⟨str, [], 1, (append_nil str).symm, hNe, h, rfl, (Nat.mul_one _).symm⟩

/-- The functions do what they are for exactly if the string is not empty and not a unit alone, a
number in it is below 2 ^ 64, and for the words the value was right before. -/
theorem numbers_iff (str : Bytes) (old : UInt64) :
    Converts str old ↔
      unitFactor str = none ∧ (∀ n, Written str n → n < 2 ^ 64) ∧
        (str = falseStr → old = 0) ∧ (str = trueStr → old = 1) := by
  constructor
  · intro h
    refine ⟨?_, fun n hn => ?_, fun hf => ?_, fun ht => ?_⟩
    · by_contra hUnit
      have hSome : (unitFactor str).isSome := Option.isSome_iff_ne_none.mpr hUnit
      have hRefused := h.refused (not_denotes_unit hSome)
      have hWord : ¬ (str = falseStr ∨ str = trueStr) := fun hw => hUnit (not_unit_word hw)
      have hRest : str.dropWhile isDigit = str := by
        rcases Option.isSome_iff_exists.mp hSome with ⟨factor, hFactor⟩
        exact @dropWhile_append_of_all isDigit [] str (fun _ hc => absurd hc List.not_mem_nil)
          (not_digit_of_unitFactor hFactor)
      rw [convConfigStrToInt, if_neg hWord, convDigits_eq, hRest] at hRefused
      rw [Option.map_eq_none_iff, Option.map_eq_none_iff] at hRefused
      exact hUnit hRefused
    · by_contra hLarge
      have hNot : ¬ ∃ m, Denotes str m := by
        rintro ⟨m, ⟨hm, hLt⟩ | ⟨hw, -⟩ | ⟨hw, -⟩⟩
        · exact hLarge (hn.unique hm ▸ hLt)
        · exact not_written_word (.inl hw) hn
        · exact not_written_word (.inr hw) hn
      have hRefused := h.refused hNot
      rw [convConfigStrToInt_written hn] at hRefused
      cases hRefused
    · rcases h.denoted 0 (.inr (.inl ⟨hf, rfl⟩)) with ⟨value, hValue, hOld⟩
      rw [convConfigStrToInt_word (.inl hf)] at hValue
      cases hValue
      exact UInt64.toNat_inj.mp hOld
    · rcases h.denoted 1 (.inr (.inr ⟨ht, rfl⟩)) with ⟨value, hValue, hOld⟩
      rw [convConfigStrToInt_word (.inr ht)] at hValue
      cases hValue
      exact UInt64.toNat_inj.mp hOld
  · rintro ⟨hUnit, hSmall, hFalse, hTrue⟩
    refine ⟨?_, fun hNot => ?_, fun hDigits hLarge => ?_⟩
    · rintro n (⟨hn, hLt⟩ | ⟨hw, rfl⟩ | ⟨hw, rfl⟩)
      · refine ⟨_, convConfigStrToInt_written hn, ?_⟩
        exact UInt64.toNat_ofNat_of_lt hLt
      · refine ⟨none, convConfigStrToInt_word (.inl hw), ?_⟩
        rw [hFalse hw]
        rfl
      · refine ⟨none, convConfigStrToInt_word (.inr hw), ?_⟩
        rw [hTrue hw]
        rfl
    · have hWord : ¬ (str = falseStr ∨ str = trueStr) := by
        rintro (hw | hw)
        · exact hNot ⟨0, .inr (.inl ⟨hw, rfl⟩)⟩
        · exact hNot ⟨1, .inr (.inr ⟨hw, rfl⟩)⟩
      have hWritten : ¬ ∃ n, Written str n := by
        rintro ⟨n, hn⟩
        exact hNot ⟨n, .inl ⟨hn, hSmall n hn⟩⟩
      rcases convDigits_other hWritten with hNone | hSome
      · rw [convConfigStrToInt, if_neg hWord, hNone]
        rfl
      · rw [hUnit] at hSome
        cases hSome
    · have hNe : str ≠ [] := by
        rintro rfl
        cases hUnit
      exact absurd (hSmall _ (written_of_digits hNe hDigits)) (Nat.not_lt.mpr hLarge)

/-- 2 ^ 64 is found as 0 by the lexers. -/
theorem overflow_accepted : ¬ Converts (ascii "18446744073709551616") 0 := by
  intro h
  have hRefused := h.overflow (by decide +kernel) (by decide +kernel)
  have hFound : foundNum (ascii "18446744073709551616") = some (some 0) := by decide +kernel
  rw [hFound] at hRefused
  cases hRefused

end IClaustron.Config
