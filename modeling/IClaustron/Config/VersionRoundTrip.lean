import IClaustron.Config.Numbers
import IClaustron.Config.VersionFile

/-!
# Config.VersionRoundTrip — what the version file says and what is read from it

Every version file that is written is read back (`readCv_cvBuf_of_tenDigits`). The other
way round, a file is accepted by its three lines, whose numbers have up to 60 digits and
are taken modulo 2 ^ 64, and by what is left of the 64 bytes, which may be nothing.

* `convReversed_reverse` — the number that the loop computes from the reversed digits;
* `readCv_iff` — the files that are accepted;
* `version_file_iff` — those that say what is read from them;
* `large_version_read` — a version of more than 64 bits is read as 1.
-/

namespace IClaustron.Config

open Lib Protocol List

/-! ## The number of reversed digits -/

/-- The loop of `ic_conv_str_to_int` over the digits that `ic_reverse_str` leaves. -/
def convReversed (number base : UInt64) : Bytes → UInt64
  | [] => number
  | c :: rev => convReversed (number + (c - 48).toUInt64 * base) (base * 10) rev

theorem convReversed_ofNat {rev : Bytes} (h : ∀ c ∈ rev, isDigit c = true) (a b : Nat) :
    convReversed (UInt64.ofNat a) (UInt64.ofNat b) rev =
      UInt64.ofNat (a + b * Nat.ofDigits 10 (rev.map fun c => c.toNat - 48)) := by
  induction rev generalizing a b with
  | nil => simp [convReversed]
  | cons c rev ih =>
    rw [forall_mem_cons] at h
    have hNumber : UInt64.ofNat a + (c - 48).toUInt64 * UInt64.ofNat b =
        UInt64.ofNat (a + (c.toNat - 48) * b) := by
      rw [digit_toNat h.1, UInt64.ofNat_add, UInt64.ofNat_mul]
    have hBase : UInt64.ofNat b * 10 = UInt64.ofNat (b * 10) := (UInt64.ofNat_mul b 10).symm
    rw [convReversed, hNumber, hBase, ih h.2, map_cons, Nat.ofDigits_cons]
    congr 1
    ring

theorem digitsVal_eq_ofDigits (digits : Bytes) :
    digitsVal digits = Nat.ofDigits 10 (digits.reverse.map fun c => c.toNat - 48) := by
  rw [Nat.ofDigits_eq_foldr, foldr_map, foldr_reverse, digitsVal]
  congr 1
  funext val d
  simp only [Nat.cast_id]
  ring

/-- The loop computes the decimal value modulo 2 ^ 64. -/
theorem convReversed_reverse {digits : Bytes} (h : ∀ c ∈ digits, isDigit c = true) :
    (convReversed 0 1 digits.reverse).toNat = digitsVal digits % 2 ^ 64 := by
  have hRun := convReversed_ofNat (fun c hc => h c (mem_reverse.mp hc)) 0 1
  rw [Nat.zero_add, Nat.one_mul, ← digitsVal_eq_ofDigits] at hRun
  have hStart : convReversed 0 1 digits.reverse =
    convReversed (UInt64.ofNat 0) (UInt64.ofNat 1) digits.reverse := rfl
  rw [hStart, hRun, UInt64.toNat_ofNat']

/-! ## What is accepted -/

/-- A decimal number. -/
structure Decimal (digits : Bytes) : Prop where
  nonempty : digits ≠ []
  digits : ∀ c ∈ digits, isDigit c = true

/-- A line of the version file with its number as it is written. -/
def versionLine (str digits : Bytes) : Bytes := str ++ spaceChar :: (digits ++ [carriageReturn])

/-- The content is the three lines with these numbers, and what is left behind them. -/
structure ThreeLines (data version state pid rest : Bytes) : Prop where
  eq : data = versionLine versionStr version ++
    (versionLine stateStr state ++ (versionLine pidStr pid ++ rest))
  version : Decimal version
  state : Decimal state
  pid : Decimal pid

theorem versionLine_append (str digits rest : Bytes) : versionLine str digits ++ rest =
    str ++ spaceChar :: (digits ++ carriageReturn :: rest) := by
  simp [versionLine]

theorem not_isDigit_carriageReturn : isDigit carriageReturn = false := by decide

variable {data rest : Bytes}

theorem cmpConfigVersionLine_iff {str : Bytes} {value : Nat} :
    cmpConfigVersionLine str data = .ok (value, rest) ↔ ∃ digits, Decimal digits ∧
      digits.length ≤ 60 ∧ data = versionLine str digits ++ rest ∧
      value = digitsVal digits % 2 ^ 64 ∧ value ≤ 2 ^ 32 := by
  constructor
  · intro h
    unfold cmpConfigVersionLine at h
    dsimp only at h
    split_ifs at h with hWord hSpace
    rw [not_not] at hWord hSpace
    cases hConv : convStrToInt (data.drop (str.length + 1)) with
    | none =>
      rw [hConv] at h
      cases h
    | some found =>
      rcases found with ⟨number, len⟩
      rw [hConv] at h
      dsimp only at h
      split_ifs at h with hLarge hEnd
      rw [not_not] at hEnd
      rcases convStrToInt_iff.mp hConv with ⟨digits, tail, hData, hDigits, -, hPos, hLe, hNumber, rfl⟩
      rw [hData, drop_left] at hEnd
      cases tail with
      | nil => cases hEnd
      | cons c tail =>
        have hc : c = carriageReturn := Option.some.inj hEnd
        rw [hData, ← drop_drop, drop_left] at h
        cases h
        have hSplit := take_append_drop str.length data
        rw [hWord] at hSplit
        have hBehind : data.drop str.length = spaceChar :: (digits ++ c :: tail) := by
          rcases hDrop : data.drop str.length with _ | ⟨d, behind⟩
          · rw [hDrop] at hSpace
            cases hSpace
          · rw [hDrop] at hSpace
            have hd : d = spaceChar := Option.some.inj hSpace
            have hTail : behind = digits ++ c :: tail := by
              rw [← hData, ← drop_drop, hDrop]
              rfl
            rw [hd, hTail]
        refine ⟨digits, ⟨?_, hDigits⟩, hLe, ?_, hNumber.symm, by omega⟩
        · rw [← length_pos_iff]
          omega
        · rw [versionLine_append, ← hSplit, hBehind, hc]
          rfl
  · rintro ⟨digits, hDecimal, hLe, rfl, hValue, hSmall⟩
    have hPos : 1 ≤ digits.length := length_pos_iff.mpr hDecimal.nonempty
    have hTake : (str ++ spaceChar :: (digits ++ carriageReturn :: rest)).take str.length = str :=
      take_left
    have hDrop : (str ++ spaceChar :: (digits ++ carriageReturn :: rest)).drop str.length =
      spaceChar :: (digits ++ carriageReturn :: rest) := drop_left
    have hNumber : (str ++ spaceChar :: (digits ++ carriageReturn :: rest)).drop (str.length + 1) =
        digits ++ carriageReturn :: rest := by
      rw [← drop_drop, hDrop]
      rfl
    have hConv : convStrToInt (digits ++ carriageReturn :: rest) = some (value, digits.length) := by
      refine convStrToInt_iff.mpr ⟨digits, _, rfl, hDecimal.digits, ?_, hPos, hLe, hValue.symm, rfl⟩
      intro c hc
      cases hc
      exact not_isDigit_carriageReturn
    have hEnd : (digits ++ carriageReturn :: rest).drop digits.length = carriageReturn :: rest :=
      drop_left
    have hRest : (digits ++ carriageReturn :: rest).drop (digits.length + 1) = rest := by
      rw [← drop_drop, hEnd]
      rfl
    have hRoom : ¬ ((digits ++ carriageReturn :: rest).length < digits.length + 1 ∨
        2 ^ 32 < value) := by
      rw [length_append, length_cons]
      omega
    rw [versionLine_append]
    unfold cmpConfigVersionLine
    rw [if_neg (not_not.mpr hTake), hDrop, head?_cons, if_neg (not_not.mpr rfl), hNumber]
    dsimp only
    rw [hConv]
    dsimp only
    rw [if_neg hRoom, hEnd, head?_cons, if_neg (not_not.mpr rfl), hRest]

/-- The number that is read from its digits. -/
def numberRead (digits : Bytes) : Nat := digitsVal digits % 2 ^ 64

theorem length_versionLine (str digits : Bytes) :
    (versionLine str digits).length = str.length + digits.length + 2 := by
  simp only [versionLine, length_append, length_cons, length_nil]
  omega

theorem ThreeLines.length {version state pid : Bytes} (h : ThreeLines data version state pid rest) :
    data.length = version.length + state.length + pid.length + rest.length + 24 := by
  have hWords : versionStr.length = 8 ∧ stateStr.length = 6 ∧ pidStr.length = 4 := by decide
  rw [h.eq]
  simp only [length_append, length_versionLine]
  omega

/-- What `read_config_version_file` accepts, and what it makes of it. -/
theorem readCv_iff {cv : ConfigVersion} : readCv data = .ok cv ↔
    data.length = cvFileSize ∧ ∃ version state pid rest, ThreeLines data version state pid rest ∧
      rest = spaceBuf rest.length ∧
      cv = ⟨numberRead version, numberRead state, numberRead pid⟩ ∧
      cv.version ≤ 2 ^ 32 ∧ cv.state ≤ 2 ^ 32 ∧ cv.pid ≤ 2 ^ 32 := by
  constructor
  · intro h
    unfold readCv at h
    split_ifs at h with hLen
    · cases h
    · rw [not_not] at hLen
      rcases Result.bind_eq_ok.mp h with ⟨⟨version, rest⟩, hVersion, h⟩
      rcases Result.bind_eq_ok.mp h with ⟨⟨state, rest'⟩, hState, h⟩
      rcases Result.bind_eq_ok.mp h with ⟨⟨pid, rest''⟩, hPid, h⟩
      dsimp only at h hState hPid
      split_ifs at h with hRest
      · cases h
      · cases h
        rw [not_not] at hRest
        rcases cmpConfigVersionLine_iff.mp hVersion with ⟨dv, hdv, -, rfl, rfl, hv⟩
        rcases cmpConfigVersionLine_iff.mp hState with ⟨ds, hds, -, rfl, rfl, hs⟩
        rcases cmpConfigVersionLine_iff.mp hPid with ⟨dp, hdp, -, rfl, rfl, hp⟩
        exact ⟨hLen, dv, ds, dp, rest'', ⟨rfl, hdv, hds, hdp⟩, hRest, rfl, hv, hs, hp⟩
  · rintro ⟨hLen, version, state, pid, rest, hLines, hRest, rfl, hv, hs, hp⟩
    have hFit := hLines.length
    rw [hLen, cvFileSize] at hFit
    have hVersion := cmpConfigVersionLine_iff.mpr ⟨version, hLines.version, by omega,
      hLines.eq, rfl, hv⟩
    have hState : cmpConfigVersionLine stateStr (versionLine stateStr state ++
        (versionLine pidStr pid ++ rest)) = .ok (_, versionLine pidStr pid ++ rest) :=
      cmpConfigVersionLine_iff.mpr ⟨state, hLines.state, by omega, rfl, rfl, hs⟩
    have hPid : cmpConfigVersionLine pidStr (versionLine pidStr pid ++ rest) = .ok (_, rest) :=
      cmpConfigVersionLine_iff.mpr ⟨pid, hLines.pid, by omega, rfl, rfl, hp⟩
    unfold readCv
    rw [if_neg (not_not.mpr hLen)]
    refine (Result.bind_of_ok hVersion _).trans ?_
    refine (Result.bind_of_ok hState _).trans ?_
    refine (Result.bind_of_ok hPid _).trans ?_
    exact if_neg (not_not.mpr hRest)

/-! ## What the content says -/

/-- The content is the three lines, spaces and a final line end, and these are the numbers that are
written in it. -/
def Says (data : Bytes) (cv : ConfigVersion) : Prop :=
  ∃ version state pid spaces, ThreeLines data version state pid
      (List.replicate spaces spaceChar ++ [carriageReturn]) ∧
    cv = ⟨digitsVal version, digitsVal state, digitsVal pid⟩ ∧
    cv.version ≤ 2 ^ 32 ∧ cv.state ≤ 2 ^ 32 ∧ cv.pid ≤ 2 ^ 32

/-- The three lines leave room in the 64 bytes, and their numbers have at most 64 bits. -/
def Exact (data : Bytes) : Prop :=
  ∀ version state pid rest, ThreeLines data version state pid rest →
    rest ≠ [] ∧ digitsVal version < 2 ^ 64 ∧ digitsVal state < 2 ^ 64 ∧ digitsVal pid < 2 ^ 64

/-- The digits of a line are found by its end. -/
theorem versionLine_unique {str digits digits' rest' : Bytes} (h : Decimal digits)
    (h' : Decimal digits') (hEq : versionLine str digits ++ rest = versionLine str digits' ++ rest')
    : digits = digits' ∧ rest = rest' := by
  have hNot : ∀ {ds : Bytes}, Decimal ds → carriageReturn ∉ ds := by
    intro ds hds hMem
    have := hds.digits _ hMem
    rw [not_isDigit_carriageReturn] at this
    cases this
  rw [versionLine_append, versionLine_append] at hEq
  have hBehind := (List.cons.inj (append_cancel_left hEq)).2
  exact first_sep_unique (hNot h) (hNot h') hBehind

theorem ThreeLines.unique {version state pid version' state' pid' rest' : Bytes}
    (h : ThreeLines data version state pid rest) (h' : ThreeLines data version' state' pid' rest') :
    version = version' ∧ state = state' ∧ pid = pid' ∧ rest = rest' := by
  rcases versionLine_unique h.version h'.version (h.eq.symm.trans h'.eq) with ⟨hVersion, hEq⟩
  rcases versionLine_unique h.state h'.state hEq with ⟨hState, hEq⟩
  rcases versionLine_unique h.pid h'.pid hEq with ⟨hPid, hRest⟩
  exact ⟨hVersion, hState, hPid, hRest⟩

theorem Says.exact {cv : ConfigVersion} (h : Says data cv) : Exact data := by
  rcases h with ⟨version, state, pid, spaces, hLines, rfl, hv, hs, hp⟩
  intro version' state' pid' rest' hLines'
  rcases hLines.unique hLines' with ⟨rfl, rfl, rfl, rfl⟩
  have hLt : (2 : Nat) ^ 32 < 2 ^ 64 := by decide
  exact ⟨by simp, lt_of_le_of_lt hv hLt, lt_of_le_of_lt hs hLt, lt_of_le_of_lt hp hLt⟩

theorem spaceBuf_succ {n : Nat} (h : n < cvFileSize) :
    spaceBuf (n + 1) = List.replicate n spaceChar ++ [carriageReturn] := by
  unfold cvFileSize at h
  unfold spaceBuf initCvBuf cvFileSize
  rw [drop_append_of_le_length (by rw [length_replicate]; omega), drop_replicate]
  congr 2
  omega

/-- The version file: whatever is written, with numbers up to 2 ^ 32, is read back, and what is
accepted says what is read from it exactly if the three lines leave room in the 64 bytes and no
number in them has more than 64 bits. -/
theorem version_file_iff (data : Bytes) (cv : ConfigVersion) :
    (cv.version ≤ 2 ^ 32 → cv.state ≤ 2 ^ 32 → cv.pid ≤ 2 ^ 32 →
      (cvBuf cv).length = cvFileSize ∧ readCv (cvBuf cv) = .ok cv) ∧
    (readCv data = .ok cv → (Says data cv ↔ Exact data)) := by
  constructor
  · intro hVersion hState hPid
    have h : cv.TenDigits := ⟨by omega, by omega, by omega⟩
    refine ⟨length_cvBuf h, ?_⟩
    rw [readCv_cvBuf_of_tenDigits h, if_neg]
    omega
  · intro hRead
    refine ⟨Says.exact, fun hExact => ?_⟩
    rcases readCv_iff.mp hRead with ⟨hLen, version, state, pid, rest, hLines, hRest, rfl, hv, hs, hp⟩
    rcases hExact version state pid rest hLines with ⟨hNe, hVersion, hState, hPid⟩
    have hFit := hLines.length
    rw [hLen] at hFit
    obtain ⟨n, hn⟩ : ∃ n, rest.length = n + 1 :=
      Nat.exists_eq_succ_of_ne_zero fun h => hNe (List.length_eq_zero_iff.mp h)
    have hSpaces : rest = List.replicate n spaceChar ++ [carriageReturn] := by
      rw [hn, spaceBuf_succ (by omega)] at hRest
      exact hRest
    refine ⟨version, state, pid, n, hSpaces ▸ hLines, ?_, hv, hs, hp⟩
    unfold numberRead
    rw [Nat.mod_eq_of_lt hVersion, Nat.mod_eq_of_lt hState, Nat.mod_eq_of_lt hPid]

theorem version_file_written : readCv (cvBuf ⟨3, 1, 2 ^ 32⟩) = .ok ⟨3, 1, 2 ^ 32⟩ ∧
    (Says (cvBuf ⟨3, 1, 2 ^ 32⟩) ⟨3, 1, 2 ^ 32⟩ ↔ Exact (cvBuf ⟨3, 1, 2 ^ 32⟩)) := by
  have hFile := version_file_iff (cvBuf ⟨3, 1, 2 ^ 32⟩) ⟨3, 1, 2 ^ 32⟩
  have hRead := (hFile.1 (by decide) (by decide) (by decide)).2
  exact ⟨hRead, hFile.2 hRead⟩

/-- The version 2 ^ 64 + 1 is accepted as version 1. -/
theorem large_version_read : ∃ data,
    readCv data = .ok ⟨1, 1, 7⟩ ∧ ¬ Says data ⟨1, 1, 7⟩ := by
  have hLines : ThreeLines
      (versionLine versionStr (ascii "18446744073709551617") ++ (versionLine stateStr (ascii "1") ++
        (versionLine pidStr (ascii "7") ++ spaceBuf 18)))
      (ascii "18446744073709551617") (ascii "1") (ascii "7") (spaceBuf 18) :=
    ⟨rfl, ⟨by decide, List.forall_iff_forall_mem.mp (by decide)⟩,
      ⟨by decide, List.forall_iff_forall_mem.mp (by decide)⟩,
      ⟨by decide, List.forall_iff_forall_mem.mp (by decide)⟩⟩
  refine ⟨_, readCv_iff.mpr ⟨by decide +kernel, _, _, _, _, hLines, by decide +kernel,
    by decide +kernel, by decide, by decide, by decide⟩, fun h => ?_⟩
  have hLarge := (h.exact _ _ _ _ hLines).2.1
  revert hLarge
  decide +kernel

end IClaustron.Config
