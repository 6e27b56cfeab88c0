import IClaustron.Lib.Result
import IClaustron.Protocol.RoundTrip
import Mathlib.Data.Nat.Digits.Lemmas

/-!
# Config.VersionFile — file names and the version file

The names of the configuration files (util/ic_string.c) and the content of
config_version.ini (write_cv_file and read_config_version_file in
api/ic_apic_conf_writer.ic). The version file is 64 bytes long whatever is in it, so
that a write replaces all of it.

* `configFileName_inj` — files of different names or versions are different files;
* `readCv_cvBuf` — what was written is read back, as long as no number is larger than
  2 ^ 32.
-/

namespace IClaustron.Config

open Lib Protocol List

/-! ## File names -/

def configString : Bytes := ascii "config"
def gridCommonConfigString : Bytes := ascii "grid_common"
def versionFileString : Bytes := ascii "_version"
def configEndingString : Bytes := ascii ".ini"

/-- `ic_set_number_ending_string`. -/
def numberEndingString (number : Nat) : Bytes := 46 :: guint64Str number

/-- `ic_create_config_version_file_name`. -/
def configVersionFileName (configDir : Bytes) : Bytes :=
  configDir ++ configString ++ versionFileString ++ configEndingString

/-- `ic_create_config_file_name`. -/
def configFileName (configDir name : Bytes) (version : Nat) : Bytes :=
  configDir ++ name ++ configEndingString ++ if version = 0 then [] else numberEndingString version

theorem guint64Str_inj {n m : Nat} (h : guint64Str n = guint64Str m) : n = m := by
  rw [← digitsVal_guint64Str n, h, digitsVal_guint64Str]

theorem dot_not_mem_guint64Str (n : Nat) : (46 : UInt8) ∉ guint64Str n := by
  intro h
  exact absurd (mem_guint64Str h).1 (by decide)

/-- What stands behind the last dot of a file name. -/
def afterDot (version : Nat) : Bytes := if version = 0 then ascii "ini" else guint64Str version

theorem dot_not_mem_afterDot (version : Nat) : (46 : UInt8) ∉ afterDot version := by
  unfold afterDot
  split_ifs
  · decide
  · exact dot_not_mem_guint64Str version

theorem afterDot_inj {v w : Nat} (h : afterDot v = afterDot w) : v = w := by
  have hletter : ∀ n, guint64Str n ≠ ascii "ini" := by
    intro n hn
    have hmem : (105 : UInt8) ∈ guint64Str n := by
      rw [hn]
      decide
    exact absurd (mem_guint64Str hmem).2 (by decide)
  unfold afterDot at h
  split_ifs at h with hv hw hw
  · rw [hv, hw]
  · exact absurd h.symm (hletter w)
  · exact absurd h (hletter v)
  · exact guint64Str_inj h

/-- A file name up to its last dot. -/
def beforeDot (configDir name : Bytes) (version : Nat) : Bytes :=
  configDir ++ name ++ if version = 0 then [] else configEndingString

theorem configFileName_eq (configDir name : Bytes) (version : Nat) :
    configFileName configDir name version =
      beforeDot configDir name version ++ 46 :: afterDot version := by
  unfold configFileName beforeDot afterDot numberEndingString
  split_ifs
  · rw [append_nil, append_nil]
    rfl
  · simp only [append_assoc]

theorem last_dot_unique {a b c d : Bytes} (hb : (46 : UInt8) ∉ b) (hd : (46 : UInt8) ∉ d)
    (h : a ++ 46 :: b = c ++ 46 :: d) : a = c ∧ b = d := by
  have hrev := congrArg List.reverse h
  simp only [reverse_append, reverse_cons, append_assoc, singleton_append] at hrev
  rcases first_sep_unique (by simpa using hb) (by simpa using hd) hrev with ⟨hback, hfront⟩
  exact ⟨reverse_injective hfront, reverse_injective hback⟩

theorem configFileName_inj {configDir name name' : Bytes} {v w : Nat}
    (h : configFileName configDir name v = configFileName configDir name' w) :
    name = name' ∧ v = w := by
  rw [configFileName_eq, configFileName_eq] at h
  rcases last_dot_unique (dot_not_mem_afterDot v) (dot_not_mem_afterDot w) h with ⟨hfront, hback⟩
  have hvw := afterDot_inj hback
  subst hvw
  unfold beforeDot at hfront
  have hname := append_cancel_right hfront
  exact ⟨append_cancel_left hname, rfl⟩

/-- The version file has the name of a file of version 0. -/
theorem configVersionFileName_eq (configDir : Bytes) :
    configVersionFileName configDir =
      configFileName configDir (configString ++ versionFileString) 0 := by
  unfold configVersionFileName configFileName
  simp only [append_assoc, if_pos, append_nil]

/-! ## The version file -/

/-- CONFIG_STATE_IDLE. -/
def configStateIdle : Nat := 0
/-- CONFIG_STATE_BUSY. -/
def configStateBusy : Nat := 1
/-- CV_FILE_SIZE. -/
def cvFileSize : Nat := 64
/-- IC_ERROR_INCONSISTENT_CONTENT_IN_CONFIG_VERSION_FILE. -/
def errorInconsistentContent : Nat := 7094
/-- IC_ERROR_SYNTAX_ERROR_IN_CONFIG_VERSION_FILE. -/
def errorSyntaxError : Nat := 7095

def versionStr : Bytes := ascii "version:"
def stateStr : Bytes := ascii "state:"
def pidStr : Bytes := ascii "pid:"

/-- What the version file records. -/
structure ConfigVersion where
  version : Nat
  state : Nat
  pid : Nat
deriving DecidableEq

/-- `insert_line_config_version_file`. -/
def configVersionLine (str : Bytes) (value : Nat) : Bytes :=
  str ++ spaceChar :: (guint64Str value ++ [carriageReturn])

/-- `init_cv_buf`. -/
def initCvBuf : Bytes := List.replicate (cvFileSize - 1) spaceChar ++ [carriageReturn]

/-- The last `n` bytes of `init_cv_buf`. -/
def spaceBuf (n : Nat) : Bytes := initCvBuf.drop (cvFileSize - n)

/-- The three lines of the version file. -/
def cvLines (cv : ConfigVersion) : Bytes :=
  configVersionLine versionStr cv.version ++
    (configVersionLine stateStr cv.state ++ configVersionLine pidStr cv.pid)

/-- The buffer that `write_cv_file` fills. -/
def cvBuf (cv : ConfigVersion) : Bytes := cvLines cv ++ spaceBuf (cvFileSize - (cvLines cv).length)

/-- `ic_conv_str_to_int` with a length: the number, and how many bytes it takes. -/
def convStrToInt (str : Bytes) : Option (Nat × Nat) :=
  let digits := (str.take 62).takeWhile isDigit
  if 60 < digits.length ∨ digits.length = 0 then none
  else some (digitsVal digits % 2 ^ 64, digits.length)

/-- `cmp_config_version_line`: the value, and what follows the line. -/
def cmpConfigVersionLine (str data : Bytes) : Except Nat (Nat × Bytes) :=
  if data.take str.length ≠ str then .error errorSyntaxError
  else if (data.drop str.length).head? ≠ some spaceChar then .error errorSyntaxError
  else
    let data := data.drop (str.length + 1)
    match convStrToInt data with
    | none => .error errorSyntaxError
    | some (value, valueLen) =>
      if data.length < valueLen + 1 ∨ 2 ^ 32 < value then .error errorSyntaxError
      else if (data.drop valueLen).head? ≠ some carriageReturn then .error errorSyntaxError
      else .ok (value, data.drop (valueLen + 1))

/-- `read_config_version_file`, on the content of the file. -/
def readCv (data : Bytes) : Except Nat ConfigVersion := do
  if data.length ≠ cvFileSize then throw errorInconsistentContent
  let (version, data) ← cmpConfigVersionLine versionStr data
  let (state, data) ← cmpConfigVersionLine stateStr data
  let (pid, data) ← cmpConfigVersionLine pidStr data
  if data ≠ spaceBuf data.length then throw errorInconsistentContent
  pure ⟨version, state, pid⟩

/-! ### Reading back -/

theorem length_guint64Str {n : Nat} (h : n < 10 ^ 10) : (guint64Str n).length ≤ 10 :=
  Protocol.length_guint64Str_le (by decide) h

theorem takeWhile_guint64Str (n : Nat) (rest : Bytes) :
    (guint64Str n ++ carriageReturn :: rest).takeWhile isDigit = guint64Str n := by
  rw [takeWhile_append_of_pos, takeWhile_cons_of_neg (by decide), append_nil]
  intro c hc
  have hdigit := mem_guint64Str hc
  simp [isDigit, hdigit]

theorem convStrToInt_iff {str : Bytes} {n len : Nat} : convStrToInt str = some (n, len) ↔
    ∃ digits rest, str = digits ++ rest ∧ (∀ c ∈ digits, isDigit c) ∧
      (∀ c ∈ rest.head?, isDigit c = false) ∧ 1 ≤ digits.length ∧ digits.length ≤ 60 ∧
      digitsVal digits % 2 ^ 64 = n ∧ digits.length = len := by
  unfold convStrToInt
  constructor
  · intro h
    dsimp only at h
    split at h
    · cases h
    next hLen =>
      obtain ⟨rfl, rfl⟩ := Prod.mk.inj (Option.some.inj h)
      have hSplit := takeWhile_append_dropWhile (p := isDigit) (l := str.take 62)
      refine ⟨(str.take 62).takeWhile isDigit, (str.take 62).dropWhile isDigit ++ str.drop 62,
        ?_, ?_, ?_, by omega, by omega, rfl, rfl⟩
      · rw [← append_assoc, hSplit, take_append_drop]
      · intro c hc
        exact mem_takeWhile_imp hc
      · intro c hc
        cases hRest : (str.take 62).dropWhile isDigit with
        | nil =>
          -- at most 60 bytes were taken: nothing comes after them
          rw [hRest, append_nil] at hSplit
          have hShort : str.length ≤ 62 := by
            rw [hSplit, length_take] at hLen
            omega
          rw [hRest, drop_of_length_le hShort] at hc
          cases hc
        | cons d rest =>
          have hHead := head?_dropWhile_not isDigit (str.take 62)
          rw [hRest] at hHead hc
          obtain rfl := Option.some.inj hc
          simpa using hHead
  · rintro ⟨digits, rest, rfl, hDigits, hRest, hPos, hLe, rfl, rfl⟩
    have hTake : ((digits ++ rest).take 62).takeWhile isDigit = digits := by
      rw [take_append, take_of_length_le (by omega),
        takeWhile_append_of_pos hDigits]
      have hNone : (rest.take (62 - digits.length)).takeWhile isDigit = [] := by
        cases rest with
        | nil => simp
        | cons c rest =>
          have hc := hRest c rfl
          obtain ⟨k, hk⟩ : ∃ k, 62 - digits.length = k + 1 := ⟨61 - digits.length, by omega⟩
          rw [hk, take_succ_cons, takeWhile_cons_of_neg (by simp [hc])]
      rw [hNone, append_nil]
    rw [hTake, if_neg (by omega)]

theorem convStrToInt_guint64Str {n : Nat} (h : n < 10 ^ 10) (rest : Bytes) :
    convStrToInt (guint64Str n ++ carriageReturn :: rest) = some (n, (guint64Str n).length) := by
  have hlen := length_guint64Str h
  have hpos : (guint64Str n).length ≠ 0 := by
    rw [Ne, length_eq_zero_iff]
    exact guint64Str_ne_nil n
  have htake : (guint64Str n ++ carriageReturn :: rest).take 62 =
      guint64Str n ++ carriageReturn :: rest.take (62 - (guint64Str n).length - 1) := by
    have hsucc : 62 - (guint64Str n).length = 62 - (guint64Str n).length - 1 + 1 := by omega
    rw [take_append, take_of_length_le (by omega), hsucc, take_succ_cons]
    rfl
  have hmod : n % 2 ^ 64 = n := Nat.mod_eq_of_lt (h.trans (by decide))
  unfold convStrToInt
  rw [htake, takeWhile_guint64Str, if_neg (by omega), digitsVal_guint64Str, hmod]

/-- A line is read as it was written, unless its number is too large. -/
theorem cmpConfigVersionLine_line (str : Bytes) {value : Nat} (h : value < 10 ^ 10) (rest : Bytes) :
    cmpConfigVersionLine str (configVersionLine str value ++ rest) =
      if 2 ^ 32 < value then .error errorSyntaxError else .ok (value, rest) := by
  have hline : configVersionLine str value ++ rest =
      str ++ spaceChar :: (guint64Str value ++ carriageReturn :: rest) := by
    simp [configVersionLine]
  have hword : (str ++ spaceChar :: (guint64Str value ++ carriageReturn :: rest)).take str.length =
      str := take_left
  have hblank : (str ++ spaceChar :: (guint64Str value ++ carriageReturn :: rest)).drop str.length =
      spaceChar :: (guint64Str value ++ carriageReturn :: rest) := drop_left
  have hdata : (str ++ spaceChar :: (guint64Str value ++ carriageReturn :: rest)).drop (str.length + 1) =
      guint64Str value ++ carriageReturn :: rest := by
    rw [← drop_drop, hblank]
    rfl
  have hroom : ¬ (guint64Str value ++ carriageReturn :: rest).length < (guint64Str value).length + 1 := by
    rw [length_append, length_cons]
    omega
  have hend : (guint64Str value ++ carriageReturn :: rest).drop (guint64Str value).length =
      carriageReturn :: rest := drop_left
  have hrest : (guint64Str value ++ carriageReturn :: rest).drop ((guint64Str value).length + 1) =
      rest := by
    rw [← drop_drop, hend]
    rfl
  rw [hline]
  unfold cmpConfigVersionLine
  rw [if_neg (not_not.mpr hword), hblank, head?_cons, if_neg (not_not.mpr rfl), hdata]
  dsimp only
  rw [convStrToInt_guint64Str h]
  dsimp only
  by_cases hlarge : 2 ^ 32 < value
  · rw [if_pos (Or.inr hlarge), if_pos hlarge]
  · rw [if_neg (not_or.mpr ⟨hroom, hlarge⟩), hend, head?_cons, if_neg (not_not.mpr rfl), hrest,
      if_neg hlarge]

/-- The numbers of a version file that leave room behind its lines. -/
structure ConfigVersion.TenDigits (cv : ConfigVersion) : Prop where
  version : cv.version < 10 ^ 10
  state : cv.state < 10 ^ 10
  pid : cv.pid < 10 ^ 10

/-- The numbers of a version file that the process itself writes: the version may be one
too large to be read. -/
structure ConfigVersion.Small (cv : ConfigVersion) : Prop where
  version : cv.version ≤ 2 ^ 32 + 1
  state : cv.state ≤ configStateBusy
  pid : cv.pid ≤ 2 ^ 32

variable {cv : ConfigVersion}

theorem length_configVersionLine (str : Bytes) {value : Nat} (h : value < 10 ^ 10) :
    (configVersionLine str value).length ≤ str.length + 12 := by
  have hlen := length_guint64Str h
  simp only [configVersionLine, length_append, length_cons, length_nil]
  omega

theorem ConfigVersion.Small.tenDigits (h : cv.Small) : cv.TenDigits := by
  have hversion := h.version
  have hstate := h.state
  have hpid := h.pid
  unfold configStateBusy at hstate
  refine ⟨?_, ?_, ?_⟩
  · omega
  · omega
  · omega

theorem length_cvLines (h : cv.TenDigits) : (cvLines cv).length < cvFileSize := by
  have hversion := length_configVersionLine versionStr h.version
  have hstate := length_configVersionLine stateStr h.state
  have hpid := length_configVersionLine pidStr h.pid
  have hwords : versionStr.length = 8 ∧ stateStr.length = 6 ∧ pidStr.length = 4 := by decide
  simp only [cvLines, length_append, cvFileSize]
  omega

theorem length_spaceBuf {n : Nat} (h : n ≤ cvFileSize) : (spaceBuf n).length = n := by
  have hlen : initCvBuf.length = cvFileSize := by decide
  rw [spaceBuf, length_drop, hlen]
  omega

theorem length_cvBuf (h : cv.TenDigits) : (cvBuf cv).length = cvFileSize := by
  have hlines := length_cvLines h
  unfold cvBuf
  rw [length_append, length_spaceBuf (Nat.sub_le _ _)]
  omega

/-- What was written is read back, unless a number is too large. -/
theorem readCv_cvBuf_of_tenDigits (h : cv.TenDigits) : readCv (cvBuf cv) =
    if 2 ^ 32 < cv.version ∨ 2 ^ 32 < cv.state ∨ 2 ^ 32 < cv.pid then .error errorSyntaxError
    else .ok cv := by
  unfold readCv
  rw [if_neg (not_not.mpr (length_cvBuf h))]
  unfold cvBuf
  generalize hn : cvFileSize - (cvLines cv).length = n
  have hle : n ≤ cvFileSize := hn ▸ Nat.sub_le _ _
  unfold cvLines
  rw [append_assoc, append_assoc]
  show cmpConfigVersionLine versionStr _ >>= _ = _
  rw [cmpConfigVersionLine_line versionStr h.version]
  by_cases hversion : 2 ^ 32 < cv.version
  · rw [if_pos hversion, if_pos (.inl hversion)]
    rfl
  rw [if_neg hversion]
  show cmpConfigVersionLine stateStr _ >>= _ = _
  rw [cmpConfigVersionLine_line stateStr h.state]
  by_cases hstate : 2 ^ 32 < cv.state
  · rw [if_pos hstate, if_pos (.inr (.inl hstate))]
    rfl
  rw [if_neg hstate]
  show cmpConfigVersionLine pidStr _ >>= _ = _
  rw [cmpConfigVersionLine_line pidStr h.pid]
  by_cases hpid : 2 ^ 32 < cv.pid
  · rw [if_pos hpid, if_pos (.inr (.inr hpid))]
    rfl
  rw [if_neg hpid, if_neg (not_or.mpr ⟨hversion, not_or.mpr ⟨hstate, hpid⟩⟩)]
  have hspace : spaceBuf n = spaceBuf (spaceBuf n).length := by
    rw [length_spaceBuf hle]
  exact if_neg (not_not.mpr hspace)

theorem readCv_cvBuf (h : cv.Small) :
    readCv (cvBuf cv) = if 2 ^ 32 < cv.version then .error errorSyntaxError else .ok cv := by
  have hstate : ¬ 2 ^ 32 < cv.state := by
    have := h.state
    unfold configStateBusy at this
    omega
  have hpid : ¬ 2 ^ 32 < cv.pid := Nat.not_lt.mpr h.pid
  rw [readCv_cvBuf_of_tenDigits h.tenDigits]
  simp only [hstate, hpid, or_self, or_false]

theorem cmpConfigVersionLine_le {str data rest : Bytes} {value : Nat}
    (h : cmpConfigVersionLine str data = .ok (value, rest)) : value ≤ 2 ^ 32 := by
  unfold cmpConfigVersionLine at h
  dsimp only at h
  split_ifs at h
  split at h
  · cases h
  · split_ifs at h with hlarge
    cases h
    exact Nat.not_lt.mp (not_or.mp hlarge).2

theorem readCv_ok {data : Bytes} {cv : ConfigVersion} (h : readCv data = .ok cv) :
    data.length = cvFileSize ∧ cv.version ≤ 2 ^ 32 := by
  unfold readCv at h
  split_ifs at h with hlen
  · cases h
  · refine ⟨not_not.mp hlen, ?_⟩
    rcases Result.bind_eq_ok.mp h with ⟨⟨version, rest⟩, hversion, h⟩
    rcases Result.bind_eq_ok.mp h with ⟨⟨state, rest'⟩, _, h⟩
    rcases Result.bind_eq_ok.mp h with ⟨⟨pid, rest''⟩, _, h⟩
    dsimp only at h
    split_ifs at h
    · cases h
    · cases h
      exact cmpConfigVersionLine_le hversion

end IClaustron.Config
