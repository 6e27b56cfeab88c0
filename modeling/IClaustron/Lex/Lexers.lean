import IClaustron.Config.Numbers
import IClaustron.Lex.Calls

/-!
# Lex.Lexers — the lexers of the cluster manager and of the bootstrap

Model of ic_mgr_lex in cluster_mgr/ic_mgr_lex.c and of ic_boot_lex in bootstrap/ic_boot_lex.c, on a
buffer with a zero behind the text.

* `mgr_rules`, `boot_rules` — the rules for the calls of the two lexers.

Scope limits: `yylval` is part of the symbol.
-/

namespace IClaustron.Lex

open Lib Protocol List Bool
open Keywords (HashFunction Found islower icFoundIdentifier)

/-! ## Model -/

def numberError : Bytes := ascii "Incorrect character at end of number, lex error"
def identifierError : Bytes := ascii "Incorrect character at end of identifier, lex error"
def lexError : Bytes := ascii "Incorrect character, lex error"
def versionIdentifierError : Bytes := ascii "Upper case in version identifier not allowed"
def integerOverflow : Bytes := ascii "Integer Overflow"
def memoryAllocationFailure : Bytes := ascii "Memory allocation failure"
def notWellFormedIpAddress : Bytes := ascii "Not well-formed IP address"

/-- Digits have been found, and `parseChar` behind them. -/
def foundInteger (parseBuf : Bytes) (parseChar : UInt8) (startPos currentPos : Nat) : Result :=
  if isEndSymbolCharacter parseChar then
    match Config.foundNum (slice parseBuf startPos currentPos) with
    | none => .error integerOverflow
    | some intVal => .token ⟨.integer (intVal.getD 0), startPos, currentPos⟩
  else .error numberError

/-- `found_identifier`: `none` in it is an error. -/
def foundIdentifier (h : HashFunction) (memory : Bool) (str : Bytes) : Option (Option Found) :=
  match icFoundIdentifier h str with
  | none => none
  | some found => if found.symbolValue = 0 ∧ memory = false then some none else some (some found)

/-- The symbol of an identifier, which may be a keyword. -/
def Symbol.ofFound (found : Found) : Symbol :=
  if found.symbolValue = 0 then .identifier found.icStr else .keyword found.symbolValue

/-- '-' or '.'. -/
def isVersionCharacter (c : UInt8) : Bool := c = 45 || c = 46

/-- The loop of `ic_mgr_lex` over an identifier: where it stops, `upper_found` and
`version_char_found`. Behind a '-' or '.' the position is not checked. -/
def identifierLoop (parseStrLen pos : Nat) (upperFound versionCharFound : Bool) :
    Bytes → Option (UInt8 × Nat × Bool × Bool)
  | [] => none
  | parseChar :: rest =>
    let upperFound := upperFound || isupper parseChar
    if isVersionCharacter parseChar then
      identifierLoop parseStrLen (pos + 1) upperFound true rest
    else if parseChar = 95 || islower parseChar || isupper parseChar || isDigit parseChar then
      if pos + 1 < parseStrLen then
        identifierLoop parseStrLen (pos + 1) upperFound versionCharFound rest
      else none
    else some (parseChar, pos, upperFound, versionCharFound)

/-- `ic_mgr_lex` at a character that is not ignored. -/
def mgrToken (h : HashFunction) (parseBuf : Bytes) (parseStrLen : Nat) (memory : Bool)
    (startPos : Nat) (parseChar : UInt8) : Option Result :=
  if isEndCharacter parseChar then some (.token ⟨.endOfInput, startPos, startPos + 1⟩)
  else if isDigit parseChar then do
    let (parseChar, currentPos) ←
      scanBelow isDigit parseStrLen startPos (parseBuf.drop startPos)
    some (foundInteger parseBuf parseChar startPos currentPos)
  else if isalpha parseChar then do
    let (parseChar, currentPos, upperFound, versionCharFound) ←
      identifierLoop parseStrLen startPos (isupper parseChar) false (parseBuf.drop startPos)
    if isEndSymbolCharacter parseChar = false then some (.error identifierError)
    else if upperFound ∧ versionCharFound then some (.error versionIdentifierError)
    else
      match foundIdentifier h memory (slice parseBuf startPos currentPos) with
      | none => none
      | some none => some (.error memoryAllocationFailure)
      | some (some found) =>
        if versionCharFound then
          -- `ic_assert(!symbol_value)`
          if found.symbolValue ≠ 0 then none
          else some (.token ⟨.versionIdentifier found.icStr, startPos, currentPos⟩)
        else some (.token ⟨.ofFound found, startPos, currentPos⟩)
  else some (.error lexError)

/-- `ic_mgr_lex`. -/
def icMgrLex (h : HashFunction) (parseBuf : Bytes) (parseStrLen : Nat) : Lexer :=
  fun memory parseCurrentPos =>
    if parseCurrentPos < parseStrLen then do
      let (parseChar, startPos) ←
        scanBelow isIgnore parseStrLen parseCurrentPos (parseBuf.drop parseCurrentPos)
      mgrToken h parseBuf parseStrLen memory startPos parseChar
    else none

/-- What the loop over a number with dots counts. -/
structure Counts where
  dotFound : Nat
  minDigitsBeforeDot : Nat
  maxDigitsBeforeDot : Nat
  countDigits : Nat
deriving DecidableEq

/-- A part of the number ends. -/
def Counts.part (k : Counts) : Counts :=
  { k with
    maxDigitsBeforeDot := max k.maxDigitsBeforeDot k.countDigits
    minDigitsBeforeDot := min k.minDigitsBeforeDot k.countDigits
    countDigits := 0 }

/-- The loop of `ic_boot_lex` over a number, which checks the position before each character. -/
def numberLoop (parseStrLen pos : Nat) (k : Counts) : Bytes → Option (UInt8 × Nat × Counts)
  | [] => none
  | parseChar :: rest =>
    if parseStrLen ≤ pos then none
    else if parseChar = 46 then
      numberLoop parseStrLen (pos + 1) { k.part with dotFound := k.part.dotFound + 1 } rest
    else if isDigit parseChar then
      numberLoop parseStrLen (pos + 1) { k with countDigits := k.countDigits + 1 } rest
    else some (parseChar, pos, k.part)

/-- Behind the first digit; DOTS_IN_IP_ADDRESS is 3. -/
def Counts.init : Counts := ⟨0, 3 + 1, 1, 1⟩

/-- DOTS_IN_IP_ADDRESS and MAX_DIGITS_IN_IP_NUMBER_PARTS are 3. -/
def Counts.WellFormed (k : Counts) : Prop :=
  k.dotFound = 3 ∧ 1 ≤ k.minDigitsBeforeDot ∧ k.maxDigitsBeforeDot ≤ 3

instance (k : Counts) : Decidable k.WellFormed := inferInstanceAs (Decidable (_ ∧ _))

/-- `ic_boot_lex` at a character that is not ignored. -/
def bootToken (h : HashFunction) (parseBuf : Bytes) (parseStrLen : Nat) (memory : Bool)
    (startPos : Nat) (parseChar : UInt8) : Option Result :=
  if isEndCharacter parseChar then some (.token ⟨.endOfInput, startPos, startPos + 1⟩)
  else if isDigit parseChar then do
    let (parseChar, currentPos, k) ←
      numberLoop parseStrLen (startPos + 1) .init (parseBuf.drop (startPos + 1))
    if isEndSymbolCharacter parseChar = false then some (.error numberError)
    else if k.dotFound = 0 then some (foundInteger parseBuf parseChar startPos currentPos)
    else if ¬k.WellFormed then some (.error notWellFormedIpAddress)
    else if memory then
      some (.token ⟨.identifier (some (slice parseBuf startPos currentPos)), startPos, currentPos⟩)
    else some (.error memoryAllocationFailure)
  else if isalpha parseChar then do
    let (parseChar, currentPos) ←
      scan isIdentifierCharacter (startPos + 1) (parseBuf.drop (startPos + 1))
    if isEndSymbolCharacter parseChar = false then some (.error identifierError)
    else
      match foundIdentifier h memory (slice parseBuf startPos currentPos) with
      | none => none
      | some none => some (.error memoryAllocationFailure)
      | some (some found) => some (.token ⟨.ofFound found, startPos, currentPos⟩)
  else if isEqualCharacter parseChar then do
    let parseChar ← parseBuf[startPos + 1]?
    if isEndCharacter parseChar then some (.error identifierError)
    else some (.token ⟨.equal, startPos, startPos + 1⟩)
  else some (.error lexError)

/-- `ic_boot_lex`. -/
def icBootLex (h : HashFunction) (parseBuf : Bytes) (parseStrLen : Nat) : Lexer :=
  fun memory parseCurrentPos =>
    if parseCurrentPos < parseStrLen then do
      let (parseChar, startPos) ←
        scanBelow isIgnore parseStrLen parseCurrentPos (parseBuf.drop parseCurrentPos)
      bootToken h parseBuf parseStrLen memory startPos parseChar
    else none

/-! ## Words -/

/-- The identifiers that `ic_mgr_lex` looks up: those with an upper-case letter have no '-' or
'.'. -/
def MgrLooksUp (word : Bytes) : Prop :=
  Identifier word ∧ ¬(word.any isupper ∧ word.any isVersionCharacter)

/-- The words that `ic_mgr_lex` accepts. -/
def MgrAccepts (word post : Bytes) : Prop := WordEnds post ∧ (Number word ∨ MgrLooksUp word)

/-- `symbol_map` has a keyword for the identifier. -/
def HasSlot (h : HashFunction) (word : Bytes) : Prop :=
  h.symbolMap (Keywords.lexHash (Keywords.icConvertToUppercase word) h.hashMultiplier
    h.hashDivider) ≠ 0

/-- Where `ic_mgr_lex` fails: the text ends, or a number or an identifier goes on to its end (with
another last character than '-' and '.'), or an identifier that is looked up does not fit into
`symbol_buf`, or has a '-' or '.' and the slot of a keyword. -/
def MgrFails (h : HashFunction) (tail : Bytes) : Prop :=
  tail = [] ∨ Number tail ∨
    (Identifier tail ∧ ∃ c ∈ tail.getLast?, isVersionCharacter c = false) ∨
    ∃ word post, tail = word ++ post ∧ MgrLooksUp word ∧ WordEnds post ∧
      (Keywords.symbolBufSize < word.length ∨ word.any isVersionCharacter ∧ HasSlot h word)

/-- The counts of a number, behind its first digit. -/
def Counts.over (k : Counts) : Bytes → Counts
  | [] => k.part
  | c :: word =>
    if c = 46 then Counts.over { k.part with dotFound := k.part.dotFound + 1 } word
    else Counts.over { k with countDigits := k.countDigits + 1 } word

def isNumberCharacter (c : UInt8) : Bool := c = 46 || isDigit c

/-- A number with dots, of four parts with one to three digits. -/
def Address (word : Bytes) : Prop :=
  ∃ c word', word = c :: word' ∧ isDigit c = true ∧ (∀ x ∈ word', isNumberCharacter x = true) ∧
    (Counts.init.over word').WellFormed

/-- The words that `ic_boot_lex` accepts. A '=' is one if no ';' comes behind it. -/
def BootAccepts (word post : Bytes) : Prop :=
  WordEnds post ∧ (Number word ∨ Address word ∨ Identifier word) ∨
    word = [61] ∧ ∀ c ∈ post.head?, isEndCharacter c = false

/-- Where `ic_boot_lex` fails: the text ends, or a number with or without dots goes on to its end,
or an identifier does not fit into `symbol_buf`. -/
def BootFails (tail : Bytes) : Prop :=
  tail = [] ∨
    (∃ c word, tail = c :: word ∧ isDigit c = true ∧ ∀ x ∈ word, isNumberCharacter x = true) ∨
    ∃ word post, tail = word ++ post ∧ Identifier word ∧ WordEnds post ∧
      Keywords.symbolBufSize < word.length

/-! ## Lexers -/

theorem identifierCharacter_iff : ∀ c, isIdentifierCharacter c = (isVersionCharacter c ||
    (c = 95 || islower c || isupper c || isDigit c)) :=
  forall_byte (by decide +kernel)

theorem isupper_identifier : ∀ c, isIdentifierCharacter c = false → isupper c = false :=
  forall_byte (by decide +kernel)

theorem endSymbol_number : ∀ c, isEndSymbolCharacter c = true → isNumberCharacter c = false :=
  forall_byte (by decide +kernel)

theorem digit_number : ∀ c, isDigit c = true → isNumberCharacter c = true :=
  forall_byte (by decide +kernel)

variable {k : Counts} {tail : Bytes}

section Scans

variable {run l : Bytes} {c : UInt8} {pos : Nat}

/-- The last character of a longer identifier is the same. -/
theorem last_of_cons {x : UInt8} {P : UInt8 → Prop} (h : ∀ y ∈ (x :: run).getLast?, P y) :
    ∀ y ∈ run.getLast?, P y := by
  intro y hy
  apply h
  rw [getLast?_cons, Option.mem_def.mp hy]
  rfl

/-- The flags of the loop are about the characters of the identifier. It may go on to the end of
the text if its last character is a '-' or '.'. -/
theorem identifierLoop_append {parseStrLen : Nat} {u v : Bool}
    (hRun : ∀ x ∈ run, isIdentifierCharacter x = true) (hc : isIdentifierCharacter c = false)
    (hIn : pos + run.length ≤ parseStrLen)
    (hLast : pos + run.length = parseStrLen → ∀ x ∈ run.getLast?, isVersionCharacter x = true) :
    identifierLoop parseStrLen pos u v (run ++ c :: l) =
      some (c, pos + run.length, u || run.any isupper, v || run.any isVersionCharacter) := by
  induction run generalizing pos u v with
  | nil =>
    have hOther := hc
    rw [identifierCharacter_iff, Bool.or_eq_false_iff] at hOther
    rw [nil_append, identifierLoop, hOther.1, hOther.2, isupper_identifier c hc]
    simp
  | cons x run ih =>
    have hRest : ∀ y ∈ run, isIdentifierCharacter y = true := fun y hy =>
      hRun y (mem_cons_of_mem x hy)
    have hPos : pos + 1 + run.length = pos + (x :: run).length := by
      rw [length_cons, Nat.add_assoc, Nat.add_comm 1]
    have hx := hRun x mem_cons_self
    rw [identifierCharacter_iff, Bool.or_eq_true] at hx
    have hNext := fun u v => @ih (pos + 1) u v hRest (hPos ▸ hIn)
      fun hEnd => last_of_cons (hLast (hPos ▸ hEnd))
    rw [cons_append, identifierLoop, any_cons, any_cons]
    by_cases hVersion : isVersionCharacter x = true
    · rw [if_pos hVersion, hNext, hPos, hVersion, Bool.or_assoc, Bool.true_or, Bool.or_true]
    · have hInside : pos + 1 < parseStrLen := by
        rw [length_cons] at hIn hLast
        cases run with
        | nil =>
          rw [length_nil] at hIn hLast
          refine Nat.lt_of_le_of_ne hIn fun hEnd => hVersion (hLast hEnd x rfl)
        | cons y run =>
          rw [length_cons] at hIn
          omega
      rw [if_neg hVersion, if_pos (hx.resolve_left hVersion), if_pos hInside, hNext, hPos,
        Bool.or_assoc, Bool.eq_false_iff.mpr hVersion, Bool.false_or]

/-- An identifier that goes on to the end of the text with another character. -/
theorem identifierLoop_none {parseStrLen : Nat} {u v : Bool}
    (hRun : ∀ x ∈ run, isIdentifierCharacter x = true) (hEnd : pos + run.length = parseStrLen)
    (hLast : ∃ x ∈ run.getLast?, isVersionCharacter x = false) :
    identifierLoop parseStrLen pos u v (run ++ l) = none := by
  induction run generalizing pos u v with
  | nil =>
    obtain ⟨x, hx, -⟩ := hLast
    cases hx
  | cons x run ih =>
    have hRest : ∀ y ∈ run, isIdentifierCharacter y = true := fun y hy =>
      hRun y (mem_cons_of_mem x hy)
    have hx := hRun x mem_cons_self
    rw [identifierCharacter_iff, Bool.or_eq_true] at hx
    rw [length_cons] at hEnd
    obtain ⟨z, hz, hOther⟩ := hLast
    rw [getLast?_cons] at hz
    obtain rfl := Option.some.inj hz
    cases run with
    | nil =>
      have hVersion : ¬isVersionCharacter x = true := Bool.eq_false_iff.mp hOther
      rw [length_nil] at hEnd
      rw [cons_append, identifierLoop, if_neg hVersion, if_pos (hx.resolve_left hVersion),
        if_neg (by omega)]
    | cons y run =>
      have hNext := fun u v => @ih (pos + 1) u v hRest (by omega)
        ⟨_, getLast?_cons, by rwa [getLast?_cons] at hOther⟩
      rw [cons_append, identifierLoop]
      split_ifs with hVersion hOne hInside
      · exact hNext _ _
      · exact hNext _ _
      · rfl
      · exact absurd (hx.resolve_left hVersion) hOne

theorem identifierLoop_text {parseStrLen : Nat} {u v : Bool} {post : Bytes}
    (hRun : ∀ x ∈ run, isIdentifierCharacter x = true) (hPost : Stops isIdentifierCharacter post)
    (hIn : pos + run.length ≤ parseStrLen)
    (hLast : pos + run.length = parseStrLen → ∀ x ∈ run.getLast?, isVersionCharacter x = true) :
    identifierLoop parseStrLen pos u v (run ++ (post ++ 0 :: l)) =
      some (post.headD 0, pos + run.length, u || run.any isupper,
        v || run.any isVersionCharacter) := by
  cases post with
  | nil => exact identifierLoop_append hRun zero_class.2.2.2 hIn hLast
  | cons c post => exact identifierLoop_append hRun (hPost c rfl) hIn hLast

theorem numberLoop_append {parseStrLen : Nat} (hRun : ∀ x ∈ run, isNumberCharacter x = true)
    (hc : isNumberCharacter c = false) (hIn : pos + run.length < parseStrLen) :
    numberLoop parseStrLen pos k (run ++ c :: l) = some (c, pos + run.length, k.over run) := by
  induction run generalizing pos k with
  | nil =>
    unfold isNumberCharacter at hc
    rw [or_eq_false_iff, decide_eq_false_iff_not] at hc
    have hNow : ¬parseStrLen ≤ pos := Nat.not_le_of_lt hIn
    rw [nil_append, numberLoop, if_neg hNow, if_neg hc.1, hc.2]
    rfl
  | cons x run ih =>
    have hRest : ∀ y ∈ run, isNumberCharacter y = true := fun y hy =>
      hRun y (mem_cons_of_mem x hy)
    have hPos : pos + 1 + run.length = pos + (x :: run).length := by
      rw [length_cons, Nat.add_assoc, Nat.add_comm 1]
    have hx := hRun x mem_cons_self
    unfold isNumberCharacter at hx
    rw [or_eq_true, decide_eq_true_eq] at hx
    have hNow : ¬parseStrLen ≤ pos := by omega
    rw [← hPos] at hIn
    rw [cons_append, numberLoop, Counts.over, if_neg hNow]
    by_cases hDot : x = 46
    · rw [if_pos hDot, if_pos hDot, ih hRest hIn, hPos]
    · rw [if_neg hDot, if_neg hDot, if_pos (hx.resolve_left hDot), ih hRest hIn, hPos]

/-- A number that goes on to the end of the text. -/
theorem numberLoop_none {parseStrLen : Nat} (hRun : ∀ x ∈ run, isNumberCharacter x = true)
    (hEnd : parseStrLen ≤ pos + run.length) : numberLoop parseStrLen pos k (run ++ l) = none := by
  induction run generalizing pos k with
  | nil =>
    cases l with
    | nil => rfl
    | cons c l => exact if_pos hEnd
  | cons x run ih =>
    have hRest : ∀ y ∈ run, isNumberCharacter y = true := fun y hy =>
      hRun y (mem_cons_of_mem x hy)
    have hx := hRun x mem_cons_self
    unfold isNumberCharacter at hx
    rw [or_eq_true, decide_eq_true_eq] at hx
    rw [length_cons] at hEnd
    rw [cons_append, numberLoop]
    split_ifs with hNow hDot hDigit
    · rfl
    · exact ih hRest (by omega)
    · exact ih hRest (by omega)
    · exact absurd (hx.resolve_left hDot) hDigit

theorem numberLoop_text {parseStrLen : Nat} {post : Bytes}
    (hRun : ∀ x ∈ run, isNumberCharacter x = true) (hPost : Stops isNumberCharacter post)
    (hIn : pos + run.length < parseStrLen) :
    numberLoop parseStrLen pos k (run ++ (post ++ 0 :: l)) =
      some (post.headD 0, pos + run.length, k.over run) := by
  cases post with
  | nil => exact numberLoop_append hRun (by decide) hIn
  | cons c post => exact numberLoop_append hRun (hPost c rfl) hIn

end Scans

theorem Counts.dotFound_over (word : Bytes) :
    ∀ k : Counts, (k.over word).dotFound = k.dotFound + word.count 46 := by
  induction word with
  | nil => exact fun k => rfl
  | cons c word ih =>
    intro k
    rw [Counts.over]
    by_cases hDot : c = 46
    · rw [if_pos hDot, ih, hDot, count_cons_self]
      show k.dotFound + 1 + _ = _
      omega
    · rw [if_neg hDot, ih, count_cons_of_ne (Ne.symm (Ne.symm hDot))]

/-- A number without dots has digits only. -/
theorem digits_of_dotFound {c : UInt8} {word' : Bytes} (hc : isDigit c = true)
    (hWord : ∀ x ∈ word', isNumberCharacter x = true)
    (hNone : (Counts.init.over word').dotFound = 0) : Number (c :: word') := by
  refine ⟨cons_ne_nil c word', fun x hx => ?_⟩
  rcases mem_cons.mp hx with rfl | hx
  · exact hc
  · have hNumber := hWord x hx
    unfold isNumberCharacter at hNumber
    rw [or_eq_true, decide_eq_true_eq] at hNumber
    refine hNumber.resolve_left fun hDot => ?_
    rw [Counts.dotFound_over] at hNone
    have hCount : word'.count 46 = 0 := (Nat.add_eq_zero_iff.mp hNone).2
    exact count_eq_zero.mp hCount (hDot ▸ hx)

theorem dotFound_of_digits {c : UInt8} {word' : Bytes} (h : Number (c :: word')) :
    (Counts.init.over word').dotFound = 0 := by
  rw [Counts.dotFound_over]
  have hCount : word'.count 46 = 0 := by
    refine count_eq_zero.mpr fun hDot => ?_
    have hDigit := h.2 46 (mem_cons_of_mem c hDot)
    exact absurd hDigit (by decide)
  rw [hCount]
  rfl

/-- `ic_found_num` takes every string of digits. -/
theorem foundNum_digits {word : Bytes} (h : Number word) :
    ∃ intVal, Config.foundNum word = some intVal :=
  ⟨_, Config.convConfigStrToInt_written
    ⟨word, [], 1, (append_nil word).symm, h.1, h.2, rfl, rfl⟩⟩

theorem foundIdentifier_long {h : HashFunction} {memory : Bool} {word : Bytes}
    (hLong : Keywords.symbolBufSize < word.length) : foundIdentifier h memory word = none := by
  unfold foundIdentifier icFoundIdentifier
  rw [if_neg (Nat.not_le_of_lt hLong)]

/-- What is found of an identifier that fits: its keyword if it has a slot, a copy otherwise. -/
theorem foundIdentifier_short (h : HashFunction) (memory : Bool) {word : Bytes}
    (hShort : ¬Keywords.symbolBufSize < word.length) :
    (HasSlot h word ∧ ∃ found, foundIdentifier h memory word = some (some found) ∧
        found.symbolValue ≠ 0) ∨
      (¬HasSlot h word ∧
        foundIdentifier h memory word = some (if memory then some ⟨0, some word⟩ else none)) := by
  have hFits : word.length ≤ Keywords.symbolBufSize := Nat.le_of_not_lt hShort
  unfold foundIdentifier icFoundIdentifier HasSlot
  rw [if_pos hFits]
  dsimp only
  by_cases hSlot : h.symbolMap (Keywords.lexHash (Keywords.icConvertToUppercase word)
      h.hashMultiplier h.hashDivider) = 0
  · refine .inr ⟨fun hHas => hHas hSlot, ?_⟩
    rw [if_neg (fun hHas => hHas hSlot)]
    cases memory with
    | true => rfl
    | false => rfl
  · have hValue : (h.symbolMap (Keywords.lexHash (Keywords.icConvertToUppercase word)
        h.hashMultiplier h.hashDivider)).toUInt32 ≠ 0 := fun hZero =>
      hSlot (UInt16.toUInt32_inj.mp hZero)
    rw [if_pos hSlot]
    exact .inl ⟨hSlot, ⟨_, none⟩, if_neg fun hNone => hValue hNone.1, hValue⟩

section Tokens

variable {h : HashFunction} {text parseBuf word post spare : Bytes} {pos : Nat}

theorem slice_drop {l : Bytes} {start : Nat} (hDrop : parseBuf.drop start = word ++ l) :
    slice parseBuf start (start + word.length) = word := by
  unfold slice
  rw [hDrop, Nat.add_sub_cancel_left, take_left]

theorem wordEnds_iff : WordEnds post ↔ isEndSymbolCharacter (post.headD 0) = true := by
  cases post with
  | nil =>
    constructor
    · rintro ⟨c, post', hPost, -⟩
      cases hPost
    · intro hEnd
      exact absurd hEnd (by decide)
  | cons c post =>
    constructor
    · rintro ⟨c', post', hPost, hEnd⟩
      cases hPost
      exact hEnd
    · exact fun hEnd => ⟨c, post, rfl, hEnd⟩

theorem goesOn_of_not (hPost : ¬WordEnds post) : isEndSymbolCharacter (post.headD 0) = false :=
  eq_false_iff.mpr fun hEnd => hPost (wordEnds_iff.mpr hEnd)

/-- Where a word ends, no digit and no character of an identifier comes. -/
theorem WordEnds.stops {p : UInt8 → Bool} (hPost : WordEnds post)
    (hp : ∀ c, isEndSymbolCharacter c = true → p c = false) : Stops p post := by
  rcases hPost with ⟨c, post', rfl, hEnd⟩
  intro a ha
  obtain rfl : c = a := Option.some.inj ha
  exact hp c hEnd

/-- The buffer behind a position of the text. -/
theorem At.drop {rest : Bytes} (h : At text rest pos) (hBuf : parseBuf = text ++ 0 :: spare) :
    parseBuf.drop pos = rest ++ 0 :: spare := by
  obtain ⟨front, rfl, rfl⟩ := h
  rw [hBuf, append_assoc, drop_left]

/-- Behind a word that is not the last one there is more of the text. -/
theorem At.word_lt (h : At text (word ++ post) pos) (hPost : post ≠ []) :
    pos + word.length < text.length := by
  have hLen := h.le
  have hPos := length_pos_iff.mpr hPost
  rw [length_append] at hLen
  omega

theorem WordEnds.ne_nil (hPost : WordEnds post) : post ≠ [] := by
  rcases hPost with ⟨c, post', rfl, -⟩
  exact cons_ne_nil c post'

/-- The blanks in front of a word are skipped, inside the text. -/
theorem skips {token : Bool → Nat → UInt8 → Option Result} (hBuf : parseBuf = text ++ 0 :: spare) :
    Skips text (fun memory pos =>
      if pos < text.length then do
        let (c, startPos) ← scanBelow isIgnore text.length pos (parseBuf.drop pos)
        token memory startPos c
      else none) token := by
  constructor
  case token =>
    intro blanks c tail pos memory hAt hBlank hc
    have hIn := hAt.word_lt (cons_ne_nil c tail)
    have hLt : pos < text.length := Nat.lt_of_le_of_lt (Nat.le_add_right _ _) hIn
    have hDrop := hAt.drop hBuf
    rw [append_assoc] at hDrop
    dsimp only
    rw [if_pos hLt, hDrop, cons_append, scanBelow_append hBlank hc hIn]
    rfl
  case nothing =>
    intro blanks pos memory hAt hBlank
    have hLen := hAt.le
    dsimp only
    split_ifs with hLt
    · have hNe : blanks ≠ [] := by
        rintro rfl
        rw [length_nil] at hLen
        omega
      rw [hAt.drop hBuf, scanBelow_none hBlank hNe hLen.ge]
      rfl
    · rfl

/-- A number is a token where a word ends. -/
theorem foundInteger_ends (hDrop : parseBuf.drop pos = word ++ (post ++ 0 :: spare))
    (hWord : Number word) (hPost : WordEnds post) :
    ∃ intVal, foundInteger parseBuf (post.headD 0) pos (pos + word.length) =
      .token ⟨.integer intVal, pos, pos + word.length⟩ := by
  rcases foundNum_digits hWord with ⟨intVal, hNum⟩
  unfold foundInteger
  rw [if_pos (wordEnds_iff.mp hPost), slice_drop hDrop, hNum]
  exact ⟨_, rfl⟩

theorem foundInteger_goesOn {startPos currentPos : Nat} (hPost : ¬WordEnds post) :
    foundInteger parseBuf (post.headD 0) startPos currentPos = .error numberError :=
  if_neg fun hEnd => hPost (wordEnds_iff.mpr hEnd)

theorem ofFound_ne (found : Found) : Symbol.ofFound found ≠ .endOfInput := by
  unfold Symbol.ofFound
  split_ifs
  · exact fun hSymbol => nomatch hSymbol
  · exact fun hSymbol => nomatch hSymbol

end Tokens

/-! ### ic_mgr_lex -/

section Mgr

variable {h : HashFunction} {parseBuf word post spare l : Bytes} {parseStrLen pos : Nat}
  {memory : Bool} {c : UInt8}

theorem mgrToken_number (hDrop : parseBuf.drop pos = (c :: word) ++ (post ++ 0 :: spare))
    (hWord : Number (c :: word)) (hPost : Stops isDigit post)
    (hIn : pos + (c :: word).length < parseStrLen) :
    mgrToken h parseBuf parseStrLen memory pos c =
      some (foundInteger parseBuf (post.headD 0) pos (pos + (c :: word).length)) := by
  have hDigit : isDigit c = true := hWord.2 c mem_cons_self
  have hOther := digit_class c hDigit
  unfold mgrToken
  rw [hOther.2.1, if_neg Bool.false_ne_true, if_pos hDigit, hDrop,
    scanBelow_text hWord.2 hPost zero_class.2.2.1 hIn]
  rfl

theorem mgrToken_number_none (hDrop : parseBuf.drop pos = (c :: word) ++ l)
    (hWord : Number (c :: word)) (hEnd : parseStrLen ≤ pos + (c :: word).length) :
    mgrToken h parseBuf parseStrLen memory pos c = none := by
  have hDigit : isDigit c = true := hWord.2 c mem_cons_self
  have hOther := digit_class c hDigit
  unfold mgrToken
  rw [hOther.2.1, if_neg Bool.false_ne_true, if_pos hDigit, hDrop,
    scanBelow_none hWord.2 hWord.1 hEnd]
  rfl

/-- What `ic_mgr_lex` makes of a word at `pos` that it looks up. -/
def mgrLookUp (h : HashFunction) (memory : Bool) (word : Bytes) (pos : Nat) : Option Result :=
  match foundIdentifier h memory word with
  | none => none
  | some none => some (.error memoryAllocationFailure)
  | some (some found) =>
    if word.any isVersionCharacter then
      if found.symbolValue ≠ 0 then none
      else some (.token ⟨.versionIdentifier found.icStr, pos, pos + word.length⟩)
    else some (.token ⟨.ofFound found, pos, pos + word.length⟩)

/-- The loop comes to the end of an identifier; it is looked up if the rules for its characters are
kept. -/
theorem mgrToken_identifier (memory : Bool)
    (hDrop : parseBuf.drop pos = (c :: word) ++ (post ++ 0 :: spare))
    (hAlpha : isalpha c = true) (hWord : ∀ x ∈ word, isIdentifierCharacter x = true)
    (hPost : Stops isIdentifierCharacter post) (hIn : pos + (c :: word).length ≤ parseStrLen)
    (hLast : pos + (c :: word).length = parseStrLen →
      ∀ x ∈ (c :: word).getLast?, isVersionCharacter x = true) :
    mgrToken h parseBuf parseStrLen memory pos c =
      if isEndSymbolCharacter (post.headD 0) = false then some (.error identifierError)
      else if (c :: word).any isupper ∧ (c :: word).any isVersionCharacter then
        some (.error versionIdentifierError)
      else mgrLookUp h memory (c :: word) pos := by
  have hClass := alpha_class c hAlpha
  have hAll : ∀ x ∈ c :: word, isIdentifierCharacter x = true :=
    forall_mem_cons.mpr ⟨hClass.2.2.2, hWord⟩
  have hLoop : identifierLoop parseStrLen pos (isupper c) false
      ((c :: word) ++ (post ++ 0 :: spare)) =
      some (post.headD 0, pos + (c :: word).length, (c :: word).any isupper,
        (c :: word).any isVersionCharacter) := by
    have hUpper : (isupper c || (c :: word).any isupper) = (c :: word).any isupper := by
      rw [any_cons, ← Bool.or_assoc, Bool.or_self]
    rw [identifierLoop_text hAll hPost hIn hLast, hUpper, Bool.false_or]
  unfold mgrToken
  rw [hClass.2.1, if_neg Bool.false_ne_true, hClass.2.2.1, if_neg Bool.false_ne_true,
    if_pos hAlpha, hDrop, hLoop]
  dsimp only [bind, Option.bind]
  rw [slice_drop hDrop]
  rfl

theorem mgrToken_identifier_none (hDrop : parseBuf.drop pos = (c :: word) ++ l)
    (hAlpha : isalpha c = true) (hWord : ∀ x ∈ word, isIdentifierCharacter x = true)
    (hEnd : pos + (c :: word).length = parseStrLen)
    (hLast : ∃ x ∈ (c :: word).getLast?, isVersionCharacter x = false) :
    mgrToken h parseBuf parseStrLen memory pos c = none := by
  have hClass := alpha_class c hAlpha
  have hAll : ∀ x ∈ c :: word, isIdentifierCharacter x = true :=
    forall_mem_cons.mpr ⟨hClass.2.2.2, hWord⟩
  unfold mgrToken
  rw [hClass.2.1, if_neg Bool.false_ne_true, hClass.2.2.1, if_neg Bool.false_ne_true,
    if_pos hAlpha, hDrop, identifierLoop_none hAll hEnd hLast]
  rfl

end Mgr

/-! ### ic_boot_lex -/

section Boot

variable {h : HashFunction} {parseBuf word post spare l : Bytes} {parseStrLen pos : Nat} {c : UInt8}

theorem drop_cons {l : Bytes} (hDrop : parseBuf.drop pos = c :: l) :
    parseBuf.drop (pos + 1) = l := by
  rw [← drop_drop, hDrop]
  rfl

theorem add_length_cons : pos + 1 + word.length = pos + (c :: word).length := by
  rw [length_cons, Nat.add_assoc, Nat.add_comm 1]

/-- A number to its end; with dots it is an address. -/
theorem bootToken_number (memory : Bool)
    (hDrop : parseBuf.drop pos = (c :: word) ++ (post ++ 0 :: spare)) (hDigit : isDigit c = true)
    (hWord : ∀ x ∈ word, isNumberCharacter x = true) (hPost : Stops isNumberCharacter post)
    (hIn : pos + (c :: word).length < parseStrLen) :
    bootToken h parseBuf parseStrLen memory pos c =
      if isEndSymbolCharacter (post.headD 0) = false then some (.error numberError)
      else if (Counts.init.over word).dotFound = 0 then
        some (foundInteger parseBuf (post.headD 0) pos (pos + (c :: word).length))
      else if ¬(Counts.init.over word).WellFormed then some (.error notWellFormedIpAddress)
      else if memory then
        some (.token ⟨.identifier (some (c :: word)), pos, pos + (c :: word).length⟩)
      else some (.error memoryAllocationFailure) := by
  rw [← add_length_cons] at hIn
  have hLoop : numberLoop parseStrLen (pos + 1) .init (word ++ (post ++ 0 :: spare)) =
      some (post.headD 0, pos + (c :: word).length, Counts.init.over word) := by
    rw [numberLoop_text hWord hPost hIn, add_length_cons]
  unfold bootToken
  rw [(digit_class c hDigit).2.1, if_neg Bool.false_ne_true, if_pos hDigit,
    drop_cons (l := word ++ (post ++ 0 :: spare)) hDrop, hLoop]
  dsimp only [bind, Option.bind]
  rw [slice_drop hDrop]

theorem bootToken_number_none (memory : Bool) (hDrop : parseBuf.drop pos = (c :: word) ++ l)
    (hDigit : isDigit c = true) (hWord : ∀ x ∈ word, isNumberCharacter x = true)
    (hEnd : parseStrLen ≤ pos + (c :: word).length) :
    bootToken h parseBuf parseStrLen memory pos c = none := by
  rw [← add_length_cons] at hEnd
  unfold bootToken
  rw [(digit_class c hDigit).2.1, if_neg Bool.false_ne_true, if_pos hDigit,
    drop_cons (l := word ++ l) hDrop, numberLoop_none hWord hEnd]
  rfl

/-- An identifier to its end. -/
theorem bootToken_identifier (parseStrLen : Nat) (memory : Bool)
    (hDrop : parseBuf.drop pos = (c :: word) ++ (post ++ 0 :: spare))
    (hAlpha : isalpha c = true) (hWord : ∀ x ∈ word, isIdentifierCharacter x = true)
    (hPost : Stops isIdentifierCharacter post) :
    bootToken h parseBuf parseStrLen memory pos c =
      if isEndSymbolCharacter (post.headD 0) = false then some (.error identifierError)
      else
        match foundIdentifier h memory (c :: word) with
        | none => none
        | some none => some (.error memoryAllocationFailure)
        | some (some found) =>
          some (.token ⟨.ofFound found, pos, pos + (c :: word).length⟩) := by
  have hClass := alpha_class c hAlpha
  have hScan : scan isIdentifierCharacter (pos + 1) (word ++ (post ++ 0 :: spare)) =
      some (post.headD 0, pos + (c :: word).length) := by
    rw [scan_text hWord hPost zero_class.2.2.2, add_length_cons]
  unfold bootToken
  rw [hClass.2.1, if_neg Bool.false_ne_true, hClass.2.2.1, if_neg Bool.false_ne_true,
    if_pos hAlpha, drop_cons (l := word ++ (post ++ 0 :: spare)) hDrop, hScan]
  dsimp only [bind, Option.bind]
  rw [slice_drop hDrop]

theorem bootToken_equal (parseStrLen : Nat) (memory : Bool)
    (hDrop : parseBuf.drop pos = 61 :: (post ++ 0 :: spare)) :
    bootToken h parseBuf parseStrLen memory pos 61 =
      if isEndCharacter (post.headD 0) then some (.error identifierError)
      else some (.token ⟨.equal, pos, pos + 1⟩) := by
  have hNext : parseBuf[pos + 1]? = some (post.headD 0) := by
    rw [← head?_drop, drop_cons hDrop]
    cases post with
    | nil => rfl
    | cons d post => rfl
  have hEnd : isEndCharacter 61 = false := by decide
  have hDigit : isDigit 61 = false := by decide
  have hAlpha : isalpha 61 = false := by decide
  have hEqual : isEqualCharacter 61 = true := by decide
  unfold bootToken
  rw [hEnd, hDigit, hAlpha, hEqual, hNext]
  rfl

end Boot

/-! ### The rules -/

theorem Identifier.begins {word : Bytes} (hWord : Identifier word) :
    ∃ c word', word = c :: word' ∧ isIgnore c = false := by
  obtain ⟨c, word', rfl, hAlpha, -⟩ := hWord
  exact ⟨c, word', rfl, (alpha_class c hAlpha).1⟩

theorem Number.begins {word : Bytes} (hWord : Number word) :
    ∃ c word', word = c :: word' ∧ isIgnore c = false := by
  obtain ⟨c, word', rfl⟩ := exists_cons_of_ne_nil hWord.1
  exact ⟨c, word', rfl, (digit_class c (hWord.2 c mem_cons_self)).1⟩

theorem stops_of_begins {word post : Bytes} (h : ∃ c word', word = c :: word' ∧ isIgnore c = false) :
    Stops isIgnore (word ++ post) := by
  obtain ⟨c, word', rfl, hc⟩ := h
  exact stops_append hc

theorem begins_mgr (h : HashFunction) : Begins MgrAccepts (MgrFails h) where
  accepts := by
    rintro word post ⟨-, hNumber | hWord⟩
    · exact hNumber.begins
    · exact hWord.1.begins
  fails := by
    rintro tail (rfl | hNumber | ⟨hWord, -⟩ | ⟨word, post, rfl, hWord, -⟩)
    · exact fun c hc => nomatch hc
    · exact append_nil tail ▸ stops_of_begins hNumber.begins
    · exact append_nil tail ▸ stops_of_begins hWord.begins
    · exact stops_of_begins hWord.1.begins
  nothing := .inl rfl

theorem begins_boot : Begins BootAccepts BootFails where
  accepts := by
    rintro word post (⟨-, hNumber | hAddress | hWord⟩ | ⟨rfl, -⟩)
    · exact hNumber.begins
    · obtain ⟨c, word', rfl, hDigit, -⟩ := hAddress
      exact ⟨c, word', rfl, (digit_class c hDigit).1⟩
    · exact hWord.begins
    · exact ⟨61, [], rfl, by decide⟩
  fails := by
    rintro tail (rfl | ⟨c, word, rfl, hDigit, -⟩ | ⟨word, post, rfl, hWord, -⟩)
    · exact fun c hc => nomatch hc
    · exact append_nil (c :: word) ▸ stops_append (digit_class c hDigit).1
    · exact stops_of_begins hWord.begins
  nothing := .inl rfl

section Rules

variable {h : HashFunction} {text parseBuf word post spare : Bytes} {pos : Nat} {c : UInt8}

/-- The call of `ic_mgr_lex` at an identifier that is looked up. -/
theorem mgrToken_looksUp (memory : Bool) (hBuf : parseBuf = text ++ 0 :: spare)
    (hAt : At text (c :: word ++ post) pos) (hWord : MgrLooksUp (c :: word)) (hPost : WordEnds post) :
    mgrToken h parseBuf text.length memory pos c = mgrLookUp h memory (c :: word) pos := by
  have hDrop := hAt.drop hBuf
  rw [append_assoc] at hDrop
  obtain ⟨⟨c', word', hEq, hAlpha, hChars⟩, hRules⟩ := hWord
  cases hEq
  have hStops := hPost.stops fun x hx => (endSymbol_stops x hx).2
  have hIn := hAt.word_lt hPost.ne_nil
  rw [mgrToken_identifier memory hDrop hAlpha hChars hStops (Nat.le_of_lt hIn)
    fun hEnd => absurd hEnd (Nat.ne_of_lt hIn), wordEnds_iff.mp hPost,
    if_neg true_eq_false_eq_False, if_neg hRules]

/-- Such a call returns where the lexer does not fail; with memory it returns the word. -/
theorem mgrToken_returns (memory : Bool) (hBuf : parseBuf = text ++ 0 :: spare)
    (hAt : At text (c :: word ++ post) pos) (hWord : MgrLooksUp (c :: word)) (hPost : WordEnds post)
    (hReturns : ¬MgrFails h (c :: word ++ post)) :
    ∃ r, mgrToken h parseBuf text.length memory pos c = some r ∧
      ((memory = false ∧ r = .error memoryAllocationFailure) ∨
        ∃ symbol, r = .token ⟨symbol, pos, pos + (c :: word).length⟩ ∧ symbol ≠ .endOfInput) := by
  have hShort : ¬Keywords.symbolBufSize < (c :: word).length := fun hLong =>
    hReturns (.inr (.inr (.inr ⟨_, _, rfl, hWord, hPost, .inl hLong⟩)))
  rw [mgrToken_looksUp memory hBuf hAt hWord hPost]
  unfold mgrLookUp
  rcases foundIdentifier_short h memory hShort with ⟨hSlot, found, hFound, -⟩ | ⟨hNone, hFound⟩
  · -- a keyword has no version character
    have hVersion : ¬(c :: word).any isVersionCharacter = true := fun hVersion =>
      hReturns (.inr (.inr (.inr ⟨_, _, rfl, hWord, hPost, .inr ⟨hVersion, hSlot⟩⟩)))
    rw [hFound]
    dsimp only
    rw [if_neg hVersion]
    exact ⟨_, rfl, .inr ⟨_, rfl, ofFound_ne found⟩⟩
  · rw [hFound]
    cases memory with
    | false => exact ⟨_, rfl, .inl ⟨rfl, rfl⟩⟩
    | true =>
      rw [if_pos rfl]
      dsimp only
      by_cases hVersion : (c :: word).any isVersionCharacter = true
      · rw [if_pos hVersion, if_neg (fun hZero => hZero rfl)]
        exact ⟨_, rfl, .inr ⟨_, rfl, fun hSymbol => nomatch hSymbol⟩⟩
      · rw [if_neg hVersion]
        exact ⟨_, rfl, .inr ⟨_, rfl, ofFound_ne _⟩⟩

/-- The call of `ic_mgr_lex` at a letter. -/
theorem mgrToken_letter (memory : Bool) (hBuf : parseBuf = text ++ 0 :: spare)
    (hAt : At text (c :: tail) pos) (hAlpha : isalpha c = true)
    (hReturns : ¬MgrFails h (c :: tail)) :
    ∃ r, mgrToken h parseBuf text.length memory pos c = some r ∧
      Good MgrAccepts text (c :: tail) pos r := by
  have hDrop := hAt.drop hBuf
  obtain ⟨word, post, rfl, hWord, hStops⟩ := exists_run isIdentifierCharacter tail
  rw [← cons_append] at hAt hReturns ⊢
  rw [← cons_append, append_assoc] at hDrop
  have hIdentifier : Identifier (c :: word) := ⟨c, word, rfl, hAlpha, hWord⟩
  have hLast : pos + (c :: word).length = text.length →
      ∀ x ∈ (c :: word).getLast?, isVersionCharacter x = true := by
    intro hEnd x hx
    by_contra hOther
    rw [Bool.not_eq_true] at hOther
    cases post with
    | nil =>
      rw [append_nil] at hReturns
      exact hReturns (.inr (.inr (.inl ⟨hIdentifier, x, hx, hOther⟩)))
    | cons d post => exact absurd hEnd (Nat.ne_of_lt (hAt.word_lt (cons_ne_nil d post)))
  have hToken := mgrToken_identifier (h := h) memory hDrop hAlpha hWord hStops hAt.word_le hLast
  by_cases hPost : WordEnds post
  swap
  · rw [if_pos (goesOn_of_not hPost)] at hToken
    exact ⟨_, hToken, good_error⟩
  by_cases hRules : (c :: word).any isupper ∧ (c :: word).any isVersionCharacter
  · rw [wordEnds_iff.mp hPost, if_neg true_eq_false_eq_False, if_pos hRules] at hToken
    exact ⟨_, hToken, good_error⟩
  have hLooksUp : MgrLooksUp (c :: word) := ⟨hIdentifier, hRules⟩
  rcases mgrToken_returns memory hBuf hAt hLooksUp hPost hReturns with
    ⟨r, hr, ⟨-, rfl⟩ | ⟨symbol, rfl, -⟩⟩
  · exact ⟨_, hr, good_error⟩
  · exact ⟨_, hr, good_word hAt ⟨hPost, .inr hLooksUp⟩⟩

/-- The call of `ic_mgr_lex` at a digit. -/
theorem mgrToken_digit (memory : Bool) (hBuf : parseBuf = text ++ 0 :: spare)
    (hAt : At text (c :: tail) pos) (hDigit : isDigit c = true)
    (hReturns : ¬MgrFails h (c :: tail)) :
    ∃ r, mgrToken h parseBuf text.length memory pos c = some r ∧
      Good MgrAccepts text (c :: tail) pos r := by
  have hDrop := hAt.drop hBuf
  obtain ⟨word, post, rfl, hWord, hStops⟩ := exists_run isDigit tail
  have hNumber : Number (c :: word) :=
    ⟨cons_ne_nil c word, forall_mem_cons.mpr ⟨hDigit, hWord⟩⟩
  have hMore : post ≠ [] := by
    rintro rfl
    rw [append_nil] at hReturns
    exact hReturns (.inr (.inl hNumber))
  rw [← cons_append] at hAt ⊢
  rw [← cons_append, append_assoc] at hDrop
  refine ⟨_, mgrToken_number hDrop hNumber hStops (hAt.word_lt hMore), ?_⟩
  by_cases hPost : WordEnds post
  · rcases foundInteger_ends hDrop hNumber hPost with ⟨intVal, hToken⟩
    rw [hToken]
    exact good_word hAt ⟨hPost, .inl hNumber⟩
  · rw [foundInteger_goesOn hPost]
    exact good_error

theorem mgrToken_rules (hBuf : parseBuf = text ++ 0 :: spare) :
    TokenRules MgrAccepts (MgrFails h) text (mgrToken h parseBuf text.length) := by
  constructor
  case fails =>
    rintro c tail pos memory hAt
      (hNil | hNumber | ⟨⟨c', word, hEq, hAlpha, hWord⟩, hLast⟩ | ⟨word, post, hTail, hWord, hPost, hBad⟩)
    · cases hNil
    · exact mgrToken_number_none (hAt.drop hBuf) hNumber hAt.le.ge
    · cases hEq
      exact mgrToken_identifier_none (hAt.drop hBuf) hAlpha hWord hAt.le hLast
    · obtain ⟨c', word', rfl, -⟩ := hWord.1.begins
      rw [cons_append] at hTail
      obtain ⟨rfl, rfl⟩ := cons.inj hTail
      rw [mgrToken_looksUp memory hBuf hAt hWord hPost]
      unfold mgrLookUp
      by_cases hLong : Keywords.symbolBufSize < (c :: word').length
      · rw [foundIdentifier_long hLong]
      · obtain ⟨hVersion, hSlot⟩ := hBad.resolve_left hLong
        rcases foundIdentifier_short h memory hLong with
          ⟨-, found, hFound, hValue⟩ | ⟨hNone, -⟩
        · rw [hFound]
          dsimp only
          rw [if_pos hVersion, if_pos hValue]
        · exact absurd hSlot hNone
  case returns =>
    intro c tail pos memory hAt hReturns
    by_cases hEnd : isEndCharacter c = true
    · exact ⟨_, if_pos hEnd, good_end hAt⟩
    by_cases hDigit : isDigit c = true
    · exact mgrToken_digit memory hBuf hAt hDigit hReturns
    by_cases hAlpha : isalpha c = true
    · exact mgrToken_letter memory hBuf hAt hAlpha hReturns
    · refine ⟨.error lexError, ?_, good_error⟩
      unfold mgrToken
      rw [if_neg hEnd, if_neg hDigit, if_neg hAlpha]
  case accepted =>
    rintro c word post pos hAt ⟨hPost, hNumber | hLooksUp⟩ hReturns
    · have hDrop := hAt.drop hBuf
      rw [append_assoc] at hDrop
      have hStops := hPost.stops fun x hx => (endSymbol_stops x hx).1
      rcases foundInteger_ends hDrop hNumber hPost with ⟨intVal, hToken⟩
      refine ⟨_, (mgrToken_number hDrop hNumber hStops (hAt.word_lt hPost.ne_nil)).trans
        (congrArg some hToken), ?_, rfl⟩
      exact fun hSymbol => nomatch hSymbol
    · rcases mgrToken_returns true hBuf hAt hLooksUp hPost hReturns with
        ⟨r, hr, ⟨hMemory, -⟩ | ⟨symbol, rfl, hSymbol⟩⟩
      · cases hMemory
      · exact ⟨_, hr, hSymbol, rfl⟩

/-- The rules for `ic_mgr_lex`. -/
theorem mgr_rules (hBuf : parseBuf = text ++ 0 :: spare) :
    Rules MgrAccepts (MgrFails h) text (icMgrLex h parseBuf text.length) :=
  (mgrToken_rules hBuf).rules (begins_mgr h) (skips hBuf)

/-- The call of `ic_boot_lex` at a digit. -/
theorem bootToken_digit (memory : Bool) (hBuf : parseBuf = text ++ 0 :: spare)
    (hAt : At text (c :: tail) pos) (hDigit : isDigit c = true)
    (hReturns : ¬BootFails (c :: tail)) :
    ∃ r, bootToken h parseBuf text.length memory pos c = some r ∧
      Good BootAccepts text (c :: tail) pos r := by
  have hDrop := hAt.drop hBuf
  obtain ⟨word, post, rfl, hWord, hStops⟩ := exists_run isNumberCharacter tail
  have hMore : post ≠ [] := by
    rintro rfl
    rw [append_nil] at hReturns
    exact hReturns (.inr (.inl ⟨c, word, rfl, hDigit, hWord⟩))
  rw [← cons_append] at hAt ⊢
  rw [← cons_append, append_assoc] at hDrop
  have hToken := bootToken_number (h := h) memory hDrop hDigit hWord hStops (hAt.word_lt hMore)
  by_cases hPost : WordEnds post
  swap
  · rw [if_pos (goesOn_of_not hPost)] at hToken
    exact ⟨_, hToken, good_error⟩
  rw [wordEnds_iff.mp hPost, if_neg true_eq_false_eq_False] at hToken
  by_cases hDots : (Counts.init.over word).dotFound = 0
  · have hNumber := digits_of_dotFound hDigit hWord hDots
    rcases foundInteger_ends hDrop hNumber hPost with ⟨intVal, hInteger⟩
    rw [if_pos hDots, hInteger] at hToken
    exact ⟨_, hToken, good_word hAt (.inl ⟨hPost, .inl hNumber⟩)⟩
  rw [if_neg hDots] at hToken
  by_cases hWellFormed : (Counts.init.over word).WellFormed
  swap
  · rw [if_pos hWellFormed] at hToken
    exact ⟨_, hToken, good_error⟩
  have hAddress : Address (c :: word) := ⟨c, word, rfl, hDigit, hWord, hWellFormed⟩
  rw [if_neg (not_not.mpr hWellFormed)] at hToken
  cases memory with
  | false => exact ⟨_, hToken, good_error⟩
  | true => exact ⟨_, hToken, good_word hAt (.inl ⟨hPost, .inr (.inl hAddress)⟩)⟩

/-- The call of `ic_boot_lex` at a letter. -/
theorem bootToken_letter (memory : Bool) (hBuf : parseBuf = text ++ 0 :: spare)
    (hAt : At text (c :: tail) pos) (hAlpha : isalpha c = true)
    (hReturns : ¬BootFails (c :: tail)) :
    ∃ r, bootToken h parseBuf text.length memory pos c = some r ∧
      Good BootAccepts text (c :: tail) pos r := by
  have hDrop := hAt.drop hBuf
  obtain ⟨word, post, rfl, hWord, hStops⟩ := exists_run isIdentifierCharacter tail
  rw [← cons_append] at hAt hReturns ⊢
  rw [← cons_append, append_assoc] at hDrop
  have hToken := bootToken_identifier (h := h) text.length memory hDrop hAlpha hWord hStops
  by_cases hPost : WordEnds post
  swap
  · rw [if_pos (goesOn_of_not hPost)] at hToken
    exact ⟨_, hToken, good_error⟩
  rw [wordEnds_iff.mp hPost, if_neg true_eq_false_eq_False] at hToken
  have hIdentifier : Identifier (c :: word) := ⟨c, word, rfl, hAlpha, hWord⟩
  have hShort : ¬Keywords.symbolBufSize < (c :: word).length := fun hLong =>
    hReturns (.inr (.inr ⟨c :: word, post, rfl, hIdentifier, hPost, hLong⟩))
  have hGood : ∀ symbol, Good BootAccepts text (c :: word ++ post) pos
      (.token ⟨symbol, pos, pos + (c :: word).length⟩) := fun symbol =>
    good_word hAt (.inl ⟨hPost, .inr (.inr hIdentifier)⟩)
  rcases foundIdentifier_short h memory hShort with ⟨-, found, hFound, -⟩ | ⟨-, hFound⟩
  · rw [hFound] at hToken
    exact ⟨_, hToken, hGood _⟩
  · rw [hFound] at hToken
    cases memory with
    | false => exact ⟨_, hToken, good_error⟩
    | true => exact ⟨_, hToken, hGood _⟩

/-- The call of `ic_boot_lex` at a '='. -/
theorem bootToken_sign (memory : Bool) (hBuf : parseBuf = text ++ 0 :: spare)
    (hAt : At text (61 :: tail) pos) :
    ∃ r, bootToken h parseBuf text.length memory pos 61 = some r ∧
      Good BootAccepts text (61 :: tail) pos r := by
  have hToken := bootToken_equal (h := h) text.length memory (hAt.drop hBuf)
  by_cases hEnd : isEndCharacter (tail.headD 0) = true
  · rw [if_pos hEnd] at hToken
    exact ⟨_, hToken, good_error⟩
  · rw [if_neg hEnd] at hToken
    have hNext : ∀ c ∈ tail.head?, isEndCharacter c = false := by
      intro c hc
      cases tail with
      | nil => cases hc
      | cons d tail =>
        obtain rfl : d = c := Option.some.inj hc
        exact eq_false_iff.mpr hEnd
    have hChar : At text ([61] ++ tail) pos := hAt
    exact ⟨_, hToken, good_word hChar (.inr ⟨rfl, hNext⟩)⟩

theorem bootToken_rules (hBuf : parseBuf = text ++ 0 :: spare) :
    TokenRules BootAccepts BootFails text (bootToken h parseBuf text.length) := by
  constructor
  case fails =>
    rintro c tail pos memory hAt
      (hNil | ⟨c', word, hEq, hDigit, hWord⟩ |
        ⟨word, post, hTail, ⟨c', word', rfl, hAlpha, hChars⟩, hPost, hLong⟩)
    · -- a word has been begun, so the text is not at its end
      cases hNil
    · cases hEq
      exact bootToken_number_none memory (hAt.drop hBuf) hDigit hWord hAt.le.ge
    · rw [cons_append] at hTail
      obtain ⟨rfl, rfl⟩ := cons.inj hTail
      have hDrop := hAt.drop hBuf
      rw [← cons_append, append_assoc] at hDrop
      have hStops := hPost.stops fun x hx => (endSymbol_stops x hx).2
      refine (bootToken_identifier _ memory hDrop hAlpha hChars hStops).trans ?_
      rw [wordEnds_iff.mp hPost, if_neg true_eq_false_eq_False, foundIdentifier_long hLong]
  case returns =>
    intro c tail pos memory hAt hReturns
    by_cases hEnd : isEndCharacter c = true
    · exact ⟨_, if_pos hEnd, good_end hAt⟩
    by_cases hDigit : isDigit c = true
    · exact bootToken_digit memory hBuf hAt hDigit hReturns
    by_cases hAlpha : isalpha c = true
    · exact bootToken_letter memory hBuf hAt hAlpha hReturns
    by_cases hEqual : isEqualCharacter c = true
    · obtain rfl : c = 61 := of_decide_eq_true hEqual
      exact bootToken_sign memory hBuf hAt
    · refine ⟨.error lexError, ?_, good_error⟩
      unfold bootToken
      rw [if_neg hEnd, if_neg hDigit, if_neg hAlpha, if_neg hEqual]
  case accepted =>
    intro c word post pos hAt hAccepts hReturns
    have hDrop := hAt.drop hBuf
    rw [append_assoc] at hDrop
    rcases hAccepts with ⟨hPost, hNumber | hAddress | hIdentifier⟩ | ⟨hEqual, hNext⟩
    · -- digits only: an integer
      have hChars : ∀ x ∈ word, isNumberCharacter x = true := fun x hx =>
        digit_number x (hNumber.2 x (mem_cons_of_mem c hx))
      have hToken := bootToken_number (h := h) true hDrop (hNumber.2 c mem_cons_self) hChars
        (hPost.stops endSymbol_number) (hAt.word_lt hPost.ne_nil)
      rcases foundInteger_ends hDrop hNumber hPost with ⟨intVal, hInteger⟩
      rw [wordEnds_iff.mp hPost, if_neg true_eq_false_eq_False,
        if_pos (dotFound_of_digits hNumber), hInteger] at hToken
      exact ⟨_, hToken, fun hSymbol => (nomatch hSymbol), rfl⟩
    · -- dots: an address
      obtain ⟨c', word', hEq, hDigit, hWord, hWellFormed⟩ := hAddress
      cases hEq
      have hDots : (Counts.init.over word).dotFound ≠ 0 := by
        rw [hWellFormed.1]
        decide
      have hToken := bootToken_number (h := h) true hDrop hDigit hWord
        (hPost.stops endSymbol_number) (hAt.word_lt hPost.ne_nil)
      rw [wordEnds_iff.mp hPost, if_neg true_eq_false_eq_False, if_neg hDots,
        if_neg (not_not.mpr hWellFormed), if_pos rfl] at hToken
      exact ⟨_, hToken, fun hSymbol => (nomatch hSymbol), rfl⟩
    · have hShort : ¬Keywords.symbolBufSize < (c :: word).length := fun hLong =>
        hReturns (.inr (.inr ⟨_, post, rfl, hIdentifier, hPost, hLong⟩))
      obtain ⟨c', word', hEq, hAlpha, hChars⟩ := hIdentifier
      cases hEq
      have hToken := bootToken_identifier (h := h) text.length true hDrop hAlpha
        hChars (hPost.stops fun x hx => (endSymbol_stops x hx).2)
      rw [wordEnds_iff.mp hPost, if_neg true_eq_false_eq_False] at hToken
      rcases foundIdentifier_short h true hShort with ⟨-, found, hFound, -⟩ | ⟨-, hFound⟩
      · rw [hFound] at hToken
        exact ⟨_, hToken, ofFound_ne found, rfl⟩
      · rw [hFound] at hToken
        exact ⟨_, hToken, ofFound_ne ⟨0, some (c :: word)⟩, rfl⟩
    · cases hEqual
      have hEnd : ¬isEndCharacter (post.headD 0) = true := by
        cases post with
        | nil => decide
        | cons d post => exact eq_false_iff.mp (hNext d rfl)
      have hToken := bootToken_equal (h := h) text.length true hDrop
      rw [if_neg hEnd] at hToken
      exact ⟨_, hToken, fun hSymbol => (nomatch hSymbol), rfl⟩

/-- The rules for `ic_boot_lex`. -/
theorem boot_rules (hBuf : parseBuf = text ++ 0 :: spare) :
    Rules BootAccepts BootFails text (icBootLex h parseBuf text.length) :=
  (bootToken_rules hBuf).rules begins_boot (skips hBuf)

end Rules

end IClaustron.Lex
