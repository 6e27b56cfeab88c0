import IClaustron.Config.Reader

/-!
# Config.ReaderLoop — the loops of the configuration reader

Model of util/ic_config_reader.c, character by character: a pointer into the text is what is left
of the memory from there on, and a function that writes there returns what it leaves. All lengths
of lines have the byte at the end of the line in them, which is a carriage return or a zero. The
operations are a function of the calls they have had, so that a run is the list of its calls.

* `scanConfigLine_spec` — a line is read, and left, as `readConfigLine` says.
* `icBuildConfigData_eq` — the two readings are the reference run on the lines of the text, so
  that they end for every text and both see the same lines.

Scope limits: the texts that are printed.
-/

namespace IClaustron.Config.Loop

open Lib Protocol List

/-! ## Calls -/

/-- A call of one of the operations. -/
inductive Call where
  | configInit (pass : Pass)
  | addSection (sectionNumber lineNumber : Nat) (name : Bytes) (pass : Pass)
  | addKey (sectionNumber lineNumber : Nat) (name data : Bytes) (pass : Pass)
  | addComment (lineNumber sectionNumber : Nat) (comment : Bytes) (pass : Pass)
  | configVerify (lineNumber : Nat) (pass : Pass)
  | configEnd
  deriving DecidableEq

/-- `IC_CONFIG_OPERATIONS`: what a call returns after the calls before it. -/
abbrev Operations := List Call → Call → Nat

/-! ## Lines -/

/-- `read_cr_line`, with the rest of the lengths that are tried. -/
def readCrLineFrom : Nat → Nat → Bytes → Nat
  | 0, _, _ => 0
  | left + 1, len, iterData =>
    let iterChar := iterData.headD 0
    if iterChar = carriageReturn ∨ iterChar = 0 then len
    else readCrLineFrom left (len + 1) iterData.tail

def readCrLineLen (iterData : Bytes) : Nat := readCrLineFrom (maxConfigLineLen - 1) 1 iterData

/-- `conv_group_id`: whether there is a group id, and how it is left. -/
def scanGroupId : Nat → Bytes → Bool × Bytes
  | 0, groupId => (true, groupId)
  | left + 1, groupId =>
    let c := groupId.headD 0
    if isAlpha c then
      let next := scanGroupId left groupId.tail
      (next.1, toLower c :: next.2)
    else if c ≠ 32 then (false, groupId)
    else
      let next := scanGroupId left groupId.tail
      (next.1, c :: next.2)

/-- The loop of `conv_key_id`: the length of the key, and how it is left. -/
def scanKeyId : Nat → Nat → Bytes → Option Nat × Bytes
  | 0, _, keyId => (none, keyId)
  | left + 1, iterLen, keyId =>
    let c := keyId.headD 0
    if ¬ isAlpha c ∧ c ≠ 95 then (some iterLen, keyId)
    else
      let next := scanKeyId left (iterLen + 1) keyId.tail
      (next.1, toLower c :: next.2)

/-- `rm_space`: the pointer and the length behind the space. -/
def rmSpace (len : Nat) : Bytes → Nat → Bytes × Nat
  | [], iterLen => ([], iterLen)
  | c :: valStr, iterLen =>
    if (isBlank c ∨ c = 9) ∧ iterLen < len then rmSpace len valStr (iterLen + 1)
    else (c :: valStr, iterLen)

/-- The loop of `conv_key_value` over the value. -/
def allowedValue : Nat → Bytes → Bool
  | 0, _ => true
  | left + 1, valStr =>
    let c := valStr.headD 0
    if isAlpha c ∨ c = 47 ∨ c = 92 ∨ isDigit c ∨ c = 46 ∨ c = 95 ∨ isBlank c then
      allowedValue left valStr.tail
    else false

/-- The part of `conv_key_value` behind the assignment operator: the value and its length. -/
def scanValue (inputLen : Nat) (valStr : Bytes) (iterLen : Nat) : Option (Bytes × Nat) :=
  let (valStr, iterLen) := rmSpace inputLen valStr iterLen
  if allowedValue (inputLen - iterLen) valStr then
    -- found
    if iterLen < inputLen then some (valStr, inputLen - iterLen) else none
  else none

/-- `conv_key_value`. -/
def scanKeyValue (valStr : Bytes) (inputLen : Nat) : Option (Bytes × Nat) :=
  let (valStr, iterLen) := rmSpace inputLen valStr 0
  if inputLen = iterLen ∨ valStr.headD 0 ≠ 61 ∧ valStr.headD 0 ≠ 58 then none
  else scanValue inputLen valStr.tail (iterLen + 1)

/-- What `read_config_line` does with a line: it returns, or calls an operation. -/
inductive LineAction where
  | returns (code : Nat)
  | calls (call : Call)

/-- `read_config_line`: what is done, the section number, and how the line is left. -/
def scanConfigLine (iterData : Bytes) (lineLen lineNumber sectionNum : Nat) (pass : Pass) :
    LineAction × Nat × Bytes :=
  if lineLen = 1 then (.returns 0, sectionNum, iterData)
  else if iterData.headD 0 = 35 then
    (.calls (.addComment lineNumber sectionNum (iterData.take lineLen) pass), sectionNum, iterData)
  else if iterData.headD 0 = 91 then
    if iterData.getD (lineLen - 2) 0 ≠ 93 then (.returns 7001, sectionNum, iterData)
    else
      let groupIdLen := lineLen - 3
      let (found, groupId) := scanGroupId groupIdLen iterData.tail
      let iterData := iterData.headD 0 :: groupId
      if found then
        (.calls (.addSection (sectionNum + 1) lineNumber (groupId.take groupIdLen) pass),
          sectionNum + 1, iterData)
      else (.returns 7002, sectionNum, iterData)
  else
    let (keyStr, spaceLen) := rmSpace lineLen iterData 0
    let (idLen, keyId) := scanKeyId (lineLen - spaceLen) 0 keyStr
    let space := iterData.take spaceLen
    match idLen with
    | none => (.returns 7003, sectionNum, space ++ keyId)
    | some idLen =>
      let valLen := lineLen - (idLen + spaceLen + 1)
      match scanKeyValue (keyId.drop idLen) valLen with
      | none => (.returns 7003, sectionNum, space ++ keyId)
      | some (valStr, valLen) =>
        (.calls (.addKey sectionNum lineNumber (keyId.take idLen) (valStr.take valLen) pass),
          sectionNum, space ++ keyId)

/-! ## Loop -/

section Run

variable (ops : Operations)

/-- A call; its error is reported with the line number. -/
def deliver (lineNumber : Nat) (call : Call) : Attempt (List Call) ConfigError Unit := fun log =>
  if ops log call = 0 then .ok () (log ++ [call])
  else .error ⟨ops log call, lineNumber⟩ (log ++ [call])

/-- The variables of the loop over the lines: the memory before `iter_data` and from there on. -/
structure Place where
  before : Bytes
  iterData : Bytes
  iterDataLen : Nat
  lineNumber : Nat
  sectionNum : Nat

/-- Behind a line of this length, which has been left like this. -/
def Place.next (p : Place) (lineLength sectionNum : Nat) (iterData : Bytes) : Place where
  before := p.before ++ iterData.take lineLength
  iterData := iterData.drop lineLength
  iterDataLen := p.iterDataLen + lineLength
  lineNumber := p.lineNumber + 1
  sectionNum := sectionNum

/-- Behind a line feed. -/
def Place.skip (p : Place) : Place :=
  { p with
    before := p.before ++ p.iterData.take 1
    iterData := p.iterData.drop 1
    iterDataLen := p.iterDataLen + 1 }

/-- The loop of one reading. A run that does not end aborts. -/
def readLoop (pass : Pass) (confLen : Nat) : Nat → Place → Attempt (List Call) ConfigError Place
  | 0, _ => fun _ => .abort
  | fuel + 1, p =>
    if p.iterDataLen < confLen then
      if p.iterData.headD 0 = lineFeed then readLoop pass confLen fuel p.skip
      else
        let lineLength := readCrLineLen p.iterData
        if lineLength = 0 then Attempt.throw ⟨7000, p.lineNumber⟩
        else
          match scanConfigLine p.iterData lineLength p.lineNumber p.sectionNum pass with
          | (.returns code, sectionNum, iterData) =>
            if code ≠ 0 then Attempt.throw ⟨code, p.lineNumber⟩
            else readLoop pass confLen fuel (p.next lineLength sectionNum iterData)
          | (.calls call, sectionNum, iterData) => do
            deliver ops p.lineNumber call
            readLoop pass confLen fuel (p.next lineLength sectionNum iterData)
    else pure p

/-- One reading: how the memory is left, and the line number. -/
def readPass (pass : Pass) (confLen : Nat) (memory : Bytes) :
    Attempt (List Call) ConfigError (Bytes × Nat) := do
  deliver ops 1 (.configInit pass)
  let p ← readLoop ops pass confLen (confLen + 1) ⟨[], memory, 0, 1, 0⟩
  pure (p.before ++ p.iterData, p.lineNumber)

/-- `ic_config_end` after an error. -/
def endConfig : Attempt (List Call) ConfigError Unit := fun log => .ok () (log ++ [.configEnd])

/-- `ic_build_config_data`, for a text with a zero behind it. -/
def icBuildConfigData (confData : Bytes) : Attempt (List Call) ConfigError Unit :=
  if confData.length = 0 then Attempt.throw ⟨1, 0⟩
  else
    Attempt.onError
      (do
        let (memory, _) ← readPass ops .initial confData.length (confData ++ [0])
        let (_, lineNumber) ← readPass ops .build confData.length memory
        deliver ops lineNumber (.configVerify (lineNumber - 1) .build))
      endConfig

end Run

/-! ## Reference -/

/-- The call for a line that has been read, with the byte that ends it. -/
def itemCall (pass : Pass) (lineNumber sectionNum : Nat) (line : Bytes) (term : UInt8) :
    Item → Option Call
  | .empty => none
  | .comment => some (.addComment lineNumber sectionNum (line ++ [term]) pass)
  | .section name => some (.addSection (sectionNum + 1) lineNumber name pass)
  | .key name data => some (.addKey sectionNum lineNumber name data pass)

/-- The section number behind a line. -/
def nextSection (sectionNum : Nat) : Item → Nat
  | .section _ => sectionNum + 1
  | _ => sectionNum

/-- What is done for a line that has been read. -/
def itemAction (pass : Pass) (lineNumber sectionNum : Nat) (line : Bytes) (term : UInt8)
    (item : Item) : LineAction :=
  match itemCall pass lineNumber sectionNum line term item with
  | none => .returns 0
  | some call => .calls call

/-- The lines of a text, each with the byte that ends it. -/
def textLines : Bytes → List (Bytes × Option UInt8)
  | [] => []
  | c :: text =>
    if c = carriageReturn ∨ c = 0 then ([], some c) :: textLines text
    else
      match textLines text with
      | [] => [([c], none)]
      | (line, term) :: lines => (c :: line, term) :: lines

/-- A line behind the line feeds in front of it. At the end of the text it has a zero behind it, and
there is no line when nothing is left. -/
def startOfLine : Bytes × Option UInt8 → Option (Bytes × UInt8)
  | (line, some term) => some (line.dropWhile (· = lineFeed), term)
  | (line, none) =>
    if line.dropWhile (· = lineFeed) = [] then none else some (line.dropWhile (· = lineFeed), 0)

/-- The lines that are read. -/
def linesOf (text : Bytes) : List (Bytes × UInt8) := (textLines text).filterMap startOfLine

/-- What is handed over for a line. -/
def deliverItem (ops : Operations) (lineNumber : Nat) :
    Option Call → Attempt (List Call) ConfigError Unit
  | none => pure ()
  | some call => deliver ops lineNumber call

/-- The run on a list of lines, from a line number and a section number. -/
def runLines (ops : Operations) (pass : Pass) :
    List (Bytes × UInt8) → Nat → Nat → Attempt (List Call) ConfigError Nat
  | [], lineNumber, _ => pure lineNumber
  | (line, term) :: lines, lineNumber, sectionNum =>
    if line.length + 1 < maxConfigLineLen then
      match readConfigLine line with
      | .error code => Attempt.throw ⟨code, lineNumber⟩
      | .ok (item, _) => do
        deliverItem ops lineNumber (itemCall pass lineNumber sectionNum line term item)
        runLines ops pass lines (lineNumber + 1) (nextSection sectionNum item)
    else Attempt.throw ⟨7000, lineNumber⟩

/-- One reading of a list of lines. -/
def runPass (ops : Operations) (pass : Pass) (lines : List (Bytes × UInt8)) :
    Attempt (List Call) ConfigError Nat := do
  deliver ops 1 (.configInit pass)
  runLines ops pass lines 1 0

/-- The two readings. -/
def runTwice (ops : Operations) (lines : List (Bytes × UInt8)) :
    Attempt (List Call) ConfigError Unit :=
  Attempt.onError
    (do
      let _ ← runPass ops .initial lines
      let lineNumber ← runPass ops .build lines
      deliver ops lineNumber (.configVerify (lineNumber - 1) .build))
    endConfig

/-- A byte that ends a line. -/
def IsTerm (c : UInt8) : Prop := c = carriageReturn ∨ c = 0

/-! ## Lines one by one -/

section Scan

variable {line tail : Bytes} {term : UInt8}

theorem inLine_iff {c : UInt8} : inLine c = true ↔ ¬ IsTerm c := by
  unfold inLine IsTerm
  rw [decide_eq_true_eq, not_or]

theorem isKeyChar_of_isTerm {c : UInt8} (h : IsTerm c) : isKeyChar c = false := by
  rcases h with rfl | rfl <;> decide

/-- The length of a line, or 0 when it is too long. -/
theorem readCrLineLen_spec (hLine : ∀ c ∈ line, inLine c = true) (hTerm : IsTerm term) :
    readCrLineLen (line ++ term :: tail) =
      if line.length + 1 < maxConfigLineLen then line.length + 1 else 0 := by
  have hFrom : ∀ (line : Bytes), (∀ c ∈ line, inLine c = true) → ∀ left len,
      readCrLineFrom left len (line ++ term :: tail) =
        if line.length < left then len + line.length else 0 := by
    intro line
    induction line with
    | nil =>
      intro _ left len
      cases left with
      | zero => rfl
      | succ left => exact if_pos hTerm
    | cons c line ih =>
      intro hLine left len
      cases left with
      | zero => rfl
      | succ left =>
        have hc : ¬ (c = carriageReturn ∨ c = 0) := inLine_iff.mp (hLine c mem_cons_self)
        have hNext := ih (fun c hc => hLine c (mem_cons_of_mem _ hc)) left (len + 1)
        show (if c = carriageReturn ∨ c = 0 then len else
          readCrLineFrom left (len + 1) (line ++ term :: tail)) = _
        rw [if_neg hc, hNext, length_cons]
        by_cases hLen : line.length < left
        · rw [if_pos hLen, if_pos (by omega)]
          omega
        · rw [if_neg hLen, if_neg (by omega)]
  have hAll := hFrom line hLine (maxConfigLineLen - 1) 1
  unfold readCrLineLen
  rw [hAll, Nat.add_comm 1]
  have hIff : line.length < maxConfigLineLen - 1 ↔ line.length + 1 < maxConfigLineLen := by
    unfold maxConfigLineLen
    omega
  simp only [hIff]

theorem scanGroupId_cons {c : UInt8} (left : Nat) (groupId : Bytes) (hc : isAlpha c = true ∨ c = 32) :
    scanGroupId (left + 1) (c :: groupId) =
      ((scanGroupId left groupId).1, toLower c :: (scanGroupId left groupId).2) := by
  show (if isAlpha c = true then _ else if c ≠ 32 then _ else _) = _
  by_cases hAlpha : isAlpha c = true
  · exact if_pos hAlpha
  · obtain rfl := hc.resolve_left hAlpha
    rfl

/-- A name of letters and spaces is put into lower case. -/
theorem scanGroupId_of_all {groupId : Bytes} (hAll : ∀ c ∈ groupId, isAlpha c = true ∨ c = 32)
    (tail : Bytes) :
    scanGroupId groupId.length (groupId ++ tail) = (true, groupId.map toLower ++ tail) := by
  induction groupId with
  | nil => rfl
  | cons c groupId ih =>
    have hNext := ih fun c hc => hAll c (mem_cons_of_mem _ hc)
    rw [length_cons, cons_append, scanGroupId_cons _ _ (hAll c mem_cons_self), hNext]
    rfl

theorem scanGroupId_of_not_all {groupId : Bytes}
    (hAll : ¬ ∀ c ∈ groupId, isAlpha c = true ∨ c = 32) (tail : Bytes) :
    (scanGroupId groupId.length (groupId ++ tail)).1 = false := by
  induction groupId with
  | nil => exact absurd (fun _ hc => (nomatch hc)) hAll
  | cons c groupId ih =>
    by_cases hc : isAlpha c = true ∨ c = 32
    · rw [length_cons, cons_append, scanGroupId_cons _ _ hc]
      refine ih fun hRest => hAll ?_
      exact forall_mem_cons.mpr ⟨hc, hRest⟩
    · show (if isAlpha c = true then _ else if c ≠ 32 then _ else _ : Bool × Bytes).1 = _
      rw [if_neg fun h => hc (.inl h), if_pos fun h => hc (.inr h)]

/-- The key up to the first character that is none of a key. -/
theorem scanKeyId_spec {key : Bytes} {c : UInt8} (hKey : ∀ c ∈ key, isKeyChar c = true)
    (hEnd : isKeyChar c = false) (left iterLen : Nat) (hLeft : key.length < left) :
    scanKeyId left iterLen (key ++ c :: tail) =
      (some (iterLen + key.length), key.map toLower ++ c :: tail) := by
  have hChar : ∀ d, (¬ isAlpha d = true ∧ d ≠ 95) ↔ isKeyChar d = false := by
    intro d
    unfold isKeyChar
    rw [decide_eq_false_iff_not, not_or]
  induction key generalizing left iterLen with
  | nil =>
    obtain ⟨left, rfl⟩ := Nat.exists_eq_add_of_lt hLeft
    rw [length_nil, Nat.zero_add]
    show (if ¬ isAlpha c = true ∧ c ≠ 95 then _ else _) = _
    rw [if_pos ((hChar c).mpr hEnd)]
    rfl
  | cons d key ih =>
    rw [length_cons] at hLeft
    obtain ⟨left, rfl⟩ := Nat.exists_eq_add_of_lt (Nat.zero_lt_of_lt hLeft)
    have hd : ¬ (¬ isAlpha d = true ∧ d ≠ 95) := by
      rw [hChar, hKey d mem_cons_self]
      exact Bool.noConfusion
    have hNext := ih (fun c hc => hKey c (mem_cons_of_mem _ hc)) left (iterLen + 1) (by omega)
    rw [Nat.zero_add]
    show (if ¬ isAlpha d = true ∧ d ≠ 95 then _ else
      ((scanKeyId left (iterLen + 1) (key ++ c :: tail)).1,
        toLower d :: (scanKeyId left (iterLen + 1) (key ++ c :: tail)).2)) = _
    rw [if_neg hd, hNext, length_cons, map_cons, cons_append]
    simp only [Prod.mk.injEq, and_true, Option.some.injEq]
    omega

/-- Space is skipped up to the given length. -/
theorem rmSpace_spec {space : Bytes} (hSpace : ∀ c ∈ space, isBlank c = true) (len iterLen : Nat)
    (hLen : iterLen + space.length ≤ len)
    (hEnd : iterLen + space.length < len → ∀ c ∈ tail.head?, isBlank c = false) :
    rmSpace len (space ++ tail) iterLen = (tail, iterLen + space.length) := by
  have hTab : ∀ c, (isBlank c = true ∨ c = 9) ↔ isBlank c = true := by
    intro c
    refine or_iff_left_of_imp ?_
    rintro rfl
    decide
  induction space generalizing iterLen with
  | nil =>
    cases tail with
    | nil => rfl
    | cons c tail =>
      have hStop : ¬ ((isBlank c = true ∨ c = 9) ∧ iterLen < len) := by
        rw [hTab]
        rintro ⟨hBlank, hlt⟩
        rw [hEnd hlt c rfl] at hBlank
        cases hBlank
      exact if_neg hStop
  | cons c space ih =>
    rw [length_cons] at hLen hEnd
    have hGo : (isBlank c = true ∨ c = 9) ∧ iterLen < len :=
      ⟨.inl (hSpace c mem_cons_self), by omega⟩
    have hNext := ih (fun c hc => hSpace c (mem_cons_of_mem _ hc)) (iterLen + 1) (by omega)
      (fun h => hEnd (by omega))
    show (if (isBlank c = true ∨ c = 9) ∧ iterLen < len then
      rmSpace len (space ++ tail) (iterLen + 1) else _) = _
    rw [if_pos hGo, hNext, length_cons]
    simp only [Prod.mk.injEq, true_and]
    omega

theorem allowedValue_spec (val tail : Bytes) :
    allowedValue val.length (val ++ tail) = val.all isValueChar := by
  induction val with
  | nil => rfl
  | cons c val ih =>
    rw [all_cons, ← ih]
    show (if isAlpha c = true ∨ c = 47 ∨ c = 92 ∨ isDigit c = true ∨ c = 46 ∨ c = 95 ∨
      isBlank c = true then allowedValue val.length (val ++ tail) else false) = _
    unfold isValueChar
    by_cases hc : isAlpha c = true ∨ c = 47 ∨ c = 92 ∨ isDigit c = true ∨ c = 46 ∨ c = 95 ∨
        isBlank c = true
    · rw [if_pos hc, decide_eq_true hc, Bool.true_and]
    · rw [if_neg hc, decide_eq_false hc, Bool.false_and]

theorem head?_dropWhile_isBlank (str : Bytes) :
    ∀ c ∈ (str.dropWhile isBlank).head?, isBlank c = false := by
  intro c hc
  have hNot := head?_dropWhile_not isBlank str
  rw [hc] at hNot
  simpa using hNot

/-- Behind the assignment operator: blanks, and a value when there is one. -/
theorem scanValue_spec (str : Bytes) {tail : Bytes} (iterLen : Nat) :
    scanValue (iterLen + str.length) (str ++ tail) iterLen =
      (if str.dropWhile isBlank ≠ [] ∧ (str.dropWhile isBlank).all isValueChar then
        some (str.dropWhile isBlank ++ tail, (str.dropWhile isBlank).length) else none) := by
  have hBlank : ∀ c ∈ str.takeWhile isBlank, isBlank c = true := fun c => mem_takeWhile_imp
  have hHead := head?_dropWhile_isBlank str
  have hSplit : str.takeWhile isBlank ++ str.dropWhile isBlank = str :=
    takeWhile_append_dropWhile
  generalize str.takeWhile isBlank = space at *
  generalize str.dropWhile isBlank = val at *
  subst hSplit
  have hLen : iterLen + (space ++ val).length - (iterLen + space.length) = val.length := by
    rw [length_append]
    omega
  have hSpace : rmSpace (iterLen + (space ++ val).length) (space ++ val ++ tail) iterLen =
      (val ++ tail, iterLen + space.length) := by
    rw [append_assoc]
    refine rmSpace_spec hBlank _ _ (by rw [length_append]; omega) ?_
    intro hlt c hc
    cases val with
    | nil =>
      rw [append_nil] at hlt
      omega
    | cons d val => exact hHead c hc
  have hFound : iterLen + space.length < iterLen + (space ++ val).length ↔ val ≠ [] := by
    rw [← length_pos_iff, length_append]
    omega
  unfold scanValue
  rw [hSpace]
  simp only [hLen, allowedValue_spec, hFound]
  by_cases hAll : val.all isValueChar = true
  · simp only [hAll, if_true, and_true]
  · simp only [hAll, and_false, if_false, Bool.false_eq_true]

/-- The value behind a key, with what stands behind the line. -/
theorem scanKeyValue_spec (str : Bytes) {tail : Bytes} :
    scanKeyValue (str ++ tail) str.length =
      (convKeyValue str).map fun data => (data ++ tail, data.length) := by
  have hBlank : ∀ c ∈ str.takeWhile isBlank, isBlank c = true := fun c => mem_takeWhile_imp
  have hHead := head?_dropWhile_isBlank str
  have hSplit : str.takeWhile isBlank ++ str.dropWhile isBlank = str :=
    takeWhile_append_dropWhile
  unfold convKeyValue
  generalize str.takeWhile isBlank = space at *
  generalize str.dropWhile isBlank = rest at *
  subst hSplit
  cases rest with
  | nil =>
    have hSpace : rmSpace (space ++ []).length (space ++ [] ++ tail) 0 =
        (tail, (space ++ []).length) := by
      rw [append_nil]
      have hAll := @rmSpace_spec tail space hBlank space.length 0 (by omega)
        (fun h => absurd h (by omega))
      rwa [Nat.zero_add] at hAll
    unfold scanKeyValue
    rw [hSpace]
    exact if_pos (.inl rfl)
  | cons c rest =>
    have hSpace : rmSpace (space ++ c :: rest).length (space ++ c :: rest ++ tail) 0 =
        (c :: (rest ++ tail), space.length) := by
      rw [append_assoc]
      have hAll := @rmSpace_spec (c :: (rest ++ tail)) space hBlank (space ++ c :: rest).length 0
        (by rw [length_append]; omega) fun _ d hd => hHead d hd
      rwa [Nat.zero_add] at hAll
    have hLen : (space ++ c :: rest).length = space.length + 1 + rest.length := by
      rw [length_append, length_cons]
      omega
    unfold scanKeyValue
    rw [hSpace]
    show (if (space ++ c :: rest).length = space.length ∨ c ≠ 61 ∧ c ≠ 58 then none
      else scanValue (space ++ c :: rest).length (rest ++ tail) (space.length + 1)) = _
    rw [hLen, scanValue_spec]
    by_cases hAssign : c = 61 ∨ c = 58
    · have hGo : ¬ (space.length + 1 + rest.length = space.length ∨ c ≠ 61 ∧ c ≠ 58) := by
        rintro (hEq | ⟨h61, h58⟩)
        · omega
        · exact hAssign.elim h61 h58
      rw [if_neg hGo]
      dsimp only
      rw [if_pos hAssign]
      split
      next => rfl
      next => rfl
    · rw [if_pos (.inr (not_or.mp hAssign))]
      dsimp only
      rw [if_neg hAssign]
      rfl

theorem headD_ne {d : UInt8} (hne : line ≠ []) (h : line.head? ≠ some d) :
    ¬ (line ++ tail).headD 0 = d := by
  obtain ⟨c, line, rfl⟩ := exists_cons_of_ne_nil hne
  exact fun hEq => h (congrArg some hEq)

/-- A line that is not blank has a place for a key. -/
theorem exists_keyLine (h : line.dropWhile isBlank ≠ []) :
    ∃ p : KeyLine, p.line = line ∧ p.str = (line.dropWhile isBlank).dropWhile isKeyChar := by
  have hSplit : (line.dropWhile isBlank).takeWhile isKeyChar ++
      (line.dropWhile isBlank).dropWhile isKeyChar = line.dropWhile isBlank :=
    takeWhile_append_dropWhile
  refine ⟨⟨line.takeWhile isBlank, (line.dropWhile isBlank).takeWhile isKeyChar,
    (line.dropWhile isBlank).dropWhile isKeyChar, fun c => mem_takeWhile_imp,
    fun c => mem_takeWhile_imp, ?_, ?_, ?_⟩, ?_, rfl⟩
  · intro c hc
    have hNot := head?_dropWhile_not isKeyChar (line.dropWhile isBlank)
    rw [hc] at hNot
    simpa using hNot
  · rw [hSplit]
    exact head?_dropWhile_isBlank line
  · rwa [hSplit]
  · show line.takeWhile isBlank ++ _ = line
    rw [hSplit, takeWhile_append_dropWhile]

variable (n sectionNum : Nat) (pass : Pass)

/-- A line with a key. -/
theorem scanConfigLine_key (p : KeyLine) (h35 : p.line.head? ≠ some 35)
    (h91 : p.line.head? ≠ some 91) (hTerm : IsTerm term) :
    scanConfigLine (p.line ++ term :: tail) (p.line.length + 1) n sectionNum pass =
      match convKeyValue p.str with
      | none => (.returns 7003, sectionNum, p.lower.line ++ term :: tail)
      | some data =>
        (.calls (.addKey sectionNum n (p.name.map toLower) data pass), sectionNum,
          p.lower.line ++ term :: tail) := by
  have hNe : p.line ≠ [] := fun h => p.nonempty (append_eq_nil_iff.mp h).2
  have hLen : p.line.length + 1 = p.blanks.length + (p.name.length + p.str.length + 1) := by
    unfold KeyLine.line
    rw [length_append, length_append]
    omega
  have hText : p.line ++ term :: tail = p.blanks ++ (p.name ++ (p.str ++ term :: tail)) := by
    unfold KeyLine.line
    rw [append_assoc, append_assoc]
  have hSpace : rmSpace (p.line.length + 1) (p.line ++ term :: tail) 0 =
      (p.name ++ (p.str ++ term :: tail), p.blanks.length) := by
    have hAll := @rmSpace_spec (p.name ++ (p.str ++ term :: tail)) p.blanks p.blanks_blank
      (p.line.length + 1) 0 (by omega) ?_
    · rwa [Nat.zero_add, ← hText] at hAll
    · intro _ c hc
      refine p.head c ?_
      rw [← append_assoc] at hc
      obtain ⟨d, rest, hRest⟩ := exists_cons_of_ne_nil p.nonempty
      rw [hRest] at hc ⊢
      exact hc
  -- the key ends in the line, or with it
  have hKey : scanKeyId (p.line.length + 1 - p.blanks.length) 0
        (p.name ++ (p.str ++ term :: tail)) =
      (some p.name.length, p.name.map toLower ++ (p.str ++ term :: tail)) := by
    have hLeft : p.name.length < p.line.length + 1 - p.blanks.length := by omega
    cases hStr : p.str with
    | nil =>
      have hAll := @scanKeyId_spec tail _ term p.name_key (isKeyChar_of_isTerm hTerm) _ 0 hLeft
      rwa [Nat.zero_add] at hAll
    | cons c str =>
      have hEnd : isKeyChar c = false := p.str_head c (by rw [hStr]; rfl)
      have hAll := @scanKeyId_spec (str ++ term :: tail) _ c p.name_key hEnd _ 0 hLeft
      rwa [Nat.zero_add] at hAll
  have hVal : p.line.length + 1 - (p.name.length + p.blanks.length + 1) = p.str.length := by omega
  have hName : (p.name.map toLower).length = p.name.length := length_map _
  have hMem : (p.line ++ term :: tail).take p.blanks.length ++
      (p.name.map toLower ++ (p.str ++ term :: tail)) = p.lower.line ++ term :: tail := by
    rw [hText, take_left]
    unfold KeyLine.lower KeyLine.line
    rw [append_assoc, append_assoc]
  have hDrop : (p.name.map toLower ++ (p.str ++ term :: tail)).drop p.name.length =
      p.str ++ term :: tail := drop_left' hName
  have hTake : (p.name.map toLower ++ (p.str ++ term :: tail)).take p.name.length =
      p.name.map toLower := take_left' hName
  have hOne : ¬ p.line.length + 1 = 1 := by
    rw [Nat.add_eq_right, length_eq_zero_iff]
    exact hNe
  unfold scanConfigLine
  rw [if_neg hOne, if_neg (headD_ne hNe h35), if_neg (headD_ne hNe h91), hSpace]
  dsimp only
  rw [hKey]
  dsimp only
  rw [hDrop, hTake, hVal, hMem, scanKeyValue_spec]
  cases hData : convKeyValue p.str with
  | none => rfl
  | some data =>
    dsimp only [Option.map_some]
    rw [take_left]

/-- A line with a bracket behind it. -/
theorem scanConfigLine_section (groupId : Bytes) :
    scanConfigLine (91 :: (groupId ++ 93 :: term :: tail)) (groupId.length + 3) n sectionNum pass =
      if (scanGroupId groupId.length (groupId ++ 93 :: term :: tail)).1 then
        (.calls (.addSection (sectionNum + 1) n
            ((scanGroupId groupId.length (groupId ++ 93 :: term :: tail)).2.take groupId.length)
            pass),
          sectionNum + 1, 91 :: (scanGroupId groupId.length (groupId ++ 93 :: term :: tail)).2)
      else
        (.returns 7002, sectionNum,
          91 :: (scanGroupId groupId.length (groupId ++ 93 :: term :: tail)).2) := by
  have hLast : (91 :: (groupId ++ 93 :: term :: tail)).getD (groupId.length + 3 - 2) 0 = 93 := by
    show (91 :: (groupId ++ 93 :: term :: tail)).getD (groupId.length + 1) 0 = 93
    rw [getD_cons_succ, getD_eq_getElem?_getD, getElem?_append_right le_rfl,
      Nat.sub_self]
    rfl
  have hHead : (91 :: (groupId ++ 93 :: term :: tail)).headD 0 = 91 := rfl
  have hHash : ¬ (91 :: (groupId ++ 93 :: term :: tail)).headD 0 = 35 := by
    rw [hHead]
    decide
  unfold scanConfigLine
  rw [if_neg (by omega), if_neg hHash, if_pos hHead, if_neg (not_not.mpr hLast)]
  rfl

/-- A line that can be read is handed over, and left with its names in lower case. -/
theorem scanConfigLine_ok {item : Item} {line' : Bytes} (hTerm : IsTerm term)
    (h : readConfigLine line = .ok (item, line')) :
    scanConfigLine (line ++ term :: tail) (line.length + 1) n sectionNum pass =
      (itemAction pass n sectionNum line term item, nextSection sectionNum item,
        line' ++ term :: tail) := by
  rcases readConfigLine_cases h with ⟨rfl, rfl, rfl⟩ | ⟨h35, rfl, rfl⟩ |
    ⟨groupId, hGroup, rfl, rfl, rfl⟩ | ⟨p, data, rfl, h35, h91, hData, rfl, rfl⟩
  · exact if_pos rfl
  · -- a comment, with the byte behind it
    rcases line' with _ | ⟨c, line⟩
    · cases h35
    · obtain rfl : c = 35 := Option.some.inj h35
      have hTake : (35 :: line ++ term :: tail).take ((35 :: line).length + 1) =
          35 :: line ++ [term] := by
        have hSplit : 35 :: line ++ term :: tail = (35 :: line ++ [term]) ++ tail := by simp
        rw [hSplit]
        exact take_left' (by simp)
      have hOne : ¬ (35 :: line).length + 1 = 1 := by simp
      have hHead : (35 :: line ++ term :: tail).headD 0 = 35 := rfl
      unfold scanConfigLine
      rw [if_neg hOne, if_pos hHead, hTake]
      rfl
  · have hAll := scanGroupId_of_all hGroup (93 :: term :: tail)
    have hLen : (91 :: (groupId ++ [93])).length + 1 = groupId.length + 3 := by simp
    have hText : 91 :: (groupId ++ [93]) ++ term :: tail = 91 :: (groupId ++ 93 :: term :: tail) := by
      simp
    have hName : (groupId.map toLower).length = groupId.length := length_map _
    rw [hLen, hText, scanConfigLine_section, hAll, if_pos rfl]
    dsimp only
    rw [take_left' hName]
    simp [itemAction, itemCall, nextSection]
  · rw [scanConfigLine_key n sectionNum pass p h35 h91 hTerm, hData]
    rfl

/-- The blanks of a line go on over its carriage return. -/
theorem scanBlank_cr (h : line.dropWhile isBlank = []) :
    rmSpace (line.length + 1) (line ++ carriageReturn :: tail) 0 = (tail, line.length + 1) := by
  have hAll : ∀ c ∈ line ++ [carriageReturn], isBlank c = true := by
    rw [forall_mem_append]
    refine ⟨dropWhile_eq_nil_iff.mp h, ?_⟩
    intro c hc
    rw [mem_singleton.mp hc]
    decide
  have hLen : (line ++ [carriageReturn]).length = line.length + 1 := length_append
  have hSpace := @rmSpace_spec tail _ hAll (line.length + 1) 0 (by omega)
    (fun hlt => absurd hlt (by omega))
  rwa [Nat.zero_add, append_assoc, singleton_append, hLen] at hSpace

/-- They end at the zero behind the text. -/
theorem scanBlank_zero (h : line.dropWhile isBlank = []) :
    rmSpace (line.length + 1) (line ++ 0 :: tail) 0 = (0 :: tail, line.length) := by
  have hSpace := @rmSpace_spec (0 :: tail) line (dropWhile_eq_nil_iff.mp h) (line.length + 1) 0
    (by omega) ?_
  · rwa [Nat.zero_add] at hSpace
  · intro _ c hc
    rw [← Option.some.inj hc]
    decide

/-- A line that cannot be read gives its code. -/
theorem scanConfigLine_error {code : Nat} (hTerm : IsTerm term)
    (h : readConfigLine line = .error code) :
    code ≠ 0 ∧ ∃ sectionNum' memory,
      scanConfigLine (line ++ term :: tail) (line.length + 1) n sectionNum pass =
        (.returns code, sectionNum', memory) := by
  unfold readConfigLine at h
  split_ifs at h with hne h35 h91 h93
  · -- no bracket at the end
    cases h
    refine ⟨by decide, ?_⟩
    obtain ⟨c, line, rfl⟩ := exists_cons_of_ne_nil hne
    obtain rfl : c = 91 := Option.some.inj h91
    have hLast : ¬ (91 :: line ++ term :: tail).getD ((91 :: line).length + 1 - 2) 0 = 93 := by
      have hIndex : (91 :: line).length + 1 - 2 = line.length := by
        rw [length_cons]
        omega
      rw [hIndex, getD_eq_getElem?_getD, getElem?_append_left (by simp)]
      intro hEq
      refine h93 ?_
      rw [getLast?_eq_getElem?]
      show (91 :: line)[line.length]? = some 93
      rw [getElem?_eq_getElem (by simp), Option.getD_some] at hEq
      rw [getElem?_eq_getElem (by simp), hEq]
    have hOne : ¬ (91 :: line).length + 1 = 1 := by simp
    have hFirst : (91 :: line ++ term :: tail).headD 0 = 91 := rfl
    have hHash : ¬ (91 :: line ++ term :: tail).headD 0 = 35 := by
      rw [hFirst]
      decide
    refine ⟨sectionNum, 91 :: line ++ term :: tail, ?_⟩
    unfold scanConfigLine
    rw [if_neg hOne, if_neg hHash, if_pos hFirst, if_pos hLast]
  · -- a group id that is none
    rw [not_not] at h93
    obtain ⟨c, line, rfl⟩ := exists_cons_of_ne_nil hne
    obtain rfl : c = 91 := Option.some.inj h91
    have hline : line ≠ [] := by
      rintro rfl
      cases h93
    obtain ⟨groupId, rfl⟩ : ∃ groupId, line = groupId ++ [93] := by
      refine ⟨line.dropLast, (dropLast_append_getLast? 93 ?_).symm⟩
      rwa [getLast?_cons_of_ne_nil hline] at h93
    rw [tail_cons, dropLast_concat] at h
    unfold convGroupId at h
    split_ifs at h with hAll
    cases h
    have hNot : ¬ ∀ c ∈ groupId, isAlpha c = true ∨ c = 32 := by
      intro hGroup
      refine hAll (all_eq_true.mpr fun c hc => ?_)
      exact decide_eq_true (hGroup c hc)
    have hLen : (91 :: (groupId ++ [93])).length + 1 = groupId.length + 3 := by simp
    have hText : 91 :: (groupId ++ [93]) ++ term :: tail = 91 :: (groupId ++ 93 :: term :: tail) := by
      simp
    refine ⟨by decide, sectionNum,
      91 :: (scanGroupId groupId.length (groupId ++ 93 :: term :: tail)).2, ?_⟩
    rw [hLen, hText, scanConfigLine_section, scanGroupId_of_not_all hNot, if_neg Bool.false_ne_true]
  · by_cases hBlank : line.dropWhile isBlank = []
    · -- a line of blanks: the key is looked for at the end of the line, or behind it
      rw [hBlank] at h
      cases h
      refine ⟨by decide, sectionNum, ?_⟩
      have hOne : ¬ line.length + 1 = 1 := by
        rw [Nat.add_eq_right, length_eq_zero_iff]
        exact hne
      unfold scanConfigLine
      rw [if_neg hOne, if_neg (headD_ne hne h35), if_neg (headD_ne hne h91)]
      rcases hTerm with rfl | rfl
      · have hSpace := @scanBlank_cr line tail hBlank
        rw [hSpace]
        dsimp only
        rw [Nat.sub_self]
        exact ⟨_, rfl⟩
      · have hSpace := @scanBlank_zero line tail hBlank
        have hLeft : line.length + 1 - line.length = 1 := by omega
        have hVal : line.length + 1 - (0 + line.length + 1) = 0 := by omega
        have hNone : scanKeyValue (0 :: tail) 0 = none := @scanKeyValue_spec [] (0 :: tail)
        have hKey : scanKeyId 1 0 (0 :: tail) = (some 0, 0 :: tail) := rfl
        rw [hSpace]
        dsimp only
        rw [hLeft, hKey]
        dsimp only
        rw [hVal, drop_zero, hNone]
        exact ⟨_, rfl⟩
    · obtain ⟨p, hLine, hStr⟩ := exists_keyLine hBlank
      unfold convKeyId at h
      rw [if_neg hBlank] at h
      dsimp only at h
      rw [← hStr] at h
      rw [← hLine] at h35 h91 ⊢
      cases hData : convKeyValue p.str with
      | some data =>
        rw [hData] at h
        cases h
      | none =>
        rw [hData] at h
        cases h
        refine ⟨by decide, sectionNum, p.lower.line ++ term :: tail, ?_⟩
        rw [scanConfigLine_key n sectionNum pass p h35 h91 hTerm, hData]

end Scan

/-! ## Simulation -/

section Text

variable {line rest text : Bytes} {term : UInt8}

theorem textLines_line (hLine : ∀ c ∈ line, inLine c = true) (hTerm : IsTerm term) :
    textLines (line ++ term :: rest) = (line, some term) :: textLines rest := by
  induction line with
  | nil => exact if_pos hTerm
  | cons c line ih =>
    have hc : ¬ (c = carriageReturn ∨ c = 0) := inLine_iff.mp (hLine c mem_cons_self)
    rw [cons_append, textLines, if_neg hc,
      ih fun c hc => hLine c (mem_cons_of_mem _ hc)]

theorem textLines_end (hLine : ∀ c ∈ line, inLine c = true) (hne : line ≠ []) :
    textLines line = [(line, none)] := by
  induction line with
  | nil => exact absurd rfl hne
  | cons c line ih =>
    have hc : ¬ (c = carriageReturn ∨ c = 0) := inLine_iff.mp (hLine c mem_cons_self)
    rw [textLines, if_neg hc]
    by_cases hEnd : line = []
    · rw [hEnd]
      rfl
    · rw [ih (fun c hc => hLine c (mem_cons_of_mem _ hc)) hEnd]

theorem dropWhile_lineFeed (hFeed : line.head? ≠ some lineFeed) :
    line.dropWhile (· = lineFeed) = line := by
  cases line with
  | nil => rfl
  | cons c line =>
    refine dropWhile_cons_of_neg ?_
    rw [decide_eq_true_eq]
    rintro rfl
    exact hFeed rfl

theorem linesOf_feed (text : Bytes) : linesOf (lineFeed :: text) = linesOf text := by
  have hFeed : ¬ (lineFeed = carriageReturn ∨ lineFeed = 0) := by decide
  unfold linesOf
  rw [textLines, if_neg hFeed]
  cases textLines text with
  | nil => rfl
  | cons first lines =>
    obtain ⟨line, term⟩ := first
    have hDrop : (lineFeed :: line).dropWhile (· = lineFeed) = line.dropWhile (· = lineFeed) :=
      dropWhile_cons_of_pos (decide_eq_true rfl)
    have hStart : startOfLine (lineFeed :: line, term) = startOfLine (line, term) := by
      cases term <;> unfold startOfLine <;> dsimp only <;> rw [hDrop]
    rw [filterMap_cons, filterMap_cons, hStart]

theorem linesOf_line (hLine : ∀ c ∈ line, inLine c = true) (hFeed : line.head? ≠ some lineFeed)
    (hTerm : IsTerm term) : linesOf (line ++ term :: rest) = (line, term) :: linesOf rest := by
  unfold linesOf
  rw [textLines_line hLine hTerm]
  refine filterMap_cons_some ?_
  unfold startOfLine
  dsimp only
  rw [dropWhile_lineFeed hFeed]

theorem linesOf_end (hLine : ∀ c ∈ line, inLine c = true) (hFeed : line.head? ≠ some lineFeed)
    (hne : line ≠ []) : linesOf line = [(line, 0)] := by
  unfold linesOf
  rw [textLines_end hLine hne]
  refine filterMap_cons_some ?_
  unfold startOfLine
  dsimp only
  rw [dropWhile_lineFeed hFeed, if_neg hne]

/-- How a text goes on: with a line feed, with a line, or with the last line. -/
theorem text_cases (hne : text ≠ []) :
    (∃ rest, text = lineFeed :: rest) ∨
    ∃ line : Bytes, (∀ c ∈ line, inLine c = true) ∧ line.head? ≠ some lineFeed ∧
      ((∃ term rest, IsTerm term ∧ text = line ++ term :: rest) ∨ line ≠ [] ∧ text = line) := by
  by_cases hFeed : text.head? = some lineFeed
  · obtain ⟨c, rest, rfl⟩ := exists_cons_of_ne_nil hne
    exact .inl ⟨rest, congrArg (· :: rest) (Option.some.inj hFeed)⟩
  · have hSplit : text.takeWhile inLine ++ text.dropWhile inLine = text :=
      takeWhile_append_dropWhile
    have hHead : (text.takeWhile inLine).head? ≠ some lineFeed := by
      intro h
      refine hFeed ?_
      rw [← hSplit, head?_append, h]
      rfl
    refine .inr ⟨text.takeWhile inLine, fun c => mem_takeWhile_imp, hHead, ?_⟩
    cases hRest : text.dropWhile inLine with
    | nil =>
      rw [hRest, append_nil] at hSplit
      exact .inr ⟨by rwa [hSplit], hSplit.symm⟩
    | cons term rest =>
      have hNot := head?_dropWhile_not inLine text
      rw [hRest] at hNot hSplit
      refine .inl ⟨term, rest, ?_, hSplit.symm⟩
      by_contra hTerm
      exact Bool.noConfusion ((inLine_iff.mpr hTerm).symm.trans hNot)

end Text

/-- What a reading makes of a line. -/
def Again (x y : Bytes × UInt8) : Prop := y.2 = x.2 ∧ ∃ item, readConfigLine x.1 = .ok (item, y.1)

/-- The loop does what the run does, and leaves a memory of this kind. -/
def Simulates (memory : Bytes → Prop) :
    Outcome (List Call) ConfigError Nat → Outcome (List Call) ConfigError Place → Prop
  | .ok n log, out => ∃ p, out = .ok p log ∧ p.lineNumber = n ∧ memory (p.before ++ p.iterData)
  | .error e log, out => out = .error e log
  | .abort, _ => False

theorem Simulates.mono {memory memory' : Bytes → Prop} {run : Outcome (List Call) ConfigError Nat}
    {out : Outcome (List Call) ConfigError Place} (h : Simulates memory run out)
    (hMem : ∀ m, memory m → memory' m) : Simulates memory' run out := by
  cases run with
  | ok n log =>
    obtain ⟨p, hOut, hNum, hm⟩ := h
    exact ⟨p, hOut, hNum, hMem _ hm⟩
  | error e log => exact h
  | abort => exact h

section Step

variable {ops : Operations} {pass : Pass} {confLen : Nat} {fuel : Nat} {p : Place}
variable {line line' tail : Bytes} {term : UInt8}

theorem headD_line (hFeed : line.head? ≠ some lineFeed) (hTerm : IsTerm term) :
    ¬ (line ++ term :: tail).headD 0 = lineFeed := by
  cases line with
  | nil =>
    rintro (rfl : term = lineFeed)
    revert hTerm
    unfold IsTerm
    decide
  | cons c line => exact headD_ne (cons_ne_nil c line) hFeed

theorem readLoop_end (hEnd : ¬ p.iterDataLen < confLen) :
    readLoop ops pass confLen (fuel + 1) p = pure p := by
  rw [readLoop, if_neg hEnd]

theorem readLoop_skip (hMore : p.iterDataLen < confLen) (hFeed : p.iterData.headD 0 = lineFeed) :
    readLoop ops pass confLen (fuel + 1) p = readLoop ops pass confLen fuel p.skip := by
  rw [readLoop, if_pos hMore, if_pos hFeed]

/-- The loop at the start of a line. -/
theorem readLoop_line (hMore : p.iterDataLen < confLen) (hData : p.iterData = line ++ term :: tail)
    (hLine : ∀ c ∈ line, inLine c = true) (hFeed : line.head? ≠ some lineFeed)
    (hTerm : IsTerm term) (log : List Call) :
    readLoop ops pass confLen (fuel + 1) p log =
      if line.length + 1 < maxConfigLineLen then
        match readConfigLine line with
        | .error code => .error ⟨code, p.lineNumber⟩ log
        | .ok (item, line') =>
          (deliverItem ops p.lineNumber
              (itemCall pass p.lineNumber p.sectionNum line term item) >>= fun _ =>
            readLoop ops pass confLen fuel (p.next (line.length + 1)
              (nextSection p.sectionNum item) (line' ++ term :: tail))) log
      else .error ⟨7000, p.lineNumber⟩ log := by
  have hSize := @readCrLineLen_spec line tail term hLine hTerm
  rw [readLoop, if_pos hMore, hData, if_neg (headD_line hFeed hTerm), hSize]
  by_cases hLen : line.length + 1 < maxConfigLineLen
  · rw [if_pos hLen, if_pos hLen, if_neg (Nat.succ_ne_zero _)]
    cases hRead : readConfigLine line with
    | error code =>
      obtain ⟨hCode, sectionNum', memory, hScan⟩ :=
        @scanConfigLine_error line tail term p.lineNumber p.sectionNum pass code hTerm hRead
      rw [hScan]
      dsimp only
      rw [if_pos hCode]
      rfl
    | ok read =>
      obtain ⟨item, line'⟩ := read
      rw [@scanConfigLine_ok line tail term p.lineNumber p.sectionNum pass item line' hTerm hRead]
      dsimp only [itemAction]
      cases itemCall pass p.lineNumber p.sectionNum line term item with
      | none => rfl
      | some call => rfl
  · rw [if_neg hLen, if_neg hLen]
    rfl

theorem deliver_cases (n : Nat) (call : Call) (log : List Call) :
    deliver ops n call log = .ok () (log ++ [call]) ∨
      ∃ e, deliver ops n call log = .error e (log ++ [call]) := by
  unfold deliver
  split
  next => exact .inl rfl
  next => exact .inr ⟨_, rfl⟩

theorem deliverItem_cases (n : Nat) (call : Option Call) (log : List Call) :
    (∃ log', deliverItem ops n call log = .ok () log') ∨
      ∃ e log', deliverItem ops n call log = .error e log' := by
  cases call with
  | none => exact .inl ⟨log, rfl⟩
  | some call =>
    rcases @deliver_cases ops n call log with hCall | ⟨e, hCall⟩
    · exact .inl ⟨_, hCall⟩
    · exact .inr ⟨e, _, hCall⟩

/-- The memory behind a line. -/
theorem next_memory (hLen : line'.length = line.length) (sectionNum : Nat) :
    (p.next (line.length + 1) sectionNum (line' ++ term :: tail)).iterData = tail ∧
    (p.next (line.length + 1) sectionNum (line' ++ term :: tail)).before =
      p.before ++ (line' ++ [term]) := by
  have hSplit : line' ++ term :: tail = (line' ++ [term]) ++ tail := by
    rw [append_assoc, singleton_append]
  have hLen' : (line' ++ [term]).length = line.length + 1 := by
    rw [length_append, hLen]
    rfl
  unfold Place.next
  rw [hSplit]
  exact ⟨drop_left' hLen', congrArg _ (take_left' hLen')⟩

/-- A line of the loop is a line of the run, when what follows is. -/
theorem simulates_line {memory : Bytes → Prop} {lines : List (Bytes × UInt8)} {log : List Call}
    (hMore : p.iterDataLen < confLen) (hData : p.iterData = line ++ term :: tail)
    (hLine : ∀ c ∈ line, inLine c = true) (hFeed : line.head? ≠ some lineFeed)
    (hTerm : IsTerm term)
    (hNext : ∀ item line' log', readConfigLine line = .ok (item, line') →
      Simulates memory
        (runLines ops pass lines (p.lineNumber + 1) (nextSection p.sectionNum item) log')
        (readLoop ops pass confLen fuel (p.next (line.length + 1) (nextSection p.sectionNum item)
          (line' ++ term :: tail)) log')) :
    Simulates memory (runLines ops pass ((line, term) :: lines) p.lineNumber p.sectionNum log)
      (readLoop ops pass confLen (fuel + 1) p log) := by
  rw [readLoop_line hMore hData hLine hFeed hTerm, runLines]
  by_cases hFit : line.length + 1 < maxConfigLineLen
  · rw [if_pos hFit, if_pos hFit]
    cases hRead : readConfigLine line with
    | error code => exact rfl
    | ok read =>
      obtain ⟨item, line'⟩ := read
      dsimp only
      rcases @deliverItem_cases ops p.lineNumber
        (itemCall pass p.lineNumber p.sectionNum line term item) log with
        ⟨log', hCall⟩ | ⟨e, log', hCall⟩
      · rw [Attempt.bind_of_ok hCall, Attempt.bind_of_ok hCall]
        exact hNext item line' log' hRead
      · rw [Attempt.bind_of_error hCall, Attempt.bind_of_error hCall]
        exact rfl
  · rw [if_neg hFit, if_neg hFit]
    exact rfl

end Step

section Simulation

/-- The text that a reading leaves, with the line that has been read. -/
theorem again_line {line line' rest rest' : Bytes} {term : UInt8} {item : Item}
    (hLine : ∀ c ∈ line, inLine c = true) (hFeed : line.head? ≠ some lineFeed)
    (hTerm : IsTerm term) (hRead : readConfigLine line = .ok (item, line'))
    (hRest : List.Forall₂ Again (linesOf rest) (linesOf rest')) :
    List.Forall₂ Again (linesOf (line ++ term :: rest)) (linesOf (line' ++ term :: rest')) := by
  have hLowered := lowered_of_readConfigLine hRead
  have hFeed' : line'.head? ≠ some lineFeed := mt (head?_lowered hLowered (by decide)).mp hFeed
  rw [linesOf_line hLine hFeed hTerm, linesOf_line (inLine_of_lowered hLowered hLine) hFeed' hTerm]
  exact .cons ⟨rfl, item, hRead⟩ hRest

theorem again_end {line line' : Bytes} {item : Item}
    (hLine : ∀ c ∈ line, inLine c = true) (hFeed : line.head? ≠ some lineFeed) (hne : line ≠ [])
    (hRead : readConfigLine line = .ok (item, line')) :
    List.Forall₂ Again (linesOf line) (linesOf line') := by
  have hLowered := lowered_of_readConfigLine hRead
  have hFeed' : line'.head? ≠ some lineFeed := mt (head?_lowered hLowered (by decide)).mp hFeed
  have hne' : line' ≠ [] := by
    rw [← length_pos_iff, ← hLowered.length_eq]
    exact length_pos_iff.mpr hne
  rw [linesOf_end hLine hFeed hne, linesOf_end (inLine_of_lowered hLowered hLine) hFeed' hne']
  exact .cons ⟨rfl, item, hRead⟩ .nil

/-- Behind what has been read there is a text of this length with lines that are read again. -/
def Leaves (before text : Bytes) (memory : Bytes) : Prop :=
  ∃ text', memory = before ++ (text' ++ [0]) ∧ text'.length = text.length ∧
    List.Forall₂ Again (linesOf text) (linesOf text')

variable {ops : Operations} {pass : Pass} {confLen : Nat}

/-- The loop over a text is the run on its lines. -/
theorem readLoop_spec (fuel : Nat) : ∀ (text : Bytes) (p : Place) (log : List Call),
    p.iterData = text ++ [0] → p.iterDataLen + text.length = confLen → text.length < fuel →
      Simulates (Leaves p.before text)
        (runLines ops pass (linesOf text) p.lineNumber p.sectionNum log)
        (readLoop ops pass confLen fuel p log) := by
  induction fuel with
  | zero => exact fun _ _ _ _ _ hFuel => absurd hFuel (Nat.not_lt_zero _)
  | succ fuel ih =>
    intro text p log hData hLen hFuel
    by_cases hne : text = []
    · -- the end of the text
      subst hne
      have hEnd : ¬ p.iterDataLen < confLen := by
        rw [← hLen]
        exact Nat.lt_irrefl _
      rw [readLoop_end hEnd]
      exact ⟨p, rfl, rfl, [], congrArg _ hData, rfl, .nil⟩
    have hMore : p.iterDataLen < confLen := by
      rw [← hLen]
      exact Nat.lt_add_of_pos_right (length_pos_iff.mpr hne)
    rcases text_cases hne with ⟨rest, rfl⟩ | ⟨line, hLine, hFeed, ⟨term, rest, hTerm, rfl⟩ |
      ⟨hne, rfl⟩⟩
    · -- a line feed is skipped
      have hHead : p.iterData.headD 0 = lineFeed := by
        rw [hData]
        rfl
      have hSkip : p.skip.iterData = rest ++ [0] ∧ p.skip.before = p.before ++ [lineFeed] := by
        unfold Place.skip
        rw [hData]
        exact ⟨rfl, rfl⟩
      rw [length_cons] at hLen hFuel
      rw [linesOf_feed, readLoop_skip hMore hHead]
      refine (ih rest p.skip log hSkip.1 (by show p.iterDataLen + 1 + _ = _; omega)
        (by omega)).mono ?_
      rintro m ⟨text', hMem, hSize, hAgain⟩
      refine ⟨lineFeed :: text', ?_, congrArg (· + 1) hSize, ?_⟩
      · rw [hMem, hSkip.2, append_assoc]
        rfl
      · rw [linesOf_feed, linesOf_feed]
        exact hAgain
    · -- a line with its end
      have hData' : p.iterData = line ++ term :: (rest ++ [0]) := by
        rw [hData, append_assoc, cons_append]
      rw [length_append, length_cons] at hLen hFuel
      rw [linesOf_line hLine hFeed hTerm]
      refine simulates_line hMore hData' hLine hFeed hTerm fun item line' log' hRead => ?_
      have hSize : line'.length = line.length := (lowered_of_readConfigLine hRead).length_eq.symm
      have hNext := @next_memory p line line' (rest ++ [0]) term hSize
        (nextSection p.sectionNum item)
      refine (ih rest _ log' hNext.1 (by show p.iterDataLen + (line.length + 1) + _ = _; omega)
        (by omega)).mono ?_
      rintro m ⟨text', hMem, hSize', hAgain⟩
      refine ⟨line' ++ term :: text', ?_, ?_, again_line hLine hFeed hTerm hRead hAgain⟩
      · rw [hMem, hNext.2]
        simp only [append_assoc, cons_append, nil_append]
      · rw [length_append, length_cons, length_append, length_cons, hSize,
          hSize']
    · -- the last line has the zero of the text behind it, which is counted too
      rw [linesOf_end hLine hFeed hne]
      refine simulates_line hMore hData hLine hFeed (.inr rfl) fun item line' log' hRead => ?_
      have hSize : line'.length = text.length := (lowered_of_readConfigLine hRead).length_eq.symm
      obtain ⟨hNext, hBefore⟩ := @next_memory p text line' [] 0 hSize
        (nextSection p.sectionNum item)
      have hEnd : ¬ (p.next (text.length + 1) (nextSection p.sectionNum item)
          (line' ++ [0])).iterDataLen < confLen := by
        show ¬ p.iterDataLen + (text.length + 1) < confLen
        omega
      obtain ⟨fuel, rfl⟩ : ∃ n, fuel = n + 1 := by
        have hPos := length_pos_iff.mpr hne
        exact ⟨fuel - 1, by omega⟩
      rw [readLoop_end hEnd]
      refine ⟨_, rfl, rfl, line', ?_, hSize, again_end hLine hFeed hne hRead⟩
      rw [hNext, hBefore, append_nil]

theorem itemCall_again {line line' : Bytes} {item : Item}
    (hRead : readConfigLine line = .ok (item, line')) (n sectionNum : Nat) (term : UInt8) :
    itemCall pass n sectionNum line' term item = itemCall pass n sectionNum line term item := by
  rcases readConfigLine_cases hRead with ⟨-, -, rfl⟩ | ⟨-, rfl, rfl⟩ | ⟨_, -, -, -, rfl⟩ |
    ⟨_, _, -, -, -, -, -, rfl⟩ <;> rfl

/-- The second reading sees the lines of the first one. -/
theorem runLines_again {lines lines' : List (Bytes × UInt8)}
    (h : List.Forall₂ Again lines lines') : ∀ n sectionNum,
      runLines ops pass lines' n sectionNum = runLines ops pass lines n sectionNum := by
  induction h with
  | nil => exact fun _ _ => rfl
  | @cons x y lines lines' hxy _ ih =>
    intro n sectionNum
    obtain ⟨line, term⟩ := x
    obtain ⟨line', term'⟩ := y
    obtain ⟨hTerm, item, hRead⟩ := hxy
    obtain rfl : term' = term := hTerm
    have hAgain := readConfigLine_again hRead
    have hSize : line'.length = line.length := (lowered_of_readConfigLine hRead).length_eq.symm
    dsimp only at hRead
    rw [runLines, runLines, hRead, hAgain, hSize]
    dsimp only
    rw [itemCall_again hRead, ih]

/-- A reading of a text is a run on its lines. -/
theorem readPass_spec (ops : Operations) (pass : Pass) (text : Bytes) (log : List Call) :
    (∃ n log' memory, runPass ops pass (linesOf text) log = .ok n log' ∧
      readPass ops pass text.length (text ++ [0]) log = .ok (memory, n) log' ∧
      Leaves [] text memory) ∨
    ∃ e log', runPass ops pass (linesOf text) log = .error e log' ∧
      readPass ops pass text.length (text ++ [0]) log = .error e log' := by
  unfold readPass runPass
  rcases @deliver_cases ops 1 (.configInit pass) log with hCall | ⟨e, hCall⟩
  · rw [Attempt.bind_of_ok hCall, Attempt.bind_of_ok hCall]
    have hLoop := @readLoop_spec ops pass text.length (text.length + 1) text
      ⟨[], text ++ [0], 0, 1, 0⟩ (log ++ [.configInit pass]) rfl (Nat.zero_add _)
      (Nat.lt_succ_self _)
    dsimp only at hLoop
    cases hRun : runLines ops pass (linesOf text) 1 0 (log ++ [.configInit pass]) with
    | ok n log' =>
      rw [hRun] at hLoop
      obtain ⟨p, hOut, rfl, hMem⟩ := hLoop
      refine .inl ⟨_, log', _, rfl, ?_, hMem⟩
      exact Attempt.bind_of_ok hOut
    | error e log' =>
      rw [hRun] at hLoop
      exact .inr ⟨e, log', rfl, Attempt.bind_of_error hLoop⟩
    | abort =>
      rw [hRun] at hLoop
      exact hLoop.elim
  · rw [Attempt.bind_of_error hCall, Attempt.bind_of_error hCall]
    exact .inr ⟨e, _, rfl, rfl⟩

/-- The reader does the two readings on the lines of the text. -/
theorem icBuildConfigData_eq (ops : Operations) {confData : Bytes} (hne : confData ≠ [])
    (log : List Call) :
    icBuildConfigData ops confData log = runTwice ops (linesOf confData) log := by
  have hLen : ¬ confData.length = 0 := mt length_eq_zero_iff.mp hne
  unfold icBuildConfigData runTwice
  rw [if_neg hLen]
  refine Attempt.onError_congr ?_
  rcases readPass_spec ops .initial confData log with ⟨n, log', memory, hRun, hRead, hMem⟩ |
    ⟨e, log', hRun, hRead⟩
  · rw [Attempt.bind_of_ok hRun, Attempt.bind_of_ok hRead]
    -- the second reading sees the text that the first one has left
    obtain ⟨text', rfl, hSize, hAgain⟩ := hMem
    have hSame : runPass ops .build (linesOf text') = runPass ops .build (linesOf confData) := by
      unfold runPass
      rw [runLines_again hAgain]
    rw [nil_append, ← hSize, ← hSame]
    rcases readPass_spec ops .build text' log' with ⟨n', log'', memory', hRun', hRead', -⟩ |
      ⟨e, log'', hRun', hRead'⟩
    · dsimp only
      rw [Attempt.bind_of_ok hRun', Attempt.bind_of_ok hRead']
    · dsimp only
      rw [Attempt.bind_of_error hRun', Attempt.bind_of_error hRead']
  · rw [Attempt.bind_of_error hRun, Attempt.bind_of_error hRead]

end Simulation

end IClaustron.Config.Loop
