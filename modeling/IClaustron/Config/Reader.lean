import IClaustron.Lib.Outcome
import IClaustron.Protocol.Messages
import Mathlib.Data.List.Forall2
import Mathlib.Data.List.TakeWhile

/-!
# Config.Reader — configuration files

Model of util/ic_config_reader.c. A configuration file is read twice; each line of it is
handed over to the operations of the object that is built from it. The names of sections
and of keys are put into lower case where they stand in the memory, so that the second
reading sees another text than the first one.

* `readLines_again` — the second reading finds what the first one has found.

Scope limits: the texts that are printed, and the section numbers, which no object looks
at.
-/

namespace IClaustron.Config

open Lib Protocol List

/-! ## Characters -/

/-- LINE_FEED; CARRIAGE_RETURN, with which a line ends, is the line feed of ASCII. -/
def lineFeed : UInt8 := 13

/-- IC_MAX_CONFIG_LINE_LEN. -/
def maxConfigLineLen : Nat := 120

/-- g_ascii_isalpha. -/
def isAlpha (c : UInt8) : Bool := 65 ≤ c ∧ c ≤ 90 ∨ 97 ≤ c ∧ c ≤ 122

/-- g_ascii_tolower. -/
def toLower (c : UInt8) : UInt8 := if 65 ≤ c ∧ c ≤ 90 then c + 32 else c

/-- g_ascii_isspace; other than isspace it leaves out the vertical tab. -/
def isBlank (c : UInt8) : Bool := c = 32 ∨ c = 9 ∨ c = 10 ∨ c = 12 ∨ c = 13

/-- The characters of the name of a key. -/
def isKeyChar (c : UInt8) : Bool := isAlpha c ∨ c = 95

/-- The characters of a value. -/
def isValueChar (c : UInt8) : Bool :=
  isAlpha c ∨ c = 47 ∨ c = 92 ∨ isDigit c ∨ c = 46 ∨ c = 95 ∨ isBlank c

/-! ## Numbers -/

/-- What a letter behind a number multiplies it with. -/
def unitOf (c : UInt8) : Option UInt64 :=
  if c = 107 ∨ c = 75 then some 1024
  else if c = 109 ∨ c = 77 then some (1024 * 1024)
  else if c = 103 ∨ c = 71 then some (1024 * 1024 * 1024)
  else none

/-- The loop of `ic_conv_config_str_to_int`. -/
def convDigits (number : UInt64) : Bytes → Option UInt64
  | [] => some number
  | c :: str =>
    if isDigit c then convDigits (number * 10 + (c - 48).toUInt64) str
    else if str = [] then (unitOf c).map (number * ·)
    else none

/-- `ic_conv_config_str_to_int`: `none` for 1, `some none` when 0 is returned and the value
has not been set. -/
def convConfigStrToInt (str : Bytes) : Option (Option UInt64) :=
  if str = falseStr ∨ str = trueStr then some none else (convDigits 0 str).map some

/-! ## Lines -/

/-- What a line is. -/
inductive Item where
  | empty
  | comment
  | section (name : Bytes)
  | key (name data : Bytes)
  deriving DecidableEq

/-- A carriage return or a zero ends a line. -/
def inLine (c : UInt8) : Bool := c ≠ carriageReturn ∧ c ≠ 0

/-- `read_cr_line`: the line in front of its end, or `none` when it is too long. -/
def readCrLine (text : Bytes) : Option Bytes :=
  let line := text.takeWhile inLine
  if line.length + 1 < maxConfigLineLen then some line else none

/-- `conv_group_id`. -/
def convGroupId (groupId : Bytes) : Option Bytes :=
  if groupId.all fun c => isAlpha c ∨ c = 32 then some (groupId.map toLower) else none

/-- `conv_key_id`: the name and what stands behind it. A line of blanks has no key. -/
def convKeyId (line : Bytes) : Option (Bytes × Bytes) :=
  if line = [] then none
  else some ((line.takeWhile isKeyChar).map toLower, line.dropWhile isKeyChar)

/-- `conv_key_value`. -/
def convKeyValue (str : Bytes) : Option Bytes :=
  match str.dropWhile isBlank with
  | [] => none
  | c :: str =>
    if c = 61 ∨ c = 58 then
      let val := str.dropWhile isBlank
      if val ≠ [] ∧ val.all isValueChar then some val else none
    else none

/-- The line part of `read_config_line`, on a line without its end: what the line is, and how it is
left in the memory. -/
def readConfigLine (line : Bytes) : Except Nat (Item × Bytes) :=
  if line = [] then .ok (.empty, line)
  else if line.head? = some 35 then .ok (.comment, line)
  else if line.head? = some 91 then
    -- IC_ERROR_CONFIG_BRACKET
    if line.getLast? ≠ some 93 then .error 7001
    else
      match convGroupId line.tail.dropLast with
      | none => .error 7002
      | some name => .ok (.section name, 91 :: (name ++ [93]))
  else
    match convKeyId (line.dropWhile isBlank) with
    | none => .error 7003
    | some (name, str) =>
      match convKeyValue str with
      | none => .error 7003
      | some data => .ok (.key name data, line.takeWhile isBlank ++ (name ++ str))

/-- The lines of a text up to the first one that cannot be read, and the text as it is left in the
memory. A line feed in front of a line is skipped. -/
def readLines : Nat → Bytes → List (Except Nat Item) × Bytes
  | 0, text => ([], text)
  | _ + 1, [] => ([], [])
  | left + 1, c :: text =>
    if c = lineFeed then ((readLines left text).1, c :: (readLines left text).2)
    else
      match readCrLine (c :: text) with
      -- IC_ERROR_LINE_TOO_LONG
      | none => ([.error 7000], c :: text)
      | some line =>
        match readConfigLine line with
        | .error code => ([.error code], c :: text)
        | .ok (item, line') =>
          let rest := (c :: text).drop line.length
          let next := readLines left (rest.drop 1)
          (.ok item :: next.1, line' ++ (rest.take 1 ++ next.2))

/-! ## The two readings -/

/-- INITIAL_PASS and BUILD_PASS. -/
inductive Pass where
  | initial
  | build
  deriving DecidableEq

/-- `IC_CONFIG_OPERATIONS`. -/
structure ConfigOperations (σ : Type) where
  configInit : Pass → Attempt σ Nat Unit
  addSection : Pass → Nat → Bytes → Attempt σ Nat Unit
  addKey : Pass → Nat → Bytes → Bytes → Attempt σ Nat Unit
  addComment : Pass → Nat → Attempt σ Nat Unit
  configVerify : Pass → Nat → Attempt σ Nat Unit
  configEnd : Attempt σ Nat Unit

/-- `IC_CONFIG_ERROR`. -/
structure ConfigError where
  errNum : Nat
  lineNumber : Nat
  deriving DecidableEq

namespace ConfigOperations

variable {σ : Type} (ops : ConfigOperations σ)

/-- What `read_config_line` calls for a line. -/
def addItem (pass : Pass) (lineNumber : Nat) : Item → Attempt σ Nat Unit
  | .empty => pure ()
  | .comment => ops.addComment pass lineNumber
  | .section name => ops.addSection pass lineNumber name
  | .key name data => ops.addKey pass lineNumber name data

/-- The loop over the lines. -/
def addLines (pass : Pass) : Nat → List (Except Nat Item) → Attempt σ ConfigError Unit
  | _, [] => pure ()
  | lineNumber, line :: lines => do
    (match line with
      | .error code => Attempt.throw code
      | .ok item => ops.addItem pass lineNumber item : Attempt σ Nat Unit).mapError
        (⟨·, lineNumber⟩)
    addLines pass (lineNumber + 1) lines

/-- `ic_build_config_data`. -/
def buildConfigData (text : Bytes) : Attempt σ ConfigError Unit :=
  if text = [] then Attempt.throw ⟨1, 0⟩
  else
    let first := readLines text.length text
    let second := readLines text.length first.2
    Attempt.onError
      (do
        (ops.configInit .initial).mapError (⟨·, 1⟩)
        ops.addLines .initial 1 first.1
        (ops.configInit .build).mapError (⟨·, 1⟩)
        ops.addLines .build 1 second.1
        (ops.configVerify .build second.1.length).mapError (⟨·, second.1.length + 1⟩))
      ops.configEnd

end ConfigOperations

/-! ## Names in lower case -/

theorem toNat_toLower (c : UInt8) :
    (toLower c).toNat = if 65 ≤ c.toNat ∧ c.toNat ≤ 90 then c.toNat + 32 else c.toNat := by
  unfold toLower
  simp only [UInt8.le_iff_toNat_le]
  split_ifs with h
  · rw [UInt8.toNat_add]
    simp at h ⊢
    omega
  · simp_all
  · simp_all
  · simp_all

theorem toLower_toLower (c : UInt8) : toLower (toLower c) = toLower c := by
  apply UInt8.toNat_inj.mp
  rw [toNat_toLower, toNat_toLower]
  split_ifs <;> omega

theorem isAlpha_iff {c : UInt8} :
    isAlpha c = true ↔ 65 ≤ c.toNat ∧ c.toNat ≤ 90 ∨ 97 ≤ c.toNat ∧ c.toNat ≤ 122 := by
  unfold isAlpha
  rw [decide_eq_true_eq, UInt8.le_iff_toNat_le, UInt8.le_iff_toNat_le, UInt8.le_iff_toNat_le,
    UInt8.le_iff_toNat_le]
  exact Iff.rfl

theorem isKeyChar_iff {c : UInt8} :
    isKeyChar c = true ↔ 65 ≤ c.toNat ∧ c.toNat ≤ 90 ∨ 97 ≤ c.toNat ∧ c.toNat ≤ 122 ∨
      c.toNat = 95 := by
  have h95 : c = 95 ↔ c.toNat = 95 := by
    rw [← UInt8.toNat_inj]
    exact Iff.rfl
  unfold isKeyChar
  rw [decide_eq_true_eq, isAlpha_iff, h95, or_assoc]

theorem isBlank_iff {c : UInt8} :
    isBlank c = true ↔ c.toNat = 32 ∨ c.toNat = 9 ∨ c.toNat = 10 ∨ c.toNat = 12 ∨ c.toNat = 13 := by
  unfold isBlank
  rw [decide_eq_true_eq, ← UInt8.toNat_inj, ← UInt8.toNat_inj, ← UInt8.toNat_inj,
    ← UInt8.toNat_inj, ← UInt8.toNat_inj]
  exact Iff.rfl

theorem isAlpha_toLower {c : UInt8} (h : isAlpha c = true) : isAlpha (toLower c) = true := by
  rw [isAlpha_iff] at h ⊢
  rw [toNat_toLower]
  split_ifs <;> omega

theorem isKeyChar_toLower {c : UInt8} (h : isKeyChar c = true) : isKeyChar (toLower c) = true := by
  rw [isKeyChar_iff] at h ⊢
  rw [toNat_toLower]
  split_ifs <;> omega

theorem not_isBlank_of_isKeyChar {c : UInt8} (h : isKeyChar c = true) : isBlank c = false := by
  rw [← Bool.not_eq_true, isBlank_iff]
  rw [isKeyChar_iff] at h
  omega

/-- A character of the changed text: the one of the text, or its lower case. -/
def Lowered (c c' : UInt8) : Prop := c' = c ∨ 65 ≤ c.toNat ∧ 65 ≤ c'.toNat

theorem lowered_toLower (c : UInt8) : Lowered c (toLower c) := by
  by_cases h : 65 ≤ c.toNat ∧ c.toNat ≤ 90
  · refine .inr ⟨h.1, ?_⟩
    rw [toNat_toLower, if_pos h]
    omega
  · refine .inl (UInt8.toNat_inj.mp ?_)
    rw [toNat_toLower, if_neg h]

theorem lowered_map (str : Bytes) : List.Forall₂ Lowered str (str.map toLower) := by
  rw [forall₂_map_right_iff]
  exact forall₂_same.mpr fun c _ => lowered_toLower c

theorem lowered_refl (str : Bytes) : List.Forall₂ Lowered str str :=
  forall₂_same.mpr fun _ _ => .inl rfl

/-- Below the letters nothing changes. -/
theorem lowered_eq_iff {c c' d : UInt8} (h : Lowered c c') (hd : d.toNat < 65) :
    c' = d ↔ c = d := by
  rcases h with rfl | ⟨hc, hc'⟩
  · exact Iff.rfl
  · constructor
    · rintro rfl
      omega
    · rintro rfl
      omega

/-! ## Single lines -/

/-- The parts of a line with a key. -/
structure KeyLine where
  blanks : Bytes
  name : Bytes
  str : Bytes
  blanks_blank : ∀ c ∈ blanks, isBlank c = true
  name_key : ∀ c ∈ name, isKeyChar c = true
  str_head : ∀ c ∈ str.head?, isKeyChar c = false
  head : ∀ c ∈ (name ++ str).head?, isBlank c = false
  nonempty : name ++ str ≠ []

def KeyLine.line (p : KeyLine) : Bytes := p.blanks ++ (p.name ++ p.str)

theorem takeWhile_append_of_all {p : UInt8 → Bool} {xs ys : Bytes} (hx : ∀ c ∈ xs, p c = true)
    (hy : ∀ c ∈ ys.head?, p c = false) : (xs ++ ys).takeWhile p = xs := by
  rw [takeWhile_append_of_pos hx]
  cases ys with
  | nil => simp
  | cons c ys => simp [hy c (by simp)]

theorem dropWhile_append_of_all {p : UInt8 → Bool} {xs ys : Bytes} (hx : ∀ c ∈ xs, p c = true)
    (hy : ∀ c ∈ ys.head?, p c = false) : (xs ++ ys).dropWhile p = ys := by
  rw [dropWhile_append_of_pos hx]
  cases ys with
  | nil => rfl
  | cons c ys => simp [hy c (by simp)]

theorem readConfigLine_key (p : KeyLine) (h35 : p.line.head? ≠ some 35)
    (h91 : p.line.head? ≠ some 91) : readConfigLine p.line =
      match convKeyValue p.str with
      | none => .error 7003
      | some data => .ok (.key (p.name.map toLower) data, p.blanks ++ (p.name.map toLower ++ p.str)) := by
  have hne : p.line ≠ [] := by
    intro h
    exact p.nonempty (append_eq_nil_iff.mp h).2
  have hDrop : p.line.dropWhile isBlank = p.name ++ p.str :=
    dropWhile_append_of_all p.blanks_blank p.head
  have hTake : p.line.takeWhile isBlank = p.blanks :=
    takeWhile_append_of_all p.blanks_blank p.head
  have hName : convKeyId (p.name ++ p.str) = some (p.name.map toLower, p.str) := by
    unfold convKeyId
    rw [if_neg p.nonempty, takeWhile_append_of_all p.name_key p.str_head,
      dropWhile_append_of_all p.name_key p.str_head]
  unfold readConfigLine
  rw [if_neg hne, if_neg h35, if_neg h91, hDrop, hTake, hName]

theorem readConfigLine_section {group : Bytes} :
    readConfigLine (91 :: (group ++ [93])) =
      match convGroupId group with
      | none => .error 7002
      | some name => .ok (.section name, 91 :: (name ++ [93])) := by
  have hLast : (91 :: (group ++ [93]) : Bytes).getLast? = some 93 := by
    rw [← cons_append, getLast?_concat]
  unfold readConfigLine
  rw [if_neg (cons_ne_nil _ _), if_neg (by simp), if_pos (head?_cons ..),
    if_neg (not_not.mpr hLast), tail_cons, dropLast_concat]

/-- The four kinds of lines that can be read. -/
theorem readConfigLine_cases {line line' : Bytes} {item : Item}
    (h : readConfigLine line = .ok (item, line')) :
    (line = [] ∧ line' = [] ∧ item = .empty) ∨
    (line.head? = some 35 ∧ line' = line ∧ item = .comment) ∨
    (∃ group : Bytes, (∀ c ∈ group, isAlpha c = true ∨ c = 32) ∧ line = 91 :: (group ++ [93]) ∧
      line' = 91 :: (group.map toLower ++ [93]) ∧ item = .section (group.map toLower)) ∨
    ∃ (p : KeyLine) (data : Bytes), line = p.line ∧ line.head? ≠ some 35 ∧ line.head? ≠ some 91 ∧
      convKeyValue p.str = some data ∧ line' = p.blanks ++ (p.name.map toLower ++ p.str) ∧
      item = .key (p.name.map toLower) data := by
  unfold readConfigLine at h
  split_ifs at h with hne h35 h91 h93
  · cases h
    exact .inl ⟨hne, hne, rfl⟩
  · cases h
    exact .inr (.inl ⟨h35, rfl, rfl⟩)
  · refine .inr (.inr (.inl ?_))
    rw [not_not] at h93
    rcases exists_cons_of_ne_nil hne with ⟨c, t, rfl⟩
    cases h91
    have ht : t ≠ [] := by
      rintro rfl
      cases h93
    have hLast : t.dropLast ++ [93] = t := by
      have h := dropLast_append_getLast? 93 (l := t)
      rw [getLast?_cons_of_ne_nil ht] at h93
      exact h h93
    rw [tail_cons] at h
    unfold convGroupId at h
    split_ifs at h with hAll
    cases h
    refine ⟨t.dropLast, ?_, by rw [hLast], rfl, rfl⟩
    intro c hc
    have := all_eq_true.mp hAll c hc
    simpa using this
  · refine .inr (.inr (.inr ?_))
    unfold convKeyId at h
    split_ifs at h with hBlank
    dsimp only at h
    cases hData : convKeyValue ((line.dropWhile isBlank).dropWhile isKeyChar) with
    | none =>
      rw [hData] at h
      cases h
    | some data =>
      rw [hData] at h
      cases h
      refine ⟨⟨line.takeWhile isBlank, (line.dropWhile isBlank).takeWhile isKeyChar,
        (line.dropWhile isBlank).dropWhile isKeyChar, fun c => mem_takeWhile_imp,
        fun c => mem_takeWhile_imp, ?_, ?_, ?_⟩, data, ?_, h35, h91, hData, rfl, rfl⟩
      · intro c hc
        have := head?_dropWhile_not isKeyChar (line.dropWhile isBlank)
        rw [Option.mem_def] at hc
        rw [hc] at this
        simpa using this
      · intro c hc
        rw [takeWhile_append_dropWhile] at hc
        have := head?_dropWhile_not isBlank line
        rw [Option.mem_def] at hc
        rw [hc] at this
        simpa using this
      · rwa [takeWhile_append_dropWhile]
      · show line = line.takeWhile isBlank ++ ((line.dropWhile isBlank).takeWhile isKeyChar ++
          (line.dropWhile isBlank).dropWhile isKeyChar)
        rw [takeWhile_append_dropWhile, takeWhile_append_dropWhile]

/-- The line with its name in lower case. -/
def KeyLine.lower (p : KeyLine) : KeyLine where
  blanks := p.blanks
  name := p.name.map toLower
  str := p.str
  blanks_blank := p.blanks_blank
  name_key c hc := by
    rcases List.mem_map.mp hc with ⟨d, hd, rfl⟩
    exact isKeyChar_toLower (p.name_key d hd)
  str_head := p.str_head
  head c hc := by
    rcases hName : p.name with _ | ⟨d, name⟩
    · rw [hName] at hc
      exact p.head c (by rwa [hName])
    · rw [hName] at hc
      cases hc
      exact not_isBlank_of_isKeyChar (isKeyChar_toLower (p.name_key d (by simp [hName])))
  nonempty h := by
    rw [List.append_eq_nil_iff, List.map_eq_nil_iff, ← List.append_eq_nil_iff] at h
    exact p.nonempty h

theorem map_toLower_map (str : Bytes) : (str.map toLower).map toLower = str.map toLower := by
  rw [map_map]
  exact map_congr_left fun c _ => toLower_toLower c

theorem lowered_lower (p : KeyLine) : List.Forall₂ Lowered p.line p.lower.line :=
  rel_append (lowered_refl _) (rel_append (lowered_map _) (lowered_refl _))

theorem lowered_of_readConfigLine {line line' : Bytes} {item : Item}
    (h : readConfigLine line = .ok (item, line')) : List.Forall₂ Lowered line line' := by
  rcases readConfigLine_cases h with ⟨rfl, rfl, -⟩ | ⟨-, rfl, -⟩ | ⟨group, -, rfl, rfl, -⟩ |
    ⟨p, data, rfl, -, -, -, rfl, -⟩
  · exact .nil
  · exact lowered_refl _
  · exact .cons (.inl rfl) (rel_append (lowered_map _) (lowered_refl _))
  · exact lowered_lower p

theorem head?_lowered {xs ys : Bytes} (h : List.Forall₂ Lowered xs ys) {d : UInt8}
    (hd : d.toNat < 65) : ys.head? = some d ↔ xs.head? = some d := by
  cases h with
  | nil => exact Iff.rfl
  | cons h _ =>
    rw [head?_cons, head?_cons, Option.some_inj, Option.some_inj]
    exact lowered_eq_iff h hd

/-- A bracket is above the letters in upper case. -/
theorem head?_lower_ne (p : KeyLine) (h : p.line.head? ≠ some 91) : p.lower.line.head? ≠ some 91 := by
  intro h'
  unfold KeyLine.line KeyLine.lower at h'
  dsimp only at h'
  rcases hBlanks : p.blanks with _ | ⟨c, blanks⟩
  · rw [hBlanks, nil_append] at h'
    rcases hName : p.name with _ | ⟨d, name⟩
    · rw [hName] at h'
      refine h ?_
      unfold KeyLine.line
      rw [hBlanks, hName]
      exact h'
    · rw [hName, map_cons, cons_append, head?_cons, Option.some_inj] at h'
      have hKey := isKeyChar_toLower (p.name_key d (by simp [hName]))
      rw [h'] at hKey
      exact absurd hKey (by decide)
  · refine h ?_
    unfold KeyLine.line
    rw [hBlanks] at h' ⊢
    exact h'

/-- The changed line is read as the line was. -/
theorem readConfigLine_again {line line' : Bytes} {item : Item}
    (h : readConfigLine line = .ok (item, line')) : readConfigLine line' = .ok (item, line') := by
  rcases readConfigLine_cases h with ⟨rfl, rfl, -⟩ | ⟨-, rfl, -⟩ | ⟨group, hGroup, rfl, rfl, rfl⟩ |
    ⟨p, data, rfl, h35, h91, hData, rfl, rfl⟩
  · exact h
  · exact h
  · rw [readConfigLine_section]
    unfold convGroupId
    rw [if_pos, map_toLower_map]
    rw [all_eq_true]
    intro c hc
    rcases mem_map.mp hc with ⟨d, hd, rfl⟩
    rcases hGroup d hd with hd | rfl
    · simp [isAlpha_toLower hd]
    · decide
  · have h35' : p.lower.line.head? ≠ some 35 :=
      mt (head?_lowered (lowered_lower p) (by decide)).mp h35
    have hAgain := readConfigLine_key p.lower h35' (head?_lower_ne p h91)
    unfold KeyLine.lower KeyLine.line at hAgain
    dsimp only at hAgain
    rw [hAgain, hData, map_toLower_map]

/-! ## The text -/

theorem readCrLine_eq_some {text line : Bytes} : readCrLine text = some line ↔
    ∃ tail, text = line ++ tail ∧ (∀ c ∈ line, inLine c = true) ∧
      (∀ c ∈ tail.head?, inLine c = false) ∧ line.length + 1 < maxConfigLineLen := by
  unfold readCrLine
  dsimp only
  constructor
  · intro h
    split_ifs at h with hLen
    cases h
    refine ⟨text.dropWhile inLine, takeWhile_append_dropWhile.symm,
      fun c => mem_takeWhile_imp, ?_, hLen⟩
    intro c hc
    have := head?_dropWhile_not inLine text
    rw [Option.mem_def] at hc
    rw [hc] at this
    simpa using this
  · rintro ⟨tail, rfl, hLine, hTail, hLen⟩
    rw [takeWhile_append_of_all hLine hTail, if_pos hLen]

theorem inLine_of_lowered {line line' : Bytes} (h : List.Forall₂ Lowered line line')
    (hLine : ∀ c ∈ line, inLine c = true) : ∀ c ∈ line', inLine c = true := by
  induction h with
  | nil => exact hLine
  | @cons c d line line' hc _ ih =>
    intro e he
    rcases mem_cons.mp he with rfl | he
    · have := hLine c mem_cons_self
      unfold inLine at this ⊢
      rw [decide_eq_true_eq] at this ⊢
      exact ⟨mt (lowered_eq_iff hc (by decide)).mp this.1,
        mt (lowered_eq_iff hc (by decide)).mp this.2⟩
    · exact ih (fun c hc => hLine c (mem_cons_of_mem _ hc)) e he

theorem readLines_nil (left : Nat) : readLines left [] = ([], []) := by
  cases left <;> rfl

/-- A line in front of its end. -/
theorem readLines_line {left : Nat} {line line' tail : Bytes} {item : Item}
    (hLine : ∀ c ∈ line, inLine c = true) (hTail : ∀ c ∈ tail.head?, inLine c = false)
    (hFit : line.length + 1 < maxConfigLineLen) (hne : line ++ tail ≠ [])
    (hFeed : (line ++ tail).head? ≠ some lineFeed) (h : readConfigLine line = .ok (item, line')) :
    readLines (left + 1) (line ++ tail) =
      (.ok item :: (readLines left (tail.drop 1)).1,
        line' ++ (tail.take 1 ++ (readLines left (tail.drop 1)).2)) := by
  have hRead : readCrLine (line ++ tail) = some line :=
    readCrLine_eq_some.mpr ⟨tail, rfl, hLine, hTail, hFit⟩
  have hRest : (line ++ tail).drop line.length = tail := drop_left
  rcases exists_cons_of_ne_nil hne with ⟨c, text, hText⟩
  rw [hText] at hRead hRest hFeed ⊢
  have hc : c ≠ lineFeed := by
    rintro rfl
    exact hFeed rfl
  rw [readLines, if_neg hc, hRead]
  dsimp only
  rw [h]
  dsimp only
  rw [hRest]

/-- The changed line in front of what the rest of the text has become. -/
theorem readLines_line_again {left : Nat} {line line' tail : Bytes} {item : Item}
    (hLine : ∀ c ∈ line, inLine c = true) (hTail : ∀ c ∈ tail.head?, inLine c = false)
    (hFit : line.length + 1 < maxConfigLineLen) (hne : line ++ tail ≠ [])
    (hFeed : (line ++ tail).head? ≠ some lineFeed) (h : readConfigLine line = .ok (item, line'))
    (ih : readLines left (readLines left (tail.drop 1)).2 = readLines left (tail.drop 1)) :
    readLines (left + 1) (line' ++ (tail.take 1 ++ (readLines left (tail.drop 1)).2)) =
      (.ok item :: (readLines left (tail.drop 1)).1,
        line' ++ (tail.take 1 ++ (readLines left (tail.drop 1)).2)) := by
  have hLowered := lowered_of_readConfigLine h
  have hAgain := readConfigLine_again h
  have hLine' := inLine_of_lowered hLowered hLine
  have hLen : line.length = line'.length := hLowered.length_eq
  cases tail with
  | nil =>
    -- the last line, without an end
    rw [append_nil] at hne hFeed
    rw [drop_nil, take_nil, readLines_nil, nil_append]
    have hNe : line' ++ [] ≠ [] := by
      rw [append_nil, ← length_pos_iff, ← hLen]
      exact length_pos_iff.mpr hne
    have hHead : (line' ++ []).head? ≠ some lineFeed := by
      rw [append_nil]
      exact mt (head?_lowered hLowered (by decide)).mp hFeed
    rw [readLines_line hLine' hTail (hLen ▸ hFit) hNe hHead hAgain,
      drop_nil, take_nil, readLines_nil, nil_append]
  | cons c tail =>
    rw [drop_one, tail_cons] at ih ⊢
    have hHead : (line' ++ (c :: (readLines left tail).2)).head? ≠ some lineFeed := by
      intro hFeed'
      refine hFeed ?_
      rcases hLowered with _ | ⟨hHead, -⟩
      · exact hFeed'
      · rw [cons_append, head?_cons, Option.some_inj] at hFeed' ⊢
        exact (lowered_eq_iff hHead (by decide)).mp hFeed'
    have hRead := @readLines_line left _ _ (c :: (readLines left tail).2) _ hLine' hTail
      (hLen ▸ hFit) (append_ne_nil_of_right_ne_nil _ (cons_ne_nil _ _)) hHead hAgain
    rw [drop_one, tail_cons, ih] at hRead
    exact hRead

/-- When every line of a text can be read, the text that is left in the memory has the same lines. -/
theorem readLines_again {left : Nat} {text : Bytes} (hLen : text.length ≤ left)
    (h : ∀ line ∈ (readLines left text).1, ∃ item, line = .ok item) :
    readLines left (readLines left text).2 = readLines left text := by
  induction left generalizing text with
  | zero => rfl
  | succ left ih =>
    cases text with
    | nil => rfl
    | cons c text =>
      by_cases hc : c = lineFeed
      · rw [readLines, if_pos hc] at h ⊢
        rw [readLines, if_pos hc, ih (Nat.le_of_succ_le_succ hLen) h]
      · cases hRead : readCrLine (c :: text) with
        | none =>
          rw [readLines, if_neg hc, hRead] at h
          rcases h _ mem_cons_self with ⟨item, h⟩
          cases h
        | some line =>
          cases hItem : readConfigLine line with
          | error code =>
            rw [readLines, if_neg hc, hRead] at h
            dsimp only at h
            rw [hItem] at h
            rcases h _ mem_cons_self with ⟨item, h⟩
            cases h
          | ok read =>
            rcases readCrLine_eq_some.mp hRead with ⟨tail, hText, hLine, hTail, hFit⟩
            rw [hText] at h hLen ⊢
            have hne : line ++ tail ≠ [] := hText ▸ cons_ne_nil c text
            have hFeed : (line ++ tail).head? ≠ some lineFeed := by
              rw [← hText]
              exact fun h => hc (Option.some.inj h)
            rw [readLines_line hLine hTail hFit hne hFeed hItem] at h ⊢
            refine readLines_line_again hLine hTail hFit hne hFeed hItem (ih ?_ ?_)
            · rw [length_append] at hLen
              rw [length_drop]
              have : line.length + tail.length ≠ 0 := by
                rw [← length_append]
                exact fun h => hne (length_eq_zero_iff.mp h)
              omega
            · exact fun line hl => h line (mem_cons_of_mem _ hl)

/-! ## Values -/

/-- What a value can be. -/
structure IsValue (data : Bytes) : Prop where
  nonempty : data ≠ []
  chars : ∀ c ∈ data, isValueChar c = true
  head : ∀ c ∈ data.head?, isBlank c = false

theorem convKeyValue_spec {str data : Bytes} (h : convKeyValue str = some data) :
    IsValue data ∧ data.length + 1 ≤ str.length := by
  unfold convKeyValue at h
  have hLen : (str.dropWhile isBlank).length ≤ str.length :=
    (dropWhile_suffix isBlank).length_le
  cases hStr : str.dropWhile isBlank with
  | nil =>
    rw [hStr] at h
    cases h
  | cons c val =>
    rw [hStr] at h hLen
    dsimp only at h
    split_ifs at h with hAssign hVal
    cases h
    have hVal' : (val.dropWhile isBlank).length ≤ val.length :=
      (dropWhile_suffix isBlank).length_le
    refine ⟨⟨hVal.1, all_eq_true.mp hVal.2, ?_⟩, ?_⟩
    · intro d hd
      have := head?_dropWhile_not isBlank val
      rw [Option.mem_def] at hd
      rw [hd] at this
      simpa using this
    · rw [length_cons] at hLen
      omega

/-- The room that the value of a key takes with the zero behind it. -/
def Item.dataBytes : Item → Nat
  | .key _ data => data.length + 1
  | _ => 0

theorem dataBytes_readConfigLine {line line' : Bytes} {item : Item}
    (h : readConfigLine line = .ok (item, line')) : item.dataBytes ≤ line.length := by
  rcases readConfigLine_cases h with ⟨-, -, rfl⟩ | ⟨-, -, rfl⟩ | ⟨group, -, -, -, rfl⟩ |
    ⟨p, data, rfl, -, -, hData, -, rfl⟩
  · exact Nat.zero_le _
  · exact Nat.zero_le _
  · exact Nat.zero_le _
  · have := (convKeyValue_spec hData).2
    show data.length + 1 ≤ (p.blanks ++ (p.name ++ p.str)).length
    rw [length_append, length_append]
    omega

/-- What each line has at most as many bytes of as it is long, a text has no more bytes of than it is
long. -/
theorem sum_le_length {weight : Item → Nat}
    (hWeight : ∀ {line line' : Bytes} {item : Item}, readConfigLine line = .ok (item, line') →
      weight item ≤ line.length)
    {left : Nat} {text : Bytes} {items : List Item}
    (h : (readLines left text).1 = items.map .ok) : (items.map weight).sum ≤ text.length := by
  induction left generalizing text items with
  | zero =>
    rw [readLines, eq_comm, map_eq_nil_iff] at h
    rw [h]
    exact Nat.zero_le _
  | succ left ih =>
    cases text with
    | nil =>
      rw [readLines, eq_comm, map_eq_nil_iff] at h
      rw [h]
      exact Nat.zero_le _
    | cons c text =>
      rw [readLines] at h
      by_cases hc : c = lineFeed
      · rw [if_pos hc] at h
        exact (ih h).trans (Nat.le_succ _)
      · rw [if_neg hc] at h
        cases hRead : readCrLine (c :: text) with
        | none =>
          rw [hRead] at h
          rcases items with _ | ⟨item, items⟩
          · cases h
          · cases h
        | some line =>
          rw [hRead] at h
          dsimp only at h
          cases hItem : readConfigLine line with
          | error code =>
            rw [hItem] at h
            rcases items with _ | ⟨item, items⟩
            · cases h
            · cases h
          | ok read =>
            rw [hItem] at h
            rcases items with _ | ⟨item, items⟩
            · cases h
            · rw [map_cons, List.cons.injEq] at h
              rcases readCrLine_eq_some.mp hRead with ⟨tail, hText, -, -, -⟩
              have hFirst := hWeight (show readConfigLine line = .ok (item, read.2) by
                rw [hItem, ← Except.ok.inj h.1])
              have hRest := ih h.2
              rw [hText, drop_left, length_drop] at hRest
              rw [hText, map_cons, sum_cons, length_append]
              omega

/-- The values of a text take less room than the text. -/
theorem dataBytes_le {left : Nat} {text : Bytes} {items : List Item}
    (h : (readLines left text).1 = items.map .ok) : (items.map Item.dataBytes).sum ≤ text.length :=
  sum_le_length dataBytes_readConfigLine h

/-- The room that the line of a section takes in a text. -/
def Item.sectionBytes : Item → Nat
  | .section name => name.length + 2
  | _ => 0

theorem sectionBytes_readConfigLine {line line' : Bytes} {item : Item}
    (h : readConfigLine line = .ok (item, line')) : item.sectionBytes ≤ line.length := by
  rcases readConfigLine_cases h with ⟨-, -, rfl⟩ | ⟨-, -, rfl⟩ | ⟨group, -, rfl, -, rfl⟩ |
    ⟨p, data, rfl, -, -, -, -, rfl⟩
  · exact Nat.zero_le _
  · exact Nat.zero_le _
  · simp [Item.sectionBytes]
  · exact Nat.zero_le _

/-! ## Readings -/

namespace ConfigOperations

variable {σ : Type} {ops : ConfigOperations σ} {pass : Pass} {n : Nat} {s s' : σ}
  {lines : List (Except Nat Item)} {items : List Item} {item : Item}

theorem addLines_cons (h : ops.addLines pass n (.ok item :: lines) s = .ok () s') :
    ∃ s₁, ops.addItem pass n item s = .ok () s₁ ∧ ops.addLines pass (n + 1) lines s₁ = .ok () s' := by
  rcases Attempt.bind_eq_ok.mp h with ⟨_, s₁, hItem, hRest⟩
  exact ⟨s₁, Attempt.mapError_eq_ok.mp hItem, hRest⟩

/-- A reading that returns has found no line that cannot be read. -/
theorem items_of_addLines (h : ops.addLines pass n lines s = .ok () s') :
    ∃ items : List Item, lines = items.map .ok := by
  induction lines generalizing n s with
  | nil => exact ⟨[], rfl⟩
  | cons line lines ih =>
    rcases Attempt.bind_eq_ok.mp h with ⟨_, s₁, hLine, hLines⟩
    rcases ih hLines with ⟨items, rfl⟩
    cases line with
    | error code =>
      rw [Attempt.mapError_eq_ok] at hLine
      cases hLine
    | ok item => exact ⟨item :: items, rfl⟩

/-- What each line keeps, a reading keeps. -/
theorem addLines_induction {inv : List Item → σ → Prop} {pre : List Item} (h : inv pre s)
    (step : ∀ mid item rest s s', pre ++ items = mid ++ item :: rest → inv mid s →
      ops.addItem pass (mid.length + 1) item s = .ok () s' → inv (mid ++ [item]) s')
    (hRun : ops.addLines pass (pre.length + 1) (items.map .ok) s = .ok () s') :
    inv (pre ++ items) s' := by
  induction items generalizing pre s with
  | nil =>
    cases hRun
    rwa [append_nil]
  | cons item items ih =>
    rcases addLines_cons hRun with ⟨s₁, hItem, hRest⟩
    have hInv := step pre item items s s₁ rfl h hItem
    have hAssoc : pre ++ item :: items = pre ++ [item] ++ items := by simp
    rw [hAssoc]
    refine ih hInv ?_ ?_
    · rwa [hAssoc] at step
    · rwa [length_append]

/-- A text that is accepted has been read twice, with the same lines. -/
theorem runs_of_accepted {text : Bytes} (h : ops.buildConfigData text s = .ok () s') :
    ∃ (items : List Item) (s₀ s₁ s₂ s₃ : σ), (readLines text.length text).1 = items.map .ok ∧
      ops.configInit .initial s = .ok () s₀ ∧
      ops.addLines .initial 1 (items.map .ok) s₀ = .ok () s₁ ∧
      ops.configInit .build s₁ = .ok () s₂ ∧
      ops.addLines .build 1 (items.map .ok) s₂ = .ok () s₃ ∧
      ops.configVerify .build items.length s₃ = .ok () s' := by
  unfold buildConfigData at h
  by_cases hText : text = []
  · rw [if_pos hText] at h
    cases h
  rw [if_neg hText, Attempt.onError_eq_ok] at h
  rcases Attempt.bind_eq_ok.mp h with ⟨_, s₀, hInit, h⟩
  rcases Attempt.bind_eq_ok.mp h with ⟨_, s₁, hFirst, h⟩
  rcases items_of_addLines hFirst with ⟨items, hLines⟩
  rw [readLines_again le_rfl, hLines] at h
  · rcases Attempt.bind_eq_ok.mp h with ⟨_, s₂, hBuild, h⟩
    rcases Attempt.bind_eq_ok.mp h with ⟨_, s₃, hSecond, h⟩
    rw [hLines] at hFirst
    rw [length_map] at h
    exact ⟨items, s₀, s₁, s₂, s₃, hLines, Attempt.mapError_eq_ok.mp hInit, hFirst,
      Attempt.mapError_eq_ok.mp hBuild, hSecond, Attempt.mapError_eq_ok.mp h⟩
  · intro line hLine
    rw [hLines] at hLine
    rcases mem_map.mp hLine with ⟨item, -, rfl⟩
    exact ⟨item, rfl⟩

end ConfigOperations

end IClaustron.Config
