import IClaustron.ClusterManager.Sessions
import IClaustron.Lex.Lexers
import IClaustron.Lib.Overwrite

/-!
# Lex.Safety — the buffers that the lexers read

Model of ic_mgr_call_parser in cluster_mgr/ic_mgr_lex.c, of ic_boot_call_parser in
bootstrap/ic_boot_lex.c, and of the loop of run_handle_new_connection in cluster_mgr/ic_clmgr.c
that receives a command.

* `lexer_safety_iff` — the commands for which no byte outside of the buffers is touched and no
  assertion stops the process.

Scope limits: the tables of the parser are not modelled, and an error message can be sent.
-/

namespace IClaustron.Lex

open Lib Protocol List
open Keywords (HashFunction)

/-! ## Model -/

def missingEnd : Bytes := ascii "Missing ; at end of command"

/-- A byte is written to a buffer. -/
def store (buf : Bytes) (i : Nat) (c : UInt8) : Option Bytes :=
  if i < buf.length then some (buf.set i c) else none

/-- `memcpy` into a buffer. -/
def memcpy (buf : Bytes) (pos : Nat) (data : Bytes) : Option Bytes :=
  if pos + data.length ≤ buf.length then some (overwrite buf pos data) else none

/-- `parse_string[str_len - 1]`, where `str_len` is a guint32. -/
def lastChar (parseString : Bytes) (strLen : Nat) : Option UInt8 :=
  parseString[(strLen + (2 ^ 32 - 1)) % 2 ^ 32]?

/-- The symbols and the errors of a command. Without a ';' at its end `exit_flag` is set too. -/
def withEnd (last : UInt8) (parsed : List Token × List Bytes) : List Token × List Bytes :=
  (parsed.1, if isEndCharacter last then parsed.2 else missingEnd :: parsed.2)

/-- `ic_mgr_call_parser`. -/
def icMgrCallParser (h : HashFunction) (p : Parser) (fuel : Nat) (parseString : Bytes)
    (strLen : Nat) : Option (List Token × List Bytes) := do
  let last ← lastChar parseString strLen
  (yyparse p (icMgrLex h parseString strLen) fuel [] 0).map (withEnd last)

/-- `ic_boot_call_parser`. -/
def icBootCallParser (h : HashFunction) (p : Parser) (fuel : Nat) (parseString : Bytes)
    (strLen : Nat) : Option (List Token × List Bytes) := do
  let last ← lastChar parseString strLen
  let parseString ← store parseString strLen 0
  (yyparse p (icBootLex h parseString strLen) fuel [] 0).map (withEnd last)

def outOfParseBuffer : Bytes := ascii "Error: Out of parse buffer"

/-- The loop of `run_handle_new_connection`, for the lines that are received. -/
def receiveLoop (call : Bytes → Nat → Option (List Token × List Bytes)) (parseBuf : Bytes)
    (parseInx : Nat) : List Bytes → Option (List Token × List Bytes)
  | [] => some ([], [])
  | line :: input =>
    if line.length = 0 then
      if parseInx = 0 then some ([], [])
      else do
        let parseBuf ← store parseBuf parseInx 0
        let parseBuf ← store parseBuf (parseInx + 1) 0
        call parseBuf parseInx
    else if parseInx + line.length < ClusterManager.Sessions.parseBufSize then do
      let parseBuf ← memcpy parseBuf parseInx line
      receiveLoop call parseBuf (parseInx + line.length) input
    else some ([], [outOfParseBuffer])

/-- What `ic_malloc(PARSE_BUF_SIZE)` has returned. -/
structure ParseBuf where
  bytes : Bytes
  size : bytes.length = ClusterManager.Sessions.parseBufSize

/-- The lines of a command. An empty line comes behind them. -/
structure Command where
  lines : List Bytes
  nonempty : ∀ line ∈ lines, line.length ≠ 0
  fits : lines.flatten.length < ClusterManager.Sessions.parseBufSize

def Command.text (c : Command) : Bytes := c.lines.flatten

/-- `run_handle_new_connection` from the first line of a command on. -/
def handleCommand (h : HashFunction) (p : Parser) (b : ParseBuf) (c : Command) (fuel : Nat) :
    Option (List Token × List Bytes) :=
  receiveLoop (icMgrCallParser h p fuel) b.bytes 0 (c.lines ++ [[]])

/-- A text whose length is a guint32. -/
structure CommandText where
  bytes : Bytes
  fits : bytes.length < 2 ^ 32

/-- `ic_boot_call_parser` on a text with one spare byte behind it. -/
def parseCommand (h : HashFunction) (p : Parser) (spare : UInt8) (t : CommandText) (fuel : Nat) :
    Option (List Token × List Bytes) :=
  icBootCallParser h p fuel (t.bytes ++ [spare]) t.bytes.length

/-! ## Buffers -/

variable {back front : Bytes} {strLen : Nat}

theorem store_append {b c : UInt8} :
    store (front ++ b :: back) front.length c = some (front ++ c :: back) := by
  unfold store
  rw [if_pos (by rw [length_append, length_cons]; omega), set_append_right _ _
    (Nat.le_refl _), Nat.sub_self]
  rfl

theorem store_outside {buf : Bytes} {i : Nat} {c : UInt8} (h : buf.length ≤ i) :
    store buf i c = none :=
  if_neg (Nat.not_lt_of_le h)

/-- A line is put behind what has been received. -/
theorem memcpy_append {data : Bytes} (h : data.length ≤ back.length) :
    memcpy (front ++ back) front.length data =
      some ((front ++ data) ++ back.drop data.length) := by
  have hStart : overwrite back 0 data = data ++ back.drop data.length := by
    rw [overwrite, take_zero, nil_append, Nat.zero_add]
  unfold memcpy
  rw [if_pos (by rw [length_append]; omega), overwrite_append_right (Nat.le_refl _),
    Nat.sub_self, hStart, append_assoc]

section Receive

variable {call : Bytes → Nat → Option (List Token × List Bytes)}

/-- The lines of a command are in the buffer, one behind the other. -/
theorem receiveLoop_lines (lines input : List Bytes) :
    ∀ front back : Bytes, (∀ line ∈ lines, line.length ≠ 0) →
      front.length + lines.flatten.length < ClusterManager.Sessions.parseBufSize →
      lines.flatten.length ≤ back.length →
      receiveLoop call (front ++ back) front.length (lines ++ input) =
        receiveLoop call ((front ++ lines.flatten) ++ back.drop lines.flatten.length)
          (front ++ lines.flatten).length input := by
  induction lines with
  | nil =>
    intro front back _ _ _
    rw [nil_append, flatten_nil, append_nil]
    rfl
  | cons line lines ih =>
    intro front back hLines hFits hBack
    rw [forall_mem_cons] at hLines
    rw [flatten_cons, length_append] at hFits hBack
    have hLine : line.length ≤ back.length := Nat.le_trans (Nat.le_add_right _ _) hBack
    have hRoom : front.length + line.length < ClusterManager.Sessions.parseBufSize := by omega
    have hRest := ih (front ++ line) (back.drop line.length) hLines.2
      (by rw [length_append]; omega) (by rw [length_drop]; omega)
    rw [cons_append, receiveLoop, if_neg hLines.1, if_pos hRoom, memcpy_append hLine,
      ← length_append]
    refine hRest.trans ?_
    have hLength : (line ++ lines.flatten).length = line.length + lines.flatten.length :=
      length_append
    rw [flatten_cons, append_assoc front, drop_drop, hLength]

/-- The empty line behind a command. -/
theorem receiveLoop_end {a b : UInt8} (hFront : front ≠ []) :
    receiveLoop call (front ++ a :: b :: back) front.length [[]] =
      call (front ++ 0 :: 0 :: back) front.length := by
  have hPos : front.length ≠ 0 := fun h => hFront (length_eq_zero_iff.mp h)
  have hSecond : store (front ++ 0 :: b :: back) (front.length + 1) 0 =
      some (front ++ 0 :: 0 :: back) := by
    have hStore : store ((front ++ [0]) ++ b :: back) (front ++ [0]).length 0 =
        some ((front ++ [0]) ++ 0 :: back) := store_append
    rw [length_append, append_assoc, append_assoc] at hStore
    exact hStore
  rw [receiveLoop, if_pos length_nil, if_neg hPos, store_append]
  show (store (front ++ 0 :: b :: back) (front.length + 1) 0 >>= _) = _
  rw [hSecond]
  rfl

/-- With one byte left, the second zero is written behind the buffer. -/
theorem receiveLoop_full {a : UInt8} (hFront : front ≠ []) :
    receiveLoop call (front ++ [a]) front.length [[]] = none := by
  have hPos : front.length ≠ 0 := fun h => hFront (length_eq_zero_iff.mp h)
  rw [receiveLoop, if_pos length_nil, if_neg hPos, store_append]
  show (store (front ++ [0]) (front.length + 1) 0 >>= _) = _
  rw [store_outside (by rw [length_append]; exact Nat.le_refl _)]
  rfl

end Receive

/-! ### The last character -/

theorem lastChar_some {parseString : Bytes} (hText : strLen ≠ 0) (hFits : strLen < 2 ^ 32)
    (hIn : strLen ≤ parseString.length) : ∃ last, lastChar parseString strLen = some last := by
  have hIndex : (strLen + (2 ^ 32 - 1)) % 2 ^ 32 = strLen - 1 := by omega
  have hInside : strLen - 1 < parseString.length := by omega
  unfold lastChar
  rw [hIndex, getElem?_eq_getElem hInside]
  exact ⟨_, rfl⟩

/-- Without a text the index is the largest guint32. -/
theorem lastChar_empty (spare : UInt8) : lastChar [spare] 0 = none := by
  have hIndex : (0 + (2 ^ 32 - 1)) % 2 ^ 32 = 2 ^ 32 - 1 := by omega
  have hOutside : ([spare] : Bytes).length ≤ 2 ^ 32 - 1 := by
    rw [length_singleton]
    omega
  unfold lastChar
  rw [hIndex, getElem?_eq_none hOutside]

/-! ## Safety -/

/-- A missing ';' adds an error, and nothing else. -/
theorem safe_withEnd {run : Nat → Option (List Token × List Bytes)} {last : UInt8} :
    (Safe strLen fun fuel => (run fuel).map (withEnd last)) ↔ Safe strLen run := by
  constructor
  · rintro ⟨fuel, tokens, errors, hRun, hInside⟩
    rcases Option.map_eq_some_iff.mp hRun with ⟨parsed, hParsed, hEnd⟩
    obtain rfl : parsed.1 = tokens := congrArg Prod.fst hEnd
    exact ⟨fuel, parsed.1, parsed.2, hParsed, hInside⟩
  · rintro ⟨fuel, tokens, errors, hRun, hInside⟩
    refine ⟨fuel, tokens, (withEnd last (tokens, errors)).2, ?_, hInside⟩
    dsimp only
    rw [hRun]
    rfl

theorem not_safe_none : ¬Safe strLen fun _ => none := by
  rintro ⟨fuel, tokens, errors, hRun, -⟩
  cases hRun

/-- On a text without characters every lexer fails. -/
theorem not_neverFails_nil {Accepts : Bytes → Bytes → Prop} {Fails : Bytes → Prop}
    (hBegins : Begins Accepts Fails) : ¬NeverFails Accepts Fails [] := fun hNever =>
  hNever [] (.here []) ⟨[], [], rfl, fun _ hc => absurd hc not_mem_nil, hBegins.nothing⟩

section Commands

variable {h : HashFunction} {text spare : Bytes}

/-- `ic_mgr_call_parser` on a text with a zero behind it. -/
theorem mgr_safe_iff (p : Parser) (hText : text ≠ []) (hFits : text.length < 2 ^ 32) :
    (Safe text.length fun fuel =>
      icMgrCallParser h p fuel (text ++ 0 :: spare) text.length) ↔
      Safe text.length fun fuel =>
        yyparse p (icMgrLex h (text ++ 0 :: spare) text.length) fuel [] 0 := by
  have hPos : text.length ≠ 0 := fun hNil => hText (length_eq_zero_iff.mp hNil)
  have hIn : text.length ≤ (text ++ 0 :: spare).length := by
    rw [length_append]
    omega
  obtain ⟨last, hLast⟩ := lastChar_some hPos hFits hIn
  unfold icMgrCallParser
  rw [hLast]
  exact safe_withEnd

/-- `ic_boot_call_parser` on a text, which has one more byte behind it. -/
theorem boot_safe_iff {c : UInt8} (hText : text ≠ []) (hFits : text.length < 2 ^ 32) :
    (∀ p, Safe text.length fun fuel => icBootCallParser h p fuel (text ++ [c]) text.length) ↔
      NeverFails BootAccepts BootFails text := by
  have hPos : text.length ≠ 0 := fun hNil => hText (length_eq_zero_iff.mp hNil)
  have hIn : text.length ≤ (text ++ [c]).length := by
    rw [length_append]
    omega
  obtain ⟨last, hLast⟩ := lastChar_some hPos hFits hIn
  have hRules : Rules BootAccepts BootFails text (icBootLex h (text ++ [0]) text.length) :=
    boot_rules rfl
  rw [← calls_iff hRules begins_boot]
  refine forall_congr' fun p => ?_
  unfold icBootCallParser
  rw [hLast, store_append]
  exact safe_withEnd

end Commands

/-- The lines of a command are put together in the buffer. -/
theorem handleCommand_eq (h : HashFunction) (p : Parser) (b : ParseBuf) (c : Command) (fuel : Nat) :
    handleCommand h p b c fuel = receiveLoop (icMgrCallParser h p fuel)
      (c.text ++ b.bytes.drop c.text.length) c.text.length [[]] := by
  have hSize := b.size
  have hFits := c.fits
  have hStart : ([] : Bytes).length + c.lines.flatten.length <
      ClusterManager.Sessions.parseBufSize := by
    rw [length_nil, Nat.zero_add]
    exact hFits
  exact receiveLoop_lines c.lines [[]] [] b.bytes c.nonempty hStart (by omega)

theorem parseBufSize_lt : ClusterManager.Sessions.parseBufSize < 2 ^ 32 := by decide

section Command

variable (h : HashFunction) (b : ParseBuf) (c : Command)

theorem Command.back_length :
    (b.bytes.drop c.text.length).length + c.text.length = ClusterManager.Sessions.parseBufSize := by
  have hFits : c.text.length < ClusterManager.Sessions.parseBufSize := c.fits
  rw [length_drop, b.size]
  omega

/-- With two bytes behind the command, the lexer is called on it. -/
theorem handleCommand_calls (hText : c.text ≠ [])
    (hRoom : c.text.length + 1 ≠ ClusterManager.Sessions.parseBufSize) :
    ∃ spare, ∀ p, Safe c.text.length (handleCommand h p b c) ↔
      Safe c.text.length fun fuel =>
        yyparse p (icMgrLex h (c.text ++ 0 :: spare) c.text.length) fuel [] 0 := by
  have hFits : c.text.length < ClusterManager.Sessions.parseBufSize := c.fits
  have hLength := c.back_length b
  match hBack : b.bytes.drop c.text.length with
  | [] =>
    rw [hBack, length_nil] at hLength
    omega
  | [_] =>
    rw [hBack, length_singleton] at hLength
    omega
  | a₁ :: a₂ :: back =>
    refine ⟨0 :: back, fun p => ?_⟩
    rw [← mgr_safe_iff p hText (Nat.lt_trans hFits parseBufSize_lt)]
    have hRun : handleCommand h p b c = fun fuel =>
        icMgrCallParser h p fuel (c.text ++ 0 :: 0 :: back) c.text.length := by
      funext fuel
      rw [handleCommand_eq, hBack, receiveLoop_end hText]
    rw [hRun]

/-- With one byte behind the command, the second zero does not fit. -/
theorem handleCommand_full
    (hFull : c.text.length + 1 = ClusterManager.Sessions.parseBufSize) (p : Parser) (fuel : Nat) :
    handleCommand h p b c fuel = none := by
  have hText : c.text ≠ [] := by
    intro hNil
    rw [hNil] at hFull
    exact absurd hFull (by decide)
  have hLength := c.back_length b
  have hOne : (b.bytes.drop c.text.length).length = 1 := by omega
  obtain ⟨a, hBack⟩ := length_eq_one_iff.mp hOne
  rw [handleCommand_eq, hBack, receiveLoop_full hText]

/-- A command of the cluster manager. -/
theorem handleCommand_safe_iff :
    (∀ p, Safe c.text.length (handleCommand h p b c)) ↔
      c.text.length + 1 ≠ ClusterManager.Sessions.parseBufSize ∧
        (c.text = [] ∨ NeverFails MgrAccepts (MgrFails h) c.text) := by
  by_cases hFull : c.text.length + 1 = ClusterManager.Sessions.parseBufSize
  · refine iff_of_false (fun hSafe => ?_) fun hRight => hRight.1 hFull
    have hKeen := hSafe keen
    rw [show handleCommand h keen b c = fun _ => none from
      funext fun fuel => handleCommand_full h b c hFull keen fuel] at hKeen
    exact not_safe_none hKeen
  rw [and_iff_right hFull]
  by_cases hText : c.text = []
  · -- nothing has been received, and the parser is not called
    refine iff_of_true (fun p => ⟨0, [], [], ?_, fun t hMem => absurd hMem not_mem_nil⟩) (.inl hText)
    rw [handleCommand_eq, hText]
    rfl
  · obtain ⟨spare, hCalls⟩ := handleCommand_calls h b c hText hFull
    rw [or_iff_right hText, ← calls_iff (mgr_rules (h := h) rfl) (begins_mgr h)]
    exact forall_congr' hCalls

end Command

/-- The calls for a text of the bootstrap. -/
theorem parseCommand_safe_iff (h : HashFunction) (spare : UInt8) (t : CommandText) :
    (∀ p, Safe t.bytes.length (parseCommand h p spare t)) ↔
      NeverFails BootAccepts BootFails t.bytes := by
  obtain ⟨text, hFits⟩ := t
  unfold parseCommand
  dsimp only
  by_cases hText : text = []
  · subst hText
    refine iff_of_false (fun hSafe => ?_) (not_neverFails_nil begins_boot)
    have hKeen := hSafe keen
    -- the index of the last character is the largest guint32
    have hNone : ∀ fuel, icBootCallParser h keen fuel ([] ++ [spare]) ([] : Bytes).length =
        none := by
      intro fuel
      unfold icBootCallParser
      rw [nil_append, length_nil, lastChar_empty]
      rfl
    simp only [hNone] at hKeen
    exact not_safe_none hKeen
  · exact boot_safe_iff hText hFits

/-- The receive loop, the callers and the lexers touch no byte outside of the buffers, come to an
end and report symbols inside the text, whatever the parser does, exactly for the commands that do
not fill `parse_buf` up to its last byte and are empty or never make `ic_mgr_lex` fail; and for the
texts of the bootstrap that never make `ic_boot_lex` fail. -/
theorem lexer_safety_iff (h : HashFunction) :
    (∀ (b : ParseBuf) (c : Command), (∀ p, Safe c.text.length (handleCommand h p b c)) ↔
      c.text.length + 1 ≠ ClusterManager.Sessions.parseBufSize ∧
        (c.text = [] ∨ NeverFails MgrAccepts (MgrFails h) c.text)) ∧
    (∀ (spare : UInt8) (t : CommandText), (∀ p, Safe t.bytes.length (parseCommand h p spare t)) ↔
      NeverFails BootAccepts BootFails t.bytes) :=
  ⟨handleCommand_safe_iff h, parseCommand_safe_iff h⟩

/-! ### A long identifier -/

/-- 1025 letters and a ';'. -/
def longIdentifier : Command where
  lines := [List.replicate 1025 97 ++ [59]]
  nonempty := by
    intro line hLine
    rw [List.mem_singleton.mp hLine]
    intro hZero
    exact List.append_ne_nil_of_right_ne_nil _ (List.cons_ne_nil 59 []) (List.length_eq_zero_iff.mp hZero)
  fits := by
    rw [List.flatten_singleton, List.length_append, List.length_replicate]
    decide

theorem failsNext_replicate (h : HashFunction) {n : Nat} (hLong : Keywords.symbolBufSize < n) :
    FailsNext (MgrFails h) (List.replicate n 97 ++ [59]) := by
  have hLetters : ∀ x ∈ List.replicate n (97 : UInt8), x = 97 := fun x hx => eq_of_mem_replicate hx
  have hUpper : (List.replicate n (97 : UInt8)).any isupper = false := by
    rw [any_eq_false]
    intro x hx
    rw [hLetters x hx]
    decide
  refine ⟨[], _, rfl, fun c hc => absurd hc not_mem_nil, .inr (.inr (.inr
    ⟨List.replicate n 97, [59], rfl, ⟨?_, ?_⟩, ⟨59, [], rfl, by decide⟩,
      .inl (by rwa [length_replicate])⟩))⟩
  · obtain ⟨m, rfl⟩ := Nat.exists_eq_succ_of_ne_zero (Nat.ne_zero_of_lt hLong)
    refine ⟨97, List.replicate m 97, replicate_succ, by decide, fun x hx => ?_⟩
    rw [eq_of_mem_replicate hx]
    decide
  · rw [hUpper]
    exact fun hBoth => Bool.false_ne_true hBoth.1

/-- No parser that asks for a symbol is safe on it. -/
theorem longIdentifier_not_safe :
    ¬∃ p : Parser, p.goesOn [] = true ∧ Safe longIdentifier.text.length
      (handleCommand ⟨fun _ => 0, 1024, 64, true⟩ p
        ⟨List.replicate ClusterManager.Sessions.parseBufSize 0, List.length_replicate⟩
        longIdentifier) := by
  have hTextEq : longIdentifier.text = List.replicate 1025 97 ++ [59] := List.flatten_singleton
  have hLength : longIdentifier.text.length = 1026 := by
    rw [hTextEq, List.length_append, List.length_replicate, List.length_singleton]
  have hText : longIdentifier.text ≠ [] := by
    intro hNil
    rw [hNil] at hLength
    exact absurd hLength (by decide)
  have hLong : FailsNext (MgrFails ⟨fun _ => 0, 1024, 64, true⟩) longIdentifier.text := by
    rw [hTextEq]
    exact failsNext_replicate _ (by decide)
  rintro ⟨p, hGo, hSafe⟩
  obtain ⟨spare, hCalls⟩ := handleCommand_calls ⟨fun _ => 0, 1024, 64, true⟩
    ⟨List.replicate ClusterManager.Sessions.parseBufSize 0, List.length_replicate⟩ longIdentifier
    hText (by rw [hLength]; decide)
  rcases (hCalls p).mp hSafe with ⟨fuel, tokens, errors, hRun, -⟩
  dsimp only at hRun
  rw [(mgr_rules rfl).first_none hGo hLong] at hRun
  cases hRun

end IClaustron.Lex
