import IClaustron.Lib.Scan
import IClaustron.Lex.Keywords

/-!
# Lex.Calls — the calls of a lexer by its parser

What ic_mgr_lex and ic_boot_lex share: the classes of characters of util/ic_lex_support.c, and a
parser that calls them until the input ends. Memory outside of a buffer is `none`, and so is an
assertion that fails: `ic_assert` stops the process.

* `calls_iff` — a lexer is safe on a text exactly if it comes to no place where it fails.

Scope limits: the parser that bison generates decides when to go on; after the end of the input,
and so after an error of the lexer, it does not. Characters are those of the C locale.
-/

namespace IClaustron.Lex

open Lib Protocol List
open Keywords (islower)

/-! ## Model -/

/-- `ic_is_ignore`. -/
def isIgnore (c : UInt8) : Bool := c = 32 || c = 9 || c = 10

/-- `ic_is_end_character`. CMD_SEPARATOR is the same character. -/
def isEndCharacter (c : UInt8) : Bool := c = 59

/-- `ic_is_equal_character`. -/
def isEqualCharacter (c : UInt8) : Bool := c = 61

/-- `ic_is_end_symbol_character`. -/
def isEndSymbolCharacter (c : UInt8) : Bool :=
  isIgnore c || isEndCharacter c || isEqualCharacter c

/-- `isupper`, in the C locale. -/
def isupper (c : UInt8) : Bool := 65 ≤ c && c ≤ 90

/-- `isalpha`, in the C locale. -/
def isalpha (c : UInt8) : Bool := islower c || isupper c

/-- The symbols of the parsers. -/
inductive Symbol where
  | endOfInput
  | integer (intVal : UInt64)
  /-- `none`: `ic_str` was not set -/
  | identifier (icStr : Option Bytes)
  | versionIdentifier (icStr : Option Bytes)
  | keyword (symbolValue : UInt32)
  | equal
deriving DecidableEq

/-- A symbol with the bytes it was made of. -/
structure Token where
  symbol : Symbol
  start : Nat
  stop : Nat
deriving DecidableEq

/-- What a call returns: a symbol, after which it goes on behind it, or an error. -/
inductive Result where
  | token (t : Token)
  | error (message : Bytes)
deriving DecidableEq

/-- `parse_buf[start]` up to `parse_buf[stop - 1]`. -/
def slice (parseBuf : Bytes) (start stop : Nat) : Bytes := (parseBuf.drop start).take (stop - start)

/-- A call of a lexer, at a position; whether there is memory for a string is part of it. -/
abbrev Lexer := Bool → Nat → Option Result

/-- The parser: whether it calls the lexer after these symbols, and whether there is memory. -/
structure Parser where
  goesOn : List Token → Bool
  memory : List Token → Bool

/-- `yyparse`, with at most `fuel` calls: the symbols, and the error if there was one. It is `none`
as well when the fuel does not suffice. -/
def yyparse (p : Parser) (lex : Lexer) : Nat → List Token → Nat → Option (List Token × List Bytes)
  | 0, _, _ => none
  | fuel + 1, tokens, pos =>
    if p.goesOn tokens then
      match lex (p.memory tokens) pos with
      | none => none
      | some (.error message) => some (tokens, [message])
      | some (.token t) =>
        if t.symbol = .endOfInput then some (tokens ++ [t], [])
        else yyparse p lex fuel (tokens ++ [t]) t.stop
    else some (tokens, [])

/-! ## Texts -/

/-- Space, tab and newline. -/
def Blank (blanks : Bytes) : Prop := ∀ c ∈ blanks, isIgnore c = true

/-- A word ends here. -/
def WordEnds (post : Bytes) : Prop := ∃ c post', post = c :: post' ∧ isEndSymbolCharacter c = true

/-- One or more digits. -/
def Number (word : Bytes) : Prop := word ≠ [] ∧ ∀ c ∈ word, isDigit c = true

/-- What an identifier consists of, behind its first character. -/
def isIdentifierCharacter (c : UInt8) : Bool :=
  c = 95 || c = 46 || c = 45 || islower c || isupper c || isDigit c

/-- A letter, and letters, digits, '_', '.' and '-'. -/
def Identifier (word : Bytes) : Prop :=
  ∃ c word', word = c :: word' ∧ isalpha c = true ∧ ∀ x ∈ word', isIdentifierCharacter x = true

section Reached

-- a lexer accepts some words, in front of some bytes, and fails on some rests of a text
variable (Accepts : Bytes → Bytes → Prop) (Fails : Bytes → Prop)

/-- A lexer that begins with the first bytes comes to the second ones, behind words that it
accepts. -/
inductive Reached : Bytes → Bytes → Prop
  | here (rest : Bytes) : Reached rest rest
  | next {blanks word post rest : Bytes} : Blank blanks → Accepts word post → Reached post rest →
      Reached (blanks ++ word ++ post) rest

/-- Behind some blanks comes a rest that the lexer fails on. -/
def FailsNext (rest : Bytes) : Prop :=
  ∃ blanks tail, rest = blanks ++ tail ∧ Blank blanks ∧ Fails tail

/-- The lexer comes to no such rest. -/
def NeverFails (text : Bytes) : Prop := ∀ rest, Reached Accepts text rest → ¬FailsNext Fails rest

end Reached

/-! ### Characters -/

theorem forall_byte {P : UInt8 → Prop} (h : ∀ n : Fin 256, P (UInt8.ofFin n)) (c : UInt8) : P c :=
  h c.toFin

theorem endSymbol_stops : ∀ c, isEndSymbolCharacter c = true →
    isDigit c = false ∧ isIdentifierCharacter c = false :=
  forall_byte (by decide +kernel)

theorem digit_class : ∀ c, isDigit c = true →
    isIgnore c = false ∧ isEndCharacter c = false ∧ isIdentifierCharacter c = true :=
  forall_byte (by decide +kernel)

theorem alpha_class : ∀ c, isalpha c = true → isIgnore c = false ∧ isEndCharacter c = false ∧
    isDigit c = false ∧ isIdentifierCharacter c = true :=
  forall_byte (by decide +kernel)
theorem zero_class : isIgnore 0 = false ∧ isEndSymbolCharacter 0 = false ∧ isDigit 0 = false ∧
    isIdentifierCharacter 0 = false := by
  decide

/-! ## Runs -/

/-- All symbols lie inside the text. -/
def Inside (strLen : Nat) (tokens : List Token) : Prop :=
  ∀ t ∈ tokens, t.start ≤ t.stop ∧ t.stop ≤ strLen

/-- The calls come to an end, touch no memory outside of the buffers, and report symbols inside the
text. -/
def Safe (strLen : Nat) (run : Nat → Option (List Token × List Bytes)) : Prop :=
  ∃ fuel tokens errors, run fuel = some (tokens, errors) ∧ Inside strLen tokens

/-- The position of what is left of a text. -/
def At (text rest : Bytes) (pos : Nat) : Prop := ∃ pre, text = pre ++ rest ∧ pos = pre.length

theorem At.start (text : Bytes) : At text text 0 := ⟨[], rfl, rfl⟩

variable {blanks post tail word : Bytes} {pos : Nat}

theorem At.next {text pre : Bytes} (h : At text (pre ++ post) pos) :
    At text post (pos + pre.length) := by
  obtain ⟨front, rfl, rfl⟩ := h
  exact ⟨front ++ pre, (append_assoc ..).symm, (length_append).symm⟩

theorem At.le {text rest : Bytes} (h : At text rest pos) : pos + rest.length = text.length := by
  obtain ⟨front, rfl, rfl⟩ := h
  exact length_append.symm

/-- What one call of a lexer does on this text. -/
structure Rules (Accepts : Bytes → Bytes → Prop) (Fails : Bytes → Prop) (text : Bytes)
    (lex : Lexer) : Prop where
  fails : ∀ {rest pos} memory, At text rest pos → FailsNext Fails rest → lex memory pos = none
  returns : ∀ {rest pos} memory, At text rest pos → ¬FailsNext Fails rest →
    ∃ r, lex memory pos = some r ∧ ∀ t, r = .token t →
      t.start ≤ t.stop ∧ t.stop ≤ text.length ∧
      (t.symbol ≠ .endOfInput → ∃ blanks word post, rest = blanks ++ word ++ post ∧
        Blank blanks ∧ Accepts word post ∧ t.stop = pos + (blanks ++ word).length)
  accepted : ∀ {blanks word post pos}, At text (blanks ++ word ++ post) pos → Blank blanks →
    Accepts word post → ¬FailsNext Fails (blanks ++ word ++ post) →
    ∃ t, lex true pos = some (.token t) ∧ t.symbol ≠ .endOfInput ∧
      t.stop = pos + (blanks ++ word).length

/-- A result behind the blanks: a symbol lies inside the text, and unless the input ends it is a
word that is accepted. -/
def Good (Accepts : Bytes → Bytes → Prop) (text tail : Bytes) (pos : Nat) (r : Result) : Prop :=
  ∀ t, r = .token t → t.start ≤ t.stop ∧ t.stop ≤ text.length ∧
    (t.symbol ≠ .endOfInput → ∃ word post, tail = word ++ post ∧ Accepts word post ∧
      t.stop = pos + word.length)

/-- What a lexer does behind the blanks, where it has found the character `c`. -/
structure TokenRules (Accepts : Bytes → Bytes → Prop) (Fails : Bytes → Prop) (text : Bytes)
    (token : Bool → Nat → UInt8 → Option Result) : Prop where
  fails : ∀ {c tail pos} memory, At text (c :: tail) pos → Fails (c :: tail) →
    token memory pos c = none
  returns : ∀ {c tail pos} memory, At text (c :: tail) pos → ¬Fails (c :: tail) →
    ∃ r, token memory pos c = some r ∧ Good Accepts text (c :: tail) pos r
  accepted : ∀ {c word post pos}, At text (c :: word ++ post) pos → Accepts (c :: word) post →
    ¬Fails (c :: word ++ post) →
    ∃ t, token true pos c = some (.token t) ∧ t.symbol ≠ .endOfInput ∧
      t.stop = pos + (c :: word).length

/-- Where a lexer accepts a word or fails there are no more blanks, and it fails where the text
ends. -/
structure Begins (Accepts : Bytes → Bytes → Prop) (Fails : Bytes → Prop) : Prop where
  accepts : ∀ {word post}, Accepts word post → ∃ c word', word = c :: word' ∧ isIgnore c = false
  fails : ∀ {tail}, Fails tail → Stops isIgnore tail
  nothing : Fails []

/-- How a lexer comes to its token: over the blanks, unless the text ends there. -/
structure Skips (text : Bytes) (lex : Lexer) (token : Bool → Nat → UInt8 → Option Result) :
    Prop where
  token : ∀ {blanks c tail pos} memory, At text (blanks ++ c :: tail) pos → Blank blanks →
    isIgnore c = false → lex memory pos = token memory (pos + blanks.length) c
  nothing : ∀ {blanks pos} memory, At text blanks pos → Blank blanks → lex memory pos = none

section Rules

variable {Accepts : Bytes → Bytes → Prop} {Fails : Bytes → Prop} {text : Bytes} {lex : Lexer}

theorem stops_append {p : UInt8 → Bool} {c : UInt8} (h : p c = false) :
    Stops p (c :: word ++ post) := by
  intro a ha
  obtain rfl : c = a := Option.some.inj ha
  exact h

theorem good_error {message : Bytes} : Good Accepts text tail pos (.error message) :=
  fun _ ht => nomatch ht

theorem At.word_le (h : At text (word ++ post) pos) : pos + word.length ≤ text.length := by
  have hLen := h.le
  rw [length_append] at hLen
  omega

theorem good_end {c : UInt8} (hAt : At text (c :: tail) pos) :
    Good Accepts text (c :: tail) pos (.token ⟨.endOfInput, pos, pos + 1⟩) := by
  intro t ht
  cases ht
  have hChar : At text ([c] ++ tail) pos := hAt
  exact ⟨Nat.le_succ pos, hChar.word_le, fun hSymbol => absurd rfl hSymbol⟩

theorem good_word {symbol : Symbol} (hAt : At text (word ++ post) pos) (hWord : Accepts word post) :
    Good Accepts text (word ++ post) pos (.token ⟨symbol, pos, pos + word.length⟩) := by
  intro t ht
  cases ht
  exact ⟨Nat.le_add_right _ _, hAt.word_le, fun _ => ⟨word, post, rfl, hWord, rfl⟩⟩

/-- Blanks end at one place only. -/
theorem blank_unique {blanks' tail' : Bytes} (hBlank : Blank blanks) (hBlank' : Blank blanks')
    (hStops : Stops isIgnore tail) (hStops' : Stops isIgnore tail')
    (hEq : blanks ++ tail = blanks' ++ tail') : blanks = blanks' ∧ tail = tail' := by
  induction blanks generalizing blanks' with
  | nil =>
    cases blanks' with
    | nil => exact ⟨rfl, hEq⟩
    | cons c blanks' =>
      have hHead : isIgnore c = false := hStops c (by rw [← nil_append tail, hEq]; rfl)
      rw [hBlank' c mem_cons_self] at hHead
      cases hHead
  | cons b blanks ih =>
    cases blanks' with
    | nil =>
      have hHead : isIgnore b = false := hStops' b (by rw [← nil_append tail', ← hEq]; rfl)
      rw [hBlank b mem_cons_self] at hHead
      cases hHead
    | cons c blanks' =>
      obtain ⟨rfl, hRest⟩ := cons.inj hEq
      obtain ⟨rfl, hTail⟩ := ih (fun x hx => hBlank x (mem_cons_of_mem _ hx))
        (fun x hx => hBlank' x (mem_cons_of_mem _ hx)) hRest
      exact ⟨rfl, hTail⟩

/-- Behind the blanks it depends on what follows whether the lexer fails. -/
theorem failsNext_iff (hBegins : Begins Accepts Fails) (hBlank : Blank blanks)
    (hStops : Stops isIgnore tail) : FailsNext Fails (blanks ++ tail) ↔ Fails tail := by
  constructor
  · rintro ⟨blanks', tail', hEq, hBlank', hFails⟩
    rw [(blank_unique hBlank hBlank' hStops (hBegins.fails hFails) hEq).2]
    exact hFails
  · exact fun hFails => ⟨blanks, tail, rfl, hBlank, hFails⟩

theorem TokenRules.rules {token : Bool → Nat → UInt8 → Option Result}
    (hToken : TokenRules Accepts Fails text token) (hBegins : Begins Accepts Fails)
    (hSkips : Skips text lex token) : Rules Accepts Fails text lex := by
  constructor
  case fails =>
    rintro rest pos memory hAt ⟨blanks, tail, rfl, hBlank, hFails⟩
    cases tail with
    | nil =>
      rw [append_nil] at hAt
      exact hSkips.nothing memory hAt hBlank
    | cons c tail =>
      rw [hSkips.token memory hAt hBlank (hBegins.fails hFails c rfl)]
      exact hToken.fails memory hAt.next hFails
  case returns =>
    intro rest pos memory hAt hReturns
    obtain ⟨blanks, tail, rfl, hBlank, hStops⟩ := exists_run isIgnore rest
    rw [failsNext_iff hBegins hBlank hStops] at hReturns
    cases tail with
    | nil => exact absurd hBegins.nothing hReturns
    | cons c tail =>
      rcases hToken.returns memory hAt.next hReturns with ⟨r, hr, hTokens⟩
      refine ⟨r, (hSkips.token memory hAt hBlank (hStops c rfl)).trans hr, fun t ht => ?_⟩
      rcases hTokens t ht with ⟨hStart, hStop, hNext⟩
      refine ⟨hStart, hStop, fun hSymbol => ?_⟩
      rcases hNext hSymbol with ⟨word, post, hTail, hWord, hGone⟩
      refine ⟨blanks, word, post, by rw [hTail, append_assoc], hBlank, hWord, ?_⟩
      rw [hGone, length_append, Nat.add_assoc]
  case accepted =>
    intro blanks word post pos hAt hBlank hWord hReturns
    obtain ⟨c, word', rfl, hc⟩ := hBegins.accepts hWord
    rw [append_assoc] at hAt hReturns
    rw [failsNext_iff hBegins hBlank (stops_append hc)] at hReturns
    rcases hToken.accepted hAt.next hWord hReturns with ⟨t, ht, hSymbol, hStop⟩
    refine ⟨t, (hSkips.token true hAt hBlank hc).trans ht, hSymbol, ?_⟩
    rw [hStop, length_append, Nat.add_assoc]

theorem NeverFails.next (hBlank : Blank blanks) (hWord : Accepts word post)
    (h : NeverFails Accepts Fails (blanks ++ word ++ post)) : NeverFails Accepts Fails post :=
  fun rest hRest => h rest (.next hBlank hWord hRest)

theorem Inside.concat {strLen : Nat} {tokens : List Token} {t : Token} (h : Inside strLen tokens)
    (hStart : t.start ≤ t.stop) (hStop : t.stop ≤ strLen) : Inside strLen (tokens ++ [t]) := by
  intro t' hMem
  rcases mem_append.mp hMem with hOld | hNew
  · exact h t' hOld
  · obtain rfl := mem_singleton.mp hNew
    exact ⟨hStart, hStop⟩

/-- If it never fails the calls come to an end inside the text: each symbol but the last one has
bytes of its own. -/
theorem Rules.run (hRules : Rules Accepts Fails text lex) (hBegins : Begins Accepts Fails)
    (p : Parser) :
    ∀ fuel rest pos tokens, At text rest pos → rest.length < fuel →
      NeverFails Accepts Fails rest → Inside text.length tokens →
      ∃ tokens' errors, yyparse p lex fuel tokens pos = some (tokens', errors) ∧
        Inside text.length tokens' := by
  intro fuel
  induction fuel with
  | zero => exact fun rest pos tokens _ hFuel => absurd hFuel (Nat.not_lt_zero _)
  | succ fuel ih =>
    intro rest pos tokens hAt hFuel hNever hInside
    unfold yyparse
    by_cases hGo : p.goesOn tokens = true
    · rw [if_pos hGo]
      rcases hRules.returns (p.memory tokens) hAt (hNever rest (.here rest)) with ⟨r, hLex, hToken⟩
      rw [hLex]
      cases r with
      | error message => exact ⟨tokens, [message], rfl, hInside⟩
      | token t =>
        rcases hToken t rfl with ⟨hStart, hStop, hNext⟩
        have hInside' : Inside text.length (tokens ++ [t]) := hInside.concat hStart hStop
        dsimp only
        by_cases hEnd : t.symbol = .endOfInput
        · rw [if_pos hEnd]
          exact ⟨tokens ++ [t], [], rfl, hInside'⟩
        · rw [if_neg hEnd]
          rcases hNext hEnd with ⟨blanks, word, post, rfl, hBlank, hWord, hGone⟩
          rw [hGone]
          refine ih post _ _ hAt.next ?_ (hNever.next hBlank hWord) hInside'
          obtain ⟨c, word', rfl, -⟩ := hBegins.accepts hWord
          simp only [length_append, length_cons] at hFuel
          omega
    · rw [if_neg hGo]
      exact ⟨tokens, [], rfl, hInside⟩

/-- A parser that goes on as long as it can, with all memory there. -/
def keen : Parser := ⟨fun _ => true, fun _ => true⟩

section

variable (hRules : Rules Accepts Fails text lex)

include hRules

/-- Such a parser comes to every rest that can be reached. -/
theorem Rules.keen_none {rest last : Bytes} (hReached : Reached Accepts rest last)
    (hFails : FailsNext Fails last) :
    ∀ fuel pos tokens, At text rest pos → yyparse keen lex fuel tokens pos = none := by
  induction hReached with
  | here rest =>
    intro fuel pos tokens hAt
    cases fuel with
    | zero => rfl
    | succ fuel =>
      have hGo : keen.goesOn tokens = true := rfl
      unfold yyparse
      rw [if_pos hGo, hRules.fails _ hAt hFails]
  | @next blanks word post rest hBlank hWord _ ih =>
    intro fuel pos tokens hAt
    cases fuel with
    | zero => rfl
    | succ fuel =>
      have hGo : keen.goesOn tokens = true := rfl
      unfold yyparse
      rw [if_pos hGo]
      by_cases hNow : FailsNext Fails (blanks ++ word ++ post)
      · rw [hRules.fails _ hAt hNow]
      · rcases hRules.accepted hAt hBlank hWord hNow with ⟨t, hLex, hSymbol, hStop⟩
        rw [show keen.memory tokens = true from rfl, hLex]
        dsimp only
        rw [if_neg hSymbol, hStop]
        exact ih hFails fuel _ _ hAt.next

/-- A parser that asks for a symbol comes to what the text begins with. -/
theorem Rules.first_none {p : Parser} (hGo : p.goesOn [] = true) (hFails : FailsNext Fails text)
    (fuel : Nat) : yyparse p lex fuel [] 0 = none := by
  cases fuel with
  | zero => rfl
  | succ fuel =>
    unfold yyparse
    rw [if_pos hGo, hRules.fails _ (At.start text) hFails]

/-- A lexer is safe on a text, whatever the parser does, if and only if it comes to no rest that it
fails on. -/
theorem calls_iff (hBegins : Begins Accepts Fails) :
    (∀ p, Safe text.length fun fuel => yyparse p lex fuel [] 0) ↔
      NeverFails Accepts Fails text := by
  constructor
  · intro hSafe rest hReached hFails
    rcases hSafe keen with ⟨fuel, tokens, errors, hRun, -⟩
    dsimp only at hRun
    rw [hRules.keen_none hReached hFails fuel 0 [] (At.start text)] at hRun
    cases hRun
  · intro hNever p
    have hNone : Inside text.length [] := fun t hMem => absurd hMem not_mem_nil
    exact ⟨text.length + 1, hRules.run hBegins p _ text 0 [] (At.start text) (Nat.lt_succ_self _)
      hNever hNone⟩

end

end Rules

end IClaustron.Lex
