import IClaustron.Protocol.Messages
import Mathlib.Data.List.TakeWhile
import Mathlib.Data.Nat.Digits.Lemmas

/-!
# Protocol.RoundTrip — what is sent is what is received

A message is a sequence of fields. Every field is sent as one line by one of the
send functions and read by the receive function that belongs to it; in between the
receiver may ask for optional lines that are not there.

* `Field.line` — the line of a field, as the protocol has it;
* `Field.send_spec` — the send functions write these lines, through the write buffer;
* `Field.receive_spec` — the receive functions read them, however the bytes arrive;
* `round_trip` — a message that ends with an empty line is received as it was sent.

Without the empty line the last lines stay in the write buffer.
-/

namespace IClaustron.Protocol

open Lib List

/-! ## Fields -/

inductive Field where
  /-- ic_send_with_cr, ic_rec_simple_str -/
  | simple (str : Bytes)
  /-- ic_send_with_cr_two_strings, ic_mc_rec_string -/
  | string (word value : Bytes)
  /-- ic_send_with_cr_two_strings with ic_true_str or ic_false_str, ic_rec_boolean -/
  | boolean (word : Bytes) (value : Bool)
  /-- ic_send_with_cr_with_number, ic_rec_long_number -/
  | number (word : Bytes) (value : Nat)
  /-- ic_send_empty_line, ic_rec_empty_line -/
  | emptyLine
  deriving DecidableEq

/-- What a receiver gets from a line. -/
inductive Value where
  | nothing
  | string (value : Bytes)
  | boolean (value : Bool)
  | number (value : Nat)
  deriving DecidableEq

def boolStr (value : Bool) : Bytes := if value then trueStr else falseStr

def Field.send (w : Writer) : Field → Option Writer
  | .simple str => sendWithCr w str
  | .string word value => sendWithCrTwoStrings w word value
  | .boolean word value => sendWithCrTwoStrings w word (boolStr value)
  | .number word value => sendWithCrWithNumber w word value
  | .emptyLine => sendEmptyLine w

def sendAll : Writer → List Field → Option Writer
  | w, [] => some w
  | w, f :: fs => (f.send w).bind fun w => sendAll w fs

def Field.receive (s : Sock) : Field → Except Stop (Value × Sock)
  | .simple str => do
    let s ← recSimpleStr str s
    pure (.nothing, s)
  | .string word _ => do
    let (value, s) ← mcRecString true word s
    pure (.string value, s)
  | .boolean word _ => do
    let (value, s) ← recBoolean word s
    pure (.boolean value, s)
  | .number word _ => do
    let (value, s) ← recLongNumber word s
    pure (.number value, s)
  | .emptyLine => do
    let s ← recEmptyLine s
    pure (.nothing, s)

/-- A receiver of an optional line. -/
inductive Probe where
  | simpleStrOpt (str : Bytes)
  | optNumber (word : Bytes)
  | optString (word : Bytes)
  deriving DecidableEq

/-- Whether the line was there. -/
def Probe.run (s : Sock) : Probe → Except Stop (Bool × Sock)
  | .simpleStrOpt str => recSimpleStrOpt str s
  | .optNumber word => do
    let (number, s) ← recOptNumber word s
    pure (number.isSome, s)
  | .optString word => do
    let (str, s) ← mcRecOptString true word s
    pure (str.isSome, s)

def runProbes : List Probe → Sock → Except Stop (List Bool × Sock)
  | [], s => pure ([], s)
  | p :: ps, s => do
    let (found, s) ← p.run s
    let (founds, s) ← runProbes ps s
    pure (found :: founds, s)

/-- The receiving side: optional lines that are asked for, then a field. -/
def receiveAll : List (List Probe × Field) → Sock → Except Stop (List (List Bool × Value) × Sock)
  | [], s => pure ([], s)
  | (ps, f) :: script, s => do
    let (founds, s) ← runProbes ps s
    let (value, s) ← f.receive s
    let (values, s) ← receiveAll script s
    pure ((founds, value) :: values, s)

/-! ## Lines -/

def Field.line : Field → Bytes
  | .simple str => str
  | .string word value => word ++ spaceChar :: value
  | .boolean word value => word ++ spaceChar :: boolStr value
  | .number word value => word ++ spaceChar :: guint64Str value
  | .emptyLine => []

def Field.value : Field → Value
  | .simple _ | .emptyLine => .nothing
  | .string _ value => .string value
  | .boolean _ value => .boolean value
  | .number _ value => .number value

/-- No line end and no NUL. -/
def Plain (s : Bytes) : Prop := carriageReturn ∉ s ∧ 0 ∉ s

/-- The line fits into the array it is composed in. -/
def Field.Composed : Field → Prop
  | .simple str => Plain str
  | .string word value =>
    Plain word ∧ Plain value ∧ word ≠ [] ∧ word.length + value.length + 2 ≤ commandReadBufSize
  | .boolean word value =>
    Plain word ∧ word.length + (boolStr value).length + 2 ≤ commandReadBufSize
  | .number word value =>
    Plain word ∧ value < 2 ^ 64 ∧ word.length + 1 + (guint64Str value).length < 128
  | .emptyLine => True

/-- And into the buffers of both sides. -/
structure Field.Ok (writeBufSize readBufSize : Nat) (f : Field) : Prop where
  composed : f.Composed
  sent : f.line.length + 1 < writeBufSize
  received : f.line.length < readBufSize

/-- The line is not the one the optional receiver asks for. -/
def Probe.Missing (line : Bytes) : Probe → Prop
  | .simpleStrOpt str => line ≠ str
  | .optNumber word => checkBufWithInt line word = none
  | .optString _ => line = []

instance (s : Bytes) : Decidable (Plain s) := inferInstanceAs (Decidable (_ ∧ _))

instance (f : Field) : Decidable f.Composed :=
  match f with
  | .simple _ => inferInstanceAs (Decidable (Plain _))
  | .string _ _ => inferInstanceAs (Decidable (_ ∧ _))
  | .boolean _ _ => inferInstanceAs (Decidable (_ ∧ _))
  | .number _ _ => inferInstanceAs (Decidable (_ ∧ _))
  | .emptyLine => inferInstanceAs (Decidable True)

instance (writeBufSize readBufSize : Nat) (f : Field) :
    Decidable (f.Ok writeBufSize readBufSize) :=
  decidable_of_iff
    (f.Composed ∧ f.line.length + 1 < writeBufSize ∧ f.line.length < readBufSize)
    ⟨fun h => ⟨h.1, h.2.1, h.2.2⟩, fun h => ⟨h.composed, h.sent, h.received⟩⟩

instance (line : Bytes) (p : Probe) : Decidable (p.Missing line) :=
  match p with
  | .simpleStrOpt _ => inferInstanceAs (Decidable (_ ≠ _))
  | .optNumber _ => inferInstanceAs (Decidable (_ = none))
  | .optString _ => inferInstanceAs (Decidable (_ = []))

/-! ## Numbers as text -/

variable {n : Nat} {value word : Bytes}

theorem mem_guint64Str {c : UInt8} (h : c ∈ guint64Str n) : 48 ≤ c ∧ c ≤ 57 := by
  unfold guint64Str at h
  split at h
  · rw [mem_singleton.mp h]
    decide
  · rcases mem_map.mp h with ⟨d, hd, rfl⟩
    have hdigits : ∀ d < 10, 48 ≤ UInt8.ofNat (48 + d) ∧ UInt8.ofNat (48 + d) ≤ 57 := by decide
    exact hdigits d (Nat.digits_lt_base (by decide) (mem_reverse.mp hd))

theorem guint64Str_ne_nil (n : Nat) : guint64Str n ≠ [] := by
  unfold guint64Str
  split
  · exact cons_ne_nil _ _
  · rename_i h
    simp [Nat.digits_ne_nil_iff_ne_zero.mpr h]

theorem length_guint64Str_le {k : Nat} (hk : 0 < k) (h : n < 10 ^ k) :
    (guint64Str n).length ≤ k := by
  unfold guint64Str
  split_ifs
  · exact hk
  · rw [length_map, length_reverse]
    exact (Nat.digits_length_le_iff (by decide) n).mpr h

theorem plain_guint64Str (n : Nat) : Plain (guint64Str n) := by
  constructor
  · intro h
    exact absurd (mem_guint64Str h) (by decide)
  · intro h
    exact absurd (mem_guint64Str h) (by decide)

theorem digitsVal_guint64Str (n : Nat) : digitsVal (guint64Str n) = n := by
  unfold guint64Str digitsVal
  split
  · rename_i h
    rw [h]
    rfl
  · rw [foldl_map, foldl_reverse]
    conv_rhs => rw [← Nat.ofDigits_digits 10 n, Nat.ofDigits_eq_foldr]
    have hlt : ∀ d ∈ Nat.digits 10 n, d < 10 := fun d => Nat.digits_lt_base (by decide)
    revert hlt
    generalize Nat.digits 10 n = ds
    intro hlt
    induction ds with
    | nil => rfl
    | cons d ds ih =>
      have hd : (UInt8.ofNat (48 + d)).toNat = 48 + d := by
        have := hlt d mem_cons_self
        rw [UInt8.toNat_ofNat']
        omega
      rw [foldr_cons, foldr_cons, ih fun e he => hlt e (mem_cons_of_mem d he), hd]
      push_cast
      ring_nf
      omega

/-- Digits alone are read to their end. -/
theorem asciiStrtoull_digits {ds : Bytes} (hne : ds ≠ []) (hdigits : ∀ d ∈ ds, isDigit d)
    (h : digitsVal ds < 2 ^ 64) : asciiStrtoull ds = (digitsVal ds, ds.length) := by
  rcases exists_cons_of_ne_nil hne with ⟨c, cs, hcs⟩
  have hc : 48 ≤ c ∧ c ≤ 57 :=
    of_decide_eq_true (hdigits c (hcs ▸ mem_cons_self))
  have hspace : ds.takeWhile isSpace = [] := by
    rw [hcs, takeWhile_cons_of_neg]
    intro hno
    rcases of_decide_eq_true hno with rfl | rfl | rfl | rfl | rfl | rfl <;>
      exact absurd hc (by decide)
  have hsign : ds.head? ≠ some 45 ∧ ds.head? ≠ some 43 := by
    rw [hcs]
    constructor
    · rintro ⟨⟩
      exact absurd hc (by decide)
    · rintro ⟨⟩
      exact absurd hc (by decide)
  have htake : ds.takeWhile isDigit = ds := takeWhile_eq_self_iff.mpr hdigits
  unfold asciiStrtoull
  simp only [hspace, length_nil, drop_zero, hsign.1, hsign.2, or_self, if_false, htake,
    hne, Nat.zero_add, Nat.not_le_of_lt h]

theorem isDigit_guint64Str {c : UInt8} (h : c ∈ guint64Str n) : isDigit c :=
  decide_eq_true (mem_guint64Str h)

/-- A number is read as it was written, also 0. -/
theorem convert_guint64Str (h : n < 2 ^ 64) : convertStrToIntFixedSize (guint64Str n) = some n := by
  have hparse : asciiStrtoull (guint64Str n) = (n, (guint64Str n).length) := by
    have hval := digitsVal_guint64Str n
    rw [asciiStrtoull_digits (guint64Str_ne_nil n) (fun _ => isDigit_guint64Str) (by rwa [hval]),
      hval]
  unfold convertStrToIntFixedSize
  rw [if_neg (mt eq_nil_of_length_eq_zero (guint64Str_ne_nil n)), hparse]
  dsimp only
  rw [if_pos rfl, if_pos]
  by_cases hzero : n = 0
  · right
    rw [hzero]
    exact ⟨rfl, rfl⟩
  · exact Or.inl hzero

/-! ## Sending -/

theorem cStr_of_not_mem {s : Bytes} (h : 0 ∉ s) : cStr s = s := by
  unfold cStr
  rw [takeWhile_eq_self_iff]
  intro c hc
  apply decide_eq_true
  rintro rfl
  exact h hc

theorem cStr_of_plain {s : Bytes} (h : Plain s) : cStr s = s := cStr_of_not_mem h.2

theorem Plain.append {s t : Bytes} (hs : Plain s) (ht : Plain t) : Plain (s ++ t) := by
  constructor
  · rw [mem_append, not_or]
    exact ⟨hs.1, ht.1⟩
  · rw [mem_append, not_or]
    exact ⟨hs.2, ht.2⟩

theorem Plain.spaced (hw : Plain word) (hv : Plain value) : Plain (word ++ spaceChar :: value) := by
  apply hw.append
  constructor
  · rw [mem_cons, not_or]
    exact ⟨by decide, hv.1⟩
  · rw [mem_cons, not_or]
    exact ⟨by decide, hv.2⟩

theorem plain_boolStr (value : Bool) : Plain (boolStr value) := by
  cases value
  · exact ⟨by decide, by decide⟩
  · exact ⟨by decide, by decide⟩

variable {writeBufSize readBufSize : Nat} {f : Field}

theorem Field.plain_line (h : f.Composed) : Plain f.line := by
  cases f with
  | simple str => exact h
  | string word value => exact h.1.spaced h.2.1
  | boolean word value => exact h.1.spaced (plain_boolStr value)
  | number word value => exact h.1.spaced (plain_guint64Str value)
  | emptyLine => exact ⟨not_mem_nil, not_mem_nil⟩

/-- Everything that was given to a send function, written or not. -/
def Writer.text (w : Writer) : Bytes := w.wire ++ w.writeBuf

/-- Line ends inside the line are sent as they are. -/
theorem sendWithCr_text (w : Writer) {line : Bytes} (h : 0 ∉ line)
    (hfit : line.length + 1 < w.writeBufSize) :
    ∃ w', sendWithCr w line = some w' ∧ w'.writeBufSize = w.writeBufSize ∧
      w'.text = w.text ++ (line ++ [carriageReturn]) := by
  unfold sendWithCr
  dsimp only
  rw [cStr_of_not_mem h, if_pos hfit]
  refine ⟨_, rfl, ?_, ?_⟩
  · split <;> rfl
  · split
    · simp only [Writer.text, Writer.flush, nil_append, append_assoc]
    · simp only [Writer.text, append_assoc]

theorem sendWithCr_spec (w : Writer) {line : Bytes} (h : Plain line)
    (hfit : line.length + 1 < w.writeBufSize) :
    ∃ w', sendWithCr w line = some w' ∧ w'.writeBufSize = w.writeBufSize ∧
      w'.text = w.text ++ (line ++ [carriageReturn]) :=
  sendWithCr_text w h.2 hfit

theorem sendWithCrTwoStrings_spec (w : Writer) (hw : Plain word) (hv : Plain value)
    (hlen : word.length + value.length + 2 ≤ commandReadBufSize)
    (hfit : (word ++ spaceChar :: value).length + 1 < w.writeBufSize) :
    ∃ w', sendWithCrTwoStrings w word value = some w' ∧ w'.writeBufSize = w.writeBufSize ∧
      w'.text = w.text ++ (word ++ spaceChar :: value ++ [carriageReturn]) := by
  unfold sendWithCrTwoStrings sendWithCrComposed
  have hsum : ([word, value].map fun buf => (cStr buf).length + 1).sum ≤ commandReadBufSize := by
    simp only [map_cons, map_nil, cStr_of_plain hw, cStr_of_plain hv, sum_cons,
      sum_nil]
    omega
  have hline : [spaceChar].intercalate ([word, value].map cStr) = word ++ spaceChar :: value := by
    simp [List.intercalate, cStr_of_plain hw, cStr_of_plain hv]
  rw [if_pos hsum, hline]
  exact sendWithCr_spec w (hw.spaced hv) hfit

theorem Field.send_spec (w : Writer) (h : f.Ok w.writeBufSize readBufSize) :
    ∃ w', f.send w = some w' ∧ w'.writeBufSize = w.writeBufSize ∧
      w'.text = w.text ++ (f.line ++ [carriageReturn]) ∧ (f = .emptyLine → w'.writeBuf = []) := by
  rcases h with ⟨hcomposed, hfit, -⟩
  cases f with
  | simple str =>
    rcases sendWithCr_spec w hcomposed hfit with ⟨w', hw', hsize, htext⟩
    exact ⟨w', hw', hsize, htext, nofun⟩
  | string word value =>
    rcases hcomposed with ⟨hw, hv, -, hlen⟩
    rcases sendWithCrTwoStrings_spec w hw hv hlen hfit with ⟨w', hw', hsize, htext⟩
    exact ⟨w', hw', hsize, htext, nofun⟩
  | boolean word value =>
    rcases hcomposed with ⟨hw, hlen⟩
    rcases sendWithCrTwoStrings_spec w hw (plain_boolStr value) hlen hfit with
      ⟨w', hw', hsize, htext⟩
    exact ⟨w', hw', hsize, htext, nofun⟩
  | number word value =>
    rcases hcomposed with ⟨hw, -, hlen⟩
    have hline : (cStr word ++ [spaceChar] ++ guint64Str value).take 127 =
        word ++ spaceChar :: guint64Str value := by
      rw [cStr_of_plain hw, append_assoc, take_of_length_le]
      · rfl
      · simp only [length_append, length_singleton]
        omega
    rcases sendWithCr_spec w (hw.spaced (plain_guint64Str value)) hfit with ⟨w', hw', hsize, htext⟩
    refine ⟨w', ?_, hsize, htext, nofun⟩
    unfold Field.send sendWithCrWithNumber
    dsimp only
    rw [hline]
    exact hw'
  | emptyLine =>
    rcases sendWithCr_spec w (⟨not_mem_nil, not_mem_nil⟩ : Plain []) hfit with
      ⟨w', hw', hsize, htext⟩
    refine ⟨w'.flush, ?_, hsize, ?_, fun _ => rfl⟩
    · show (sendWithCr w []).map Writer.flush = _
      rw [hw']
      rfl
    · show w'.flush.text = w.text ++ ([] ++ [carriageReturn])
      rw [← htext]
      simp only [Writer.text, Writer.flush, append_nil]

theorem sendAll_spec (fs : List Field) {w : Writer}
    (h : ∀ f ∈ fs, f.Ok w.writeBufSize readBufSize) :
    ∃ w', sendAll w fs = some w' ∧ w'.text = w.text ++ unlines carriageReturn (fs.map Field.line) ∧
      (fs.getLast? = some .emptyLine → w'.writeBuf = []) := by
  induction fs generalizing w with
  | nil => exact ⟨w, rfl, (append_nil _).symm, nofun⟩
  | cons f fs ih =>
    rcases Field.send_spec w (h f mem_cons_self) with ⟨w₁, hw₁, hsize, htext, hempty⟩
    rcases ih (fun g hg => hsize.symm ▸ h g (mem_cons_of_mem f hg)) with
      ⟨w', hw', htext', hlast⟩
    refine ⟨w', ?_, ?_, ?_⟩
    · unfold sendAll
      rw [hw₁, Option.bind_some, hw']
    · rw [htext', htext, map_cons, unlines_cons]
      simp only [append_assoc, singleton_append]
    · intro hend
      cases fs with
      | nil =>
        cases hw'
        exact hempty (Option.some.inj hend)
      | cons g fs =>
        rw [getLast?_cons_cons] at hend
        exact hlast hend

/-! ## Receiving -/

/-- The receiver is in order, no timeout is coming, and `text` is what it has still to
read. -/
structure Reads (readBufSize : Nat) (text : Bytes) (s : Sock) : Prop where
  wf : s.conn.Wf
  size : s.conn.readBufSize = readBufSize
  text : s.conn.unread ++ early s.net = text
  inTime : later s.net = none

variable {s : Sock} {line rest : Bytes}

theorem recLine_spec (hline : Plain line) (hfit : line.length < readBufSize)
    (h : Reads readBufSize (line ++ carriageReturn :: rest) s) :
    ∃ s', recLine s = .ok (line, s') ∧ Returned line s'.conn ∧ Reads readBufSize rest s' := by
  rcases recWithCr_line h.wf hline.1 (h.size.symm ▸ hfit) h.text with
    ⟨s', hrun, hsize, hwf, hret, htext, hlater⟩
  refine ⟨s', ?_, hret, hwf, hsize.trans h.size, htext, hlater.trans h.inTime⟩
  unfold recLine
  rw [hrun]

theorem Reads.stepBack (h : Reads readBufSize rest s) (hret : Returned line s.conn) :
    Reads readBufSize (line ++ carriageReturn :: rest) (stepBackRecWithCr s line.length) := by
  refine ⟨stepBack_wf h.wf _, h.size, ?_, h.inTime⟩
  rw [stepBack_unread h.wf hret, append_assoc, cons_append]
  exact congrArg (fun t => line ++ carriageReturn :: t) h.text

/-- Behind the key word one space is skipped: the one that the sender has put there. -/
theorem valuePos_spaced (word value : Bytes) :
    valuePos word (word ++ spaceChar :: value) = word.length + 1 := by
  unfold valuePos
  rw [if_pos]
  simp

theorem drop_valuePos (word value : Bytes) :
    (word ++ spaceChar :: value).drop (valuePos word (word ++ spaceChar :: value)) = value := by
  rw [valuePos_spaced, drop_length_add_append]
  rfl

theorem spaced_long (word value : Bytes) :
    ¬ (word ++ spaceChar :: value).length < word.length + 1 := by
  rw [length_append, length_cons]
  omega

theorem take_spaced (word value : Bytes) :
    ¬ (word ++ spaceChar :: value).take word.length ≠ word := by
  rw [take_left]
  exact not_not.mpr rfl

theorem recSimpleStr_spec (hline : Plain line) (hfit : line.length < readBufSize)
    (h : Reads readBufSize (line ++ carriageReturn :: rest) s) :
    ∃ s', recSimpleStr line s = .ok s' ∧ Reads readBufSize rest s' := by
  rcases recLine_spec hline hfit h with ⟨s', hs', -, hreads⟩
  refine ⟨s', ?_, hreads⟩
  unfold recSimpleStr recSimpleStrImpl
  rw [hs']
  show (if line ≠ line then _ else _) >>= _ = _
  rw [if_neg (not_not.mpr rfl)]
  rfl

theorem mcRecString_spec (hline : Plain (word ++ spaceChar :: value)) (hword : word ≠ [])
    (hfit : (word ++ spaceChar :: value).length < readBufSize)
    (h : Reads readBufSize (word ++ spaceChar :: value ++ carriageReturn :: rest) s) :
    ∃ s', mcRecString true word s = .ok (value, s') ∧ Reads readBufSize rest s' := by
  rcases recLine_spec hline hfit h with ⟨s', hs', -, hreads⟩
  refine ⟨s', ?_, hreads⟩
  have hstr : mcRecStringImpl true word (word ++ spaceChar :: value) = .ok value := by
    unfold mcRecStringImpl
    rw [if_neg (mt eq_nil_of_length_eq_zero hword), if_neg (spaced_long word value),
      if_neg (take_spaced word value), if_pos rfl, drop_valuePos]
    rfl
  unfold mcRecString
  rw [hs']
  show (mcRecStringImpl true word (word ++ spaceChar :: value) >>= _) = _
  rw [hstr]
  rfl

theorem recBoolean_spec {value : Bool} (hline : Plain (word ++ spaceChar :: boolStr value))
    (hfit : (word ++ spaceChar :: boolStr value).length < readBufSize)
    (h : Reads readBufSize (word ++ spaceChar :: boolStr value ++ carriageReturn :: rest) s) :
    ∃ s', recBoolean word s = .ok (value, s') ∧ Reads readBufSize rest s' := by
  rcases recLine_spec hline hfit h with ⟨s', hs', -, hreads⟩
  refine ⟨s', ?_, hreads⟩
  unfold recBoolean
  rw [hs']
  dsimp only [bind, Except.bind]
  rw [if_neg (spaced_long word _), if_neg (take_spaced word _), drop_valuePos]
  cases value
  · rfl
  · rfl

theorem checkBufWithInt_space (word text : Bytes) :
    checkBufWithInt (word ++ spaceChar :: text) word = convertStrToIntFixedSize text := by
  unfold checkBufWithInt
  rw [if_neg (not_or.mpr ⟨spaced_long word _, take_spaced word _⟩), drop_valuePos]

theorem checkBufWithInt_spaced {value : Nat} (hvalue : value < 2 ^ 64) :
    checkBufWithInt (word ++ spaceChar :: guint64Str value) word = some value := by
  rw [checkBufWithInt_space, convert_guint64Str hvalue]

theorem recLongNumber_spec {value : Nat} (hvalue : value < 2 ^ 64)
    (hline : Plain (word ++ spaceChar :: guint64Str value))
    (hfit : (word ++ spaceChar :: guint64Str value).length < readBufSize)
    (h : Reads readBufSize (word ++ spaceChar :: guint64Str value ++ carriageReturn :: rest) s) :
    ∃ s', recLongNumber word s = .ok (value, s') ∧ Reads readBufSize rest s' := by
  rcases recLine_spec hline hfit h with ⟨s', hs', -, hreads⟩
  refine ⟨s', ?_, hreads⟩
  unfold recLongNumber
  rw [hs']
  dsimp only [bind, Except.bind]
  rw [checkBufWithInt_spaced hvalue]
  rfl

/-- The receiver of a field gets what was sent. -/
theorem Field.receive_spec (hok : f.Ok writeBufSize readBufSize)
    (h : Reads readBufSize (f.line ++ carriageReturn :: rest) s) :
    ∃ s', f.receive s = .ok (f.value, s') ∧ Reads readBufSize rest s' := by
  have hline := Field.plain_line hok.composed
  have hfit := hok.received
  cases f with
  | simple str =>
    rcases recSimpleStr_spec hline hfit h with ⟨s', hs', hreads⟩
    refine ⟨s', ?_, hreads⟩
    unfold Field.receive
    dsimp only
    rw [show recSimpleStr str s = _ from hs']
    rfl
  | string word value =>
    rcases mcRecString_spec hline hok.composed.2.2.1 hfit h with ⟨s', hs', hreads⟩
    refine ⟨s', ?_, hreads⟩
    unfold Field.receive
    dsimp only
    rw [hs']
    rfl
  | boolean word value =>
    rcases recBoolean_spec hline hfit h with ⟨s', hs', hreads⟩
    refine ⟨s', ?_, hreads⟩
    unfold Field.receive
    dsimp only
    rw [hs']
    rfl
  | number word value =>
    rcases recLongNumber_spec hok.composed.2.1 hline hfit h with ⟨s', hs', hreads⟩
    refine ⟨s', ?_, hreads⟩
    unfold Field.receive
    dsimp only
    rw [hs']
    rfl
  | emptyLine =>
    rcases recSimpleStr_spec hline hfit h with ⟨s', hs', hreads⟩
    refine ⟨s', ?_, hreads⟩
    unfold Field.receive recEmptyLine
    dsimp only
    rw [show recSimpleStr [] s = _ from hs']
    rfl

/-- An optional receiver that does not find its line leaves the lines as they were. -/
theorem Probe.run_missing {p : Probe} (hmissing : p.Missing line) (hline : Plain line)
    (hfit : line.length < readBufSize)
    (h : Reads readBufSize (line ++ carriageReturn :: rest) s) :
    ∃ s', p.run s = .ok (false, s') ∧ Reads readBufSize (line ++ carriageReturn :: rest) s' := by
  rcases recLine_spec hline hfit h with ⟨s₁, hs₁, hret, hreads⟩
  refine ⟨stepBackRecWithCr s₁ line.length, ?_, hreads.stepBack hret⟩
  cases p with
  | simpleStrOpt str =>
    unfold Probe.run recSimpleStrOpt recSimpleStrImpl
    rw [hs₁]
    dsimp only [bind, Except.bind]
    rw [if_pos (show line ≠ str from hmissing)]
    rfl
  | optNumber word =>
    unfold Probe.run recOptNumber recNumberImpl
    rw [hs₁]
    dsimp only [bind, Except.bind]
    rw [show checkBufWithInt line word = none from hmissing]
    rfl
  | optString word =>
    unfold Probe.run mcRecOptString
    rw [hs₁]
    dsimp only [bind, Except.bind]
    rw [if_pos (show line.length = 0 by rw [show line = [] from hmissing]; rfl)]
    rfl

theorem runProbes_missing {ps : List Probe} (hmissing : ∀ p ∈ ps, p.Missing line)
    (hline : Plain line) (hfit : line.length < readBufSize)
    (h : Reads readBufSize (line ++ carriageReturn :: rest) s) :
    ∃ s', runProbes ps s = .ok (ps.map fun _ => false, s') ∧
      Reads readBufSize (line ++ carriageReturn :: rest) s' := by
  induction ps generalizing s with
  | nil => exact ⟨s, rfl, h⟩
  | cons p ps ih =>
    rcases Probe.run_missing (hmissing p mem_cons_self) hline hfit h with ⟨s₁, hs₁, h₁⟩
    rcases ih (fun q hq => hmissing q (mem_cons_of_mem p hq)) h₁ with ⟨s', hs', h'⟩
    refine ⟨s', ?_, h'⟩
    unfold runProbes
    rw [hs₁]
    dsimp only [bind, Except.bind]
    rw [hs']
    rfl

/-- What the receiver should get: no optional line, and the value of each field. -/
def expected (script : List (List Probe × Field)) : List (List Bool × Value) :=
  script.map fun x => (x.1.map fun _ => false, x.2.value)

theorem receiveAll_spec (script : List (List Probe × Field))
    (hok : ∀ x ∈ script, x.2.Ok writeBufSize readBufSize)
    (hmissing : ∀ x ∈ script, ∀ p ∈ x.1, p.Missing x.2.line)
    (h : Reads readBufSize
      (unlines carriageReturn (script.map fun x => x.2.line) ++ rest) s) :
    ∃ s', receiveAll script s = .ok (expected script, s') ∧ Reads readBufSize rest s' := by
  induction script generalizing s with
  | nil => exact ⟨s, rfl, h⟩
  | cons x script ih =>
    rcases x with ⟨ps, f⟩
    have hf := hok (ps, f) mem_cons_self
    rw [map_cons, unlines_cons, append_assoc, cons_append] at h
    rcases runProbes_missing (hmissing (ps, f) mem_cons_self)
      (Field.plain_line hf.composed) hf.received h with ⟨s₁, hs₁, h₁⟩
    rcases Field.receive_spec hf h₁ with ⟨s₂, hs₂, h₂⟩
    rcases ih (fun y hy => hok y (mem_cons_of_mem _ hy))
      (fun y hy => hmissing y (mem_cons_of_mem _ hy)) h₂ with ⟨s', hs', h'⟩
    refine ⟨s', ?_, h'⟩
    unfold receiveAll
    rw [hs₁]
    dsimp only [bind, Except.bind]
    rw [hs₂]
    dsimp only
    rw [hs']
    rfl

theorem reads_create {net : List Arrival} (hnet : later net = none) :
    Reads readBufSize (dataOf net) ⟨Connection.create readBufSize, net⟩ := by
  refine ⟨⟨Nat.le_refl _, Nat.zero_le _⟩, length_replicate, ?_, hnet⟩
  rw [dataOf_eq, hnet]
  show ((Connection.create readBufSize).readBuf.take 0).drop 0 ++ early net = early net ++ []
  rw [take_zero, append_nil]
  rfl

/-! ## Round trip -/

/-- A message that ends with an empty line is received as it was sent, however the
write buffer is flushed and the bytes arrive, and whatever other lines are asked
for on the way. -/
theorem round_trip (script : List (List Probe × Field))
    (hok : ∀ x ∈ script, x.2.Ok writeBufSize readBufSize)
    (hmissing : ∀ x ∈ script, ∀ p ∈ x.1, p.Missing x.2.line)
    (hend : (script.map Prod.snd).getLast? = some .emptyLine) :
    ∃ w, sendAll (Writer.create writeBufSize) (script.map Prod.snd) = some w ∧
      ∀ net, later net = none → dataOf net = w.wire →
        ∃ s, receiveAll script ⟨Connection.create readBufSize, net⟩ = .ok (expected script, s) ∧
          s.conn.unread ++ dataOf s.net = [] := by
  have hfields : ∀ f ∈ script.map Prod.snd, f.Ok writeBufSize readBufSize := by
    intro f hf
    rcases List.mem_map.mp hf with ⟨x, hx, rfl⟩
    exact hok x hx
  rcases @sendAll_spec readBufSize (script.map Prod.snd) (Writer.create writeBufSize) hfields with
    ⟨w, hw, htext, hflushed⟩
  refine ⟨w, hw, fun net hnet hdata => ?_⟩
  have hwire : w.wire = unlines carriageReturn (script.map fun x => x.2.line) := by
    unfold Writer.text at htext
    rw [hflushed hend, List.append_nil] at htext
    rw [htext, List.map_map]
    rfl
  have hreads := @reads_create readBufSize net hnet
  rw [hdata, hwire, ← List.append_nil (unlines carriageReturn _)] at hreads
  rcases receiveAll_spec script hok hmissing hreads with ⟨s, hs, hrest⟩
  refine ⟨s, hs, ?_⟩
  rw [dataOf_eq, hrest.inTime]
  show s.conn.unread ++ (early s.net ++ []) = []
  rw [List.append_nil, hrest.text]

/-- A value with a leading space, an empty value, a key word that ends in a space, and
optional lines that are not there. -/
def sample : List (List Probe × Field) :=
  [([.optNumber (ascii "pid:")], .string (ascii "grid:") (ascii " a")),
    ([], .string (ascii "node:") []),
    ([.simpleStrOpt (ascii "ok")], .number (ascii "node1: ") 0),
    ([.optString (ascii "program:")], .emptyLine)]

theorem round_trip_sample :
    ∃ w, sendAll (Writer.create 16) (sample.map Prod.snd) = some w ∧
      ∀ net, later net = none → dataOf net = w.wire →
        ∃ s, receiveAll sample ⟨Connection.create 16, net⟩ =
            .ok ([([false], .string (ascii " a")), ([], .string []), ([false], .number 0),
              ([false], .nothing)], s) ∧
          s.conn.unread ++ dataOf s.net = [] :=
  round_trip sample (by decide) (by decide) (by decide)

/-- A line that is not followed by an empty line is not written, and the receiver of a
string does not accept an empty key word. -/
theorem unflushed_line_and_empty_word :
    (∃ w, sendAll (Writer.create 16) [.simple (ascii "a")] = some w ∧ w.wire = [] ∧
        receiveAll [([], .simple (ascii "a"))] ⟨Connection.create 16, []⟩ = .error .waiting) ∧
      ∃ w, sendAll (Writer.create 16) [.string [] (ascii "a"), .emptyLine] = some w ∧
        dataOf [.data 32 [97, 10, 10]] = w.wire ∧
        receiveAll [([], .string [] (ascii "a")), ([], .emptyLine)]
          ⟨Connection.create 16, [.data 32 [97, 10, 10]]⟩ = .error .abort := by
  refine ⟨⟨_, rfl, rfl, rfl⟩, ⟨_, rfl, rfl, rfl⟩⟩

end IClaustron.Protocol
