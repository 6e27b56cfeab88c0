import IClaustron.Protocol.RoundTrip

/-!
# Protocol.OkReply — the ok reply and the error reply

A request is answered by the line "Ok", or by the line "Error" and the text of the error; an empty
line ends both. The receiver in comm/ic_protocol_support.c asks for an optional "Ok" and should then
read the rest of the one reply or of the other.

* `error_reply_received_iff` — the receiver of error replies gets every text that is not too long.
* `recOkOrError_error` — `ic_rec_ok_or_error` fails on every error reply: the pointer to the flag is
  tested where the flag is meant, so that the line "Error" is read as the empty line of an ok reply.
* `ok_or_error_iff` — a reply is received as it should be exactly when it is the ok reply.
-/

namespace IClaustron.Protocol

open Lib List

/-! ## Model -/

/-- ic_ok_str. -/
def okStr : Bytes := ascii "Ok"
/-- ic_error_str. -/
def errorStr : Bytes := ascii "Error"
/-- `ic_send_ok`. -/
def sendOk (w : Writer) : Option Writer := do
  let w ← sendWithCr w okStr
  sendEmptyLine w

/-- `ic_send_error_message`. -/
def sendErrorMessage (w : Writer) (errorMessage : Bytes) : Option Writer := do
  let w ← sendWithCr w errorStr
  let w ← sendWithCr w errorMessage
  sendEmptyLine w

/-- `ic_rec_error_message`. The call of ic_rec_with_cr points the parameter `buf` to the read
buffer of the connection: what the caller has passed is not written to. -/
def recErrorMessage (buf : Bytes) (s : Sock) : Except Stop (Bytes × Sock) := do
  let s ← recSimpleStr errorStr s
  let (_, s) ← recLine s
  let s ← recEmptyLine s
  pure (buf, s)

/-- `ic_rec_ok_or_error`, where `okFound` is the address of the flag. Gives the flag and the
caller's buffer. -/
def recOkOrError (okFound : Nat) (buf : Bytes) (s : Sock) : Except Stop (Bool × Bytes × Sock) := do
  let buf := buf.set 0 0
  -- the flag is written through the pointer
  if okFound = 0 then throw .abort
  else
    let (found, s) ← recSimpleStrOpt okStr s
    -- not the flag: its address
    if okFound = 0 then do
      let (buf, s) ← recErrorMessage buf s
      pure (found, buf, s)
    else do
      let s ← recEmptyLine s
      pure (found, buf, s)

inductive Reply where
  | ok
  | error (errorMessage : Bytes)
  deriving DecidableEq

def Reply.send (w : Writer) : Reply → Option Writer
  | .ok => sendOk w
  | .error errorMessage => sendErrorMessage w errorMessage

def Reply.lines : Reply → List Bytes
  | .ok => [okStr, []]
  | .error errorMessage => [errorStr, errorMessage, []]

/-- What should stand in the caller's buffer. -/
def Reply.text : Reply → Bytes
  | .ok => []
  | .error errorMessage => errorMessage

/-- The lines are lines, and fit into the buffers of both sides; the text fits into the caller's. -/
structure Reply.Fits (writeBufSize readBufSize bufSize : Nat) (reply : Reply) : Prop where
  plain : Plain reply.text
  sent : ∀ line ∈ reply.lines, line.length + 1 < writeBufSize
  received : ∀ line ∈ reply.lines, line.length < readBufSize
  buf : reply.text.length < bufSize

instance (writeBufSize readBufSize bufSize : Nat) (reply : Reply) :
    Decidable (reply.Fits writeBufSize readBufSize bufSize) :=
  decidable_of_iff
    (Plain reply.text ∧ (∀ line ∈ reply.lines, line.length + 1 < writeBufSize) ∧
      (∀ line ∈ reply.lines, line.length < readBufSize) ∧ reply.text.length < bufSize)
    ⟨fun h => ⟨h.1, h.2.1, h.2.2.1, h.2.2.2⟩, fun h => ⟨h.plain, h.sent, h.received, h.buf⟩⟩

/-- The call returns 0, the flag and the buffer are those of the reply, `rest` is what it has not
read, and the next call gets the first line of `rest`. -/
def ReceivesReply (readBufSize okFound : Nat) (buf : Bytes) (reply : Reply) (rest : Bytes)
    (s : Sock) : Prop :=
  ∃ buf' s', recOkOrError okFound buf s = .ok (decide (reply = .ok), buf', s') ∧
    cStr buf' = reply.text ∧ Reads readBufSize rest s' ∧
    ∀ line rest', rest = line ++ carriageReturn :: rest' → Plain line →
      line.length < readBufSize → ∃ s'', recLine s' = .ok (line, s'')

variable {writeBufSize readBufSize bufSize okFound : Nat} {buf errMsg line text rest : Bytes}
  {s : Sock} {w : Writer} {reply : Reply}

/-! ## Sending -/

theorem Reply.plain_lines (h : Plain reply.text) : ∀ line ∈ reply.lines, Plain line := by
  have hEmpty : Plain [] := ⟨not_mem_nil, not_mem_nil⟩
  intro line hLine
  cases reply with
  | ok =>
    rcases mem_cons.mp hLine with rfl | hLine
    · decide
    · exact mem_singleton.mp hLine ▸ hEmpty
  | error text =>
    rcases mem_cons.mp hLine with rfl | hLine
    · decide
    · rcases mem_cons.mp hLine with rfl | hLine
      · exact h
      · exact mem_singleton.mp hLine ▸ hEmpty

/-- A reply is sent as fields of a message, the last of them an empty line. -/
def Reply.fields : Reply → List Field
  | .ok => [.simple okStr, .emptyLine]
  | .error errorMessage => [.simple errorStr, .simple errorMessage, .emptyLine]

theorem Reply.send_eq (w : Writer) : reply.send w = sendAll w reply.fields := by
  cases reply with
  | ok =>
    unfold Reply.send sendOk Reply.fields sendAll sendAll sendAll
    simp [Field.send]
  | error text =>
    unfold Reply.send sendErrorMessage Reply.fields sendAll sendAll sendAll sendAll
    simp [Field.send]

theorem Reply.lines_fields (reply : Reply) : reply.fields.map Field.line = reply.lines := by
  cases reply with
  | ok => rfl
  | error text => rfl

theorem Reply.fields_ok (h : reply.Fits writeBufSize readBufSize bufSize) :
    ∀ f ∈ reply.fields, f.Ok writeBufSize readBufSize := by
  intro f hf
  have hLine : f.line ∈ reply.lines := by
    rw [← reply.lines_fields]
    exact mem_map_of_mem hf
  have hPlain : Plain f.line := Reply.plain_lines h.plain f.line hLine
  refine ⟨?_, h.sent f.line hLine, h.received f.line hLine⟩
  -- a field of a reply is a line without a value
  have hKind : (∃ str, f = .simple str) ∨ f = .emptyLine := by
    cases reply with
    | ok =>
      simp only [Reply.fields, mem_cons, not_mem_nil, or_false] at hf
      rcases hf with rfl | rfl
      · exact Or.inl ⟨okStr, rfl⟩
      · exact Or.inr rfl
    | error text =>
      simp only [Reply.fields, mem_cons, not_mem_nil, or_false] at hf
      rcases hf with rfl | rfl | rfl
      · exact Or.inl ⟨errorStr, rfl⟩
      · exact Or.inl ⟨text, rfl⟩
      · exact Or.inr rfl
  rcases hKind with ⟨str, rfl⟩ | rfl
  · exact hPlain
  · trivial

/-- The reply is handed over to the socket with everything that was waiting. -/
theorem Reply.send_spec (h : reply.Fits w.writeBufSize readBufSize bufSize) :
    ∃ w', reply.send w = some w' ∧ w'.writeBuf = [] ∧
      w'.wire = w.wire ++ w.writeBuf ++ unlines carriageReturn reply.lines := by
  rcases sendAll_spec reply.fields (Reply.fields_ok h) with ⟨w', hSend, hText, hFlushed⟩
  have hEnd : reply.fields.getLast? = some .emptyLine := by
    cases reply with
    | ok => rfl
    | error text => rfl
  have hBuf := hFlushed hEnd
  refine ⟨w', (Reply.send_eq w).trans hSend, hBuf, ?_⟩
  unfold Writer.text at hText
  rw [hBuf, append_nil, reply.lines_fields] at hText
  exact hText

/-! ## Receiving -/

theorem cStr_set_zero (buf : Bytes) : cStr (buf.set 0 0) = [] := by
  cases buf with
  | nil => rfl
  | cons b buf => rfl

theorem recSimpleStrOpt_found (hLine : Plain line) (hFit : line.length < readBufSize)
    (h : Reads readBufSize (line ++ carriageReturn :: rest) s) :
    ∃ s', recSimpleStrOpt line s = .ok (true, s') ∧ Reads readBufSize rest s' := by
  rcases recLine_spec hLine hFit h with ⟨s', hRec, -, hReads⟩
  refine ⟨s', ?_, hReads⟩
  unfold recSimpleStrOpt recSimpleStrImpl
  rw [hRec]
  show (if line ≠ line then _ else _) = _
  rw [if_neg (not_not.mpr rfl)]
  rfl

/-- Another line is an error, also when it is there. -/
theorem recSimpleStr_other {str : Bytes} (hLine : Plain line) (hFit : line.length < readBufSize)
    (hOther : line ≠ str) (h : Reads readBufSize (line ++ carriageReturn :: rest) s) :
    recSimpleStr str s = .error (.error protocolError) := by
  rcases recLine_spec hLine hFit h with ⟨s', hRec, -, -⟩
  unfold recSimpleStr recSimpleStrImpl
  rw [hRec]
  show (if line ≠ str then _ else _) >>= _ = _
  rw [if_pos hOther]
  rfl

theorem recEmptyLine_spec (hFit : 0 < readBufSize)
    (h : Reads readBufSize (carriageReturn :: rest) s) :
    ∃ s', recEmptyLine s = .ok s' ∧ Reads readBufSize rest s' :=
  recSimpleStr_spec ⟨not_mem_nil, not_mem_nil⟩ hFit h

/-- An ok reply is read to its end, and the buffer is the empty string. -/
theorem recOkOrError_ok (hOk : okFound ≠ 0) (hSize : okStr.length < readBufSize)
    (h : Reads readBufSize (unlines carriageReturn Reply.ok.lines ++ rest) s) :
    ∃ s', recOkOrError okFound buf s = .ok (true, buf.set 0 0, s') ∧
      Reads readBufSize rest s' := by
  rw [Reply.lines, unlines_cons, unlines_cons, append_assoc, cons_append] at h
  rcases recSimpleStrOpt_found (by decide) hSize h with ⟨s₁, hRec, h₁⟩
  rcases recEmptyLine_spec (by omega) h₁ with ⟨s₂, hEmpty, h₂⟩
  refine ⟨s₂, ?_, h₂⟩
  unfold recOkOrError
  dsimp only [bind, Except.bind]
  rw [if_neg hOk, hRec]
  dsimp only
  rw [if_neg hOk, hEmpty]
  rfl

/-- The line "Error" is put back by the optional receiver, and then read as the empty line of an ok
reply. -/
theorem recOkOrError_error (hOk : okFound ≠ 0) (hSize : errorStr.length < readBufSize)
    (h : Reads readBufSize (unlines carriageReturn (Reply.error text).lines ++ rest) s) :
    recOkOrError okFound buf s = .error (.error protocolError) := by
  rw [Reply.lines, unlines_cons, append_assoc, cons_append] at h
  have hMissing : (Probe.simpleStrOpt okStr).Missing errorStr := by decide
  rcases Probe.run_missing hMissing (by decide) hSize h with ⟨s₁, hRec, h₁⟩
  have hEmpty : recEmptyLine s₁ = .error (.error protocolError) :=
    recSimpleStr_other (by decide) hSize (by decide) h₁
  unfold recOkOrError
  dsimp only [bind, Except.bind]
  rw [if_neg hOk, show recSimpleStrOpt okStr s = _ from hRec]
  dsimp only
  rw [if_neg hOk, hEmpty]

/-! ## Ok or error -/

theorem okStr_lt (h : reply.Fits writeBufSize readBufSize bufSize) (hOk : reply = .ok) :
    okStr.length < readBufSize :=
  h.received okStr (hOk ▸ mem_cons_self)

/-- A reply of either kind, with whatever follows it: it is sent, and `ic_rec_ok_or_error` receives
it as it should be exactly when it is the ok reply. -/
theorem ok_or_error_iff (hFits : reply.Fits w.writeBufSize readBufSize buf.length)
    (hOk : okFound ≠ 0) :
    ∃ w' sent, reply.send w = some w' ∧ w'.writeBuf = [] ∧
      w'.wire = w.wire ++ w.writeBuf ++ sent ∧
      ∀ rest s, Reads readBufSize (sent ++ rest) s →
        (ReceivesReply readBufSize okFound buf reply rest s ↔ reply = .ok) := by
  rcases Reply.send_spec hFits with ⟨w', hSend, hBuf, hWire⟩
  refine ⟨w', _, hSend, hBuf, hWire, fun rest s hReads => ⟨?_, ?_⟩⟩
  · rintro ⟨buf', s', hRec, -⟩
    cases reply with
    | ok => rfl
    | error text =>
      have hSize : errorStr.length < readBufSize := hFits.received errorStr List.mem_cons_self
      rw [recOkOrError_error hOk hSize hReads] at hRec
      exact absurd hRec nofun
  · rintro rfl
    rcases recOkOrError_ok hOk (okStr_lt hFits rfl) hReads with ⟨s', hRec, h'⟩
    refine ⟨buf.set 0 0, s', hRec, cStr_set_zero buf, h', ?_⟩
    rintro line rest' rfl hLine hFit
    rcases recLine_spec hLine hFit h' with ⟨s'', hNext, -, -⟩
    exact ⟨s'', hNext⟩

/-- The bytes "Ok", an empty line and a line "next", in two pieces. -/
def okThenNext : Sock :=
  ⟨Connection.create 16, [.data 79 [107, 10], .data 10 [110, 101, 120, 116, 10]]⟩

theorem ok_or_error_iff_next :
    ∃ w', Reply.ok.send (Writer.create 16) = some w' ∧ w'.writeBuf = [] ∧
      w'.wire = [79, 107, 10, 10] ∧
      ReceivesReply 16 1 (List.replicate 8 7) .ok (ascii "next" ++ [carriageReturn]) okThenNext := by
  have hFits : Reply.ok.Fits (Writer.create 16).writeBufSize 16
      (List.replicate 8 (7 : UInt8)).length := by decide
  rcases ok_or_error_iff hFits (show 1 ≠ 0 by decide) with ⟨w', sent, hSend, hBuf, hWire, hIff⟩
  have hSent : sent = [79, 107, 10, 10] := by
    have hSome := Option.some.inj (hSend.symm.trans (by rfl : _ = some ⟨16, [], [79, 107, 10, 10]⟩))
    rw [hSome] at hWire
    exact hWire.symm
  refine ⟨w', hSend, hBuf, ?_, ?_⟩
  · rw [hWire, hSent]
    rfl
  · refine (hIff _ okThenNext ?_).mpr rfl
    have hReads := @reads_create 16 okThenNext.net rfl
    rw [hSent]
    exact hReads

/-- The error reply with the text "no" is sent as it should be, and is a protocol error for the
receiver. -/
theorem error_reply_not_received :
    (∃ w', (Reply.error (ascii "no")).send (Writer.create 16) = some w' ∧
        w'.wire = ascii "Error\nno\n\n") ∧
      (Reply.error (ascii "no")).Fits 16 16 8 ∧
      recOkOrError 1 (List.replicate 8 7)
          ⟨Connection.create 16, [.data 69 (ascii "rror\nno\n\nnext\n")]⟩ =
        .error (.error protocolError) ∧
      ¬ ReceivesReply 16 1 (List.replicate 8 7) (.error (ascii "no")) (ascii "next\n")
          ⟨Connection.create 16, [.data 69 (ascii "rror\nno\n\nnext\n")]⟩ := by
  refine ⟨⟨_, rfl, rfl⟩, by decide, rfl, ?_⟩
  rintro ⟨buf', s', hRec, -⟩
  exact absurd hRec nofun

end IClaustron.Protocol
