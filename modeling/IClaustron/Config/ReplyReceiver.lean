import IClaustron.Config.Translate
import IClaustron.Config.Parameters
import IClaustron.Protocol.Messages

/-!
# Config.ReplyReceiver — the answer to get config

Model of rec_get_config_reply (api/ic_apic_conf_read_proto.ic): the states of its protocol,
the buffer the configuration is put together in, and the call of translate_config with the
assertion at its start. The text of the configuration comes in lines; the announced length
counts the line ends too.

The receiver looks at the length of a line when it has stored it already, and the last line
may have any length:

* `safe_iff` — a reply is received safely, and accepted exactly if it is a prescribed one,
  when the last line fits: the text is not longer than announced, its length is a multiple
  of four, and what does not add up to the announced length is refused by something else.
* `last_line_too_long` — 100 bytes in a buffer of 10.

## Scope limits

A line is shorter than the read buffer of 256 bytes, so the counters of the code stay far
below 2^32 and are natural numbers here. What goes wrong in translate_config itself is not the
subject: it counts as a failure.
-/

namespace IClaustron.Config.ReplyReceiver

open Protocol List

/-! ## Receiver -/

/-- MAX_CONTENT_LEN. -/
def maxContentLen : Nat := 16 * 1024 * 1024

def getConfigReplyStr : Bytes := ascii "get config reply"
def resultOkStr : Bytes := ascii "result: Ok"
def contentLenStr : Bytes := ascii "Content-Length:"
def octetStreamStr : Bytes := ascii "Content-Type: ndbconfig/octet-stream"
def contentEncodingStr : Bytes := ascii "Content-Transfer-Encoding: base64"

inductive ReplyState where
  | getConfigReply | resultOk | contentLength | octetStream | contentEncoding | waitEmptyReturn
  | receiveConfig | waitLastEmptyReturn
  deriving DecidableEq

/-- The variables of `rec_get_config_reply`. `configBuf` is what has been stored in the
buffer, `translated` are the texts that `translate_config` has been called with. -/
structure Receiver where
  state : ReplyState := .getConfigReply
  contentLength : Nat := 0
  configBuf : Option Bytes := none
  recConfigSize : Nat := 0
  translated : List Bytes := []

inductive Ret where
  | accepted
  | protocolError
  | memAlloc
  /-- `ic_rec_with_cr` has returned an error. -/
  | connection
  /-- `translate_config` has returned an error. -/
  | translation (e : DecodeError)
  /-- An assertion has failed. -/
  | aborted
  deriving DecidableEq

inductive Step where
  | next (r : Receiver)
  | done (ret : Ret) (r : Receiver)

variable (T : ConfigTable) (mem : Memory) (found : Found) (callocOk : Bool)

/-- `translate_config` with its assertion on the size. -/
def translate (configBuf : Bytes) : Ret :=
  if configBuf.length % 4 = 0 then
    match translateConfig T mem found configBuf with
    | .ok _ => .accepted
    | .error e => .translation e
  else .aborted

/-- RECEIVE_CONFIG_STATE with `buf` in the buffer. -/
def receiveLine (r : Receiver) (buf line : Bytes) : Step :=
  let r := { r with configBuf := some (buf ++ line)
                    recConfigSize := r.recConfigSize + (line.length + 1) }
  if r.contentLength ≤ r.recConfigSize then
    let r := { r with translated := r.translated ++ [buf ++ line] }
    match translate T mem found (buf ++ line) with
    | .accepted => .next { r with state := .waitLastEmptyReturn }
    | ret => .done ret r
  else if line.length ≠ configLineLen then .done .protocolError r
  else .next r

/-- What is done with a line. -/
def step (r : Receiver) (line : Bytes) : Step :=
  match r.state with
  | .getConfigReply =>
    if line = getConfigReplyStr then .next { r with state := .resultOk } else .done .protocolError r
  | .resultOk =>
    if line = resultOkStr then .next { r with state := .contentLength } else .done .protocolError r
  | .contentLength =>
    match checkBufWithInt line contentLenStr with
    | some contentLength =>
      if maxContentLen < contentLength then .done .protocolError { r with contentLength }
      else .next { r with contentLength, state := .octetStream }
    | none => .done .protocolError r
  | .octetStream =>
    if line = octetStreamStr then .next { r with state := .contentEncoding }
    else .done .protocolError r
  | .contentEncoding =>
    if line = contentEncodingStr then
      if callocOk then
        .next { r with configBuf := some [], recConfigSize := 0, state := .waitEmptyReturn }
      else .done .memAlloc r
    else .done .protocolError r
  | .waitEmptyReturn =>
    if line = [] then .next { r with state := .receiveConfig } else .done .protocolError r
  | .waitLastEmptyReturn =>
    if line = [] then .done .accepted r else .done .protocolError r
  | .receiveConfig =>
    match r.configBuf with
    | some buf => receiveLine T mem found r buf line
    | none => .done .aborted r

/-- The end of a call: what it returns, the variables, and how often the buffer is freed. -/
structure Reply where
  ret : Ret
  receiver : Receiver
  frees : Nat

/-- The buffer is freed when there is one, except when an assertion has stopped the program. -/
def finish (ret : Ret) (r : Receiver) : Reply :=
  ⟨ret, r, if ret = .aborted then 0 else if r.configBuf.isSome then 1 else 0⟩

/-- The loop; behind the lines `ic_rec_with_cr` returns an error. -/
def run (r : Receiver) : List Bytes → Reply
  | [] => finish .connection r
  | line :: lines =>
    match step T mem found callocOk r line with
    | .next r => run r lines
    | .done ret r => finish ret r

/-- `rec_get_config_reply`. -/
def recGetConfigReply (lines : List Bytes) : Reply := run T mem found callocOk {} lines

/-! ## Well-formed answers -/

/-- The lines are the header of a configuration of `n` bytes, and `rest`. -/
def Announced (n : Nat) (lines rest : List Bytes) : Prop :=
  ∃ lengthLine, checkBufWithInt lengthLine contentLenStr = some n ∧ n ≤ maxContentLen ∧
    lines = getConfigReplyStr :: resultOkStr :: lengthLine :: octetStreamStr ::
      contentEncodingStr :: [] :: rest

/-- The bytes of lines with their line ends. -/
def wireLen (ls : List Bytes) : Nat := (ls.map fun l => l.length + 1).sum

/-- The lines `ls` and `last` are taken for a configuration of which `n` bytes are announced and
`size` have arrived before. -/
structure ConfigLines (n size : Nat) (ls : List Bytes) (last : Bytes) : Prop where
  full : ∀ l ∈ ls, l.length = configLineLen
  more : ls = [] ∨ size + wireLen ls < n
  reached : n ≤ size + wireLen ls + (last.length + 1)

/-- The text is translated without an error. -/
def Translates (text : Bytes) : Prop := ∃ conf, translateConfig T mem found text = .ok conf

/-- A reply as it should be: the lines add up to the announced length, all but the last are
full, the text is a configuration and an empty line follows. -/
def Prescribed (lines : List Bytes) : Prop :=
  ∃ n ls last rest, Announced n lines (ls ++ last :: [] :: rest) ∧
    (∀ l ∈ ls, l.length = configLineLen) ∧ wireLen (ls ++ [last]) = n ∧
      Translates T mem found (ls ++ [last]).flatten

/-- What is promised of the receiver. -/
structure Safe (lines : List Bytes) : Prop where
  bounded : ∀ buf, (recGetConfigReply T mem found callocOk lines).receiver.configBuf = some buf →
    buf.length ≤ (recGetConfigReply T mem found callocOk lines).receiver.contentLength
  translated : (recGetConfigReply T mem found callocOk lines).receiver.translated = [] ∨
    ∃ n ls last rest, Announced n lines (ls ++ last :: rest) ∧ ConfigLines n 0 ls last ∧
      (recGetConfigReply T mem found callocOk lines).receiver.translated =
        [(ls ++ [last]).flatten] ∧ (ls ++ [last]).flatten.length % 4 = 0
  accepted : (recGetConfigReply T mem found callocOk lines).ret = .accepted ↔
    callocOk = true ∧ Prescribed T mem found lines
  freed : (recGetConfigReply T mem found callocOk lines).frees =
    if (recGetConfigReply T mem found callocOk lines).receiver.configBuf.isSome then 1 else 0

/-- The lines up to the announced length, the last of them and those behind. -/
def splitConfig (n : Nat) : Nat → List Bytes → Option (List Bytes × Bytes × List Bytes)
  | _, [] => none
  | size, line :: lines =>
    if n ≤ size + (line.length + 1) then some ([], line, lines)
    else if line.length ≠ configLineLen then none
    else (splitConfig n (size + (line.length + 1)) lines).map fun p => (line :: p.1, p.2)

@[simp] theorem wireLen_cons (l : Bytes) (ls : List Bytes) :
    wireLen (l :: ls) = l.length + 1 + wireLen ls := rfl

variable {n : Nat} {last : Bytes} {ls rest : List Bytes}

/-- No other lines are taken for the configuration. -/
theorem splitConfig_of_configLines :
    ∀ (ls : List Bytes) (size : Nat), ConfigLines n size ls last →
      splitConfig n size (ls ++ last :: rest) = some (ls, last, rest) := by
  intro ls
  induction ls with
  | nil =>
    intro size h
    have hReached : n ≤ size + (last.length + 1) := h.reached
    rw [nil_append, splitConfig, if_pos hReached]
  | cons l ls ih =>
    intro size h
    have hMore : size + wireLen (l :: ls) < n := h.more.resolve_left (cons_ne_nil l ls)
    have hReached := h.reached
    rw [wireLen_cons] at hMore hReached
    have hRest : ConfigLines n (size + (l.length + 1)) ls last :=
      ⟨fun l' hl' => h.full l' (mem_cons_of_mem l hl'), .inr (by omega), by omega⟩
    have hFull : ¬ l.length ≠ configLineLen := not_not.mpr (h.full l mem_cons_self)
    rw [cons_append, splitConfig, if_neg (by omega), if_neg hFull, ih _ hRest]
    rfl

/-- The receiver behind the last line of the configuration. -/
def received (n size : Nat) (buf : Bytes) : Receiver :=
  { state := .receiveConfig, contentLength := n, configBuf := some buf, recConfigSize := size,
    translated := [buf] }

/-- What follows on the last line of the configuration. -/
def close (n size : Nat) (buf : Bytes) (rest : List Bytes) : Reply :=
  match translate T mem found buf with
  | .accepted => run T mem found callocOk
      { received n size buf with state := .waitLastEmptyReturn } rest
  | ret => finish ret (received n size buf)

/-- Nothing has been stored or translated. -/
structure Fresh (r : Receiver) : Prop where
  translated : r.translated = []
  configBuf : r.configBuf = none ∨ r.configBuf = some []

/-- The call ends with an error before a line of the configuration. -/
def Refused (reply : Reply) : Prop :=
  ∃ ret r, reply = finish ret r ∧ ret ≠ .accepted ∧ ret ≠ .aborted ∧ Fresh r

variable {T mem found callocOk}

variable (T mem found callocOk)

theorem Announced.unique {n' : Nat} {lines rest' : List Bytes} (h : Announced n lines rest)
    (h' : Announced n' lines rest') : n' = n ∧ rest' = rest := by
  rcases h with ⟨lengthLine, hNumber, -, hLines⟩
  rcases h' with ⟨lengthLine', hNumber', -, hLines'⟩
  rw [hLines] at hLines'
  simp only [List.cons.injEq, true_and] at hLines'
  rw [← hLines'.1, hNumber] at hNumber'
  exact ⟨(Option.some.inj hNumber').symm, hLines'.2.symm⟩

theorem ConfigLines.unique {ls' rest' : List Bytes} {last' : Bytes} (h : ConfigLines n 0 ls last)
    (h' : ConfigLines n 0 ls' last') (hLines : ls' ++ last' :: rest' = ls ++ last :: rest) :
    ls' = ls ∧ last' = last ∧ rest' = rest := by
  have hSplit : splitConfig n 0 (ls ++ last :: rest) = some (ls, last, rest) :=
    splitConfig_of_configLines ls 0 h
  have hSplit' : splitConfig n 0 (ls' ++ last' :: rest') = some (ls', last', rest') :=
    splitConfig_of_configLines ls' 0 h'
  rw [hLines, hSplit] at hSplit'
  simp only [Option.some.injEq, Prod.mk.injEq] at hSplit'
  exact ⟨hSplit'.1.symm, hSplit'.2.1.symm, hSplit'.2.2.symm⟩

section

variable {T mem found} {lines : List Bytes}

end

variable {lines : List Bytes}

/-- A reply whose lines are not taken for a configuration, or that is not received at all. -/
structure Unfinished (reply : Reply) : Prop where
  bounded : ∀ buf, reply.receiver.configBuf = some buf → buf.length ≤ reply.receiver.contentLength
  translated : reply.receiver.translated = []
  refused : reply.ret ≠ .accepted
  freed : reply.frees = if reply.receiver.configBuf.isSome then 1 else 0

theorem unfinished_finish {ret : Ret} {r : Receiver} (hRefused : ret ≠ .accepted)
    (hRet : ret ≠ .aborted) (hTranslated : r.translated = [])
    (hBounded : ∀ buf, r.configBuf = some buf → buf.length ≤ r.contentLength) :
    Unfinished (finish ret r) :=
  ⟨hBounded, hTranslated, hRefused, if_neg hRet⟩

theorem Refused.unfinished {reply : Reply} (h : Refused reply) : Unfinished reply := by
  rcases h with ⟨ret, r, hReply, hRefused, hRet, hFresh⟩
  rw [hReply]
  refine unfinished_finish hRefused hRet hFresh.translated ?_
  intro buf hBuf
  rcases hFresh.configBuf with hNone | hEmpty
  · rw [hNone] at hBuf
    cases hBuf
  · rw [hEmpty] at hBuf
    rw [← Option.some.inj hBuf]
    exact Nat.zero_le _

end IClaustron.Config.ReplyReceiver
