import IClaustron.Protocol.Connection
import Mathlib.Data.Nat.Digits.Defs

/-!
# Protocol.Messages — lines of the management protocols

Model of the functions of comm/ic_protocol_support.c that send and receive one
line, and of the conversions of numbers in util/ic_string.c. A string is given by
its bytes up to the NUL; `cStr` is what strlen and memcpy see of it.

A sender collects lines in its write buffer and hands the buffer over to
ic_write_connection when the next line does not fit, or after an empty line. `wire`
is what has been handed over so far; that writing fails is not modelled.
-/

namespace IClaustron.Protocol

open Lib

def ascii (s : String) : Bytes := s.toList.map fun ch => UInt8.ofNat ch.toNat

/-- SPACE_CHAR. -/
def spaceChar : UInt8 := 32
/-- COMMAND_READ_BUF_SIZE. -/
def commandReadBufSize : Nat := 2048
/-- IC_MAX_UINT32. -/
def maxUint32 : Nat := 2 ^ 32 - 1
/-- IC_ERROR_MEM_ALLOC. -/
def errorMemAlloc : Nat := 7005

def trueStr : Bytes := ascii "true"
def falseStr : Bytes := ascii "false"

/-- The C string in a buffer. -/
def cStr (s : Bytes) : Bytes := s.takeWhile (· ≠ 0)

/-! ## Numbers -/

/-- `ic_guint64_str`. -/
def guint64Str (val : Nat) : Bytes :=
  if val = 0 then [48] else (Nat.digits 10 val).reverse.map fun d => UInt8.ofNat (48 + d)

/-- ISSPACE of g_ascii_strtoull; g_ascii_isspace does not have byte 11. -/
def isSpace (c : UInt8) : Bool := c = 32 ∨ c = 9 ∨ c = 10 ∨ c = 12 ∨ c = 13 ∨ c = 11

def isDigit (c : UInt8) : Bool := 48 ≤ c ∧ c ≤ 57

def digitsVal (ds : Bytes) : Nat := ds.foldl (fun val d => val * 10 + (d.toNat - 48)) 0

/-- g_ascii_strtoull with base 10: the number, and how many bytes it takes. -/
def asciiStrtoull (str : Bytes) : Nat × Nat :=
  let space := str.takeWhile isSpace
  let str := str.drop space.length
  let sign := if str.head? = some 45 ∨ str.head? = some 43 then 1 else 0
  let digits := (str.drop sign).takeWhile isDigit
  if digits = [] then (0, 0)
  else
    let size := space.length + sign + digits.length
    if 2 ^ 64 ≤ digitsVal digits then (2 ^ 64 - 1, size)
    else if str.head? = some 45 then ((2 ^ 64 - digitsVal digits) % 2 ^ 64, size)
    else (digitsVal digits, size)

/-- `ic_convert_str_to_int_fixed_size`, with `none` for TRUE. The bytes behind the
line are not looked at: the first of them is the line end, and a number that is
found behind it does not end where the line does. -/
def convertStrToIntFixedSize (str : Bytes) : Option Nat :=
  if str.length = 0 then none
  else
    let (number, size) := asciiStrtoull str
    if size = str.length then
      if number ≠ 0 ∨ (str.length = 1 ∧ str.head? = some 48) then some number else none
    else none

/-! ## Sending -/

/-- The part of `IC_INT_CONNECTION` that is used to send lines; `writeBuf` are the
first `write_buf_pos` bytes of the buffer. -/
structure Writer where
  writeBufSize : Nat
  writeBuf : Bytes
  wire : Bytes
  deriving DecidableEq

def Writer.create (writeBufSize : Nat) : Writer := ⟨writeBufSize, [], []⟩

/-- `flush_connection`, and the write of a full buffer. -/
def Writer.flush (w : Writer) : Writer := { w with writeBuf := [], wire := w.wire ++ w.writeBuf }

/-- `ic_send_with_cr`. `none` when the assertion fails. -/
def sendWithCr (w : Writer) (sendBuf : Bytes) : Option Writer :=
  let str := cStr sendBuf
  if str.length + 1 < w.writeBufSize then
    let w := if w.writeBufSize < w.writeBuf.length + str.length + 1 then w.flush else w
    some { w with writeBuf := w.writeBuf ++ str ++ [carriageReturn] }
  else none

/-- `ic_send_with_cr_with_number`; `g_snprintf` cuts the line to 127 bytes. -/
def sendWithCrWithNumber (w : Writer) (inBuf : Bytes) (number : Nat) : Option Writer :=
  sendWithCr w ((cStr inBuf ++ [spaceChar] ++ guint64Str number).take 127)

/-- `ic_send_with_cr_composed`. Every string takes one byte more in `local_buf`; a
longer line is written over the end of the array, for which the model has `none`. -/
def sendWithCrComposed (w : Writer) (bufs : List Bytes) : Option Writer :=
  if (bufs.map fun buf => (cStr buf).length + 1).sum ≤ commandReadBufSize then
    sendWithCr w ([spaceChar].intercalate (bufs.map cStr))
  else none

/-- `ic_send_with_cr_two_strings`. -/
def sendWithCrTwoStrings (w : Writer) (buf1 buf2 : Bytes) : Option Writer :=
  sendWithCrComposed w [buf1, buf2]

/-- `ic_send_empty_line`. -/
def sendEmptyLine (w : Writer) : Option Writer := (sendWithCr w []).map Writer.flush

/-! ## Receiving -/

/-- Why a receiver does not return 0. -/
inductive Stop where
  | error (code : Nat)
  /-- ic_rec_with_cr is still waiting -/
  | waiting
  /-- an ic_require fails -/
  | abort
  deriving DecidableEq

def recLine (s : Sock) : Except Stop (Bytes × Sock) :=
  match recWithCr s with
  | .line l s => .ok (l, s)
  | .error code _ => .error (.error code)
  | .waiting => .error .waiting

/-- `ic_rec_simple_str_impl`. The line is put back when it is another one, also when it
was not optional. -/
def recSimpleStrImpl (str : Bytes) (optional : Bool) (s : Sock) : Except Stop (Bool × Sock) := do
  let (line, s) ← recLine s
  if line ≠ str then
    let s := stepBackRecWithCr s line.length
    if optional then pure (false, s) else throw (.error protocolError)
  else pure (true, s)

/-- `ic_rec_simple_str`. -/
def recSimpleStr (str : Bytes) (s : Sock) : Except Stop Sock := do
  let (_, s) ← recSimpleStrImpl str false s
  pure s

/-- `ic_rec_simple_str_opt`. -/
def recSimpleStrOpt (str : Bytes) (s : Sock) : Except Stop (Bool × Sock) :=
  recSimpleStrImpl str true s

/-- `ic_rec_empty_line`. -/
def recEmptyLine (s : Sock) : Except Stop Sock := recSimpleStr [] s

/-- Where the value begins: at most one space behind the key word is skipped. -/
def valuePos (word line : Bytes) : Nat :=
  if line.getD word.length 0 = spaceChar then word.length + 1 else word.length

/-- `mc_rec_string_impl`. `mem` tells whether the memory container has room. -/
def mcRecStringImpl (mem : Bool) (word line : Bytes) : Except Stop Bytes :=
  if word.length = 0 then throw .abort
  else if line.length < word.length + 1 then throw (.error protocolError)
  else if line.take word.length ≠ word then throw (.error protocolError)
  else if mem then pure (line.drop (valuePos word line))
  else throw (.error errorMemAlloc)

/-- `ic_mc_rec_string`. -/
def mcRecString (mem : Bool) (word : Bytes) (s : Sock) : Except Stop (Bytes × Sock) := do
  let (line, s) ← recLine s
  let str ← mcRecStringImpl mem word line
  pure (str, s)

/-- `ic_mc_rec_opt_string`. Only an empty line is put back. -/
def mcRecOptString (mem : Bool) (word : Bytes) (s : Sock) : Except Stop (Option Bytes × Sock) := do
  let (line, s) ← recLine s
  if line.length = 0 then pure (none, stepBackRecWithCr s line.length)
  else
    let str ← mcRecStringImpl mem word line
    pure (some str, s)

/-- `ic_rec_boolean`. -/
def recBoolean (word : Bytes) (s : Sock) : Except Stop (Bool × Sock) := do
  let (line, s) ← recLine s
  if line.length < word.length + 1 then throw (.error protocolError)
  else if line.take word.length ≠ word then throw (.error protocolError)
  else
    let value := line.drop (valuePos word line)
    if value = trueStr then pure (true, s)
    else if value = falseStr then pure (false, s)
    else throw (.error protocolError)

/-- `ic_check_buf_with_int`, with `none` for TRUE. -/
def checkBufWithInt (line word : Bytes) : Option Nat :=
  if line.length < word.length + 1 ∨ line.take word.length ≠ word then none
  else convertStrToIntFixedSize (line.drop (valuePos word line))

/-- `ic_rec_long_number`. -/
def recLongNumber (word : Bytes) (s : Sock) : Except Stop (Nat × Sock) := do
  let (line, s) ← recLine s
  match checkBufWithInt line word with
  | some number => pure (number, s)
  | none => throw (.error protocolError)

/-- `ic_rec_number_impl`. `none` when the line was put back, and the number of the
caller is as it was. -/
def recNumberImpl (word : Bytes) (optional : Bool) (s : Sock) :
    Except Stop (Option Nat × Sock) := do
  let (line, s) ← recLine s
  match checkBufWithInt line word with
  | some number =>
    if maxUint32 ≤ number then throw (.error protocolError) else pure (some number, s)
  | none =>
    if optional then pure (none, stepBackRecWithCr s line.length)
    else throw (.error protocolError)

/-- `ic_rec_opt_number`. -/
def recOptNumber (word : Bytes) (s : Sock) : Except Stop (Option Nat × Sock) :=
  recNumberImpl word true s

end IClaustron.Protocol
