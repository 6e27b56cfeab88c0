import IClaustron.Pcntrl.Commands
import Mathlib.Data.Nat.Digits.Defs

/-!
# Pcntrl.Listing — the list command and its messages

Model of handle_list in pcntrl/ic_pcntrl.c and of what it uses of
comm/ic_protocol_support.c. A connection is a sequence of lines in either
direction; the CR at the end of a line is not part of it. Both buffers of the
connection have CONFIG_READ_BUF_SIZE bytes, and a line has to fit into them.

The strings of an entry are sent as C strings, up to their first NUL.
-/

namespace IClaustron.Pcntrl

open Lib DynArray

def ascii (s : String) : Str := s.toList.map fun ch => UInt8.ofNat ch.toNat

/-! ## Protocol strings -/

def gridStr : Str := ascii "grid:"
def clusterStr : Str := ascii "cluster:"
def nodeStr : Str := ascii "node:"
def programStr : Str := ascii "program:"
def versionStr : Str := ascii "version:"
def startTimeStr : Str := ascii "start time:"
def pidStr : Str := ascii "pid:"
def numParametersStr : Str := ascii "num parameters:"
def parameterStr : Str := ascii "parameter:"
def listNodeStr : Str := ascii "list node"
def listNextStr : Str := ascii "list next"
def listStopStr : Str := ascii "list stop"
def errorStr : Str := ascii "Error"

/-- IC_ERROR_RECEIVE_TIMEOUT. -/
def errorReceiveTimeout : Nat := 7039
/-- IC_END_OF_FILE. -/
def endOfFile : Nat := 7043
/-- IC_PROTOCOL_ERROR. -/
def protocolError : Nat := 7044

/-- `ic_get_error_message`, for the codes that handle_list can meet. -/
def getErrorMessage (code : Nat) : Str :=
  if code = errorMemAlloc then ascii "Memory allocation failure"
  else if code = errorReceiveTimeout then
    ascii "Timeout in receiving line in NDB Management Protocol"
  else if code = endOfFile then ascii "Unexpected end of file"
  else if code = protocolError then ascii "Protocol error in NDB MGM Protocol"
  else if code = errorIndexOutOfBound then ascii "Index out of bound in dynamic pointer array"
  else if code = errorIndexError then
    ascii "Trying to read non-existent entry in dynamic pointer array"
  else ascii "No such error"

/-! ## Receiving -/

/-- CONFIG_READ_BUF_SIZE, the size of the read and of the write buffer. -/
def configReadBufSize : Nat := 256

/-- `ic_rec_with_cr`: the next line, and the lines behind it. When a line does not
fit into the buffer the next read has no room, which is taken for the end of the
connection. -/
def recWithCr : List Str → Except Nat (Str × List Str)
  | [] => throw errorReceiveTimeout
  | line :: rest => if line.length < configReadBufSize then pure (line, rest) else throw endOfFile

/-- `ic_rec_empty_line`. -/
def recEmptyLine (input : List Str) : Except Nat (List Str) := do
  let (line, rest) ← recWithCr input
  if line = [] then pure rest else throw protocolError

/-- `mc_rec_string_impl`: what follows the key word and at most one space. -/
def mcRecStringImpl (mem : Bool) (word line : Str) : Except Nat Str :=
  if line.length < word.length + 1 then throw protocolError
  else if line.take word.length ≠ word then throw protocolError
  else
    let len := if line.getD word.length 0 = 32 then word.length + 1 else word.length
    if mem then pure (line.drop len) else throw errorMemAlloc

/-- `ic_mc_rec_opt_string`: an empty line is put back. -/
def mcRecOptString (mem : Bool) (word : Str) (input : List Str) :
    Except Nat (Option Str × List Str) := do
  let (line, rest) ← recWithCr input
  if line = [] then pure (none, input)
  else
    let s ← mcRecStringImpl mem word line
    pure (some s, rest)

/-- The label `end` of `rec_opt_key_message`. -/
def recKeyEnd (find : PcFind) (input : List Str) : Except Nat (PcFind × List Str) := do
  let rest ← recEmptyLine input
  pure (find, rest)

/-- `rec_opt_key_message`. `mem i` is the outcome of its allocation number `i`. -/
def recOptKeyMessage (mem : Nat → Bool) (input : List Str) : Except Nat (PcFind × List Str) := do
  if ¬ mem 0 then throw errorMemAlloc
  let (grid, input) ← mcRecOptString (mem 1) gridStr input
  if (grid.getD []).length = 0 then recKeyEnd ⟨grid, none, none⟩ input
  else
    let (cluster, input) ← mcRecOptString (mem 2) clusterStr input
    if (cluster.getD []).length = 0 then recKeyEnd ⟨grid, cluster, none⟩ input
    else
      let (node, input) ← mcRecOptString (mem 3) nodeStr input
      recKeyEnd ⟨grid, cluster, node⟩ input

/-! ## Sending -/

/-- The C string in a buffer. -/
def cStr (s : Str) : Str := s.takeWhile (· ≠ 0)

/-- `ic_guint64_str`. -/
def guint64Str (val : Nat) : Str :=
  if val = 0 then [48] else (Nat.digits 10 val).reverse.map fun d => UInt8.ofNat (48 + d)

/-- Calls of `ic_send_with_cr`. A line that is too long fails the assertion there. -/
def sendLines : List Str → Except Stop (List Str)
  | [] => pure []
  | line :: lines =>
    if line.length + 1 < configReadBufSize then do
      let rest ← sendLines lines
      pure (line :: rest)
    else throw .require

/-- The line of `ic_send_with_cr_two_strings`. -/
def twoStrings (word s : Str) : Str := word ++ 32 :: cStr s

/-- The line of `ic_send_with_cr_with_number`. -/
def withNumber (word : Str) (number : Nat) : Str := word ++ 32 :: guint64Str number

/-- The lines of `send_list_entry`, the empty line included. -/
def listEntryLines (c : PcStart) (listFull : Bool) : List Str :=
  [listNodeStr,
    twoStrings programStr c.programName,
    twoStrings versionStr c.versionString,
    twoStrings gridStr c.key.gridName,
    twoStrings clusterStr c.key.clusterName,
    twoStrings nodeStr c.key.nodeName,
    withNumber startTimeStr c.startId,
    withNumber pidStr c.pid,
    withNumber numParametersStr c.parameters.length] ++
  (if listFull then c.parameters.map (twoStrings parameterStr) else []) ++
  [[]]

/-- `send_list_entry`. -/
def sendListEntry (c : PcStart) (listFull : Bool) : Except Stop (List Str) :=
  sendLines (listEntryLines c listFull)

/-- `ic_send_list_stop`. -/
def sendListStop : Except Stop (List Str) := sendLines [listStopStr, []]

/-- `ic_send_error_message`. -/
def sendErrorMessage (ret : Nat) : Except Stop (List Str) :=
  sendLines [errorStr, getErrorMessage ret, []]

/-! ## handle_list -/

/-- The loop of `handle_list` over the copies: the lines sent, and the error code
when the client does not answer as it should. -/
def sendEntries (listFull : Bool) : List PcStart → (input : List Str) →
    Except Stop (List Str × Option Nat)
  | [], _ => pure ([], none)
  | c :: cs, input => do
    let out ← sendListEntry c listFull
    match recWithCr input with
    | .error _ =>
      -- the code is dropped, and `ic_rec_empty_line` meets the same error
      pure (out, some protocolError)
    | .ok (line, input) =>
      if line ≠ listStopStr ∧ line ≠ listNextStr then pure (out, some protocolError)
      else
        match recEmptyLine input with
        | .error _ => pure (out, some protocolError)
        | .ok input =>
          if line = listStopStr then pure (out, none)
          else
            let (rest, err) ← sendEntries listFull cs input
            pure (out ++ rest, err)

/-- `handle_list`, after the command line was read: the lines of the reply. -/
def handleList (w : World) (listFull : Bool) (mem copyOk : Nat → Bool) (input : List Str) :
    Except Stop (List Str) := do
  match recOptKeyMessage mem input with
  | .error ret => sendErrorMessage ret
  | .ok (find, input) =>
    match ← listEntries w find copyOk (getMaxIndex w.array) 0 with
    | .error ret => sendErrorMessage ret
    | .ok copies =>
      let (out, err) ← sendEntries listFull copies input
      match err with
      | some ret =>
        let msg ← sendErrorMessage ret
        pure (out ++ msg)
      | none =>
        let stop ← sendListStop
        pure (out ++ stop)

end IClaustron.Pcntrl
