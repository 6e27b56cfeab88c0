import IClaustron.Pcntrl.CopyFiles
import IClaustron.Pcntrl.ListReply
import IClaustron.Protocol.RoundTrip

/-!
# Pcntrl.SendFile — sending a file line by line

Model of ic_proto_send_file in protocol/ic_pcntrl_proto.c with ic_count_lines and ic_get_next_line
of util/ic_string.c, against the receiver of `Pcntrl.CopyFiles`.

* `sendFileLines_last` — a last line that is not ended is never sent;
* `send_file_iff` — a file makes the round trip if and only if it ends with a line end and its
  lines can be counted.

Scope limits: the file has been read. The name fits into `file_buf`, and no send fails.
-/

namespace IClaustron.Pcntrl.SendFile

open Lib CopyFiles List
open Protocol (spaceChar)

/-! ## Model -/

def receiveStr : Str := ascii "receive "

/-- IC_MAX_CONFIG_LINE_LEN. -/
def maxConfigLineLen : Nat := 120
/-- IC_ERROR_LINE_TOO_LONG. -/
def lineTooLong : Nat := 7000

/-- The loop of `ic_count_lines`, with `last_carriage_return` and `lines`. -/
def countLinesLoop : Nat → Str → Nat × Nat → Nat × Nat
  | _, [], acc => acc
  | i, ch :: str, (last, lines) =>
    countLinesLoop (i + 1) str (if ch = carriageReturn then (i, lines + 1) else (last, lines))

/-- `ic_count_lines`. `last_carriage_return` is not set before the loop, and `garbage` is what its
memory holds. -/
def countLines (garbage : UInt64) (str : Str) : Nat :=
  let (last, lines) := countLinesLoop 0 str (garbage.toNat, 0)
  if (last + 1) % 2 ^ 64 ≠ str.length then lines + 1 else lines

/-- The loop of `ic_get_next_line`: whether a line end was found, and what is in the buffer. The
first list is the memory from `loc_str` on. It stops when it reads behind this memory or writes
behind the buffer. -/
def nextLineLoop (bufSize : Nat) : Nat → Str → Str → Except Protocol.Stop (Bool × Str)
  | 0, _, buf => pure (false, buf)
  | _ + 1, [], _ => throw .abort
  | left + 1, ch :: locStr, buf =>
    if ch = carriageReturn then pure (true, buf)
    else if buf.length < bufSize then nextLineLoop bufSize left locStr (buf ++ [ch])
    else throw .abort

/-- `ic_get_next_line`: the line, and the memory and the size that are left. -/
def getNextLine (locStr : Str) (size bufSize : Nat) : Except Protocol.Stop (Str × Str × Nat) := do
  let (found, buf) ← nextLineLoop bufSize (max size (bufSize - 1)) locStr []
  if found ∨ buf.length = size then
    if buf.length < bufSize then
      pure (buf, locStr.drop (buf.length + 1), (size + 2 ^ 64 - (buf.length + 1)) % 2 ^ 64)
    else throw .abort
  else throw (.error lineTooLong)

/-- `ic_send_with_cr`. -/
def sendLine (line : Str) : Except Protocol.Stop Str :=
  if (cStr line).length + 1 < configReadBufSize then pure (cStr line) else throw .abort

variable {l last locStr : Str} {size : Nat} {ls : List Str}

/-- A line is taken off the memory. -/
theorem getNextLine_rest {buf rest : Str} {size' bufSize : Nat} (hSize : 0 < size)
    (h : getNextLine locStr size bufSize = .ok (buf, rest, size')) :
    rest.length < locStr.length := by
  unfold getNextLine at h
  rcases locStr with _ | ⟨ch, locStr⟩
  · obtain ⟨n, hn⟩ := Nat.exists_eq_add_of_lt
      (lt_of_lt_of_le hSize (le_max_left size (bufSize - 1)))
    rw [Nat.zero_add] at hn
    rw [hn] at h
    cases h
  · cases hLoop : nextLineLoop bufSize (max size (bufSize - 1)) (ch :: locStr) [] with
    | error e =>
      rw [hLoop] at h
      cases h
    | ok r =>
      obtain ⟨found, buf'⟩ := r
      rw [hLoop] at h
      dsimp only [bind, Except.bind] at h
      split_ifs at h
      cases h
      rw [drop_succ_cons, length_drop, length_cons]
      omega

/-- The loop of `ic_proto_send_file`: the lines, and what is left of `num_lines`. -/
def sendFileLines (locStr : Str) (size numLines : Nat) : Except Protocol.Stop (List Str × Nat) :=
  if _hSize : 0 < size then
    match _hLine : getNextLine locStr size (maxConfigLineLen + 1) with
    | .error e => throw e
    | .ok (buf, rest, size') => do
      let line ← sendLine buf
      let (lines, numLines) ← sendFileLines rest size' ((numLines + 2 ^ 64 - 1) % 2 ^ 64)
      pure (line :: lines, numLines)
  else pure ([], numLines)
termination_by locStr.length
decreasing_by exact getNextLine_rest _hSize _hLine

/-- `ic_proto_send_file`, from the content of the file. `ic_get_file_contents` puts a NUL behind
it. -/
def icProtoSendFile (garbage : UInt64) (fileName content : Str) :
    Except Protocol.Stop (List Str) := do
  let name ← sendLine (receiveStr ++ fileName)
  let numLines := countLines garbage content
  let count ← sendLine (numberOfLinesStr ++ spaceChar :: Protocol.guint64Str numLines)
  let (lines, numLines) ← sendFileLines (content ++ [0]) content.length numLines
  if numLines ≠ 0 then throw .abort
  let empty ← sendLine []
  pure (name :: count :: lines ++ [empty])

/-! ## The property -/

/-- A name, on one line, that fits into `file_buf` behind "receive ". -/
structure FileName where
  name : Str
  noNul : 0 ∉ name
  noEnd : carriageReturn ∉ name
  fits : (receiveStr ++ name).length + 1 < configReadBufSize

/-- The content of a configuration file. -/
structure ConfigText where
  text : Str
  noNul : 0 ∉ text
  short : ∀ line ∈ text.splitOn carriageReturn, line.length ≤ maxConfigLineLen
  size : text.length < 2 ^ 64

/-- The text with its last line ended. -/
def terminated (text : Str) : Str :=
  if text = [] ∨ text.getLast? = some carriageReturn then text else text ++ [carriageReturn]

/-- The receiver takes the whole message, and writes this file. -/
def ReceivedAs (configDir : Nat → Str) (fileName : Str) (message : List Str) (text : Str) : Prop :=
  ∀ nodeId h rest, Stored h → h.replies = [] → h.input = message ++ rest →
    ∃ h', receiveCluster configDir nodeId h = .ok () h' ∧ h'.input = rest ∧
      h'.files (configDir nodeId ++ cStr fileName) = some text

/-- The file is sent with the count of its lines, and received as it was. -/
def RoundTrip (configDir : Nat → Str) (garbage : UInt64) (fileName : FileName)
    (content : ConfigText) : Prop :=
  ∃ name lines, icProtoSendFile garbage fileName.name content.text =
      .ok (name :: (numberOfLinesStr ++ spaceChar :: Protocol.guint64Str lines.length) ::
        lines ++ [[]]) ∧
    ReceivedAs configDir fileName.name
      (name :: (numberOfLinesStr ++ spaceChar :: Protocol.guint64Str lines.length) :: lines ++ [[]])
      (terminated content.text)

/-- The last line is ended, or there is none and the memory of `last_carriage_return` happens to
hold the highest number; and `ic_rec_number` takes the number of lines. -/
def Sendable (garbage : UInt64) (text : Str) : Prop :=
  (text.getLast? = some carriageReturn ∨ text = [] ∧ garbage.toNat + 1 = 2 ^ 64) ∧
    text.count carriageReturn < Protocol.maxUint32

/-! ## Counting -/

theorem countLinesLoop_plain (hl : carriageReturn ∉ l) (i : Nat) (str : Str) (acc : Nat × Nat) :
    countLinesLoop i (l ++ str) acc = countLinesLoop (i + l.length) str acc := by
  induction l generalizing i with
  | nil => rfl
  | cons ch l ih =>
    rw [mem_cons, not_or] at hl
    obtain ⟨last, lines⟩ := acc
    rw [cons_append, countLinesLoop, if_neg (Ne.symm hl.1), ih hl.2, length_cons]
    congr 1
    omega

/-- Every line end is counted, and the last one is remembered. -/
theorem countLinesLoop_unlines (hls : ∀ l ∈ ls, carriageReturn ∉ l) (str : Str)
    (i last lines : Nat) :
    ∃ last', countLinesLoop i (unlines carriageReturn ls ++ str) (last, lines) =
        countLinesLoop (i + (unlines carriageReturn ls).length) str (last', lines + ls.length) ∧
      last' = if ls = [] then last else i + (unlines carriageReturn ls).length - 1 := by
  induction ls generalizing i last lines with
  | nil => exact ⟨last, rfl, rfl⟩
  | cons l ls ih =>
    rw [forall_mem_cons] at hls
    obtain ⟨last', hLoop, hLast⟩ := ih hls.2 (i + l.length + 1) (i + l.length) (lines + 1)
    refine ⟨last', ?_, ?_⟩
    · rw [unlines_cons, append_assoc, countLinesLoop_plain hls.1, cons_append,
        countLinesLoop, if_pos rfl, hLoop, length_append, length_cons, length_cons]
      have hPos : i + l.length + 1 + (unlines carriageReturn ls).length =
          i + (l.length + ((unlines carriageReturn ls).length + 1)) := by omega
      have hCount : lines + 1 + ls.length = lines + (ls.length + 1) := by omega
      rw [hPos, hCount]
    · rw [hLast, if_neg (cons_ne_nil l ls), unlines_cons, length_append, length_cons]
      split_ifs with hNil
      · rw [hNil, unlines_nil, length_nil]
        omega
      · omega

/-- A text that ends with a line end has as many lines as line ends. -/
theorem countLines_unlines (garbage : UInt64) (hls : ∀ l ∈ ls, carriageReturn ∉ l)
    (hSize : (unlines carriageReturn ls).length < 2 ^ 64) :
    countLines garbage (unlines carriageReturn ls) =
      if ls = [] ∧ garbage.toNat + 1 ≠ 2 ^ 64 then 1 else ls.length := by
  obtain ⟨last', hLoop, hLast⟩ := countLinesLoop_unlines hls [] 0 garbage.toNat 0
  rw [append_nil, countLinesLoop] at hLoop
  unfold countLines
  rw [hLoop, hLast]
  dsimp only
  have hGarbage : garbage.toNat < 2 ^ 64 := garbage.toNat_lt
  rcases ls with _ | ⟨l, ls⟩
  · simp only [if_true, unlines_nil, length_nil, true_and, Nat.zero_add]
    have hWrap : (garbage.toNat + 1) % 2 ^ 64 ≠ 0 ↔ garbage.toNat + 1 ≠ 2 ^ 64 := by omega
    split_ifs
    · rfl
    · omega
    · omega
    · rfl
  · have hPos : 0 < (unlines carriageReturn (l :: ls)).length := by
      rw [unlines_cons, length_append, length_cons]
      omega
    rw [if_neg (cons_ne_nil l ls), Nat.zero_add, Nat.sub_add_cancel hPos,
      Nat.mod_eq_of_lt hSize, if_neg (not_not.mpr rfl), Nat.zero_add, if_neg]
    exact fun h => cons_ne_nil l ls h.1

/-! ## Lines that are ended -/

theorem nextLineLoop_line (hl : carriageReturn ∉ l) (rest buf : Str) {left bufSize : Nat}
    (hLeft : l.length < left) (hBuf : buf.length + l.length ≤ bufSize) :
    nextLineLoop bufSize left (l ++ carriageReturn :: rest) buf = .ok (true, buf ++ l) := by
  induction l generalizing left buf with
  | nil =>
    obtain ⟨left, rfl⟩ := Nat.exists_eq_add_of_lt hLeft
    rw [nil_append, nextLineLoop, if_pos rfl, append_nil]
    rfl
  | cons ch l ih =>
    rw [mem_cons, not_or] at hl
    rw [length_cons] at hLeft hBuf
    obtain ⟨left, rfl⟩ := Nat.exists_eq_add_of_lt hLeft
    rw [cons_append, nextLineLoop, if_neg (Ne.symm hl.1), if_pos (by omega), ih hl.2,
      append_assoc]
    · rfl
    · omega
    · rw [length_append, length_singleton]
      omega

theorem getNextLine_line (hl : carriageReturn ∉ l) (hShort : l.length ≤ maxConfigLineLen)
    (rest : Str) (hSize : size + l.length + 1 < 2 ^ 64) :
    getNextLine (l ++ carriageReturn :: rest) (size + l.length + 1) (maxConfigLineLen + 1) =
      .ok (l, rest, size) := by
  unfold getNextLine
  have hBuf : l.length < maxConfigLineLen + 1 := Nat.lt_succ_of_le hShort
  rw [nextLineLoop_line hl rest [] (by omega) (by simpa using hBuf.le)]
  dsimp only [bind, Except.bind, nil_append]
  rw [if_pos (Or.inl rfl), if_pos hBuf, drop_length_add_append]
  have hRest : (size + l.length + 1 + 2 ^ 64 - (l.length + 1)) % 2 ^ 64 = size := by omega
  rw [hRest]
  rfl

theorem sendLine_of_fits {line : Str} (hNul : 0 ∉ line)
    (hFits : line.length + 1 < configReadBufSize) : sendLine line = .ok line := by
  unfold sendLine
  rw [cStr_of_no_nul hNul, if_pos hFits]
  rfl

theorem sendFileLines_nil (locStr : Str) (numLines : Nat) :
    sendFileLines locStr 0 numLines = .ok ([], numLines) := by
  rw [sendFileLines, dif_neg (lt_irrefl 0)]
  rfl

theorem sendFileLines_of_ok {buf rest : Str} {size' : Nat} (hSize : 0 < size)
    (h : getNextLine locStr size (maxConfigLineLen + 1) = .ok (buf, rest, size')) (numLines : Nat) :
    sendFileLines locStr size numLines = (do
      let line ← sendLine buf
      let (lines, numLines) ← sendFileLines rest size' ((numLines + 2 ^ 64 - 1) % 2 ^ 64)
      pure (line :: lines, numLines)) := by
  rw [sendFileLines, dif_pos hSize]
  split
  · rename_i e hLine
    rw [h] at hLine
    cases hLine
  · rename_i buf' rest' size'' hLine
    rw [h] at hLine
    cases hLine
    rfl

theorem sendFileLines_of_error {e : Protocol.Stop} (hSize : 0 < size)
    (h : getNextLine locStr size (maxConfigLineLen + 1) = .error e) (numLines : Nat) :
    sendFileLines locStr size numLines = .error e := by
  rw [sendFileLines, dif_pos hSize]
  split
  · rename_i e' hLine
    rw [h] at hLine
    cases hLine
    rfl
  · rename_i buf' rest' size'' hLine
    rw [h] at hLine
    cases hLine

/-- A line of a configuration file. -/
structure TextLine (l : Str) : Prop where
  noNul : 0 ∉ l
  noEnd : carriageReturn ∉ l
  short : l.length ≤ maxConfigLineLen

theorem TextLine.fits (hl : TextLine l) : l.length + 1 < configReadBufSize := by
  have hShort := hl.short
  have hMax : maxConfigLineLen + 1 < configReadBufSize := by decide
  omega

/-- The lines that are ended are sent, and counted down. -/
theorem sendFileLines_unlines (hls : ∀ l ∈ ls, TextLine l) (last rest : Str) (numLines : Nat)
    (hSize : (unlines carriageReturn ls ++ last).length < 2 ^ 64)
    (hCount : ls.length + numLines < 2 ^ 64) :
    sendFileLines (unlines carriageReturn ls ++ (last ++ rest))
        (unlines carriageReturn ls ++ last).length (ls.length + numLines) = (do
      let (lines, numLines) ← sendFileLines (last ++ rest) last.length numLines
      pure (ls ++ lines, numLines)) := by
  induction ls with
  | nil =>
    rw [unlines_nil, nil_append, nil_append, length_nil, Nat.zero_add]
    cases sendFileLines (last ++ rest) last.length numLines <;> rfl
  | cons l ls ih =>
    rw [forall_mem_cons] at hls
    have hLength : (unlines carriageReturn (l :: ls) ++ last).length =
        (unlines carriageReturn ls ++ last).length + l.length + 1 := by
      simp only [unlines_cons, length_append, length_cons]
      omega
    rw [hLength] at hSize ⊢
    have hNext := getNextLine_line hls.1.noEnd hls.1.short
      (unlines carriageReturn ls ++ (last ++ rest)) hSize
    rw [unlines_cons, append_assoc, cons_append,
      sendFileLines_of_ok (Nat.succ_pos _) hNext, sendLine_of_fits hls.1.noNul hls.1.fits]
    rw [length_cons] at hCount ⊢
    have hDown : (ls.length + 1 + numLines + 2 ^ 64 - 1) % 2 ^ 64 = ls.length + numLines := by omega
    rw [hDown]
    dsimp only [bind, Except.bind]
    rw [ih hls.2 (by omega) (by omega)]
    cases sendFileLines (last ++ rest) last.length numLines <;> rfl

/-! ## A last line that is not ended -/

theorem nextLineLoop_stops (bufSize : Nat) (hl : carriageReturn ∉ l) (buf : Str) {left : Nat}
    (hLeft : l.length < left) : ∃ e, nextLineLoop bufSize left l buf = .error e := by
  induction l generalizing left buf with
  | nil =>
    obtain ⟨left, rfl⟩ := Nat.exists_eq_add_of_lt hLeft
    exact ⟨_, rfl⟩
  | cons ch l ih =>
    rw [mem_cons, not_or] at hl
    obtain ⟨left, rfl⟩ := Nat.exists_eq_add_of_lt hLeft
    rw [nextLineLoop, if_neg (Ne.symm hl.1)]
    split_ifs
    · refine ih hl.2 _ ?_
      rw [length_cons]
      omega
    · exact ⟨_, rfl⟩

theorem nextLineLoop_take (bufSize left : Nat) (hl : carriageReturn ∉ l) (buf : Str)
    (hLeft : left ≤ l.length) (hBuf : buf.length + left ≤ bufSize) :
    nextLineLoop bufSize left l buf = .ok (false, buf ++ l.take left) := by
  induction l generalizing left buf with
  | nil =>
    obtain rfl := Nat.le_zero.mp hLeft
    rw [nextLineLoop, take_zero, append_nil]
    rfl
  | cons ch l ih =>
    rw [mem_cons, not_or] at hl
    rcases left with _ | left
    · rw [nextLineLoop, take_zero, append_nil]
      rfl
    · rw [nextLineLoop, if_neg (Ne.symm hl.1), if_pos (by omega), ih left hl.2, append_assoc]
      · rfl
      · exact Nat.le_of_succ_le_succ hLeft
      · rw [length_append, length_singleton]
        omega

theorem sendFileLines_nothing (hSize : 0 < size) (numLines : Nat) :
    ∃ e, sendFileLines [] size numLines = .error e := by
  have hLoop : nextLineLoop (maxConfigLineLen + 1) (max size (maxConfigLineLen + 1 - 1)) [] [] =
      .error .abort := by
    obtain ⟨n, hn⟩ := Nat.exists_eq_add_of_lt
      (lt_of_lt_of_le hSize (le_max_left size (maxConfigLineLen + 1 - 1)))
    rw [hn]
    rfl
  refine ⟨.abort, sendFileLines_of_error hSize ?_ numLines⟩
  unfold getNextLine
  rw [hLoop]
  rfl

/-- A last line that is not ended is not sent: the search for its end runs over the end of the
content, and of its memory, unless the line is as long as a line may be. -/
theorem sendFileLines_last (hLast : TextLine last) (hne : last ≠ []) (numLines : Nat) :
    ∃ e, sendFileLines (last ++ [0]) last.length numLines = .error e := by
  have hPos : 0 < last.length := length_pos_of_ne_nil hne
  have hShort := hLast.short
  have hMemory : carriageReturn ∉ last ++ [0] := by
    rw [mem_append, not_or]
    exact ⟨hLast.noEnd, by decide⟩
  have hLength : (last ++ [0]).length = last.length + 1 := length_append
  have hMax : max last.length (maxConfigLineLen + 1 - 1) = maxConfigLineLen := max_eq_right hShort
  by_cases hRoom : last.length + 1 < maxConfigLineLen
  · obtain ⟨e, hLoop⟩ := nextLineLoop_stops (maxConfigLineLen + 1) hMemory []
      (hLength ▸ hRoom)
    refine ⟨e, sendFileLines_of_error hPos ?_ numLines⟩
    unfold getNextLine
    rw [hMax, hLoop]
    rfl
  · have hLoop := nextLineLoop_take (maxConfigLineLen + 1) maxConfigLineLen hMemory []
      (by omega) (by simp)
    have hTake : ((last ++ [0]).take maxConfigLineLen).length = maxConfigLineLen := by
      rw [length_take, hLength]
      omega
    rw [nil_append] at hLoop
    by_cases hFull : last.length = maxConfigLineLen
    · have hNext : getNextLine (last ++ [0]) last.length (maxConfigLineLen + 1) =
          .ok ((last ++ [0]).take maxConfigLineLen, [], 2 ^ 64 - 1) := by
        unfold getNextLine
        rw [hMax, hLoop]
        dsimp only [bind, Except.bind]
        rw [hTake, if_pos (Or.inr hFull.symm), if_pos (Nat.lt_succ_self _), hFull,
          drop_of_length_le (by omega)]
        rfl
      obtain ⟨e, hRest⟩ := sendFileLines_nothing (show 0 < 2 ^ 64 - 1 by decide)
        ((numLines + 2 ^ 64 - 1) % 2 ^ 64)
      rw [sendFileLines_of_ok hPos hNext]
      cases sendLine ((last ++ [0]).take maxConfigLineLen) with
      | error e' => exact ⟨e', rfl⟩
      | ok line =>
        refine ⟨e, ?_⟩
        dsimp only [bind, Except.bind]
        rw [hRest]
    · refine ⟨.error lineTooLong, sendFileLines_of_error hPos ?_ numLines⟩
      unfold getNextLine
      rw [hMax, hLoop]
      dsimp only [bind, Except.bind]
      rw [hTake, if_neg]
      · rfl
      · rintro (h | h)
        · cases h
        · exact hFull h.symm

/-! ## The message -/

/-- No line end is missed. -/
theorem countLines_ge (garbage : UInt64) (hls : ∀ l ∈ ls, carriageReturn ∉ l)
    (hLast : carriageReturn ∉ last) :
    ∃ n ≤ 1, countLines garbage (unlines carriageReturn ls ++ last) = ls.length + n := by
  obtain ⟨last', hLoop, -⟩ := countLinesLoop_unlines hls last 0 garbage.toNat 0
  have hPlain := countLinesLoop_plain hLast (0 + (unlines carriageReturn ls).length) []
    (last', 0 + ls.length)
  rw [append_nil, countLinesLoop] at hPlain
  unfold countLines
  rw [hLoop, hPlain, Nat.zero_add]
  dsimp only
  split_ifs
  · exact ⟨1, le_rfl, rfl⟩
  · exact ⟨0, Nat.zero_le 1, rfl⟩

theorem length_le_unlines (ls : List Str) : ls.length ≤ (unlines carriageReturn ls).length := by
  rw [length_unlines]
  exact Nat.le_add_left _ _

/-- The line with the number of lines. -/
def countLine (n : Nat) : Str := numberOfLinesStr ++ spaceChar :: Protocol.guint64Str n

theorem sendLine_countLine {n : Nat} (hn : n < 2 ^ 64) :
    sendLine (countLine n) = .ok (countLine n) := by
  have hDigits : (Protocol.guint64Str n).length ≤ 20 :=
    Protocol.length_guint64Str_le (by decide) (hn.trans (by decide))
  refine sendLine_of_fits ?_ ?_
  · unfold countLine
    rw [mem_append, not_or, mem_cons, not_or]
    refine ⟨by decide, by decide, fun h0 => ?_⟩
    exact absurd (Protocol.mem_guint64Str h0).1 (by decide)
  · have hWord : numberOfLinesStr.length = 16 := by decide
    have hBuf : configReadBufSize = 256 := rfl
    unfold countLine
    rw [length_append, length_cons, hWord, hBuf]
    omega

/-- The lines of a text without an unfinished line are sent, if they are all that was counted. -/
theorem icProtoSendFile_unlines {garbage : UInt64} {fileName : FileName}
    (hls : ∀ l ∈ ls, TextLine l) (hSize : (unlines carriageReturn ls).length < 2 ^ 64) :
    icProtoSendFile garbage fileName.name (unlines carriageReturn ls) =
      if ls = [] ∧ garbage.toNat + 1 ≠ 2 ^ 64 then .error .abort
      else .ok ((receiveStr ++ fileName.name) :: countLine ls.length :: ls ++ [[]]) := by
  have hEnds : ∀ l ∈ ls, carriageReturn ∉ l := fun l hl => (hls l hl).noEnd
  have hName : sendLine (receiveStr ++ fileName.name) = .ok (receiveStr ++ fileName.name) := by
    refine sendLine_of_fits ?_ fileName.fits
    rw [mem_append, not_or]
    exact ⟨by decide, fileName.noNul⟩
  have hCount := countLines_unlines garbage hEnds hSize
  have hLength := length_le_unlines ls
  unfold icProtoSendFile
  rw [hName]
  dsimp only [bind, Except.bind]
  split_ifs at hCount ⊢ with hEmpty
  · -- the line that was counted is never sent
    obtain ⟨rfl, -⟩ := hEmpty
    rw [hCount]
    have hOne := sendLine_countLine (n := 1) (by decide)
    unfold countLine at hOne
    rw [hOne, unlines_nil, length_nil]
    dsimp only
    rw [sendFileLines_nil]
    rfl
  · have hSend := sendLine_countLine (lt_of_le_of_lt hLength hSize)
    have hLines := sendFileLines_unlines hls [] [0] 0 (by simpa using hSize)
      (by omega)
    unfold countLine at hSend
    rw [nil_append, append_nil, Nat.add_zero, length_nil,
      sendFileLines_nil] at hLines
    rw [hCount, hSend]
    dsimp only
    rw [hLines]
    dsimp only [bind, Except.bind, pure, Except.pure]
    rw [if_neg (not_not.mpr rfl), append_nil]
    rfl

/-- A text with an unfinished line cannot be sent. -/
theorem icProtoSendFile_unfinished (garbage : UInt64) (fileName : Str) (hls : ∀ l ∈ ls, TextLine l)
    (hLast : TextLine last) (hne : last ≠ [])
    (hSize : (unlines carriageReturn ls ++ last).length < 2 ^ 64) :
    ∃ e, icProtoSendFile garbage fileName (unlines carriageReturn ls ++ last) = .error e := by
  obtain ⟨n, hn, hCount⟩ := countLines_ge garbage (fun l hl => (hls l hl).noEnd)
    hLast.noEnd
  have hPos : 0 < last.length := length_pos_of_ne_nil hne
  have hLength := length_le_unlines ls
  have hBound : ls.length + n < 2 ^ 64 := by
    rw [length_append] at hSize
    omega
  obtain ⟨e, hStop⟩ := sendFileLines_last hLast hne n
  have hLines := sendFileLines_unlines hls last [0] n hSize hBound
  rw [hStop] at hLines
  unfold icProtoSendFile
  cases sendLine (receiveStr ++ fileName) with
  | error e' => exact ⟨e', rfl⟩
  | ok name =>
    dsimp only [bind, Except.bind]
    rw [hCount, append_assoc]
    cases sendLine (numberOfLinesStr ++ spaceChar :: Protocol.guint64Str (ls.length + n)) with
    | error e' => exact ⟨e', rfl⟩
    | ok count =>
      refine ⟨e, ?_⟩
      dsimp only
      rw [hLines]
      rfl

/-! ## The receiver -/

/-- The receiver takes the lines if it takes their number. -/
theorem receivedAs_iff (configDir : Nat → Str) {fileName : FileName} (hls : ∀ l ∈ ls, TextLine l)
    (hSize : (unlines carriageReturn ls).length < 2 ^ 64) :
    ReceivedAs configDir fileName.name
        ((receiveStr ++ fileName.name) :: countLine ls.length :: ls ++ [[]])
        (unlines carriageReturn ls) ↔ ls.length < Protocol.maxUint32 := by
  have hLength : ls.length < 2 ^ 64 := lt_of_le_of_lt (length_le_unlines ls) hSize
  have hCheck : Protocol.checkBufWithInt (countLine ls.length) numberOfLinesStr = some ls.length :=
    Protocol.checkBufWithInt_spaced hLength
  constructor
  · intro hReceived
    obtain ⟨array, -, hInv⟩ := DynArray.createPtrArray_spec
    obtain ⟨h', hOk, -⟩ := hReceived 0 ⟨(receiveStr ++ fileName.name) :: countLine ls.length ::
      ls ++ [[]], [], fun _ => none, [], array, 0, fun _ => [], 1, [], []⟩ [] ⟨[0], hInv.stored, rfl⟩ rfl
      (append_nil _).symm
    obtain ⟨line, count, rest, name, lines, hInput, -, hNumber, -⟩ := receiveCluster_eq_ok.mp hOk
    obtain rfl : countLine ls.length = count := (List.cons.inj (List.cons.inj hInput).2).1
    have hSame : lines.length = ls.length := Option.some.inj (hNumber.2.1.symm.trans hCheck)
    rw [← hSame]
    exact hNumber.2.2
  · intro hCount nodeId h rest hStored hReplies hInput
    have hRest : h.input = (receiveStr ++ fileName.name) :: countLine ls.length ::
        (ls ++ [] :: rest) := by
      rw [hInput]
      simp
    obtain ⟨h', hCopied, -, hInput'⟩ := copied_of
      (configDir nodeId ++ cStr fileName.name) (h := { h with input := ls ++ [] :: rest })
      hStored rfl (fun l hl => Nat.lt_of_succ_lt (hls l hl).fits)
      (by simp [Quiet, hReplies])
    have hEffect : Effect configDir nodeId [(fileName.name, ls)] _ h' := hCopied.effect
    refine ⟨h', receiveCluster_eq_ok.mpr ⟨_, _, _, fileName.name, ls, hRest, ?_, ?_, hCopied⟩,
      hInput', ?_⟩
    · have hStr : receiveStr = receiveClusterNameIniStr ++ [spaceChar] := by decide
      have hFits := fileName.fits
      rw [hStr, append_assoc, singleton_append] at hFits ⊢
      exact ⟨Nat.lt_of_succ_lt hFits, Nat.le_of_not_lt (Protocol.spaced_long _ _),
        not_not.mp (Protocol.take_spaced _ _), Protocol.drop_valuePos _ _⟩
    · refine ⟨?_, hCheck, hCount⟩
      have hDigits := Protocol.length_guint64Str_le (k := 20) (by decide)
        (hLength.trans (by decide))
      have hWord : numberOfLinesStr.length = 16 := by decide
      have hBuf : configReadBufSize = 256 := rfl
      unfold countLine
      rw [length_append, length_cons, hWord, hBuf]
      omega
    · rw [hEffect.files]
      exact setFile_self

/-! ## Files -/

/-- A file is a sequence of lines that are ended, and one that is not. -/
theorem ConfigText.exists_lines (content : ConfigText) :
    ∃ ls last, content.text = unlines carriageReturn ls ++ last ∧ (∀ l ∈ ls, TextLine l) ∧
      TextLine last := by
  obtain ⟨text, hNul, hShort, hSize⟩ := content
  obtain ⟨ls, last, rfl, hEnds, hLast⟩ := exists_unlines carriageReturn text
  rw [splitOn_unlines_append hEnds, splitOn_eq_singleton hLast] at hShort
  rw [mem_append, not_or] at hNul
  have hMem : ∀ l ∈ ls, ∀ c ∈ l, c ∈ unlines carriageReturn ls := fun l hl c hc =>
    mem_flatMap.mpr ⟨l, hl, mem_append_left _ hc⟩
  refine ⟨ls, last, rfl, fun l hl => ⟨fun h0 => hNul.1 (hMem l hl 0 h0), hEnds l hl,
    hShort l (mem_append_left _ hl)⟩, hNul.2, hLast, hShort last (by simp)⟩

theorem getLast?_unlines (hne : ls ≠ []) :
    (unlines carriageReturn ls).getLast? = some carriageReturn := by
  obtain ⟨front, l, rfl⟩ := eq_nil_or_concat' ls |>.resolve_left hne
  rw [unlines_append, unlines_cons, unlines_nil, ← append_assoc, getLast?_append]
  rfl

/-- A file makes the round trip if and only if its last line is ended, or the file is empty and a
variable that is not set has the right value, and its lines are few enough to be counted. -/
theorem send_file_iff (configDir : Nat → Str) (garbage : UInt64) (fileName : FileName)
    (content : ConfigText) :
    RoundTrip configDir garbage fileName content ↔ Sendable garbage content.text := by
  obtain ⟨ls, last, hText, hls, hLast⟩ := content.exists_lines
  have hSize := content.size
  unfold RoundTrip Sendable
  rw [hText] at hSize ⊢
  by_cases hne : last = []
  · rw [hne, List.append_nil] at hSize ⊢
    have hEnds : ∀ l ∈ ls, carriageReturn ∉ l := fun l hl => (hls l hl).noEnd
    rw [icProtoSendFile_unlines hls hSize, count_unlines hEnds]
    have hTerminated : terminated (unlines carriageReturn ls) = unlines carriageReturn ls := by
      by_cases hNil : ls = []
      · rw [hNil]
        rfl
      · exact if_pos (Or.inr (getLast?_unlines hNil))
    rw [hTerminated]
    have hEnded : ((unlines carriageReturn ls).getLast? = some carriageReturn ∨
        unlines carriageReturn ls = [] ∧ garbage.toNat + 1 = 2 ^ 64) ↔
        ¬(ls = [] ∧ garbage.toNat + 1 ≠ 2 ^ 64) := by
      by_cases hNil : ls = []
      · simp [hNil]
      · simp [hNil, getLast?_unlines hNil]
    rw [hEnded]
    split_ifs with hEmpty
    · constructor
      · rintro ⟨name, lines, hSend, -⟩
        cases hSend
      · rintro ⟨hNot, -⟩
        exact absurd hEmpty hNot
    · constructor
      · rintro ⟨name, lines, hSend, hReceived⟩
        simp only [Except.ok.injEq, List.cons_append, List.cons.injEq] at hSend
        obtain ⟨rfl, -, hLines⟩ := hSend
        obtain rfl := List.append_cancel_right hLines
        exact ⟨hEmpty, (receivedAs_iff configDir hls hSize).mp hReceived⟩
      · rintro ⟨-, hCount⟩
        exact ⟨_, ls, rfl, (receivedAs_iff configDir hls hSize).mpr hCount⟩
  · constructor
    · rintro ⟨name, lines, hSend, -⟩
      obtain ⟨e, hStop⟩ := icProtoSendFile_unfinished garbage fileName.name hls hLast hne hSize
      rw [hStop] at hSend
      cases hSend
    · rintro ⟨hEnded | ⟨hNil, -⟩, -⟩
      · rw [List.getLast?_append_of_ne_nil _ hne] at hEnded
        exact absurd (List.mem_of_getLast? hEnded) hLast.noEnd
      · exact absurd (List.append_eq_nil_iff.mp hNil).2 hne

/-- A file with one line that is not ended. -/
def unfinished : ConfigText where
  text := ascii "a"
  noNul := by decide
  short := by decide
  size := by decide

theorem unfinished_not_sent :
    ¬RoundTrip (fun _ => ascii "/config/") 0 ⟨configIni, by decide, by decide, by decide⟩ unfinished := by
  rintro ⟨name, lines, hSend, -⟩
  have hls : ∀ l ∈ ([] : List Str), TextLine l := by simp
  obtain ⟨e, hStop⟩ := icProtoSendFile_unfinished 0 configIni hls
    (show TextLine (ascii "a") from ⟨by decide, by decide, by decide⟩) (by decide) (by decide)
  have hText : unlines carriageReturn [] ++ ascii "a" = unfinished.text := rfl
  rw [hText] at hStop
  rw [hStop] at hSend
  cases hSend

end IClaustron.Pcntrl.SendFile
