import IClaustron.Lib.Lines
import IClaustron.Lib.Overwrite
import Mathlib.Algebra.Ring.Nat

/-!
# Protocol.Connection — the receiving side of the line protocol

Model of ic_rec_with_cr and ic_step_back_rec_with_cr in comm/ic_protocol_support.c.
A connection has a read buffer, the number of bytes in it and the position behind
the line that was returned last; bytes of later lines stay in the buffer from one
call to the next.

What the socket does is a list of arrivals: bytes that recv can return, or a
receive timeout (ic_check_for_data returns FALSE). An arrival that is longer than
the room left in the buffer is read in several pieces. When the list is used up a
call goes on waiting.

* `recWithCr_line` and `recWithCr_quiet` say what a call does, by the unread bytes
  of the buffer and the bytes that arrive before the next timeout;
* `stepBack_unread` — a line that is put back is the next one again.
-/

namespace IClaustron.Protocol

open Lib List

abbrev Bytes := List UInt8

/-- CARRIAGE_RETURN, which is a line feed. -/
def carriageReturn : UInt8 := 10

/-- IC_ERROR_RECEIVE_TIMEOUT. -/
def errorReceiveTimeout : Nat := 7039
/-- IC_END_OF_FILE. -/
def endOfFile : Nat := 7043
/-- IC_PROTOCOL_ERROR. -/
def protocolError : Nat := 7044

/-! ## Model -/

/-- The part of `IC_INT_CONNECTION` that is used to receive lines. -/
structure Connection where
  readBuf : Bytes
  sizeCurrReadBuf : Nat
  readBufPos : Nat
  deriving DecidableEq

/-- `read_buf_size`, the size `read_buf` was allocated with. -/
def Connection.readBufSize (conn : Connection) : Nat := conn.readBuf.length

/-- A new connection; the buffer is allocated with `ic_calloc_conn`. -/
def Connection.create (readBufSize : Nat) : Connection :=
  ⟨List.replicate readBufSize 0, 0, 0⟩

inductive Arrival where
  /-- bytes for recv, at least one -/
  | data (first : UInt8) (more : Bytes)
  /-- no data in the time limit -/
  | timeout
  deriving DecidableEq

structure Sock where
  conn : Connection
  net : List Arrival
  deriving DecidableEq

/-- The outcome of a call of `ic_rec_with_cr`. -/
inductive Outcome where
  | line (l : Bytes) (s : Sock)
  | error (code : Nat) (s : Sock)
  /-- the call has not returned -/
  | waiting
  deriving DecidableEq

/-- Bytes that recv had no room for are still there for the next one. -/
def putBack : Bytes → List Arrival → List Arrival
  | [], net => net
  | b :: bs, net => .data b bs :: net

/-- recv has put `chunk` behind the first `size` bytes of the buffer. -/
def Connection.fill (conn : Connection) (size : Nat) (chunk : Bytes) : Connection :=
  { conn with readBuf := overwrite conn.readBuf size chunk }

/-- The do loop of `ic_rec_with_cr`, with `size` for `size_curr_buf`. Every round
reads at least one byte, so `fuel` is one more than the room in the buffer. -/
def recLoop : Nat → Connection → Nat → List Arrival → Outcome
  | 0, _, _, _ => .waiting
  | fuel + 1, conn, size, net =>
    let inx := (conn.readBuf.take size).idxOf carriageReturn
    if inx ≠ size then
      .line (conn.readBuf.take inx)
        ⟨{ conn with sizeCurrReadBuf := size, readBufPos := inx + 1 }, net⟩
    else
      let sizeToRead := conn.readBufSize - size
      match net with
      | [] => .waiting
      | .timeout :: net => .error errorReceiveTimeout ⟨conn, net⟩
      | .data first more :: net =>
        -- recv with no room returns 0, which is taken for the end of the file
        if sizeToRead = 0 then .error endOfFile ⟨conn, .data first more :: net⟩
        else
          let chunk := (first :: more).take sizeToRead
          recLoop fuel (conn.fill size chunk) (size + chunk.length)
            (putBack ((first :: more).drop sizeToRead) net)

/-- `ic_rec_with_cr`. The bytes behind the last line are moved to the start of the
buffer; `size_curr_read_buf` is not changed until a line is found. -/
def recWithCr (s : Sock) : Outcome :=
  let conn := s.conn
  if 0 < conn.sizeCurrReadBuf then
    let size := conn.sizeCurrReadBuf - conn.readBufPos
    let moved := (conn.readBuf.drop conn.readBufPos).take size
    recLoop (conn.readBufSize + 1)
      { conn with readBuf := overwrite conn.readBuf 0 moved, readBufPos := 0 } size s.net
  else recLoop (conn.readBufSize + 1) conn 0 s.net

/-- `ic_step_back_rec_with_cr`. -/
def stepBackRecWithCr (s : Sock) (readSize : Nat) : Sock :=
  { s with conn := { s.conn with readBufPos := s.conn.readBufPos - (readSize + 1) } }

/-! ## Arrivals -/

/-- Everything that arrives. -/
def dataOf : List Arrival → Bytes
  | [] => []
  | .timeout :: net => dataOf net
  | .data first more :: net => first :: more ++ dataOf net

/-- What arrives before the next timeout. -/
def early : List Arrival → Bytes
  | [] => []
  | .timeout :: _ => []
  | .data first more :: net => first :: more ++ early net

/-- What comes after the next timeout, if there is one. -/
def later : List Arrival → Option (List Arrival)
  | [] => none
  | .timeout :: net => some net
  | .data _ _ :: net => later net

theorem dataOf_eq (net : List Arrival) :
    dataOf net = early net ++ ((later net).map dataOf).getD [] := by
  induction net with
  | nil => rfl
  | cons a net ih =>
    cases a with
    | timeout => rfl
    | data first more =>
      show first :: more ++ dataOf net = first :: more ++ early net ++ _
      rw [ih, append_assoc]
      rfl

theorem early_putBack (bs : Bytes) (net : List Arrival) : early (putBack bs net) = bs ++ early net := by
  cases bs <;> rfl

theorem later_putBack (bs : Bytes) (net : List Arrival) : later (putBack bs net) = later net := by
  cases bs <;> rfl

/-! ## A call of ic_rec_with_cr -/

/-- The bytes of the buffer behind the line returned last. -/
def Connection.unread (conn : Connection) : Bytes :=
  (conn.readBuf.take conn.sizeCurrReadBuf).drop conn.readBufPos

/-- The counters are positions of the buffer. -/
structure Connection.Wf (conn : Connection) : Prop where
  pos_le : conn.readBufPos ≤ conn.sizeCurrReadBuf
  size_le : conn.sizeCurrReadBuf ≤ conn.readBufSize

/-- The line `l` has just been returned, and its bytes are still in the buffer. -/
structure Returned (l : Bytes) (conn : Connection) : Prop where
  pos : conn.readBufPos = l.length + 1
  content : conn.readBuf.take (l.length + 1) = l ++ [carriageReturn]

variable {conn : Connection} {size fuel : Nat} {net : List Arrival} {l rest : Bytes}

theorem recLoop_found (h : conn.readBuf.take size = l ++ carriageReturn :: rest)
    (hl : carriageReturn ∉ l) :
    recLoop (fuel + 1) conn size net =
      .line l ⟨{ conn with sizeCurrReadBuf := size, readBufPos := l.length + 1 }, net⟩ := by
  have hinx : (conn.readBuf.take size).idxOf carriageReturn = l.length := by
    rw [h, idxOf_append_of_notMem hl, idxOf_cons_self, Nat.add_zero]
  have hlt : l.length < size := by
    have hlen := congrArg List.length h
    rw [length_take, length_append, length_cons] at hlen
    omega
  have htake : conn.readBuf.take l.length = l := by
    have := congrArg (List.take l.length) h
    rwa [take_take, Nat.min_eq_left (Nat.le_of_lt hlt), take_left] at this
  rw [recLoop, hinx, if_pos (Nat.ne_of_lt hlt), htake]

theorem recLoop_none (h : carriageReturn ∉ conn.readBuf.take size) (hsize : size ≤ conn.readBufSize) :
    recLoop (fuel + 1) conn size net =
      match net with
      | [] => .waiting
      | .timeout :: net => .error errorReceiveTimeout ⟨conn, net⟩
      | .data first more :: net =>
        if conn.readBufSize - size = 0 then .error endOfFile ⟨conn, .data first more :: net⟩
        else
          recLoop fuel (conn.fill size ((first :: more).take (conn.readBufSize - size)))
            (size + ((first :: more).take (conn.readBufSize - size)).length)
            (putBack ((first :: more).drop (conn.readBufSize - size)) net) := by
  have hinx : (conn.readBuf.take size).idxOf carriageReturn = size := by
    rw [idxOf_of_notMem h, length_take]
    exact Nat.min_eq_left hsize
  rw [recLoop, hinx, if_neg (not_not.mpr rfl)]

/-- Reading into the buffer appends to what is there. -/
theorem take_fill (hsize : size ≤ conn.readBufSize) (bs : Bytes) :
    (conn.fill size bs).readBuf.take (size + bs.length) = conn.readBuf.take size ++ bs :=
  take_overwrite_end hsize

theorem readBufSize_fill {bs : Bytes} (hroom : size + bs.length ≤ conn.readBufSize) :
    (conn.fill size bs).readBufSize = conn.readBufSize :=
  length_overwrite hroom

/-- A buffer without a line end holds a part of the next line. -/
theorem size_le_of_not_mem (hsize : size ≤ conn.readBufSize)
    (hmem : carriageReturn ∉ conn.readBuf.take size)
    (h : conn.readBuf.take size ++ early net = l ++ carriageReturn :: rest) : size ≤ l.length := by
  have hlen : (conn.readBuf.take size).length = size := by
    rw [length_take]
    exact Nat.min_eq_left hsize
  by_contra hlt
  apply hmem
  have htake := congrArg (List.take size) h
  rw [take_append_of_le_length (Nat.le_of_eq hlen.symm), take_take, Nat.min_self,
    take_append] at htake
  have hpos : size - l.length = size - l.length - 1 + 1 := by omega
  rw [htake, hpos, take_succ_cons]
  exact mem_append_right _ mem_cons_self

/-- What recv takes and what it leaves behind are the bytes that arrived. -/
theorem fill_early (hsize : size ≤ conn.readBufSize) (bs : Bytes) (k : Nat) :
    (conn.fill size (bs.take k)).readBuf.take (size + (bs.take k).length) ++
      early (putBack (bs.drop k) net) = conn.readBuf.take size ++ (bs ++ early net) := by
  rw [take_fill hsize, early_putBack, append_assoc, ← append_assoc (bs.take k),
    take_append_drop]

/-- The next line of the buffer and of what arrives in time is returned. -/
theorem recLoop_line (hfuel : conn.readBufSize - size < fuel) (hsize : size ≤ conn.readBufSize)
    (hl : carriageReturn ∉ l) (hfit : l.length < conn.readBufSize)
    (h : conn.readBuf.take size ++ early net = l ++ carriageReturn :: rest) :
    ∃ s, recLoop fuel conn size net = .line l s ∧ s.conn.readBufSize = conn.readBufSize ∧
      s.conn.Wf ∧ Returned l s.conn ∧ s.conn.unread ++ early s.net = rest ∧
      later s.net = later net := by
  induction fuel generalizing conn size net with
  | zero => exact absurd hfuel (Nat.not_lt_zero _)
  | succ fuel ih =>
    by_cases hmem : carriageReturn ∈ conn.readBuf.take size
    · rcases eq_append_cons_of_mem hmem with ⟨l', rest', hbuf, hl'⟩
      rw [hbuf, append_assoc, cons_append] at h
      rcases first_sep_unique hl' hl h with ⟨rfl, rfl⟩
      have hlen : l'.length + 1 ≤ size := by
        have hlen := congrArg List.length hbuf
        rw [length_take, length_append, length_cons] at hlen
        omega
      refine ⟨_, recLoop_found hbuf hl', rfl, ⟨hlen, hsize⟩, ⟨rfl, ?_⟩, ?_, rfl⟩
      · have htake := congrArg (List.take (l'.length + 1)) hbuf
        rw [take_take, Nat.min_eq_left hlen] at htake
        rw [htake, take_length_add_append]
        rfl
      · show (conn.readBuf.take size).drop (l'.length + 1) ++ early net = rest' ++ early net
        rw [hbuf, drop_length_add_append]
        rfl
    · -- the line goes on in what arrives
      have hpart := size_le_of_not_mem hsize hmem h
      rw [recLoop_none hmem hsize]
      cases net with
      | nil =>
        rw [early, append_nil] at h
        exact absurd (h ▸ mem_append_right l mem_cons_self) hmem
      | cons a net =>
        cases a with
        | timeout =>
          rw [early, append_nil] at h
          exact absurd (h ▸ mem_append_right l mem_cons_self) hmem
        | data first more =>
          dsimp only
          rw [if_neg (by omega)]
          generalize hchunk : (first :: more).take (conn.readBufSize - size) = chunk
          have hread : chunk.length = min (conn.readBufSize - size) (more.length + 1) := by
            rw [← hchunk, length_take, length_cons]
          have hsame : (conn.fill size chunk).readBufSize = conn.readBufSize :=
            readBufSize_fill (by omega)
          have h' := @fill_early _ _ net hsize (first :: more) (conn.readBufSize - size)
          rw [hchunk] at h'
          rcases ih (by omega) (by omega) (by omega) (h'.trans h) with
            ⟨s, hs, hsz, hwf, hret, hun, hlater⟩
          refine ⟨s, hs, hsz.trans hsame, hwf, hret, hun, ?_⟩
          rw [hlater, later_putBack]
          rfl

/-- Without a line end in time the call returns at the timeout; the counters of the
connection are as the loop found them. -/
theorem recLoop_quiet (hfuel : conn.readBufSize - size < fuel) (hsize : size ≤ conn.readBufSize)
    (hmem : carriageReturn ∉ conn.readBuf.take size ++ early net)
    (hfit : (conn.readBuf.take size ++ early net).length < conn.readBufSize) :
    ∃ conn', recLoop fuel conn size net =
        (match later net with
          | none => .waiting
          | some net' => .error errorReceiveTimeout ⟨conn', net'⟩) ∧
      conn'.readBufSize = conn.readBufSize ∧ conn'.sizeCurrReadBuf = conn.sizeCurrReadBuf ∧
      conn'.readBufPos = conn.readBufPos ∧
      conn'.readBuf.take (conn.readBuf.take size ++ early net).length =
        conn.readBuf.take size ++ early net := by
  have hlen : (conn.readBuf.take size).length = size := by
    rw [length_take]
    exact Nat.min_eq_left hsize
  induction fuel generalizing conn size net with
  | zero => exact absurd hfuel (Nat.not_lt_zero _)
  | succ fuel ih =>
    rw [recLoop_none (fun h => hmem (mem_append_left _ h)) hsize]
    cases net with
    | nil =>
      refine ⟨conn, rfl, rfl, rfl, rfl, ?_⟩
      rw [early, append_nil, hlen]
    | cons a net =>
      cases a with
      | timeout =>
        refine ⟨conn, rfl, rfl, rfl, rfl, ?_⟩
        rw [early, append_nil, hlen]
      | data first more =>
        dsimp only
        have hroom : size < conn.readBufSize := by
          rw [length_append, hlen] at hfit
          omega
        rw [if_neg (by omega)]
        generalize hchunk : (first :: more).take (conn.readBufSize - size) = chunk
        have hread : chunk.length = min (conn.readBufSize - size) (more.length + 1) := by
          rw [← hchunk, length_take, length_cons]
        have hsame : (conn.fill size chunk).readBufSize = conn.readBufSize :=
          readBufSize_fill (by omega)
        have heq := @fill_early _ _ net hsize (first :: more) (conn.readBufSize - size)
        rw [hchunk] at heq
        have hnew : ((conn.fill size chunk).readBuf.take (size + chunk.length)).length =
            size + chunk.length := by
          rw [take_fill hsize, length_append, hlen]
        rcases ih (by omega) (by omega) (heq.symm ▸ hmem) (by rw [heq, hsame]; exact hfit) hnew with
          ⟨conn', hrun, hsz, hsize', hpos, htake⟩
        rw [heq] at htake
        refine ⟨conn', ?_, hsz.trans hsame, hsize', hpos, htake⟩
        rw [hrun, later_putBack]
        rfl

/-- The loop starts with the unread bytes at the start of the buffer. -/
theorem recWithCr_eq {s : Sock} (h : s.conn.Wf) :
    ∃ conn, recWithCr s = recLoop (conn.readBufSize + 1) conn s.conn.unread.length s.net ∧
      conn.readBuf.take s.conn.unread.length = s.conn.unread ∧
      conn.readBufSize = s.conn.readBufSize ∧
      conn.sizeCurrReadBuf = s.conn.sizeCurrReadBuf ∧ conn.readBufPos = 0 := by
  have hpos := h.pos_le
  have hsize := h.size_le
  have hlen : s.conn.unread.length = s.conn.sizeCurrReadBuf - s.conn.readBufPos := by
    unfold Connection.unread
    rw [length_drop, length_take]
    exact congrArg (· - _) (Nat.min_eq_left hsize)
  unfold recWithCr
  dsimp only
  by_cases hzero : 0 < s.conn.sizeCurrReadBuf
  · have hmoved : (s.conn.readBuf.drop s.conn.readBufPos).take
        (s.conn.sizeCurrReadBuf - s.conn.readBufPos) = s.conn.unread := by
      unfold Connection.unread
      rw [drop_take]
    have hroom : 0 + s.conn.unread.length ≤ s.conn.readBuf.length := by
      rw [hlen]
      exact Nat.le_trans (by omega) hsize
    rw [if_pos hzero, hmoved, ← hlen]
    refine ⟨{ s.conn with readBuf := overwrite s.conn.readBuf 0 s.conn.unread, readBufPos := 0 },
      ?_, ?_, length_overwrite hroom, rfl, rfl⟩
    · have hsame := length_overwrite hroom
      show recLoop (s.conn.readBuf.length + 1) _ _ _ = recLoop ((overwrite _ _ _).length + 1) _ _ _
      rw [hsame]
    · have htake := @take_overwrite_end _ s.conn.unread s.conn.readBuf 0 (Nat.zero_le _)
      rw [Nat.zero_add] at htake
      exact htake
  · have hnone : s.conn.unread = [] := eq_nil_of_length_eq_zero (by omega)
    rw [if_neg hzero, hnone]
    exact ⟨s.conn, rfl, rfl, rfl, rfl, by omega⟩

variable {s : Sock}

theorem Connection.unread_length_le (conn : Connection) : conn.unread.length ≤ conn.readBufSize := by
  unfold Connection.unread
  rw [length_drop, length_take]
  exact Nat.le_trans (Nat.sub_le _ _) (Nat.min_le_right _ _)

theorem recWithCr_line (hwf : s.conn.Wf) (hl : carriageReturn ∉ l)
    (hfit : l.length < s.conn.readBufSize)
    (h : s.conn.unread ++ early s.net = l ++ carriageReturn :: rest) :
    ∃ s', recWithCr s = .line l s' ∧ s'.conn.readBufSize = s.conn.readBufSize ∧ s'.conn.Wf ∧
      Returned l s'.conn ∧ s'.conn.unread ++ early s'.net = rest ∧ later s'.net = later s.net := by
  rcases recWithCr_eq hwf with ⟨conn, heq, htake, hsz, -, -⟩
  have hle := s.conn.unread_length_le
  rw [heq]
  rw [← hsz] at hfit hle ⊢
  exact recLoop_line (by omega) hle hl hfit (htake.symm ▸ h)

theorem recWithCr_quiet (hwf : s.conn.Wf) (hmem : carriageReturn ∉ s.conn.unread ++ early s.net)
    (hfit : (s.conn.unread ++ early s.net).length < s.conn.readBufSize) :
    ∃ conn', recWithCr s =
        (match later s.net with
          | none => .waiting
          | some net' => .error errorReceiveTimeout ⟨conn', net'⟩) ∧
      conn'.readBufSize = s.conn.readBufSize ∧ conn'.sizeCurrReadBuf = s.conn.sizeCurrReadBuf ∧
      conn'.readBufPos = 0 ∧
      conn'.readBuf.take (s.conn.unread ++ early s.net).length = s.conn.unread ++ early s.net := by
  rcases recWithCr_eq hwf with ⟨conn, heq, htake, hsz, hcurr, hpos⟩
  have hle := s.conn.unread_length_le
  rw [heq]
  rw [← hsz] at hfit hle ⊢
  rw [← htake] at hmem hfit
  have hquiet := recLoop_quiet (Nat.lt_succ_of_le (Nat.sub_le _ _)) hle hmem hfit
  rw [htake] at hquiet
  rcases hquiet with ⟨conn', hrun, hsz', hcurr', hpos', htake'⟩
  exact ⟨conn', hrun, hsz', hcurr'.trans hcurr, hpos'.trans hpos, htake'⟩

/-- The line that was returned is unread again. -/
theorem stepBack_unread (hwf : s.conn.Wf) (h : Returned l s.conn) :
    (stepBackRecWithCr s l.length).conn.unread = l ++ carriageReturn :: s.conn.unread := by
  have hpos := hwf.pos_le
  unfold stepBackRecWithCr Connection.unread
  dsimp only
  rw [h.pos, Nat.sub_self, drop_zero]
  have hsplit := (take_append_drop (l.length + 1)
    (s.conn.readBuf.take s.conn.sizeCurrReadBuf)).symm
  rw [take_take, Nat.min_eq_left (h.pos ▸ hpos), h.content] at hsplit
  conv_lhs => rw [hsplit]
  rw [append_assoc]
  rfl

theorem stepBack_wf (hwf : s.conn.Wf) (n : Nat) : (stepBackRecWithCr s n).conn.Wf :=
  ⟨Nat.le_trans (Nat.sub_le _ _) hwf.pos_le, hwf.size_le⟩

end IClaustron.Protocol
