import IClaustron.Lib.Run
import IClaustron.Protocol.Connection

/-!
# Protocol.Framing — lines and receive timeouts

A receiver calls ic_rec_with_cr again and again, also after a receive timeout, and
may put the last line back. The lines it has got should be the stream of the peer,
split at each line end.

They are, as long as no call times out with the wrong number of bytes in the buffer.
A call moves the unread bytes to the start of the buffer and sets `read_buf_pos`
to 0, but stores the number of bytes in the buffer only when it finds a line. After
a timeout `size_curr_read_buf` is still the number of bytes there were when the
last line was returned: what has been read since is lost, or bytes of the old lines
are read once more.

* `Framed` — the lines returned are the lines of the stream;
* `Framing` — and they will be, whatever the peer sends from here on in time;
* `Clean` — a call that times out leaves as many bytes as the counter says;
* `framing_iff` — a run keeps to `Framing` exactly if its calls are clean.
-/

namespace IClaustron.Protocol

open Lib List

/-! ## Sessions -/

structure Session where
  sock : Sock
  /-- all the bytes of the peer, also those that have not arrived -/
  stream : Bytes
  /-- the lines returned, but for those put back -/
  lines : List Bytes
  /-- `read_size` of the last operation, when it returned a line -/
  last : Option Nat
  /-- a call has returned another error than a timeout -/
  closed : Bool
  deriving DecidableEq

inductive Op where
  | recWithCr
  | stepBack
  deriving DecidableEq

def step (s : Session) : Op → Option Session
  | .recWithCr =>
    if s.closed then none
    else
      match recWithCr s.sock with
      | .line l sock => some { s with sock := sock, lines := s.lines ++ [l], last := some l.length }
      | .error code sock =>
        some { s with sock := sock, last := none, closed := decide (code ≠ errorReceiveTimeout) }
      | .waiting => none
  | .stepBack =>
    match s.last with
    | none => none
    | some readSize =>
      some { s with
        sock := stepBackRecWithCr s.sock readSize
        lines := s.lines.dropLast
        last := none }

/-- A new connection, and what will arrive on it. -/
def start (readBufSize : Nat) (net : List Arrival) : Session :=
  ⟨⟨Connection.create readBufSize, net⟩, dataOf net, [], none, false⟩

/-! ## The rule -/

/-- The lines are the first ones of the stream, and when a call does not return they
are all of them. -/
def Framed (s : Session) : Prop :=
  s.lines <+: complete carriageReturn s.stream ∧
    (step s .recWithCr = none → s.lines = complete carriageReturn s.stream)

def Session.received (s : Session) : Bytes :=
  s.stream.take (s.stream.length - (dataOf s.sock.net).length)

/-- Something else arrives than what was to come. -/
def Session.withNet (s : Session) (net : List Arrival) : Session :=
  { s with sock := { s.sock with net := net }, stream := s.received ++ dataOf net }

/-- The lines are right, and stay so whatever arrives next, when it arrives in time
and its lines fit into the buffer. -/
def Framing (s : Session) : Prop :=
  Framed s ∧
    ∀ net, later net = none →
      Fits carriageReturn s.sock.conn.readBufSize (s.received ++ dataOf net) →
      ∀ ops s', Run.exec step (s.withNet net) ops = some s' → Framed s'

/-- The bytes of the line that have arrived when the next timeout comes. -/
def Session.begun (s : Session) : Bytes := s.sock.conn.unread ++ early s.sock.net

/-- When the call will time out, the part of the line it has by then is as long as
`size_curr_read_buf`, the number of bytes the last successful call had. -/
def Clean (s : Session) : Op → Prop
  | .recWithCr =>
    carriageReturn ∉ s.begun → (later s.sock.net).isSome →
      s.begun.length = s.sock.conn.sizeCurrReadBuf
  | .stepBack => True

/-! ## Invariant -/

structure Inv (readBufSize : Nat) (s : Session) : Prop where
  wf : s.sock.conn.Wf
  size : s.sock.conn.readBufSize = readBufSize
  stream : s.stream = unlines carriageReturn s.lines ++ (s.sock.conn.unread ++ dataOf s.sock.net)
  lines : ∀ l ∈ s.lines, carriageReturn ∉ l
  fits : Fits carriageReturn readBufSize s.stream
  last : ∀ n, s.last = some n →
    ∃ ls l, s.lines = ls ++ [l] ∧ l.length = n ∧ Returned l s.sock.conn
  ready : s.closed = false

variable {s s' : Session} {readBufSize : Nat}

section

variable (h : Inv readBufSize s)

include h

/-- What follows the lines returned: the line begun, and what comes after the timeout. -/
theorem Inv.stream_begun :
    s.stream = unlines carriageReturn s.lines ++
      (s.begun ++ ((later s.sock.net).map dataOf).getD []) := by
  rw [h.stream, dataOf_eq s.sock.net, Session.begun, append_assoc]

theorem Inv.begun_lt (hmem : carriageReturn ∉ s.begun) :
    s.begun.length < s.sock.conn.readBufSize := by
  have hfits := h.fits
  rw [h.stream_begun, fits_unlines_append h.lines] at hfits
  rw [h.size]
  exact hfits.2.length_lt hmem

theorem Inv.received : s.received = unlines carriageReturn s.lines ++ s.sock.conn.unread := by
  unfold Session.received
  rw [h.stream, ← append_assoc, length_append, Nat.add_sub_cancel, take_left]

/-- A call that finds a line. -/
theorem Inv.call_line {l rest : Bytes} (hl : carriageReturn ∉ l)
    (hbegun : s.begun = l ++ carriageReturn :: rest) :
    ∃ s', step s .recWithCr = some s' ∧ s'.lines = s.lines ++ [l] ∧ s'.stream = s.stream ∧
      later s'.sock.net = later s.sock.net ∧ Inv readBufSize s' := by
  have hfits := h.fits
  rw [h.stream_begun, hbegun, fits_unlines_append h.lines, append_assoc, cons_append,
    fits_append_cons hl] at hfits
  rcases recWithCr_line h.wf hl (h.size ▸ hfits.2.1) hbegun with
    ⟨sock, hrun, hsz, hwf, hret, hrest, hlater⟩
  refine ⟨{ s with sock := sock, lines := s.lines ++ [l], last := some l.length }, ?_, rfl, rfl,
    hlater, hwf, hsz.trans h.size, ?_, ?_, h.fits, ?_, h.ready⟩
  · unfold step
    rw [h.ready, hrun]
    rfl
  · show s.stream = unlines carriageReturn (s.lines ++ [l]) ++ (sock.conn.unread ++ dataOf sock.net)
    rw [h.stream_begun, hbegun, dataOf_eq sock.net, hlater, ← hrest, unlines_append, unlines_cons,
      unlines_nil]
    simp only [append_assoc, cons_append, nil_append]
  · intro l' hl'
    rcases mem_append.mp hl' with hold | hnew
    · exact h.lines l' hold
    · rw [mem_singleton.mp hnew]
      exact hl
  · intro n hn
    cases hn
    exact ⟨s.lines, l, rfl, rfl, hret⟩

/-- A call that finds no line before the timeout. -/
theorem Inv.call_quiet (hmem : carriageReturn ∉ s.begun) :
    ∃ conn', conn'.readBufSize = readBufSize ∧
      conn'.sizeCurrReadBuf = s.sock.conn.sizeCurrReadBuf ∧ conn'.readBufPos = 0 ∧
      conn'.readBuf.take s.begun.length = s.begun ∧
      step s .recWithCr =
        (later s.sock.net).map fun net => { s with sock := ⟨conn', net⟩, last := none } := by
  rcases recWithCr_quiet h.wf hmem (h.begun_lt hmem) with ⟨conn', hrun, hsz, hcurr, hpos, htake⟩
  refine ⟨conn', hsz.trans h.size, hcurr, hpos, htake, ?_⟩
  unfold step
  rw [h.ready, hrun]
  cases later s.sock.net with
  | none => rfl
  | some net =>
    show some { s with sock := ⟨conn', net⟩, last := none, closed := _ } = _
    rw [decide_eq_false (not_not.mpr rfl), ← h.ready]
    rfl

theorem Inv.framed : Framed s := by
  have hcomplete : complete carriageReturn s.stream = s.lines ++
      complete carriageReturn (s.begun ++ ((later s.sock.net).map dataOf).getD []) := by
    rw [h.stream_begun, complete_unlines_append h.lines]
  refine ⟨hcomplete ▸ prefix_append _ _, fun hnone => ?_⟩
  by_cases hmem : carriageReturn ∈ s.begun
  · rcases eq_append_cons_of_mem hmem with ⟨l, rest, hbegun, hl⟩
    rcases h.call_line hl hbegun with ⟨s', hs', -⟩
    rw [hs'] at hnone
    cases hnone
  · rcases h.call_quiet hmem with ⟨conn', -, -, -, -, hstep⟩
    rw [hnone] at hstep
    have hlater : later s.sock.net = none := Option.map_eq_none_iff.mp hstep.symm
    rw [hcomplete, hlater]
    show s.lines = s.lines ++ complete carriageReturn (s.begun ++ [])
    rw [append_nil, complete_of_not_mem hmem, append_nil]

/-- A clean timeout leaves the counters right. -/
theorem Inv.call_clean (hmem : carriageReturn ∉ s.begun) (hclean : Clean s .recWithCr)
    (hstep : step s .recWithCr = some s') : Inv readBufSize s' := by
  rcases h.call_quiet hmem with ⟨conn', hsz, hcurr, hpos, htake, heq⟩
  have hlt := h.begun_lt hmem
  rw [heq] at hstep
  rcases Option.map_eq_some_iff.mp hstep with ⟨net, hlater, rfl⟩
  have hlen : s.begun.length = conn'.sizeCurrReadBuf := by
    rw [hcurr]
    exact hclean hmem (hlater ▸ rfl)
  have hunread : conn'.unread = s.begun := by
    unfold Connection.unread
    rw [hpos, ← hlen, htake]
    rfl
  refine ⟨⟨by rw [hpos]; exact Nat.zero_le _, ?_⟩, hsz, ?_, h.lines, h.fits, nofun, h.ready⟩
  · rw [← hlen, hsz, ← h.size]
    exact Nat.le_of_lt hlt
  · show s.stream = unlines carriageReturn s.lines ++ (conn'.unread ++ dataOf net)
    rw [h.stream_begun, hunread, hlater]
    rfl

theorem Inv.stepBack (hstep : step s .stepBack = some s') :
    Inv readBufSize s' ∧ s'.sock.net = s.sock.net := by
  unfold step at hstep
  dsimp only at hstep
  cases hlast : s.last with
  | none =>
    rw [hlast] at hstep
    cases hstep
  | some n =>
    rw [hlast] at hstep
    cases hstep
    rcases h.last n hlast with ⟨ls, l, hlines, rfl, hret⟩
    refine ⟨⟨stepBack_wf h.wf _, h.size, ?_, ?_, h.fits, nofun, h.ready⟩, rfl⟩
    · show s.stream = unlines carriageReturn s.lines.dropLast ++
        ((stepBackRecWithCr s.sock l.length).conn.unread ++ dataOf s.sock.net)
      rw [stepBack_unread h.wf hret, h.stream, hlines, dropLast_concat, unlines_append,
        unlines_cons, unlines_nil]
      simp only [append_assoc, cons_append, nil_append]
    · intro l' hl'
      exact h.lines l' (dropLast_subset _ hl')

end

theorem step_keeps (op : Op) (hclean : Clean s op) (hstep : step s op = some s')
    (h : Inv readBufSize s) : Inv readBufSize s' := by
  cases op with
  | stepBack => exact (h.stepBack hstep).1
  | recWithCr =>
    by_cases hmem : carriageReturn ∈ s.begun
    · rcases eq_append_cons_of_mem hmem with ⟨l, rest, hbegun, hl⟩
      rcases h.call_line hl hbegun with ⟨s₁, hs₁, -, -, -, hinv⟩
      rw [hs₁] at hstep
      cases hstep
      exact hinv
    · exact h.call_clean hmem hclean hstep

/-! ## Without timeouts -/

/-- Nothing keeps the receiver waiting too long. -/
def InTime (readBufSize : Nat) (s : Session) : Prop :=
  Inv readBufSize s ∧ later s.sock.net = none

theorem step_inTime (op : Op) (hstep : step s op = some s') (h : InTime readBufSize s) :
    InTime readBufSize s' := by
  rcases h with ⟨hinv, hlater⟩
  cases op with
  | stepBack =>
    rcases hinv.stepBack hstep with ⟨hinv', hnet⟩
    exact ⟨hinv', hnet ▸ hlater⟩
  | recWithCr =>
    by_cases hmem : carriageReturn ∈ s.begun
    · rcases eq_append_cons_of_mem hmem with ⟨l, rest, hbegun, hl⟩
      rcases hinv.call_line hl hbegun with ⟨s₁, hs₁, -, -, hlater₁, hinv₁⟩
      rw [hs₁] at hstep
      cases hstep
      exact ⟨hinv₁, hlater₁.trans hlater⟩
    · -- the call goes on waiting
      rcases hinv.call_quiet hmem with ⟨conn', -, -, -, -, heq⟩
      rw [hstep, hlater] at heq
      cases heq

theorem Inv.withNet (h : Inv readBufSize s) {net : List Arrival}
    (hfits : Fits carriageReturn readBufSize (s.received ++ dataOf net)) :
    Inv readBufSize (s.withNet net) := by
  refine ⟨h.wf, h.size, ?_, h.lines, hfits, h.last, h.ready⟩
  show s.received ++ dataOf net = _
  rw [h.received, append_assoc]
  rfl

theorem Inv.framing (h : Inv readBufSize s) : Framing s := by
  refine ⟨h.framed, fun net hlater hfits ops s' hrun => ?_⟩
  rw [h.size] at hfits
  have hstart : InTime readBufSize (s.withNet net) := ⟨h.withNet hfits, hlater⟩
  exact (Run.invariant step (InTime readBufSize) (fun _ op _ => step_inTime op) hrun hstart).1.framed

/-! ## A timeout that is not clean -/

theorem step_line {l : Bytes} {sock : Sock} (hready : s.closed = false)
    (hrun : recWithCr s.sock = .line l sock) :
    step s .recWithCr =
      some { s with sock := sock, lines := s.lines ++ [l], last := some l.length } := by
  unfold step
  dsimp only
  rw [if_neg (by rw [hready]; exact Bool.false_ne_true), hrun]

theorem step_error {code : Nat} {sock : Sock} (hready : s.closed = false)
    (hrun : recWithCr s.sock = .error code sock) :
    step s .recWithCr =
      some { s with sock := sock, last := none, closed := decide (code ≠ errorReceiveTimeout) } := by
  unfold step
  dsimp only
  rw [if_neg (by rw [hready]; exact Bool.false_ne_true), hrun]

/-- A call that finds the buffer full and no line in it. -/
theorem recWithCr_full {sock : Sock} (hwf : sock.conn.Wf)
    (hmem : carriageReturn ∉ sock.conn.unread)
    (hfull : sock.conn.unread.length = sock.conn.readBufSize) {first : UInt8} {more : Bytes}
    {net : List Arrival} (hnet : sock.net = .data first more :: net) :
    ∃ sock', recWithCr sock = .error endOfFile sock' := by
  rcases recWithCr_eq hwf with ⟨conn, heq, htake, hsz, -, -⟩
  refine ⟨⟨conn, sock.net⟩, ?_⟩
  rw [heq, hnet, recLoop_none (by rw [htake]; exact hmem) (by omega)]
  dsimp only
  rw [if_pos (by omega)]

/-- The bytes `u` are received and not returned, and the counters have been set by a
timeout. -/
structure Stale (u : Bytes) (s : Session) : Prop where
  ready : s.closed = false
  pos : s.sock.conn.readBufPos = 0
  size_le : s.sock.conn.sizeCurrReadBuf ≤ s.sock.conn.readBufSize
  received : s.received = unlines carriageReturn s.lines ++ u
  lines : ∀ l ∈ s.lines, carriageReturn ∉ l
  short : ∀ l ∈ s.lines, l.length < s.sock.conn.readBufSize
  free : carriageReturn ∉ u
  fits : u.length < s.sock.conn.readBufSize

theorem Stale.wf {u : Bytes} (h : Stale u s) : s.sock.conn.Wf :=
  ⟨h.pos ▸ Nat.zero_le _, h.size_le⟩

theorem Stale.length_unread {u : Bytes} (h : Stale u s) :
    s.sock.conn.unread.length = s.sock.conn.sizeCurrReadBuf := by
  unfold Connection.unread
  rw [h.pos, drop_zero, length_take]
  exact Nat.min_eq_left h.size_le

/-- An old line end is among the stale bytes: a line is returned that the peer has
not sent. -/
theorem Stale.line_invented {u : Bytes} (h : Stale u s)
    (hmem : carriageReturn ∈ s.sock.conn.unread) : ¬ Framing s := by
  rintro ⟨-, hall⟩
  rcases eq_append_cons_of_mem hmem with ⟨l, rest, hunread, hl⟩
  have hstream : (s.withNet []).stream = unlines carriageReturn s.lines ++ u := by
    show s.received ++ [] = _
    rw [append_nil, h.received]
  have hfits : Fits carriageReturn s.sock.conn.readBufSize (s.received ++ dataOf []) := by
    show Fits _ _ (s.withNet []).stream
    rw [hstream, fits_unlines_append h.lines, fits_of_not_mem h.free]
    exact ⟨h.short, h.fits⟩
  have hshort : l.length < s.sock.conn.readBufSize := by
    have hle := Connection.unread_length_le s.sock.conn
    rw [hunread, length_append, length_cons] at hle
    omega
  have hbegun : s.sock.conn.unread ++ early [] = l ++ carriageReturn :: rest := by
    rw [early, append_nil, hunread]
  rcases @recWithCr_line l rest (s.withNet []).sock h.wf hl hshort hbegun with ⟨sock', hrun, -⟩
  have hstep := @step_line (s.withNet []) l sock' h.ready hrun
  have hframed := hall [] rfl hfits [.recWithCr] _ (by rw [Run.exec_cons, hstep]; rfl)
  have hlines : s.lines ++ [l] <+: complete carriageReturn (s.withNet []).stream := hframed.1
  rw [hstream, complete_unlines_append h.lines, complete_of_not_mem h.free, append_nil] at hlines
  have hlen := hlines.length_le
  rw [length_append, length_singleton] at hlen
  omega

/-- The peer ends the line. -/
def lineEnd : List Arrival := [.data carriageReturn []]

theorem Stale.complete_lineEnd {u : Bytes} (h : Stale u s) :
    complete carriageReturn (s.withNet lineEnd).stream = s.lines ++ [u] := by
  show complete carriageReturn (s.received ++ [carriageReturn]) = _
  rw [h.received, append_assoc, complete_unlines_append h.lines, complete_append_cons h.free,
    complete_of_not_mem not_mem_nil]

theorem Stale.fits_lineEnd {u : Bytes} (h : Stale u s) :
    Fits carriageReturn s.sock.conn.readBufSize (s.received ++ dataOf lineEnd) := by
  show Fits _ _ (s.received ++ [carriageReturn])
  rw [h.received, append_assoc, fits_unlines_append h.lines, fits_append_cons h.free,
    fits_of_not_mem not_mem_nil]
  exact ⟨h.short, h.fits, Nat.lt_of_le_of_lt (Nat.zero_le _) h.fits⟩

/-- The line returned has too few bytes, or too many. -/
theorem Stale.line_wrong {u : Bytes} (h : Stale u s) (hmem : carriageReturn ∉ s.sock.conn.unread)
    (hroom : s.sock.conn.unread.length < s.sock.conn.readBufSize)
    (hne : u.length ≠ s.sock.conn.unread.length) : ¬ Framing s := by
  rintro ⟨-, hall⟩
  rcases @recWithCr_line _ [] (s.withNet lineEnd).sock h.wf hmem hroom (by rfl) with
    ⟨sock', hrun, -⟩
  have hstep := @step_line (s.withNet lineEnd) _ sock' h.ready hrun
  have hframed := hall lineEnd rfl h.fits_lineEnd [.recWithCr] _ (by
    rw [Run.exec_cons, hstep]
    rfl)
  have hlines : s.lines ++ [s.sock.conn.unread] <+:
      complete carriageReturn (s.withNet lineEnd).stream := hframed.1
  rw [h.complete_lineEnd, prefix_append_right_inj] at hlines
  have hsame := hlines.eq_of_length rfl
  exact hne (congrArg List.length (List.cons.inj hsame).1).symm

/-- There is no room for the rest of the line. -/
theorem Stale.line_lost {u : Bytes} (h : Stale u s) (hmem : carriageReturn ∉ s.sock.conn.unread)
    (hfull : s.sock.conn.unread.length = s.sock.conn.readBufSize) : ¬ Framing s := by
  rintro ⟨-, hall⟩
  rcases @recWithCr_full (s.withNet lineEnd).sock h.wf hmem hfull _ _ _ rfl with ⟨sock', hrun⟩
  have hstep := @step_error (s.withNet lineEnd) _ sock' h.ready hrun
  have hframed := hall lineEnd rfl h.fits_lineEnd [.recWithCr] _ (by
    rw [Run.exec_cons, hstep]
    rfl)
  have hlines : s.lines = complete carriageReturn (s.withNet lineEnd).stream := hframed.2 rfl
  rw [h.complete_lineEnd] at hlines
  have hlen := congrArg List.length hlines
  rw [length_append, length_singleton] at hlen
  omega

theorem Stale.not_framing {u : Bytes} (h : Stale u s)
    (hne : u.length ≠ s.sock.conn.sizeCurrReadBuf) : ¬ Framing s := by
  have hlen := h.length_unread
  by_cases hmem : carriageReturn ∈ s.sock.conn.unread
  · exact h.line_invented hmem
  · by_cases hroom : s.sock.conn.unread.length < s.sock.conn.readBufSize
    · exact h.line_wrong hmem hroom (hlen ▸ hne)
    · exact h.line_lost hmem
        (Nat.le_antisymm (Connection.unread_length_le _) (Nat.le_of_not_lt hroom))

theorem step_breaks (op : Op) (hclean : ¬ Clean s op) (hstep : step s op = some s')
    (h : Inv readBufSize s) : ¬ Framing s' := by
  cases op with
  | stepBack => exact absurd trivial hclean
  | recWithCr =>
    have hbad : carriageReturn ∉ s.begun ∧ s.begun.length ≠ s.sock.conn.sizeCurrReadBuf := by
      constructor
      · exact fun hmem => hclean fun hno => absurd hmem hno
      · exact fun hlen => hclean fun _ _ => hlen
    rcases h.call_quiet hbad.1 with ⟨conn', hsz, hcurr, hpos, htake, heq⟩
    rw [heq] at hstep
    rcases Option.map_eq_some_iff.mp hstep with ⟨net, hlater, rfl⟩
    have hfits := h.fits
    rw [h.stream_begun, fits_unlines_append h.lines] at hfits
    have hstale : Stale s.begun { s with sock := ⟨conn', net⟩, last := none } := by
      refine ⟨h.ready, hpos, ?_, ?_, h.lines, hsz ▸ hfits.1, hbad.1, ?_⟩
      · show conn'.sizeCurrReadBuf ≤ conn'.readBufSize
        rw [hcurr, hsz, ← h.size]
        exact h.wf.size_le
      · have hstream : s.stream = unlines carriageReturn s.lines ++ s.begun ++ dataOf net := by
          rw [h.stream_begun, hlater, append_assoc]
          rfl
        show s.stream.take (s.stream.length - (dataOf net).length) = _
        rw [hstream, length_append, Nat.add_sub_cancel, take_left]
      · show s.begun.length < conn'.readBufSize
        rw [hsz, ← h.size]
        exact h.begun_lt hbad.1
    exact hstale.not_framing (hcurr ▸ hbad.2)

/-! ## Whole runs -/

theorem start_inv {net : List Arrival} (hfits : Fits carriageReturn readBufSize (dataOf net)) :
    Inv readBufSize (start readBufSize net) := by
  refine ⟨⟨Nat.le_refl _, Nat.zero_le _⟩, length_replicate, ?_, nofun, hfits, nofun, rfl⟩
  show dataOf net = [] ++ (((Connection.create readBufSize).readBuf.take 0).drop 0 ++ dataOf net)
  rw [take_zero]
  rfl

/-- For every stream whose lines fit into the buffer, every way it arrives and every
sequence of calls. -/
theorem framing_iff {net : List Arrival} (hfits : Fits carriageReturn readBufSize (dataOf net))
    (ops : List Op) :
    Run.Always step Framing (start readBufSize net) ops ↔
      Run.Along step Clean (start readBufSize net) ops :=
  Run.always_iff_along step Clean (Inv readBufSize) Framing (fun _ => Inv.framing)
    (fun _ op _ => step_keeps op) (fun _ op _ => step_breaks op) ops (start_inv hfits)

/-- Two lines in three pieces, and a timeout before anything has arrived. -/
theorem framing_in_pieces :
    Fits carriageReturn 8 (dataOf [.timeout, .data 97 [], .data 10 [98], .data 10 []]) ∧
      Run.Always step Framing (start 8 [.timeout, .data 97 [], .data 10 [98], .data 10 []])
        [.recWithCr, .recWithCr, .stepBack, .recWithCr, .recWithCr] := by
  have hfits : Fits carriageReturn 8 (dataOf [.timeout, .data 97 [], .data 10 [98], .data 10 []]) := by
    unfold Fits
    decide
  refine ⟨hfits, (framing_iff hfits _).mpr ?_⟩
  rw [Run.along_cons step (by rfl), Run.along_cons step (by rfl), Run.along_cons step (by rfl),
    Run.along_cons step (by rfl), Run.along_cons step (by rfl)]
  refine ⟨?_, ?_, trivial, ?_, ?_, trivial⟩
  · exact fun _ _ => rfl
  · exact fun hno => absurd (by decide) hno
  · exact fun hno => absurd (by decide) hno
  · exact fun hno => absurd (by decide) hno

/-- The peer sends the line "a", and a timeout comes between the letter and the line
end: the line returned is empty. -/
theorem timeout_loses_byte :
    Fits carriageReturn 8 (dataOf [.data 97 [], .timeout, .data 10 []]) ∧
      ∃ s, Run.exec step (start 8 [.data 97 [], .timeout, .data 10 []]) [.recWithCr, .recWithCr] =
          some s ∧ s.lines = [[]] ∧ complete carriageReturn s.stream = [[97]] ∧ ¬ Framed s := by
  refine ⟨by unfold Fits; decide, _, rfl, rfl, rfl, ?_⟩
  rintro ⟨hlines, -⟩
  revert hlines
  decide

end IClaustron.Protocol
