import IClaustron.Lib.Run
import Mathlib.Algebra.BigOperators.Group.List.Basic
import Mathlib.Data.List.Nodup
import Mathlib.Data.List.Infix

/-!
# Comm.PartialWrite — writes that the socket takes in parts

Model of `write_socket_connection`, `send_msg` and `writev_socket_connection` of
comm/ic_connection.c. Each call of the operating system takes some of the bytes that it is
offered, or fails; the bytes are told apart by their addresses.

* `Sent` — what the whole call should do: the bytes that were taken are the first ones of
  the buffers.
* `Progress`, `Fit` — what the outcomes add up to, and which outcomes do no harm after them.
* `sent_iff` — a call does what it should for exactly those sequences of outcomes.
* `short_write_skips` — a short write that takes the first of two buffers and a part of the
  second one.

Scope limits: the statistics of the connection and the texts of its errors.
-/

namespace IClaustron.Comm.PartialWrite

open Lib List

/-- EINTR. -/
def interruptedError : Nat := 4

/-- A byte of a buffer: the number of the buffer, and the offset in it. -/
abbrev Address := Nat × Nat

/-- `IC_IOVEC`. -/
structure IoVec where
  base : Address
  len : UInt32
  deriving DecidableEq

/-- `n` bytes from an address on. -/
def bytesFrom (base : Address) (n : Nat) : List Address :=
  (List.range n).map fun i => (base.1, base.2 + i)

def IoVec.bytes (v : IoVec) : List Address := bytesFrom v.base v.len.toNat

/-- The buffers one after the other. -/
def concat (vs : List IoVec) : List Address := vs.flatMap IoVec.bytes

/-- The buffers of a vector. -/
def ioVecs : Nat → List UInt32 → List IoVec
  | _, [] => []
  | i, len :: lens => ⟨(i, 0), len⟩ :: ioVecs (i + 1) lens

/-! ## One call of the operating system -/

/-- What a call does. `late` says whether the next second has gone by when the clock is looked at
after the call. -/
inductive Outcome where
  | accepted (n : Nat) (late : Bool)
  | interrupted (late : Bool)
  | failed (code : Nat) (late : Bool)
  deriving DecidableEq

namespace Outcome

def late : Outcome → Bool
  | accepted _ late => late
  | interrupted late => late
  | failed _ late => late

/-- The return code; `ic_ssl_write` returns -EINTR and 0 instead of -1. -/
def retCode (ssl : Bool) : Outcome → Int
  | accepted n _ => n
  | interrupted _ => if ssl then -interruptedError else -1
  | failed _ _ => if ssl then 0 else -1

/-- `ic_get_last_socket_error`. -/
def lastSocketError : Outcome → Nat
  | accepted _ _ => 0
  | interrupted _ => interruptedError
  | failed code _ => code

/-- The bytes that are taken. -/
def count : Outcome → Nat
  | accepted n _ => n
  | _ => 0

/-- A call takes at least one byte, and at most as many as it is offered, or it has an error of its
own. -/
def Possible (offered : Nat) : Outcome → Prop
  | accepted n _ => 0 < n ∧ n ≤ offered
  | interrupted _ => True
  | failed code _ => code ≠ 0 ∧ code ≠ interruptedError

instance (offered : Nat) : ∀ o, Decidable (Possible offered o)
  | accepted _ _ => inferInstanceAs (Decidable (_ ∧ _))
  | interrupted _ => isTrue trivial
  | failed _ _ => inferInstanceAs (Decidable (_ ∧ _))

end Outcome

/-! ## The state of a write -/

/-- `IC_SEND_STATE`. -/
structure SendState where
  writeSize : UInt32
  loopCount : UInt32
  secsCount : UInt32
  secsToTry : UInt32
  bufSize : UInt32
  deriving DecidableEq

def SendState.init (size secsToTry : UInt32) : SendState := ⟨0, 0, 0, secsToTry, size⟩

/-- What is done after a call of the operating system. -/
inductive Reply where
  | done
  | again
  | error (code : Nat)
  deriving DecidableEq

/-- `handle_return_write`. -/
def handleReturnWrite (ssl : Bool) (o : Outcome) (st : SendState) : Reply × SendState :=
  if st.writeSize = st.bufSize then (.done, st)
  else
    let st := if st.loopCount = 0 then { st with secsCount := 0 } else st
    if o.retCode ssl = -1 then
      let error := if ssl then 1 else o.lastSocketError
      if error = interruptedError then (.again, st) else (.error error, st)
    else if st.loopCount ≠ 0 then
      if o.late ∨ st.loopCount = 1000 then
        let st := { st with secsCount := st.secsCount + 1 }
        if st.secsToTry ≤ st.secsCount then (.error interruptedError, st)
        else (.again, { st with loopCount := 1 })
      else (.again, { st with loopCount := 1 })
    else (.again, st)

/-- Where a call of one of the functions is: in `send_msg`, with the part of the vector that is left;
in `write_socket_connection` for a buffer, with the buffers behind it; at its end; or behind the
end of the vector. -/
inductive Phase where
  | sendMsg (iovecIndex : Nat) (rest : List IoVec) (st : SendState)
  | write (buf : IoVec) (rest : List IoVec) (st : SendState)
  | returned (code : Nat)
  | outside
  deriving DecidableEq

structure State where
  phase : Phase
  accepted : List Address
  deriving DecidableEq

/-- The inner loop of `send_msg`, which looks for the start of the next send; `none` behind the end of
the vector. -/
def restart (retCode : Nat) : Nat → List IoVec → Option (Nat × List IoVec)
  | _, [] => none
  | i, v :: rest =>
    if retCode < v.len.toNat then
      some (i, ⟨(v.base.1, v.base.2 + retCode), v.len - UInt32.ofNat retCode⟩ :: rest)
    else restart retCode (i + 1) rest

/-- The bytes that one call is offered. `buf_size` is a signed number: from 2^31 on it comes to `send`
as a very large one, and SSL refuses it. -/
def offered (ssl : Bool) (bufSize : UInt32) : Nat :=
  if bufSize.toNat < 2 ^ 31 then bufSize.toNat
  else if ssl then 0 else 2 ^ 64 - 2 ^ 32 + bufSize.toNat

/-- The start of `write_socket_connection` for the next buffer of a vector. -/
def writeNext (secsToTry : UInt32) : List IoVec → Phase
  | [] => .returned 0
  | v :: rest => .write v rest (.init v.len secsToTry)

/-- What the loop of `send_msg` does after a call. -/
def sendMsgReply (iovecIndex : Nat) (rest : List IoVec) : Reply × SendState → Phase
  | (.done, _) => .returned 0
  | (.error code, _) => .returned code
  | (.again, st) => .sendMsg iovecIndex rest { st with loopCount := st.loopCount + 1 }

/-- One round of the loop of `send_msg`. -/
def sendMsgRound (iovecIndex : Nat) (rest : List IoVec) (st : SendState) (o : Outcome) : Phase :=
  let st := { st with writeSize := st.writeSize + UInt32.ofNat o.count }
  let next :=
    if 0 < o.count ∧ st.writeSize < st.bufSize then restart o.count iovecIndex rest
    else some (iovecIndex, rest)
  match next with
  | none => .outside
  | some next => sendMsgReply next.1 next.2 (handleReturnWrite false o st)

/-- What the loop of `write_socket_connection` does after a call. -/
def writeReply (buf : IoVec) (rest : List IoVec) : Reply × SendState → Phase
  | (.done, st) => writeNext st.secsToTry rest
  | (.error code, _) => .returned code
  | (.again, st) => .write buf rest { st with loopCount := st.loopCount + 1 }

/-- One round of the loop of `write_socket_connection`. -/
def writeRound (ssl : Bool) (buf : IoVec) (rest : List IoVec) (st : SendState) (o : Outcome) : Phase :=
  let st :=
    if o.retCode ssl = -1 then st
    else { st with writeSize := st.writeSize + UInt32.ofInt (o.retCode ssl) }
  writeReply buf rest (handleReturnWrite ssl o st)

/-- A call of the operating system is made; `none` when it cannot have this outcome, or there is no
call any more. -/
def step (ssl : Bool) (s : State) (o : Outcome) : Option State :=
  match s.phase with
  | .sendMsg iovecIndex rest st =>
    if o.Possible (concat rest).length then
      some ⟨sendMsgRound iovecIndex rest st o, s.accepted ++ (concat rest).take o.count⟩
    else none
  | .write buf rest st =>
    if o.Possible (offered ssl (buf.len - st.writeSize)) then
      some ⟨writeRound ssl buf rest st o,
        s.accepted ++ bytesFrom (buf.base.1, buf.base.2 + st.writeSize.toNat) o.count⟩
    else none
  | .returned _ => none
  | .outside => none

/-! ## The calls -/

/-- The buffers of a call: at most IC_MAX_SEND_BUFFERS, none of them empty. Their whole size is a
32-bit number, which `writev_socket_connection` is given as `tot_size`. -/
structure WriteVector where
  lens : List UInt32
  length_le : lens.length ≤ 16
  pos : ∀ len ∈ lens, 0 < len.toNat
  total_lt : (lens.map UInt32.toNat).sum < 2 ^ 32

/-- A call of `writev_socket_connection`, or one of `write_socket_connection` with a single buffer. -/
inductive Call where
  | writev (v : WriteVector)
  | write (size : UInt32) (pos : 0 < size.toNat)

namespace Call

def lens : Call → List UInt32
  | writev v => v.lens
  | write size _ => [size]

/-- The concatenation of the buffers. -/
def bytes (call : Call) : List Address := concat (ioVecs 0 call.lens)

/-- `tot_size`. -/
def totSize (call : Call) : UInt32 := UInt32.ofNat (call.lens.map UInt32.toNat).sum

/-- The start of a call. -/
def start (ssl : Bool) (secsToTry : UInt32) (call : Call) : State :=
  match call, ssl with
  | writev v, false => ⟨.sendMsg 0 (ioVecs 0 v.lens) (.init call.totSize secsToTry), []⟩
  | writev v, true => ⟨writeNext secsToTry (ioVecs 0 v.lens), []⟩
  | write size _, _ => ⟨writeNext secsToTry (ioVecs 0 [size]), []⟩

end Call

/-- What a call should do: the bytes that were taken are the first ones of the buffers, the call
returns 0 when and only when all of them were taken, and `iovec_index` stays in the vector. -/
structure Sent (call : Call) (s : State) : Prop where
  accepted : s.accepted <+: call.bytes
  code : ∀ code, s.phase = .returned code → (code = 0 ↔ s.accepted = call.bytes)
  all : s.accepted = call.bytes → call.lens = [] ∨ s.phase = .returned 0
  inside : s.phase ≠ .outside
  index : ∀ iovecIndex rest st, s.phase = .sendMsg iovecIndex rest st →
    iovecIndex < call.lens.length ∨ call.lens = []

namespace Call

/-- Whether the whole vector is sent with `sendmsg`. -/
def gathers (ssl : Bool) : Call → Bool
  | writev _ => !ssl
  | write _ _ => false

end Call

/-! ## What the outcomes add up to -/

/-- The bytes left of each buffer when `n` more are taken. -/
def dropBytes : Nat → List Nat → List Nat
  | _, [] => []
  | n, r :: left => if n < r then (r - n) :: left else dropBytes (n - r) left

/-- What the outcomes so far say: the bytes left of each buffer that was not taken as a whole;
whether a short write has taken the first buffer that was left; and how often SSL was interrupted
since bytes were taken. -/
structure Progress where
  left : List Nat
  skipped : Bool
  back : Nat

namespace Progress

def start (call : Call) : Progress := ⟨call.lens.map UInt32.toNat, false, 0⟩

def first (p : Progress) : Nat := p.left.headD 0

def next (ssl : Bool) (p : Progress) : Outcome → Progress
  | .accepted n _ => ⟨dropBytes n p.left, p.skipped || (p.first ≤ n && n != p.left.sum), 0⟩
  | .interrupted _ => if ssl then { p with back := p.back + 1 } else p
  | .failed _ _ => p

/-- The interruptions that take `write_size` from `r` bytes in front of the size of a buffer, modulo
2^32, to that size. -/
def rounds (r : Nat) : Nat := 2 ^ 30 - r / 4

/-- With one interruption more each buffer that is left is passed over. -/
def Passed (p : Progress) : Prop :=
  (∀ r ∈ p.left, 4 ∣ r) ∧ p.back + 1 = (p.left.map rounds).sum

end Progress

/-- When an outcome does no harm, given what the outcomes in front of it add up to. `sendmsg` takes
bytes only where no short write has taken the first buffer that was left, and takes all bytes or
less than there are in some buffer that is left. A write of a single buffer takes no more than is
left of it, and only after no interruptions of SSL, or after a multiple of 2^30 of them in a buffer
that they do not pass over; and SSL is not interrupted until the last buffer is passed over. -/
def Fit (ssl : Bool) (call : Call) (p : Progress) : Outcome → Prop
  | .accepted n _ =>
    if call.gathers ssl then p.skipped = false ∧ (n = p.left.sum ∨ ∃ r ∈ p.left, n < r)
    else n ≤ p.first ∧ (p.back = 0 ∨ 2 ^ 30 ∣ p.back ∧ ¬ 4 ∣ p.first)
  | .interrupted _ => ssl = true → ¬ p.Passed
  | .failed _ _ => True

/-! ## Addresses -/

@[simp] theorem length_bytesFrom (base : Address) (n : Nat) : (bytesFrom base n).length = n := by
  simp [bytesFrom]

variable {i most n : Nat} {v : IoVec} {rest' : List IoVec} {late : Bool}

theorem mem_bytesFrom {base x : Address} :
    x ∈ bytesFrom base n ↔ x.1 = base.1 ∧ base.2 ≤ x.2 ∧ x.2 < base.2 + n := by
  unfold bytesFrom
  rw [mem_map]
  constructor
  · rintro ⟨i, hi, rfl⟩
    rw [mem_range] at hi
    exact ⟨rfl, Nat.le_add_right _ _, Nat.add_lt_add_left hi _⟩
  · rintro ⟨hBuf, hLe, hLt⟩
    refine ⟨x.2 - base.2, mem_range.mpr (by omega), ?_⟩
    rw [← hBuf, Nat.add_sub_cancel' hLe]

theorem nodup_bytesFrom (base : Address) (n : Nat) : (bytesFrom base n).Nodup := by
  refine List.Nodup.map ?_ nodup_range
  intro i j h
  exact Nat.add_left_cancel (congrArg Prod.snd h)

theorem bytesFrom_add (base : Address) (m n : Nat) :
    bytesFrom base (m + n) = bytesFrom base m ++ bytesFrom (base.1, base.2 + m) n := by
  unfold bytesFrom
  rw [range_add, map_append, map_map]
  simp only [Function.comp_def, Nat.add_assoc]

/-- A part of some bytes that begin at an address. -/
theorem getElem?_bytesFrom (base : Address) (h : i < n) :
    (bytesFrom base n)[i]? = some (base.1, base.2 + i) := by
  unfold bytesFrom
  rw [getElem?_map, getElem?_range h]
  rfl

@[simp] theorem concat_nil : concat [] = [] := rfl

@[simp] theorem concat_cons (v : IoVec) (vs : List IoVec) :
    concat (v :: vs) = v.bytes ++ concat vs := rfl

theorem concat_append (vs ws : List IoVec) : concat (vs ++ ws) = concat vs ++ concat ws :=
  flatMap_append

theorem ioVecs_append (i : Nat) (lens lens' : List UInt32) :
    ioVecs i (lens ++ lens') = ioVecs i lens ++ ioVecs (i + lens.length) lens' := by
  induction lens generalizing i with
  | nil => rfl
  | cons len lens ih =>
    rw [cons_append, ioVecs, ioVecs, ih, cons_append, length_cons,
      Nat.add_right_comm, Nat.add_assoc]

theorem map_len_ioVecs (i : Nat) (lens : List UInt32) : (ioVecs i lens).map IoVec.len = lens := by
  induction lens generalizing i with
  | nil => rfl
  | cons len lens ih => rw [ioVecs, map_cons, ih]

theorem length_ioVecs (i : Nat) (lens : List UInt32) : (ioVecs i lens).length = lens.length := by
  rw [← length_map IoVec.len, map_len_ioVecs]

theorem length_concat (vs : List IoVec) :
    (concat vs).length = (vs.map fun v => v.len.toNat).sum := by
  induction vs with
  | nil => rfl
  | cons v vs ih =>
    rw [concat_cons, length_append, ih, map_cons, sum_cons]
    exact congrArg (· + _) (length_bytesFrom _ _)

/-- The buffers of a vector are those from its first number on. -/
theorem mem_concat_ioVecs {lens : List UInt32} {x : Address} (h : x ∈ concat (ioVecs i lens)) :
    i ≤ x.1 ∧ x.1 < i + lens.length := by
  induction lens generalizing i with
  | nil => cases h
  | cons len lens ih =>
    rw [ioVecs, concat_cons, mem_append] at h
    rw [length_cons]
    rcases h with h | h
    · have := (mem_bytesFrom.mp h).1
      dsimp only at this
      omega
    · have := ih h
      omega

theorem nodup_concat_ioVecs (i : Nat) (lens : List UInt32) : (concat (ioVecs i lens)).Nodup := by
  induction lens generalizing i with
  | nil => exact nodup_nil
  | cons len lens ih =>
    rw [ioVecs, concat_cons]
    refine List.Nodup.append (nodup_bytesFrom _ _) (ih (i + 1)) ?_
    intro x hx hx'
    have hBuf := (mem_bytesFrom.mp hx).1
    have hRest := (mem_concat_ioVecs hx').1
    dsimp only at hBuf
    omega

theorem map_toNat_ioVecs (i : Nat) (lens : List UInt32) :
    ((ioVecs i lens).map fun v => v.len.toNat) = lens.map UInt32.toNat := by
  show (ioVecs i lens).map (UInt32.toNat ∘ IoVec.len) = _
  rw [← map_map, map_len_ioVecs]

theorem length_concat_ioVecs (i : Nat) (lens : List UInt32) :
    (concat (ioVecs i lens)).length = (lens.map UInt32.toNat).sum := by
  rw [length_concat, map_toNat_ioVecs]

/-! ## Prefixes -/

section Prefixes

variable {α : Type} {accepted all rest ys : List α} {x : α}

/-- The next byte of a prefix. -/
theorem getElem?_of_prefix (h : accepted ++ x :: ys <+: all) : all[accepted.length]? = some x := by
  rcases h with ⟨t, rfl⟩
  simp

/-- A prefix and a suffix that make up the whole length. -/
theorem eq_append_of_prefix_suffix (hPrefix : accepted <+: all) (hSuffix : rest <:+ all)
    (hLen : accepted.length + rest.length = all.length) : all = accepted ++ rest := by
  rcases hPrefix with ⟨t, rfl⟩
  have hLen' : rest.length = t.length := by
    rw [length_append] at hLen
    omega
  rw [(suffix_of_suffix_length_le hSuffix (suffix_append accepted t) hLen'.le).eq_of_length
    hLen']

/-- The first element of a suffix stands at its own place only. -/
theorem not_prefix_of_suffix (hNodup : all.Nodup) (hSuffix : x :: rest <:+ all)
    (hLen : accepted.length + (x :: rest).length ≠ all.length) :
    ¬ accepted ++ x :: ys <+: all := by
  intro hPrefix
  have hAt := getElem?_of_prefix hPrefix
  rcases hSuffix with ⟨t, rfl⟩
  have hAt' : (t ++ x :: rest)[t.length]? = some x := by simp
  refine hLen ?_
  rw [length_append]
  have hLt : t.length < (t ++ x :: rest).length := by simp
  rw [(getElem?_inj hLt hNodup).mp (hAt'.trans hAt.symm)]

end Prefixes

/-! ## The restart -/

/-- There is a place to go on from when a buffer is longer than what was taken. -/
theorem restart_isSome {rest : List IoVec} :
    (restart n i rest).isSome ↔ ∃ v ∈ rest, n < v.len.toNat := by
  induction rest generalizing i with
  | nil => simp [restart]
  | cons v rest ih =>
    unfold restart
    split_ifs with h
    · simp [h]
    · rw [ih]
      simp [h]

theorem toNat_sub_ofNat {len : UInt32} (h : n ≤ len.toNat) :
    (len - UInt32.ofNat n).toNat = len.toNat - n := by
  have hn : (UInt32.ofNat n).toNat = n := by
    rw [UInt32.toNat_ofNat']
    exact Nat.mod_eq_of_lt (h.trans_lt len.toNat_lt)
  rw [UInt32.toNat_sub_of_le _ _ (by rw [UInt32.le_iff_toNat_le, hn]; exact h), hn]

theorem bytes_restart (h : n < v.len.toNat) :
    v.bytes = bytesFrom v.base n ++
      IoVec.bytes ⟨(v.base.1, v.base.2 + n), v.len - UInt32.ofNat n⟩ := by
  unfold IoVec.bytes
  dsimp only
  rw [toNat_sub_ofNat h.le, ← bytesFrom_add, Nat.add_sub_cancel' h.le]

/-- A restart in the first buffer that is left. -/
theorem restart_cons {rest : List IoVec} (h : n < v.len.toNat) :
    restart n i (v :: rest) =
      some (i, ⟨(v.base.1, v.base.2 + n), v.len - UInt32.ofNat n⟩ :: rest) := if_pos h

/-- What is left in the vector is a last part of what was there: all but the bytes that were taken
when the first buffer is longer than these, and less otherwise. -/
theorem restart_spec {i' : Nat} {rest : List IoVec} (h : restart n i rest = some (i', rest'))
    (hPos : ∀ v ∈ rest, 0 < v.len.toNat) :
    concat rest' <:+ concat rest ∧ i' + rest'.length = i + rest.length ∧ rest' ≠ [] ∧
      (∀ v ∈ rest', 0 < v.len.toNat) ∧ (concat rest').length + n ≤ (concat rest).length := by
  induction rest generalizing i with
  | nil => cases h
  | cons v rest ih =>
    by_cases hn : n < v.len.toNat
    · rw [restart_cons hn] at h
      cases h
      have hBytes : concat (v :: rest) = bytesFrom v.base n ++
          concat (⟨(v.base.1, v.base.2 + n), v.len - UInt32.ofNat n⟩ :: rest) := by
        rw [concat_cons, concat_cons, bytes_restart hn, append_assoc]
      refine ⟨hBytes ▸ suffix_append _ _, rfl, cons_ne_nil _ _, ?_, ?_⟩
      · intro w hw
        rcases mem_cons.mp hw with rfl | hw
        · show 0 < (v.len - UInt32.ofNat n).toNat
          rw [toNat_sub_ofNat hn.le]
          exact Nat.sub_pos_of_lt hn
        · exact hPos w (mem_cons_of_mem _ hw)
      · rw [hBytes, length_append, length_bytesFrom, Nat.add_comm]
    · rw [restart, if_neg hn] at h
      rcases ih h fun w hw => hPos w (mem_cons_of_mem _ hw) with ⟨hSuffix, hLen, hne, hPos', hLe⟩
      refine ⟨hSuffix.trans (suffix_append _ _), ?_, hne, hPos', ?_⟩
      · rw [hLen, length_cons, Nat.add_assoc, Nat.add_comm 1]
      · rw [concat_cons, length_append]
        exact hLe.trans (Nat.le_add_left _ _)

theorem sum_dropBytes {left : List Nat} (h : n ≤ left.sum) :
    (dropBytes n left).sum + n = left.sum := by
  induction left generalizing n with
  | nil => exact (Nat.zero_add n).trans (Nat.le_zero.mp h)
  | cons r left ih =>
    rw [sum_cons] at h ⊢
    unfold dropBytes
    split_ifs with hn
    · rw [sum_cons]
      omega
    · have := ih (n := n - r) (by omega)
      omega

theorem dropBytes_zero {left : List Nat} (h : ∀ r ∈ left, 0 < r) : dropBytes 0 left = left := by
  cases left with
  | nil => rfl
  | cons r left => rw [dropBytes, if_pos (h r mem_cons_self), Nat.sub_zero]

/-! ## The return of a write -/

variable {ssl : Bool} {o : Outcome} {st st' : SendState} {call : Call} {s s' : State}

/-- A write is at an end when the whole size has been written; an error is none of 0. -/
theorem handleReturnWrite_spec (ssl : Bool) (st : SendState) (h : o.Possible most) :
    match handleReturnWrite ssl o st with
    | (.done, _) => st.writeSize = st.bufSize
    | (.error code, _) => st.writeSize ≠ st.bufSize ∧ code ≠ 0
    | (.again, st') => st.writeSize ≠ st.bufSize ∧ st'.writeSize = st.writeSize ∧
        st'.bufSize = st.bufSize := by
  unfold handleReturnWrite
  by_cases hAll : st.writeSize = st.bufSize
  · rw [if_pos hAll]
    exact hAll
  rw [if_neg hAll]
  dsimp only
  have hFirst : (if st.loopCount = 0 then { st with secsCount := 0 } else st).writeSize =
        st.writeSize ∧
      (if st.loopCount = 0 then { st with secsCount := 0 } else st).bufSize = st.bufSize := by
    split_ifs <;> exact ⟨rfl, rfl⟩
  generalize (if st.loopCount = 0 then { st with secsCount := 0 } else st) = st₁ at hFirst
  by_cases hError : o.retCode ssl = -1
  · rw [if_pos hError]
    split_ifs with hSsl hEq hEq
    · exact ⟨hAll, hFirst⟩
    · exact ⟨hAll, by decide⟩
    · exact ⟨hAll, hFirst⟩
    · refine ⟨hAll, ?_⟩
      cases o with
      | accepted n late =>
        exfalso
        change (n : Int) = -1 at hError
        omega
      | interrupted late => exact absurd rfl hEq
      | failed code late => exact h.1
  · rw [if_neg hError]
    split_ifs
    · exact ⟨hAll, by decide⟩
    · exact ⟨hAll, hFirst⟩
    · exact ⟨hAll, hFirst⟩
    · exact ⟨hAll, hFirst⟩

/-! ## The invariant -/

theorem Call.pos (call : Call) : ∀ len ∈ call.lens, 0 < len.toNat := by
  cases call with
  | writev v => exact v.pos
  | write size pos =>
    intro len hLen
    rw [Call.lens, mem_singleton] at hLen
    rwa [hLen]

theorem Call.length_bytes (call : Call) : call.bytes.length = (call.lens.map UInt32.toNat).sum :=
  length_concat_ioVecs 0 call.lens

theorem Call.nodup_bytes (call : Call) : call.bytes.Nodup := nodup_concat_ioVecs 0 call.lens

/-- In `send_msg` the vector has a last part of the bytes left, and all of them unless a short write
has taken the first buffer that was left. -/
structure SendMsgInv (call : Call) (p : Progress) (accepted : List Address) (iovecIndex : Nat)
    (rest : List IoVec) (st : SendState) : Prop where
  taken : accepted <+: call.bytes
  suffix : concat rest <:+ call.bytes
  pos : ∀ v ∈ rest, 0 < v.len.toNat
  index : iovecIndex + rest.length = call.lens.length
  bufSize : st.bufSize = call.totSize
  writeSize : st.writeSize.toNat = accepted.length
  total_lt : call.bytes.length < 2 ^ 32
  total : accepted.length + p.left.sum = call.bytes.length
  straight : p.skipped = false → (rest.map fun v => v.len.toNat) = p.left
  skewed : p.skipped = true →
    rest ≠ [] ∧ accepted.length + (concat rest).length ≠ call.bytes.length

/-- In `write_socket_connection` the buffers that follow are those of the vector. The first of the
buffers with bytes left may have been passed over; `q` bytes of the buffer at hand are left, and
`write_size` is `4 * k` in front of them. -/
structure WriteInv (ssl : Bool) (call : Call) (p : Progress) (accepted : List Address)
    (before : List UInt32) (buf : IoVec) (after : List UInt32) (rest : List IoVec) (st : SendState)
    (passed : List Nat) (q k : Nat) : Prop where
  taken : accepted <+: call.bytes
  lens : call.lens = before ++ buf.len :: after
  base : buf.base = (before.length, 0)
  rest_eq : rest = ioVecs (before.length + 1) after
  bufSize : st.bufSize = buf.len
  total : accepted.length + p.left.sum = call.bytes.length
  left : p.left = passed ++ q :: after.map UInt32.toNat
  passedOk : ∀ x ∈ passed, 4 ∣ x ∧ 0 < x ∧ x < 2 ^ 32
  back : p.back = (passed.map Progress.rounds).sum + k
  noBack : ssl = false → p.back = 0
  writeSize : st.writeSize = buf.len - UInt32.ofNat (q + 4 * k)
  pos : 0 < q
  le : q ≤ buf.len.toNat
  whole : passed ≠ [] → q = buf.len.toNat
  more : 4 ∣ q → k < Progress.rounds q

def Inv (ssl : Bool) (call : Call) (s : State) (p : Progress) : Prop :=
  match s.phase with
  | .sendMsg iovecIndex rest st =>
    call.gathers ssl = true ∧ SendMsgInv call p s.accepted iovecIndex rest st ∧
      (s.accepted = call.bytes → call.lens = [])
  | .write buf rest st =>
    call.gathers ssl = false ∧ ∃ before after passed q k,
      WriteInv ssl call p s.accepted before buf after rest st passed q k
  | _ => Sent call s

/-- A call that has come to its end. -/
theorem sent_returned {accepted : List Address} {code : Nat} (hTaken : accepted <+: call.bytes)
    (hCode : code = 0 ↔ accepted = call.bytes) : Sent call ⟨.returned code, accepted⟩ where
  accepted := hTaken
  code := by
    rintro code' hEq
    cases hEq
    exact hCode
  all := fun hAll => .inr (congrArg Phase.returned (hCode.mpr hAll))
  inside := nofun
  index := nofun

variable {p : Progress} {iovecIndex : Nat} {rest : List IoVec} {accepted : List Address}
  {before after : List UInt32} {buf : IoVec} {passed : List Nat} {q k : Nat}

section

variable (h : WriteInv ssl call p accepted before buf after rest st passed q k)

include h

theorem WriteInv.room : accepted.length + passed.sum + q =
    (before.map UInt32.toNat).sum + buf.len.toNat := by
  have hTotal := h.total
  rw [h.left, call.length_bytes, h.lens, map_append, sum_append, sum_append, map_cons, sum_cons,
    sum_cons] at hTotal
  omega

theorem WriteInv.ne_bytes : accepted ≠ call.bytes := by
  intro hAll
  have hTotal := h.total
  have hPos := h.pos
  rw [h.left, ← hAll, sum_append, sum_cons] at hTotal
  omega

end

theorem SendMsgInv.rest_ne (h : SendMsgInv call p accepted iovecIndex rest st)
    (hOpen : accepted ≠ call.bytes) : rest ≠ [] := by
  cases hSkipped : p.skipped with
  | true => exact (h.skewed hSkipped).1
  | false =>
    rintro rfl
    have hTotal := h.total
    rw [← h.straight hSkipped] at hTotal
    exact hOpen (h.taken.eq_of_length hTotal)

theorem Inv.sent (h : Inv ssl call s p) : Sent call s := by
  rcases s with ⟨phase, accepted⟩
  cases phase with
  | sendMsg iovecIndex rest st =>
    rcases h with ⟨-, h, hOpen⟩
    refine ⟨h.taken, nofun, fun hAll => .inl (hOpen hAll), nofun, ?_⟩
    intro i r st' hEq
    cases hEq
    by_cases hAll : accepted = call.bytes
    · exact .inr (hOpen hAll)
    · refine .inl ?_
      rw [← h.index]
      exact Nat.lt_add_of_pos_right (length_pos_iff.mpr (h.rest_ne hAll))
  | write buf rest st =>
    rcases h with ⟨-, before, after, passed, q, k, h⟩
    exact ⟨h.taken, nofun, fun hAll => absurd hAll h.ne_bytes, nofun, nofun⟩
  | returned code => exact h
  | outside => exact h

/-! ## The start -/



/-- The next buffer of a vector, or its end. -/
theorem inv_writeNext (secsToTry : UInt32) (hGathers : call.gathers ssl = false)
    (hTaken : accepted <+: call.bytes) (hLens : call.lens = before ++ after)
    (hTotal : accepted.length + p.left.sum = call.bytes.length)
    (hLeft : p.left = passed ++ after.map UInt32.toNat)
    (hPassed : ∀ x ∈ passed, 4 ∣ x ∧ 0 < x ∧ x < 2 ^ 32)
    (hBack : p.back = (passed.map Progress.rounds).sum) (hNoBack : ssl = false → p.back = 0)
    (hAll : after = [] → accepted = call.bytes) :
    Inv ssl call ⟨writeNext secsToTry (ioVecs before.length after), accepted⟩ p := by
  cases after with
  | nil => exact sent_returned hTaken (iff_of_true rfl (hAll rfl))
  | cons len after =>
    have hPos := call.pos len (by rw [hLens]; simp)
    have hSize : (0 : UInt32) = len - UInt32.ofNat (len.toNat + 4 * 0) := by
      rw [Nat.mul_zero, Nat.add_zero, UInt32.ofNat_toNat, UInt32.sub_self]
    refine ⟨hGathers, before, after, passed, len.toNat, 0, hTaken, hLens, rfl, rfl, rfl, hTotal,
      hLeft, hPassed, hBack, hNoBack, hSize, hPos, le_rfl, fun _ => rfl, fun _ => ?_⟩
    have hLt := len.toNat_lt
    unfold Progress.rounds
    omega

theorem len_mem_of_mem_ioVecs {lens : List UInt32} (h : v ∈ ioVecs i lens) : v.len ∈ lens := by
  rw [← map_len_ioVecs i lens]
  exact mem_map_of_mem h

theorem bytes_eq_nil_iff : call.bytes = [] ↔ call.lens = [] := by
  constructor
  · intro h
    cases hLens : call.lens with
    | nil => rfl
    | cons len lens =>
      have hPos := call.pos len (by rw [hLens]; exact mem_cons_self)
      have hLen := call.length_bytes
      rw [h, hLens, map_cons, sum_cons, length_nil] at hLen
      omega
  · intro h
    rw [Call.bytes, h]
    rfl

theorem start_inv (ssl : Bool) (secsToTry : UInt32) (call : Call) :
    Inv ssl call (call.start ssl secsToTry) (.start call) := by
  have hTotal : 0 + (call.lens.map UInt32.toNat).sum = call.bytes.length := by
    rw [Nat.zero_add, call.length_bytes]
  have hNext (hGathers : call.gathers ssl = false) :
      Inv ssl call ⟨writeNext secsToTry (ioVecs 0 call.lens), []⟩ (.start call) := by
    have hNil : call.lens = [] → [] = call.bytes := fun h => (bytes_eq_nil_iff.mpr h).symm
    exact inv_writeNext secsToTry hGathers nil_prefix (nil_append _).symm hTotal (nil_append _).symm
      (fun _ hx => absurd hx not_mem_nil) rfl (fun _ => rfl) hNil
  cases call with
  | write size pos => cases ssl <;> exact hNext rfl
  | writev v =>
    cases ssl with
    | true => exact hNext rfl
    | false =>
      refine ⟨rfl, ⟨List.nil_prefix, suffix_refl _, ?_, ?_, rfl, rfl, ?_, hTotal, ?_, ?_⟩, ?_⟩
      · exact fun w hw => v.pos _ (len_mem_of_mem_ioVecs hw)
      · rw [Nat.zero_add, length_ioVecs]
        rfl
      · rw [Call.length_bytes]
        exact v.total_lt
      · exact fun _ => map_toNat_ioVecs 0 v.lens
      · intro h
        cases h
      · exact fun h => bytes_eq_nil_iff.mp h.symm

/-! ## Rounds of `send_msg` -/

section

variable (h : SendMsgInv call p accepted iovecIndex rest st)

include h

theorem SendMsgInv.toNat_bufSize : st.bufSize.toNat = call.bytes.length := by
  rw [h.bufSize, Call.totSize, UInt32.toNat_ofNat', ← call.length_bytes]
  exact Nat.mod_eq_of_lt h.total_lt

theorem SendMsgInv.size_iff : st.writeSize = st.bufSize ↔ accepted = call.bytes := by
  rw [← UInt32.toNat_inj, h.writeSize, h.toNat_bufSize]
  exact ⟨h.taken.eq_of_length, congrArg List.length⟩

theorem SendMsgInv.toNat_add (hn : n ≤ p.left.sum) :
    (st.writeSize + UInt32.ofNat n).toNat = accepted.length + n := by
  have hTotal := h.total
  have hLt := h.total_lt
  rw [UInt32.toNat_add, UInt32.toNat_ofNat', h.writeSize, Nat.add_mod_mod]
  exact Nat.mod_eq_of_lt (by omega)

theorem SendMsgInv.short_iff (hn : n ≤ p.left.sum) :
    st.writeSize + UInt32.ofNat n < st.bufSize ↔ n < p.left.sum := by
  have hTotal := h.total
  rw [UInt32.lt_iff_toNat_lt, h.toNat_add hn, h.toNat_bufSize]
  omega

end

theorem SendMsgInv.reply (hGathers : call.gathers ssl = true)
    (h : SendMsgInv call p accepted iovecIndex rest st) (ho : o.Possible most) :
    Inv ssl call ⟨sendMsgReply iovecIndex rest (handleReturnWrite false o st), accepted⟩ p := by
  have hReturn := handleReturnWrite_spec false st ho
  rcases hReply : handleReturnWrite false o st with ⟨_ | _ | code, st'⟩
  · rw [hReply] at hReturn
    exact sent_returned h.taken (iff_of_true rfl (h.size_iff.mp hReturn))
  · rw [hReply] at hReturn
    rcases hReturn with ⟨hOpen, hWrite, hBuf⟩
    refine ⟨hGathers, { h with bufSize := ?_, writeSize := ?_ }, ?_⟩
    · exact hBuf.trans h.bufSize
    · exact (congrArg UInt32.toNat hWrite).trans h.writeSize
    · exact fun hAll => absurd (h.size_iff.mpr hAll) hOpen
  · rw [hReply] at hReturn
    rcases hReturn with ⟨hOpen, hCode⟩
    exact sent_returned h.taken (iff_of_false hCode (mt h.size_iff.mpr hOpen))

/-- A round in which no bytes are taken. -/
theorem sendMsgRound_none (hCount : o.count = 0) : sendMsgRound iovecIndex rest st o =
    sendMsgReply iovecIndex rest (handleReturnWrite false o st) := by
  have hAdd : st.writeSize + UInt32.ofNat 0 = st.writeSize := UInt32.add_zero _
  unfold sendMsgRound
  dsimp only
  rw [hCount, if_neg (fun h => Nat.lt_irrefl 0 h.1), hAdd]

/-- A round in which bytes are taken. -/
theorem sendMsgRound_accepted (hn : 0 < n) :
    sendMsgRound iovecIndex rest st (.accepted n late) =
      match (if st.writeSize + UInt32.ofNat n < st.bufSize then restart n iovecIndex rest
        else some (iovecIndex, rest)) with
      | none => .outside
      | some next => sendMsgReply next.1 next.2 (handleReturnWrite false (.accepted n late)
          { st with writeSize := st.writeSize + UInt32.ofNat n }) := by
  have hCount : (Outcome.accepted n late).count = n := rfl
  unfold sendMsgRound
  simp only [hCount, hn, true_and]

section

variable (h : SendMsgInv call p accepted iovecIndex rest st)

include h

/-- Bytes are taken from the place that the vector begins at. -/
theorem SendMsgInv.bytes_eq (hStraight : p.skipped = false) :
    call.bytes = accepted ++ concat rest ∧ (concat rest).length = p.left.sum := by
  have hLen : (concat rest).length = p.left.sum := by
    rw [length_concat, h.straight hStraight]
  exact ⟨eq_append_of_prefix_suffix h.taken h.suffix (by rw [hLen, h.total]), hLen⟩

/-- The restart after a short write. -/
theorem SendMsgInv.restart (hStraight : p.skipped = false) (hLt : n < p.left.sum)
    {i' : Nat} (hNext : PartialWrite.restart n iovecIndex rest = some (i', rest'))
    (hSize : st'.writeSize.toNat = accepted.length + n) (hBuf : st'.bufSize = call.totSize) :
    SendMsgInv call (p.next ssl (.accepted n late)) (accepted ++ (concat rest).take n) i' rest'
      st' := by
  rcases h.bytes_eq hStraight with ⟨hAll, hRest⟩
  rcases restart_spec hNext h.pos with ⟨hSuffix, hIndex, hne, hPos, -⟩
  have hLen : (accepted ++ (concat rest).take n).length = accepted.length + n := by
    rw [length_append, length_take, Nat.min_eq_left (hRest ▸ hLt.le)]
  have hDrop := sum_dropBytes hLt.le
  have hTotal := h.total
  have hSkipped : (p.next ssl (.accepted n late)).skipped = decide (p.first ≤ n) := by
    show (p.skipped || (p.first ≤ n && n != p.left.sum)) = _
    rw [hStraight, bne_iff_ne.mpr hLt.ne]
    simp
  cases rest with
  | nil => cases hNext
  | cons v rest =>
    have hFirst : p.first = v.len.toNat := by
      unfold Progress.first
      rw [← h.straight hStraight]
      rfl
    refine ⟨?_, hSuffix.trans h.suffix, hPos, hIndex.trans h.index, hBuf, hSize.trans hLen.symm,
      h.total_lt, ?_, ?_, ?_⟩
    · rw [hAll, prefix_append_right_inj]
      exact take_prefix _ _
    · rw [hLen]
      show _ + (dropBytes n p.left).sum = _
      omega
    · intro hShort
      rw [hSkipped, decide_eq_false_iff_not, hFirst, Nat.not_le] at hShort
      rw [restart_cons hShort] at hNext
      cases hNext
      show _ = dropBytes n p.left
      rw [← h.straight hStraight, map_cons, map_cons, dropBytes, if_pos hShort,
        toNat_sub_ofNat hShort.le]
    · intro hLong
      rw [hSkipped, decide_eq_true_iff, hFirst] at hLong
      refine ⟨hne, ?_⟩
      rw [PartialWrite.restart, if_neg (Nat.not_lt.mpr hLong)] at hNext
      have hLe := (restart_spec hNext fun w hw => h.pos w (mem_cons_of_mem _ hw)).2.2.2.2
      have hPosV := h.pos v mem_cons_self
      have hLenV : (concat (v :: rest)).length = v.len.toNat + (concat rest).length := by
        rw [concat_cons, length_append]
        exact congrArg (· + _) (length_bytesFrom _ _)
      rw [hLen]
      omega

end


section

variable (h : SendMsgInv call p accepted iovecIndex rest st)

include h

/-- The bytes of a round are the next ones. -/
theorem SendMsgInv.round (hGathers : call.gathers ssl = true)
    (ho : (Outcome.accepted n late).Possible (concat rest).length)
    (hStraight : p.skipped = false) (hMore : n = p.left.sum ∨ ∃ r ∈ p.left, n < r) :
    Inv ssl call ⟨sendMsgRound iovecIndex rest st (.accepted n late),
      accepted ++ (concat rest).take n⟩ (p.next ssl (.accepted n late)) := by
  rcases h.bytes_eq hStraight with ⟨hAll, hRest⟩
  have hn : n ≤ p.left.sum := hRest ▸ ho.2
  have hWrite := h.toNat_add hn
  have hShort := h.short_iff hn
  rw [sendMsgRound_accepted ho.1]
  by_cases hLt : n < p.left.sum
  · -- the next send begins in one of the buffers that are left
    rw [if_pos (hShort.mpr hLt)]
    have hSome : ∃ v ∈ rest, n < v.len.toNat := by
      rcases hMore with hEq | ⟨r, hr, hn⟩
      · exact absurd hEq hLt.ne
      · rw [← h.straight hStraight] at hr
        rcases mem_map.mp hr with ⟨v, hv, rfl⟩
        exact ⟨v, hv, hn⟩
    rcases Option.isSome_iff_exists.mp (restart_isSome.mpr hSome) with ⟨next, hNext⟩
    rw [hNext]
    exact SendMsgInv.reply hGathers (h.restart hStraight hLt hNext hWrite h.bufSize) ho
  · -- all bytes have been taken
    rw [if_neg (mt hShort.mp hLt)]
    have hTake : accepted ++ (concat rest).take n = call.bytes := by
      rw [hAll, take_of_length_le (by omega)]
    have hDone : st.writeSize + UInt32.ofNat n = st.bufSize := by
      have hTotal := h.total
      rw [← UInt32.toNat_inj, hWrite, h.toNat_bufSize]
      omega
    show Inv ssl call ⟨sendMsgReply _ _ (handleReturnWrite false _ _), _⟩ _
    unfold handleReturnWrite
    rw [if_pos hDone, hTake]
    exact sent_returned prefix_rfl (iff_of_true rfl rfl)

/-- A fit outcome in `send_msg`. -/
theorem SendMsgInv.keep (hGathers : call.gathers ssl = true) (ho : o.Possible (concat rest).length)
    (hFit : Fit ssl call p o) :
    Inv ssl call ⟨sendMsgRound iovecIndex rest st o, accepted ++ (concat rest).take o.count⟩
      (p.next ssl o) := by
  have hSsl : ssl = false := by
    cases ssl with
    | false => rfl
    | true => cases call <;> cases hGathers
  cases o with
  | accepted n late =>
    rw [Fit, if_pos hGathers] at hFit
    exact h.round hGathers ho hFit.1 hFit.2
  | interrupted late =>
    rw [sendMsgRound_none rfl, show Outcome.count (.interrupted late) = 0 from rfl, take_zero,
      append_nil, hSsl]
    exact SendMsgInv.reply (hSsl ▸ hGathers) h ho
  | failed code late =>
    rw [sendMsgRound_none rfl, show Outcome.count (.failed code late) = 0 from rfl, take_zero,
      append_nil]
    exact h.reply hGathers ho

/-- Any other outcome breaks the call. -/
theorem SendMsgInv.break (hGathers : call.gathers ssl = true)
    (ho : o.Possible (concat rest).length) (hNo : ¬ Fit ssl call p o) :
    ¬ Sent call ⟨sendMsgRound iovecIndex rest st o, accepted ++ (concat rest).take o.count⟩ := by
  intro hSent
  cases o with
  | accepted n late =>
    rw [Fit, if_pos hGathers] at hNo
    have hTaken : accepted ++ (concat rest).take n <+: call.bytes := hSent.accepted
    cases hSkipped : p.skipped with
    | false =>
      -- the inner loop runs off the vector
      have hn : n ≤ p.left.sum := (h.bytes_eq hSkipped).2 ▸ ho.2
      have hNone : ¬ ∃ v ∈ rest, n < v.len.toNat := by
        rintro ⟨v, hv, hn⟩
        refine hNo ⟨hSkipped, .inr ⟨v.len.toNat, ?_, hn⟩⟩
        rw [← h.straight hSkipped]
        exact mem_map_of_mem hv
      have hShort : n < p.left.sum := Nat.lt_of_le_of_ne hn fun hEq => hNo ⟨hSkipped, .inl hEq⟩
      refine hSent.inside ?_
      show sendMsgRound iovecIndex rest st (.accepted n late) = .outside
      have hRestart : PartialWrite.restart n iovecIndex rest = none := by
        rw [← Option.not_isSome_iff_eq_none, restart_isSome]
        exact hNone
      rw [sendMsgRound_accepted ho.1, if_pos ((h.short_iff hn).mpr hShort), hRestart]
    | true =>
      cases hRest : concat rest with
      | nil =>
        rw [hRest] at ho
        exact absurd ho.2 (Nat.not_le.mpr ho.1)
      | cons x xs =>
        rw [hRest, ← Nat.succ_pred_eq_of_pos ho.1, take_succ_cons] at hTaken
        refine not_prefix_of_suffix call.nodup_bytes (hRest ▸ h.suffix) ?_ hTaken
        rw [← hRest]
        exact (h.skewed hSkipped).2
  | interrupted late =>
    refine hNo fun hSsl => ?_
    subst hSsl
    cases call <;> cases hGathers
  | failed code late => exact hNo trivial

end

/-! ## Rounds of `write_socket_connection` -/

section

variable (h : WriteInv ssl call p accepted before buf after rest st passed q k)

include h

theorem WriteInv.bytes_eq :
    call.bytes = concat (ioVecs 0 before) ++ (buf.bytes ++ concat rest) := by
  have hBuf : buf = ⟨(before.length, 0), buf.len⟩ := by
    rw [← h.base]
  rw [Call.bytes, h.lens, ioVecs_append, concat_append, ioVecs, concat_cons, Nat.zero_add, ← hBuf,
    ← h.rest_eq]

/-- The bytes of the buffer at hand. -/
theorem WriteInv.lt_of_mem (hMem : (buf.base.1, i) ∈ call.bytes) : i < buf.len.toNat := by
  rw [h.bytes_eq, mem_append, mem_append, h.rest_eq] at hMem
  have hBase : buf.base.1 = before.length := by rw [h.base]
  have hBase₂ : buf.base.2 = 0 := by rw [h.base]
  rcases hMem with hMem | hMem | hMem
  · have := (mem_concat_ioVecs hMem).2
    dsimp only at this
    omega
  · have := (mem_bytesFrom.mp hMem).2.2
    rwa [hBase₂, Nat.zero_add] at this
  · have := (mem_concat_ioVecs hMem).1
    dsimp only at this
    omega

theorem WriteInv.getElem?_bytes (hi : i < buf.len.toNat) :
    call.bytes[(before.map UInt32.toNat).sum + i]? = some (buf.base.1, i) := by
  have hBase₂ : buf.base.2 = 0 := by rw [h.base]
  have hBytes : buf.bytes[i]? = some (buf.base.1, i) := by
    have := getElem?_bytesFrom buf.base hi
    rwa [hBase₂, Nat.zero_add] at this
  rw [h.bytes_eq, ← length_concat_ioVecs 0, getElem?_append_right (Nat.le_add_right _ _),
    Nat.add_sub_cancel_left, getElem?_append_left, hBytes]
  exact hi.trans_eq (length_bytesFrom _ _).symm

/-- A byte of the buffer can only be taken after all bytes in front of it. -/
theorem WriteInv.next {ys : List Address}
    (hPrefix : accepted ++ (buf.base.1, i) :: ys <+: call.bytes) :
    accepted.length = (before.map UInt32.toNat).sum + i := by
  have hAt := getElem?_of_prefix hPrefix
  have hi := h.lt_of_mem (List.mem_of_getElem? hAt)
  have hLt : accepted.length < call.bytes.length := (List.getElem?_eq_some_iff.mp hAt).1
  exact (List.getElem?_inj hLt call.nodup_bytes).mp (hAt.trans (h.getElem?_bytes hi).symm)

/-- After a number of interruptions `write_size` is the size of the buffer. -/
theorem WriteInv.size_iff {m : Nat} (hm : m ≤ k + 1) :
    buf.len - UInt32.ofNat (q + 4 * m) = buf.len ↔ 4 ∣ q ∧ m = Progress.rounds q := by
  have hPos := h.pos
  have hLe := h.le
  have hMore := h.more
  have hLt := buf.len.toNat_lt
  rw [← UInt32.toNat_inj, UInt32.toNat_sub, UInt32.toNat_ofNat']
  unfold Progress.rounds at hMore ⊢
  omega

theorem WriteInv.passed_eq
    (hStraight : accepted.length = (before.map UInt32.toNat).sum + st.writeSize.toNat) :
    passed = [] := by
  have hRoom := h.room
  cases hPassed : passed with
  | nil => rfl
  | cons x xs =>
    have hx := (h.passedOk x (by rw [hPassed]; exact mem_cons_self)).2.1
    have hWhole := h.whole (by rw [hPassed]; exact cons_ne_nil _ _)
    rw [hPassed, sum_cons] at hRoom
    omega

/-- The next bytes of the buffer. -/
theorem WriteInv.taken_append
    (hStraight : accepted.length = (before.map UInt32.toNat).sum + st.writeSize.toNat)
    (hn : st.writeSize.toNat + n ≤ buf.len.toNat) :
    accepted ++ bytesFrom (buf.base.1, buf.base.2 + st.writeSize.toNat) n <+: call.bytes := by
  -- the buffer is what was taken of it, what is taken now, and the rest
  have hSplit : buf.bytes = bytesFrom buf.base st.writeSize.toNat ++
      (bytesFrom (buf.base.1, buf.base.2 + st.writeSize.toNat) n ++
        bytesFrom (buf.base.1, buf.base.2 + (st.writeSize.toNat + n))
          (buf.len.toNat - (st.writeSize.toNat + n))) := by
    unfold IoVec.bytes
    conv_lhs => rw [← Nat.add_sub_cancel' hn]
    rw [bytesFrom_add, bytesFrom_add, append_assoc]
  have hOld : accepted = concat (ioVecs 0 before) ++ bytesFrom buf.base st.writeSize.toNat := by
    have hPrefix : concat (ioVecs 0 before) ++ bytesFrom buf.base st.writeSize.toNat <+:
        call.bytes := by
      rw [h.bytes_eq, hSplit]
      simp only [append_assoc]
      rw [prefix_append_right_inj]
      exact prefix_append _ _
    have hLen : accepted.length =
        (concat (ioVecs 0 before) ++ bytesFrom buf.base st.writeSize.toNat).length := by
      rw [length_append, length_concat_ioVecs, length_bytesFrom, hStraight]
    exact (prefix_of_prefix_length_le h.taken hPrefix hLen.le).eq_of_length hLen
  rw [hOld, h.bytes_eq, hSplit]
  simp only [append_assoc]
  rw [prefix_append_right_inj, prefix_append_right_inj]
  exact prefix_append _ _

/-- With one interruption more the last buffer is passed over. -/
theorem WriteInv.passed_iff : p.Passed ↔ after = [] ∧ 4 ∣ q ∧ k + 1 = Progress.rounds q := by
  have hMore := h.more
  unfold Progress.Passed
  rw [h.left, h.back, map_append, sum_append, map_cons, sum_cons]
  constructor
  · rintro ⟨hAll, hSum⟩
    have hq : 4 ∣ q := hAll q (by simp)
    have hk := hMore hq
    cases after with
    | nil => exact ⟨rfl, hq, by simpa [Nat.add_assoc] using hSum⟩
    | cons len after =>
      have hLt := len.toNat_lt
      rw [map_cons, map_cons, sum_cons] at hSum
      unfold Progress.rounds at hSum hk
      omega
  · rintro ⟨rfl, hq, hk⟩
    refine ⟨fun r hr => ?_, by rw [Nat.add_assoc, hk]; rfl⟩
    rw [map_nil, mem_append, mem_singleton] at hr
    rcases hr with hr | rfl
    · exact (h.passedOk r hr).1
    · exact hq

theorem WriteInv.size_back : st.writeSize - UInt32.ofNat interruptedError =
    buf.len - UInt32.ofNat (q + 4 * (k + 1)) := by
  rw [h.writeSize, ← UInt32.toNat_inj]
  simp only [UInt32.toNat_sub, UInt32.toNat_ofNat', interruptedError]
  omega

/-- The bytes taken go up to the place of the next ones. -/
theorem WriteInv.straight_iff :
    accepted.length = (before.map UInt32.toNat).sum + st.writeSize.toNat ↔
      p.back = 0 ∨ 2 ^ 30 ∣ p.back ∧ ¬ 4 ∣ p.first := by
  have hRoom := h.room
  have hPos := h.pos
  have hLe := h.le
  have hLt := buf.len.toNat_lt
  have hBack := h.back
  have hFirst : p.first = (passed ++ q :: after.map UInt32.toNat).headD 0 := by
    rw [← h.left]
    rfl
  cases hPassed : passed with
  | nil =>
    rw [hPassed, sum_nil] at hRoom
    rw [hPassed] at hBack hFirst
    change p.back = 0 + k at hBack
    change p.first = q at hFirst
    have hMore := h.more
    unfold Progress.rounds at hMore
    rw [hFirst, hBack, h.writeSize, UInt32.toNat_sub, UInt32.toNat_ofNat']
    omega
  | cons x xs =>
    have hx := h.passedOk x (by rw [hPassed]; exact mem_cons_self)
    have hWhole := h.whole (by rw [hPassed]; exact cons_ne_nil _ _)
    rw [hPassed, sum_cons] at hRoom
    rw [hPassed] at hBack hFirst
    rw [map_cons, sum_cons] at hBack
    change p.first = x at hFirst
    unfold Progress.rounds at hBack
    rw [hFirst]
    omega

end

theorem toNat_ofInt_natCast (h : n < 2 ^ 32) : (UInt32.ofInt n).toNat = n := by
  unfold UInt32.ofInt
  rw [UInt32.toNat_ofNat']
  omega

/-- A round in which no bytes are taken leaves `write_size` alone, but for EINTR with SSL. -/
theorem writeRound_none (hCount : o.count = 0) (hSsl : ssl = true → ∀ late, o ≠ .interrupted late) :
    writeRound ssl buf rest st o = writeReply buf rest (handleReturnWrite ssl o st) := by
  have hAdd : st.writeSize + UInt32.ofInt 0 = st.writeSize := UInt32.add_zero _
  unfold writeRound
  cases o with
  | accepted n late =>
    cases hCount
    show writeReply _ _ (handleReturnWrite _ _ { st with writeSize := st.writeSize + .ofInt 0 }) = _
    rw [hAdd]
  | interrupted late =>
    cases ssl with
    | true => exact absurd rfl (hSsl rfl late)
    | false => rfl
  | failed code late =>
    cases ssl with
    | true =>
      show writeReply _ _ (handleReturnWrite _ _ { st with writeSize := st.writeSize + .ofInt 0 }) = _
      rw [hAdd]
    | false => rfl

/-- EINTR with SSL takes `write_size` back by its number. -/
theorem writeRound_interrupted : writeRound true buf rest st (.interrupted late) =
    writeReply buf rest (handleReturnWrite true (.interrupted late)
      { st with writeSize := st.writeSize - UInt32.ofNat interruptedError }) := by
  unfold writeRound
  rw [UInt32.sub_eq_add_neg]
  rfl

/-- After a round the next buffer comes, or the same one again, or the call ends with an error. -/
theorem inv_writeReply (hBuf : st.bufSize = buf.len) (ho : o.Possible most)
    (hDone : st.writeSize = buf.len → ∀ secsToTry,
      Inv ssl call ⟨writeNext secsToTry rest, accepted⟩ p)
    (hOpen : st.writeSize ≠ buf.len → ∀ st', st'.writeSize = st.writeSize → st'.bufSize = buf.len →
      Inv ssl call ⟨.write buf rest st', accepted⟩ p) :
    Inv ssl call ⟨writeReply buf rest (handleReturnWrite ssl o st), accepted⟩ p := by
  have hReturn := handleReturnWrite_spec ssl st ho
  rcases hReply : handleReturnWrite ssl o st with ⟨_ | _ | code, st'⟩
  · rw [hReply] at hReturn
    exact hDone (hReturn.trans hBuf) st'.secsToTry
  · rw [hReply] at hReturn
    rcases hReturn with ⟨hSize, hWrite, hBuf'⟩
    exact hOpen (hBuf ▸ hSize) _ hWrite (hBuf'.trans hBuf)
  · rw [hReply] at hReturn
    rcases hReturn with ⟨hSize, hCode⟩
    rcases hOpen (hBuf ▸ hSize) st rfl hBuf with ⟨-, _, _, _, _, _, h⟩
    exact sent_returned h.taken (iff_of_false hCode h.ne_bytes)

section

variable (hGathers : call.gathers ssl = false)
  (h : WriteInv ssl call p accepted before buf after rest st passed q k)

include hGathers h

/-- The buffer behind the one at hand. -/
theorem WriteInv.writeNext {accepted' : List Address} (p' : Progress) (passed' : List Nat)
    (secsToTry : UInt32) (hTaken : accepted' <+: call.bytes)
    (hTotal : accepted'.length + p'.left.sum = call.bytes.length)
    (hLeft : p'.left = passed' ++ after.map UInt32.toNat)
    (hOver : ∀ x ∈ passed', 4 ∣ x ∧ 0 < x ∧ x < 2 ^ 32)
    (hBack : p'.back = (passed'.map Progress.rounds).sum) (hNoBack : ssl = false → p'.back = 0)
    (hAll : after = [] → accepted' = call.bytes) :
    Inv ssl call ⟨writeNext secsToTry rest, accepted'⟩ p' := by
  have hLens : call.lens = (before ++ [buf.len]) ++ after := by
    rw [h.lens, append_assoc, singleton_append]
  have hNext : ioVecs (before ++ [buf.len]).length after = rest := by
    rw [h.rest_eq, length_append, length_singleton]
  rw [← hNext]
  exact inv_writeNext secsToTry hGathers hTaken hLens hTotal hLeft hOver hBack hNoBack hAll

/-- The bytes of a round are the next ones of the buffer. -/
theorem WriteInv.round (ho : (Outcome.accepted n late).Possible most)
    (hStraight : accepted.length = (before.map UInt32.toNat).sum + st.writeSize.toNat)
    (hn : n ≤ p.first) :
    Inv ssl call ⟨writeRound ssl buf rest st (.accepted n late),
      accepted ++ bytesFrom (buf.base.1, buf.base.2 + st.writeSize.toNat) n⟩
      (p.next ssl (.accepted n late)) := by
  have hRoom := h.room
  have hPassed : passed = [] := h.passed_eq hStraight
  subst hPassed
  have hLeft : p.left = q :: after.map UInt32.toNat := h.left
  have hFirst : p.first = q := congrArg (headD · 0) hLeft
  have hTotal := h.total
  rw [hLeft, sum_cons] at hTotal
  rw [hFirst] at hn
  rw [sum_nil] at hRoom
  have hTaken : accepted ++ bytesFrom (buf.base.1, buf.base.2 + st.writeSize.toNat) n <+:
      call.bytes := h.taken_append hStraight (by omega)
  have hLen : (accepted ++ bytesFrom (buf.base.1, buf.base.2 + st.writeSize.toNat) n).length =
      accepted.length + n := by
    rw [length_append, length_bytesFrom]
  have hWrite : (st.writeSize + UInt32.ofInt n).toNat = st.writeSize.toNat + n := by
    have hSize := buf.len.toNat_lt
    rw [UInt32.toNat_add, toNat_ofInt_natCast (by omega)]
    exact Nat.mod_eq_of_lt (by omega)
  have hRet : (Outcome.accepted n late).retCode ssl = n := rfl
  unfold writeRound
  rw [hRet, if_neg (by omega)]
  refine inv_writeReply h.bufSize ho ?_ ?_
  · intro hDone secsToTry
    -- the buffer is done
    have hAllOf : n = q := by
      rw [← UInt32.toNat_inj] at hDone
      change (st.writeSize + UInt32.ofInt n).toNat = _ at hDone
      omega
    have hDrop : (p.next ssl (.accepted n late)).left = after.map UInt32.toNat := by
      show dropBytes n p.left = _
      rw [hLeft, dropBytes, if_neg (by omega), hAllOf, Nat.sub_self, dropBytes_zero]
      intro x hx
      rcases mem_map.mp hx with ⟨len, hLen, rfl⟩
      exact call.pos len (by rw [h.lens]; simp [hLen])
    refine h.writeNext hGathers (p.next ssl (.accepted n late)) [] secsToTry hTaken ?_ hDrop
      (fun _ hx => absurd hx not_mem_nil) rfl
      (fun _ => rfl) fun hNil => hTaken.eq_of_length ?_
    · rw [hDrop, hLen]
      omega
    · rw [hLen]
      rw [hNil, map_nil, sum_nil] at hTotal
      omega
  · intro hOpen st' hSize hBuf
    -- bytes of the buffer are left
    have hLt : n < q := by
      refine Nat.lt_of_le_of_ne hn fun hEq => hOpen (UInt32.toNat_inj.mp ?_)
      change (st.writeSize + UInt32.ofInt n).toNat = _
      omega
    have hDrop : (p.next ssl (.accepted n late)).left = (q - n) :: after.map UInt32.toNat := by
      show dropBytes n p.left = _
      rw [hLeft, dropBytes, if_pos hLt]
    refine ⟨hGathers, before, after, [], q - n, 0, hTaken, h.lens, h.base, h.rest_eq, hBuf, ?_, hDrop,
      fun _ hx => absurd hx not_mem_nil, rfl, fun _ => rfl, ?_, ?_, ?_, fun hNil => absurd rfl hNil,
      fun _ => ?_⟩
    · rw [hDrop, hLen, sum_cons]
      omega
    · rw [hSize, ← UInt32.toNat_inj, UInt32.toNat_sub, UInt32.toNat_ofNat']
      change (st.writeSize + UInt32.ofInt n).toNat = _
      have hSize := buf.len.toNat_lt
      omega
    · omega
    · exact (Nat.sub_le _ _).trans h.le
    · have hLe := h.le
      have hSize := buf.len.toNat_lt
      unfold Progress.rounds
      omega

/-- A round that leaves the size that has been written alone. -/
theorem WriteInv.stay (ho : o.Possible most)
    (hRound : writeRound ssl buf rest st o = writeReply buf rest (handleReturnWrite ssl o st)) :
    Inv ssl call ⟨writeRound ssl buf rest st o, accepted⟩ p := by
  rw [hRound]
  refine inv_writeReply h.bufSize ho ?_ fun _ st' hSize hBuf => ?_
  · intro hDone
    rw [h.writeSize, h.size_iff (Nat.le_succ k)] at hDone
    exact absurd hDone.2 (h.more hDone.1).ne
  · exact ⟨hGathers, before, after, passed, q, k,
      { h with bufSize := hBuf, writeSize := hSize.trans h.writeSize }⟩

/-- A fit outcome in `write_socket_connection`. -/
theorem WriteInv.keep (ho : o.Possible most) (hFit : Fit ssl call p o) :
    Inv ssl call ⟨writeRound ssl buf rest st o,
      accepted ++ bytesFrom (buf.base.1, buf.base.2 + st.writeSize.toNat) o.count⟩
      (p.next ssl o) := by
  have hNone : bytesFrom (buf.base.1, buf.base.2 + st.writeSize.toNat) 0 = [] := rfl
  cases o with
  | accepted n late =>
    rw [Fit, hGathers, if_neg Bool.false_ne_true] at hFit
    exact h.round hGathers ho (h.straight_iff.mpr hFit.2) hFit.1
  | interrupted late =>
    rw [show Outcome.count (.interrupted late) = 0 from rfl, hNone, append_nil]
    cases ssl with
    | false => exact h.stay hGathers ho (writeRound_none rfl nofun)
    | true =>
      rw [writeRound_interrupted]
      -- `write_size` goes down by the number of the error and may meet the length
      refine inv_writeReply h.bufSize ho ?_ fun hOpen st' hSize hBuf => ?_
      · -- the buffer is passed over
        intro hDone secsToTry
        rw [h.size_back, h.size_iff le_rfl] at hDone
        have hLt := h.le.trans_lt buf.len.toNat_lt
        have hBack := h.back
        refine h.writeNext hGathers { p with back := p.back + 1 } (passed ++ [q]) secsToTry
          h.taken h.total ?_ ?_ ?_ nofun fun hNil => ?_
        · rw [append_assoc, singleton_append]
          exact h.left
        · intro x hx
          rcases mem_append.mp hx with hx | hx
          · exact h.passedOk x hx
          · rw [mem_singleton.mp hx]
            exact ⟨hDone.1, h.pos, hLt⟩
        · rw [map_append, sum_append, map_singleton, sum_singleton, ← hDone.2, ← Nat.add_assoc,
            ← hBack]
        · exact absurd (h.passed_iff.mpr ⟨hNil, hDone⟩) (hFit rfl)
      · rw [h.size_back] at hSize hOpen
        rw [ne_eq, h.size_iff le_rfl] at hOpen
        refine ⟨hGathers, before, after, passed, q, k + 1, { h with
          bufSize := hBuf
          back := ?_
          noBack := nofun
          writeSize := hSize
          more := fun hq => ?_ }⟩
        · show p.back + 1 = _
          rw [h.back, Nat.add_assoc]
        · exact Nat.lt_of_le_of_ne (h.more hq) fun hk => hOpen ⟨hq, hk⟩
  | failed code late =>
    rw [show Outcome.count (.failed code late) = 0 from rfl, hNone, append_nil]
    exact h.stay hGathers ho (writeRound_none rfl fun _ _ => Outcome.noConfusion)

/-- Any other outcome breaks the call. -/
theorem WriteInv.break (ho : o.Possible most) (hNo : ¬ Fit ssl call p o) :
    ¬ Sent call ⟨writeRound ssl buf rest st o,
      accepted ++ bytesFrom (buf.base.1, buf.base.2 + st.writeSize.toNat) o.count⟩ := by
  intro hSent
  have hBase₂ : buf.base.2 = 0 := by rw [h.base]
  cases o with
  | accepted n late =>
    rw [Fit, hGathers, if_neg Bool.false_ne_true] at hNo
    have hTaken : accepted ++ bytesFrom (buf.base.1, buf.base.2 + st.writeSize.toNat) n <+:
        call.bytes := hSent.accepted
    rw [hBase₂, Nat.zero_add] at hTaken
    have hStraight : accepted.length = (before.map UInt32.toNat).sum + st.writeSize.toNat := by
      rcases Nat.exists_eq_add_of_lt ho.1 with ⟨m, rfl⟩
      rw [Nat.zero_add, Nat.add_comm m, bytesFrom_add] at hTaken
      exact h.next hTaken
    have hInside : st.writeSize.toNat < buf.len.toNat := by
      refine h.lt_of_mem (hTaken.subset (mem_append_right _ (mem_bytesFrom.mpr ?_)))
      exact ⟨rfl, le_rfl, Nat.lt_add_of_pos_right ho.1⟩
    have hPassed := h.passed_eq hStraight
    have hRoom := h.room
    have hFirst : p.first = q := by
      have hLeft := h.left
      rw [hPassed] at hLeft
      exact congrArg (headD · 0) hLeft
    rw [hPassed, sum_nil] at hRoom
    refine hNo ⟨?_, h.straight_iff.mp hStraight⟩
    -- the byte behind the buffer is none of the bytes of the call
    by_contra hMore
    refine Nat.lt_irrefl buf.len.toNat (h.lt_of_mem (hTaken.subset (mem_append_right _
      (mem_bytesFrom.mpr ⟨rfl, hInside.le, ?_⟩))))
    dsimp only
    omega
  | interrupted late =>
    refine hNo fun hSsl hPassed => ?_
    subst hSsl
    rcases h.passed_iff.mp hPassed with ⟨hNil, hDone⟩
    have hSize := (h.size_iff le_rfl).mpr hDone
    rw [← h.size_back] at hSize
    -- the last buffer is passed over, so the call says that all is written
    have hRest : rest = [] := by
      rw [h.rest_eq, hNil]
      rfl
    have hReturned : (Sent call ⟨.returned 0, accepted⟩) := by
      have hAccepted : accepted ++ bytesFrom (buf.base.1, buf.base.2 + st.writeSize.toNat)
          (Outcome.count (.interrupted late)) = accepted := append_nil _
      rw [hAccepted, writeRound_interrupted] at hSent
      unfold handleReturnWrite at hSent
      rw [if_pos (hSize.trans h.bufSize.symm), hRest] at hSent
      exact hSent
    exact h.ne_bytes ((hReturned.code 0 rfl).mp rfl)
  | failed code late => exact hNo trivial

end

/-! ## Runs -/

/-- What a call of the operating system can do in a state of the invariant. -/
theorem step_cases (hStep : step ssl s o = some s') :
    (∃ i rest st, s.phase = .sendMsg i rest st ∧ o.Possible (concat rest).length ∧
      s' = ⟨sendMsgRound i rest st o, s.accepted ++ (concat rest).take o.count⟩) ∨
    ∃ buf rest st, s.phase = .write buf rest st ∧
      o.Possible (offered ssl (buf.len - st.writeSize)) ∧
      s' = ⟨writeRound ssl buf rest st o,
        s.accepted ++ bytesFrom (buf.base.1, buf.base.2 + st.writeSize.toNat) o.count⟩ := by
  unfold step at hStep
  cases hPhase : s.phase with
  | sendMsg i rest st =>
    rw [hPhase] at hStep
    dsimp only at hStep
    split_ifs at hStep with ho
    exact .inl ⟨i, rest, st, rfl, ho, (Option.some.inj hStep).symm⟩
  | write buf rest st =>
    rw [hPhase] at hStep
    dsimp only at hStep
    split_ifs at hStep with ho
    exact .inr ⟨buf, rest, st, rfl, ho, (Option.some.inj hStep).symm⟩
  | returned code =>
    rw [hPhase] at hStep
    cases hStep
  | outside =>
    rw [hPhase] at hStep
    cases hStep

theorem step_inv (ssl : Bool) (call : Call) (s : State) (o : Outcome) (s' : State) (p : Progress)
    (hFit : Fit ssl call p o) (hStep : step ssl s o = some s') (h : Inv ssl call s p) :
    Inv ssl call s' (p.next ssl o) := by
  rcases s with ⟨phase, accepted⟩
  rcases step_cases hStep with ⟨i, rest, st, hPhase, ho, rfl⟩ | ⟨buf, rest, st, hPhase, ho, rfl⟩
  · cases hPhase
    rcases h with ⟨hGathers, h, -⟩
    exact h.keep hGathers ho hFit
  · cases hPhase
    rcases h with ⟨hGathers, before, after, passed, q, k, h⟩
    exact h.keep hGathers ho hFit

theorem step_break (ssl : Bool) (call : Call) (s : State) (o : Outcome) (s' : State) (p : Progress)
    (hNo : ¬ Fit ssl call p o) (hStep : step ssl s o = some s') (h : Inv ssl call s p) :
    ¬ Sent call s' := by
  rcases s with ⟨phase, accepted⟩
  rcases step_cases hStep with ⟨i, rest, st, hPhase, ho, rfl⟩ | ⟨buf, rest, st, hPhase, ho, rfl⟩
  · cases hPhase
    rcases h with ⟨hGathers, h, -⟩
    exact h.break hGathers ho hNo
  · cases hPhase
    rcases h with ⟨hGathers, before, after, passed, q, k, h⟩
    exact h.break hGathers ho hNo

/-- A call sends the first bytes of its buffers all along exactly if each outcome of a call that is
made fits what the outcomes in front of it add up to. -/
theorem sent_iff (ssl : Bool) (secsToTry : UInt32) (call : Call) (outcomes : List Outcome) :
    Run.Always (step ssl) (Sent call) (call.start ssl secsToTry) outcomes ↔
      ∀ pre o, pre ++ [o] <+: outcomes →
        (Run.exec (step ssl) (call.start ssl secsToTry) (pre ++ [o])).isSome →
          Fit ssl call (pre.foldl (Progress.next ssl) (.start call)) o :=
  Run.always_iff_history (step ssl) (Progress.next ssl) (fun p o => Fit ssl call p o) (Inv ssl call)
    (Sent call) (fun _ _ => Inv.sent) (fun s o s' p => step_inv ssl call s o s' p)
    (fun s o s' p => step_break ssl call s o s' p) outcomes (start_inv ssl secsToTry call)

/-! ## A short write over two buffers -/

/-- Buffers of 3 and of 5 bytes. -/
def twoBuffers : WriteVector where
  lens := [3, 5]
  length_le := by decide
  pos := by simp
  total_lt := by decide

/-- The socket takes 4 bytes, and then one more: the fifth byte of the second buffer, where it should
have been the second one. -/
theorem short_write_skips : ¬ Run.Always (step false) (Sent (.writev twoBuffers))
    ((Call.writev twoBuffers).start false 1) [.accepted 4 false, .accepted 1 false] := by
  intro h
  have hRun : ∃ s, Run.exec (step false) ((Call.writev twoBuffers).start false 1)
      [.accepted 4 false, .accepted 1 false] = some s ∧
        s.accepted = [(0, 0), (0, 1), (0, 2), (1, 0), (1, 4)] :=
    ⟨_, rfl, by decide⟩
  rcases hRun with ⟨s, hRun, hAccepted⟩
  have hPrefix := (h _ s (List.prefix_refl _) hRun).accepted
  rw [hAccepted] at hPrefix
  revert hPrefix
  decide

end IClaustron.Comm.PartialWrite
