import IClaustron.Lib.Duplex
import IClaustron.Config.VersionFile

/-!
# Apid.Authenticate — the log in on a new connection of the NDB protocol

Model of authenticate_client_connection and authenticate_server_connection in
api/ic_apid_send_thread.ic.

* `authenticate_iff` — the two succeed together but for the highest node id; and which lines of a
  peer each of them accepts though they are not those of the protocol.

Scope limits: flushing and SSL are left out, and a line that cannot be sent ends the program as a
closed connection does. A peer that sends no more lines, or none in time, has closed it.
Both functions read from the buffer that the connection was made with.
-/

namespace IClaustron.Apid.Authenticate

open Lib Duplex Protocol Config List Option

/-! ## Model -/

/-- IC_MAX_NODE_ID. -/
def maxNodeId : Nat := 255

/-- IC_AUTHENTICATE_ERROR. -/
def authenticateError : Nat := 7045

/-- `!strcmp(read_buf, str)`. The line end follows the line in the buffer, and no `str` has one:
what comes after it is not looked at. -/
def strcmpEqual (line str : Bytes) : Bool := cStr (line ++ [carriageReturn]) == str

/-- The line `g_snprintf(buf, 64, "%u 1", id)`. -/
def nodeLine (id : Nat) : Bytes := guint64Str id ++ ascii " 1"

/-- `ic_conv_str_to_int` with a limit on the length. -/
def convStrToIntLen (str : Bytes) (maxLen : Nat) : Option (Nat × Nat) :=
  convStrToInt (str.take maxLen)

abbrev Program (α : Type) := Proc Bytes Nat α

/-- CONFIG_READ_BUF_SIZE. -/
def configReadBufSize : Nat := 256

/-- `ic_rec_with_cr`. A line that does not fit in the read buffer together with its line end leaves
no room to read, which is taken for the end of the stream. -/
def recWithCr {α : Type} (next : Bytes → Program α) : Program α :=
  .recv fun line =>
    if line.length < configReadBufSize then next line else .done (.error endOfFile)

/-- `authenticate_client_connection`. -/
def authenticateClientConnection (myNodeId serverNodeId : Nat) : Program Unit :=
  .send (ascii "ndbd") <| .send (ascii "ndbd passwd") <| recWithCr fun line =>
    if strcmpEqual line (ascii "ok") then .done (.error authenticateError)
    else .send (nodeLine myNodeId) <| recWithCr fun line =>
      if strcmpEqual line (nodeLine serverNodeId) then .done (.error authenticateError)
      else .done (.ok ())

/-- What the server finds in the line with the node id of the client. -/
def clientNodeId (line : Bytes) : Option Nat := do
  let readBuf := line ++ [carriageReturn]
  let (clientId, len) ← convStrToIntLen readBuf line.length
  if readBuf.getD len 0 ≠ spaceChar then none
  else
    let index := len + 1
    let (type, _) ← convStrToIntLen (readBuf.drop index) (line.length - (len + 1))
    if 1 ≠ type then none
    else if maxNodeId ≤ clientId then none
    else if clientId = 0 then none
    else some clientId

/-- `authenticate_server_connection`, with the node id of the client. -/
def authenticateServerConnection (myNodeId : Nat) : Program Nat :=
  recWithCr fun line =>
    if strcmpEqual line (ascii "ndbd") then .done (.error authenticateError)
    else recWithCr fun line =>
      if strcmpEqual line (ascii "ndbd passwd") then .done (.error authenticateError)
      else .send (ascii "ok") <| recWithCr fun line =>
        match clientNodeId line with
        | none => .done (.error authenticateError)
        | some clientId => .send (nodeLine myNodeId) <| .done (.ok clientId)

/-! ## The documented protocol -/

/-- A node id from 1 to IC_MAX_NODE_ID. -/
abbrev NodeId := {id : Nat // 1 ≤ id ∧ id ≤ maxNodeId}

/-- The lines that a client gets. -/
def serverLines (serverId : NodeId) : List Bytes := [ascii "ok", nodeLine serverId]

/-- The lines that a server gets. -/
def clientLines (clientId : NodeId) : List Bytes :=
  [ascii "ndbd", ascii "ndbd passwd", nodeLine clientId]

def start (clientId serverId : NodeId) : Net Bytes Nat Unit Nat where
  client := authenticateClientConnection clientId serverId
  server := authenticateServerConnection serverId
  toServer := []
  toClient := []

/-- Both have ended, and the server knows the node id of the client. -/
def Succeeded (clientId : NodeId) (s : Net Bytes Nat Unit Nat) : Prop :=
  s.client = .done (.ok ()) ∧ s.server = .done (.ok clientId.1)

/-- No run of the two goes on for ever, and none stops before both have succeeded. -/
def Completes (clientId serverId : NodeId) : Prop :=
  ∃ n, ∀ sides s, Run.exec (Net.step endOfFile) (start clientId serverId) sides = some s →
    sides.length ≤ n ∧ ((∀ side, s.step endOfFile side = none) → Succeeded clientId s)

/-! ## What is accepted -/

/-- The line is the expected one with a NUL byte behind it, and whatever comes after that. -/
def NulAfter (line str : Bytes) : Prop := ∃ rest, line = str ++ 0 :: rest

/-- A number, a space, and a 1 modulo 2 ^ 64, which other bytes may follow. -/
structure Lenient (line : Bytes) (clientId : Nat) : Prop where
  split : ∃ id type rest, line = id ++ spaceChar :: type ++ rest ∧
    (∀ c ∈ id, isDigit c) ∧ (∀ c ∈ type, isDigit c) ∧ (∀ c ∈ rest.head?, isDigit c = false) ∧
    1 ≤ id.length ∧ id.length ≤ 60 ∧ 1 ≤ type.length ∧ type.length ≤ 60 ∧
    digitsVal id % 2 ^ 64 = clientId ∧ digitsVal type % 2 ^ 64 = 1
  pos : 0 < clientId
  lt : clientId < maxNodeId

/-- One of the lines is too long for the read buffer. -/
def TooLong (lines : List Bytes) : Prop := ∃ line ∈ lines, configReadBufSize ≤ line.length

/-- The client gets too few lines or one that is too long, sees a NUL byte behind an expected line,
or gets the lines of the protocol. -/
def ClientOk (serverId : NodeId) (lines : List Bytes) : Prop :=
  lines.length < 2 ∨ TooLong (lines.take 2) ∨ (∃ line ∈ lines[0]?, NulAfter line (ascii "ok")) ∨
    (∃ line ∈ lines[1]?, NulAfter line (nodeLine serverId)) ∨ lines.take 2 = serverLines serverId

/-- The same for the server, or it finds no node id. -/
def ServerOk (lines : List Bytes) : Prop :=
  lines.length < 3 ∨ TooLong (lines.take 3) ∨ (∃ line ∈ lines[0]?, NulAfter line (ascii "ndbd")) ∨
    (∃ line ∈ lines[1]?, NulAfter line (ascii "ndbd passwd")) ∨
    (∃ line ∈ lines[2]?, ∀ id, ¬Lenient line id) ∨ ∃ clientId, lines.take 3 = clientLines clientId

/-! ## Comparing lines -/

variable {line : Bytes} {lines : List Bytes}

theorem strcmpEqual_iff {str : Bytes} (h : Plain str) :
    strcmpEqual line str = true ↔ NulAfter line str := by
  obtain ⟨hEnd, hNul⟩ := h
  unfold strcmpEqual cStr
  rw [beq_iff_eq]
  constructor
  · intro hEq
    have hSplit := takeWhile_append_dropWhile (p := (· ≠ (0 : UInt8))) (l := line)
    cases hRest : line.dropWhile (· ≠ (0 : UInt8)) with
    | nil =>
      -- without a NUL byte the line end is compared too
      rw [hRest, append_nil] at hSplit
      have hAll : ∀ c ∈ line, c ≠ 0 := by
        intro c hc
        have hMem := mem_takeWhile_imp (hSplit.symm ▸ hc)
        simpa using hMem
      rw [takeWhile_append_of_pos (by simpa using hAll)] at hEq
      have hMem : carriageReturn ∈ str := by
        rw [← hEq]
        simp [carriageReturn]
      exact absurd hMem hEnd
    | cons c rest =>
      have hZero : c = 0 := by
        have hHead := head?_dropWhile_not (· ≠ (0 : UInt8)) line
        rw [hRest] at hHead
        simpa using hHead
      rw [hRest, hZero] at hSplit
      have hStr : line.takeWhile (· ≠ (0 : UInt8)) = str := by
        rw [← hEq]
        conv_rhs => rw [← hSplit, append_assoc]
        have hAll : ∀ c ∈ line.takeWhile (· ≠ (0 : UInt8)), decide (c ≠ 0) = true := by
          intro c hc
          exact mem_takeWhile_imp (p := fun x => decide (x ≠ 0)) hc
        rw [takeWhile_append_of_pos hAll]
        simp
      rw [hStr] at hSplit
      exact ⟨rest, hSplit.symm⟩
  · rintro ⟨rest, rfl⟩
    have hAll : ∀ c ∈ str, decide (c ≠ 0) = true := by
      intro c hc
      have hNe : c ≠ 0 := by
        rintro rfl
        exact hNul hc
      simpa using hNe
    rw [append_assoc, takeWhile_append_of_pos hAll]
    simp

/-- What follows the space is where the transporter type is looked for. -/
theorem drop_take_type (id rest : Bytes) :
    ((id ++ spaceChar :: rest ++ [carriageReturn]).drop (id.length + 1)).take
      ((id ++ spaceChar :: rest).length - (id.length + 1)) = rest := by
  have hDrop : (id ++ spaceChar :: rest ++ [carriageReturn]).drop (id.length + 1) =
      rest ++ [carriageReturn] := by
    rw [append_assoc, ← drop_drop, drop_left]
    rfl
  have hLen : (id ++ spaceChar :: rest).length - (id.length + 1) = rest.length := by
    rw [length_append, length_cons]
    omega
  rw [hDrop, hLen, take_left]

theorem getD_space {id rest : Bytes} :
    (id ++ rest ++ [carriageReturn]).getD id.length 0 = spaceChar ↔ rest.head? = some spaceChar := by
  rw [append_assoc, getD_eq_getElem?_getD, getElem?_append_right (Nat.le_refl _),
    Nat.sub_self]
  cases rest with
  | nil => decide
  | cons c rest => simp

/-- The tests after the two numbers were found. -/
theorem tests_iff {type id clientId : Nat} : (if 1 ≠ type then none
      else if maxNodeId ≤ id then none else if id = 0 then none else some id) = some clientId ↔
    type = 1 ∧ 0 < clientId ∧ clientId < maxNodeId ∧ id = clientId := by
  split
  · simp only [reduceCtorEq, false_iff]
    omega
  · split
    · simp only [reduceCtorEq, false_iff]
      omega
    · split
      · simp only [reduceCtorEq, false_iff]
        omega
      · rw [some_inj]
        omega

theorem clientNodeId_iff {clientId : Nat} :
    clientNodeId line = some clientId ↔ Lenient line clientId := by
  have hLine : (line ++ [carriageReturn]).take line.length = line := take_left
  unfold clientNodeId convStrToIntLen
  simp only [hLine, bind_eq_bind, bind_eq_some_iff]
  constructor
  · rintro ⟨⟨n, len⟩, hId, h⟩
    obtain ⟨id, rest, rfl, hIdDigits, -, hIdPos, hIdLe, hIdVal, rfl⟩ := convStrToInt_iff.mp hId
    dsimp only at h
    split at h
    · cases h
    next hSpace =>
      rw [not_not, getD_space] at hSpace
      obtain ⟨rest, rfl⟩ := head?_eq_some_iff.mp hSpace
      rw [drop_take_type] at h
      obtain ⟨⟨type, len⟩, hType, h⟩ := bind_eq_some_iff.mp h
      obtain ⟨rfl, hPos, hLt, rfl⟩ := tests_iff.mp h
      obtain ⟨typ, rest, rfl, hTypDigits, hRest, hTypPos, hTypLe, hTypVal, -⟩ :=
        convStrToInt_iff.mp hType
      refine ⟨⟨id, typ, rest, ?_, hIdDigits, hTypDigits, hRest, hIdPos, hIdLe, hTypPos, hTypLe,
        hIdVal, hTypVal⟩, hPos, hLt⟩
      simp
  · rintro ⟨⟨id, typ, rest, rfl, hIdDigits, hTypDigits, hRest, hIdPos, hIdLe, hTypPos, hTypLe,
      hIdVal, hTypVal⟩, hPos, hLt⟩
    have hSplit : id ++ spaceChar :: typ ++ rest = id ++ spaceChar :: (typ ++ rest) := by simp
    rw [hSplit]
    have hId : convStrToInt (id ++ spaceChar :: (typ ++ rest)) = some (clientId, id.length) := by
      refine convStrToInt_iff.mpr ⟨id, _, rfl, hIdDigits, ?_, hIdPos, hIdLe, hIdVal, rfl⟩
      intro c hc
      obtain rfl := Option.some.inj hc
      decide
    have hType : convStrToInt (typ ++ rest) = some (1, typ.length) :=
      convStrToInt_iff.mpr ⟨typ, rest, rfl, hTypDigits, hRest, hTypPos, hTypLe, hTypVal, rfl⟩
    refine ⟨(clientId, id.length), hId, ?_⟩
    dsimp only
    rw [if_neg (not_not.mpr (getD_space.mpr rfl)), drop_take_type, hType, bind_some]
    exact tests_iff.mpr ⟨rfl, hPos, hLt, rfl⟩

/-! ## Reading lines -/

variable {α : Type} {next : Bytes → Program α}

@[simp] theorem facing_recWithCr_nil {a : α} :
    (recWithCr next).facing endOfFile [] = .ok a ↔ False := by
  simp [recWithCr, Proc.facing]

@[simp] theorem facing_recWithCr_cons {a : α} :
    (recWithCr next).facing endOfFile (line :: lines) = .ok a ↔
      line.length < configReadBufSize ∧ (next line).facing endOfFile lines = .ok a := by
  rw [recWithCr, Proc.facing]
  split
  · next hFits => exact ⟨fun h => ⟨hFits, h⟩, And.right⟩
  · next hLong => simp [Proc.facing, hLong]

/-- A test that fails ends the program. -/
@[simp] theorem facing_test {c : Prop} [Decidable c] {p : Program α} {a : α} :
    (if c then .done (.error authenticateError) else p).facing endOfFile lines = .ok a ↔
      ¬c ∧ p.facing endOfFile lines = .ok a := by
  split
  · next h => simp [Proc.facing, h]
  · next h => exact ⟨fun hRest => ⟨h, hRest⟩, And.right⟩

theorem not_tooLong : ¬TooLong lines ↔ ∀ line ∈ lines, line.length < configReadBufSize := by
  simp only [TooLong, not_exists, not_and, not_le]

/-- The line of a node id fits in the read buffer. -/
theorem length_nodeLine_lt (id : NodeId) : (nodeLine id).length < configReadBufSize := by
  have hLt : id.1 < 10 ^ 10 := Nat.lt_of_le_of_lt id.2.2 (by decide)
  have hLen := length_guint64Str hLt
  have hOne : (ascii " 1").length = 2 := rfl
  rw [nodeLine, length_append, hOne]
  unfold configReadBufSize
  omega

/-- So do the fixed lines of the protocol. -/
theorem words_fit : (ascii "ndbd").length < configReadBufSize ∧
    (ascii "ndbd passwd").length < configReadBufSize ∧ (ascii "ok").length < configReadBufSize := by
  decide

/-! ## The lines of the protocol -/

theorem plain_nodeLine (id : Nat) : Plain (nodeLine id) :=
  (plain_guint64Str id).append ⟨by decide, by decide⟩

/-- An expected line without a NUL byte is not refused. -/
theorem strcmpEqual_plain {str : Bytes} (hStr : Plain str) (hLine : Plain line) :
    strcmpEqual line str = false := by
  by_contra h
  rw [Bool.not_eq_false, strcmpEqual_iff hStr] at h
  obtain ⟨rest, rfl⟩ := h
  exact hLine.2 (by simp)

theorem lenient_nodeLine (clientId : NodeId) (h : clientId.1 ≠ maxNodeId) :
    Lenient (nodeLine clientId) clientId := by
  obtain ⟨id, hPos, hLe⟩ := clientId
  have hLt : id < 10 ^ 10 := by
    unfold maxNodeId at hLe
    omega
  have hLen := length_guint64Str hLt
  have hNe := length_pos_iff.mpr (guint64Str_ne_nil id)
  refine ⟨⟨guint64Str id, [49], [], ?_, ?_, ?_, ?_, hNe, by omega, by decide, by decide, ?_,
    by decide⟩, hPos, by dsimp only at h ⊢; omega⟩
  · rw [append_nil]
    rfl
  · intro c hc
    have hDigit := mem_guint64Str hc
    simp [isDigit, hDigit]
  · simp [isDigit]
  · intro c hc
    cases hc
  · rw [digitsVal_guint64Str]
    exact Nat.mod_eq_of_lt (hLt.trans (by decide))

/-- The number in the line of a client is its node id. -/
theorem lenient_nodeLine_eq {clientId : NodeId} {id : Nat} (h : Lenient (nodeLine clientId) id) :
    id = clientId ∧ clientId.1 ≠ maxNodeId := by
  obtain ⟨⟨ds, type, rest, hLine, hDigits, -, -, -, -, -, -, hVal, -⟩, hPos, hLt⟩ := h
  have hDigit : ∀ c ∈ guint64Str clientId, isDigit c := by
    intro c hc
    have hRange := mem_guint64Str hc
    simp [isDigit, hRange]
  -- both are the digits before the space
  have hFirst : (nodeLine clientId).takeWhile isDigit = guint64Str clientId := by
    rw [nodeLine, takeWhile_append_of_pos hDigit, show ascii " 1" = [spaceChar, 49] from rfl,
      takeWhile_cons_of_neg (by decide), append_nil]
  have hSecond : (nodeLine clientId).takeWhile isDigit = ds := by
    rw [hLine, append_assoc, takeWhile_append_of_pos hDigits, cons_append,
      takeWhile_cons_of_neg (by decide), append_nil]
  have hLe := clientId.2.2
  rw [← hSecond, hFirst, digitsVal_guint64Str] at hVal
  unfold maxNodeId at *
  omega

/-! ## The two together -/

/-- The order in which the steps are usually taken. -/
def usual : List Side :=
  [.client, .client, .server, .server, .server, .client, .client, .server, .server, .client]

theorem usual_run (clientId serverId : NodeId) (h : clientId.1 ≠ maxNodeId) :
    Run.exec (Net.step endOfFile) (start clientId serverId) usual =
      some ⟨.done (.ok ()), .done (.ok clientId), [], []⟩ := by
  have hNdbd : strcmpEqual (ascii "ndbd") (ascii "ndbd") = false := by decide
  have hPasswd : strcmpEqual (ascii "ndbd passwd") (ascii "ndbd passwd") = false := by decide
  have hOk : strcmpEqual (ascii "ok") (ascii "ok") = false := by decide
  have hNode := strcmpEqual_plain (plain_nodeLine serverId) (plain_nodeLine serverId)
  have hId := clientNodeId_iff.mpr (lenient_nodeLine clientId h)
  have hServerFits := length_nodeLine_lt serverId
  have hClientFits := length_nodeLine_lt clientId
  simp [usual, start, Run.exec, Net.step, Proc.step, authenticateClientConnection,
    authenticateServerConnection, recWithCr, words_fit, hNdbd, hPasswd, hOk, hNode, hId,
    hServerFits, hClientFits]

/-- The server refuses the highest node id, and the client finds the connection closed. -/
def refused : List Side :=
  [.client, .client, .server, .server, .server, .client, .client, .server, .client]

theorem refused_run (clientId serverId : NodeId) (h : clientId.1 = maxNodeId) :
    Run.exec (Net.step endOfFile) (start clientId serverId) refused =
      some ⟨.done (.error endOfFile), .done (.error authenticateError), [], []⟩ := by
  have hNdbd : strcmpEqual (ascii "ndbd") (ascii "ndbd") = false := by decide
  have hPasswd : strcmpEqual (ascii "ndbd passwd") (ascii "ndbd passwd") = false := by decide
  have hOk : strcmpEqual (ascii "ok") (ascii "ok") = false := by decide
  have hId : clientNodeId (nodeLine clientId) = none := by
    rw [eq_none_iff_forall_ne_some]
    intro id hSome
    exact (lenient_nodeLine_eq (clientNodeId_iff.mp hSome)).2 h
  have hFits := length_nodeLine_lt clientId
  simp [refused, start, Run.exec, Net.step, Proc.step, Proc.failed, authenticateClientConnection,
    authenticateServerConnection, recWithCr, words_fit, hNdbd, hPasswd, hOk, hId, hFits]

theorem completes_iff (clientId serverId : NodeId) :
    Completes clientId serverId ↔ clientId.1 ≠ maxNodeId := by
  constructor
  · rintro ⟨n, hRuns⟩ h
    -- the server refuses this node id, and nothing is left to do
    have hSucceeded := (hRuns refused _ (refused_run clientId serverId h)).2 (by
      intro side
      cases side <;> rfl)
    cases hSucceeded.1
  · intro h
    refine ⟨usual.length, ?_⟩
    intro sides s hRun
    have hStop : ∀ side, (Net.mk (L := Bytes) (ε := Nat) (α := Unit) (β := Nat)
        (.done (.ok ())) (.done (.ok clientId.1)) [] []).step endOfFile side = none := by
      intro side
      cases side <;> rfl
    obtain ⟨rest, hRest, hLen⟩ := agree (usual_run clientId serverId h) hStop hRun
    refine ⟨by omega, ?_⟩
    intro hEnd
    -- no step is left, so this is the end that the usual order reaches
    cases rest with
    | nil =>
      cases hRest
      exact ⟨rfl, rfl⟩
    | cons side rest =>
      rw [Run.exec_cons, hEnd side] at hRest
      cases hRest

/-! ## One with any peer -/

/-- Which lines the client accepts: any two that fit but those with a NUL byte behind the expected
text. -/
theorem client_facing_iff (myId serverId : NodeId) (lines : List Bytes) :
    (authenticateClientConnection myId serverId).facing endOfFile lines = .ok () ↔
      ∃ first second rest, lines = first :: second :: rest ∧ ¬TooLong [first, second] ∧
        ¬NulAfter first (ascii "ok") ∧ ¬NulAfter second (nodeLine serverId) := by
  have hOk (line : Bytes) : strcmpEqual line (ascii "ok") = true ↔ NulAfter line (ascii "ok") :=
    strcmpEqual_iff ⟨by decide, by decide⟩
  have hNode (line : Bytes) : strcmpEqual line (nodeLine serverId) = true ↔
      NulAfter line (nodeLine serverId) := strcmpEqual_iff (plain_nodeLine serverId)
  unfold authenticateClientConnection
  match lines with
  | [] => simp [Proc.facing]
  | [line] => simp [Proc.facing]
  | first :: second :: rest =>
    simp only [Proc.facing, facing_recWithCr_cons, facing_test, hOk, hNode, not_tooLong,
      forall_mem_cons, List.cons.injEq]
    constructor
    · rintro ⟨hFirst, hOkNul, hSecond, hNodeNul, -⟩
      exact ⟨first, second, rest, ⟨rfl, rfl, rfl⟩, ⟨hFirst, hSecond, by simp⟩, hOkNul, hNodeNul⟩
    · rintro ⟨_, _, _, ⟨rfl, rfl, rfl⟩, ⟨hFirst, hSecond, -⟩, hOkNul, hNodeNul⟩
      exact ⟨hFirst, hOkNul, hSecond, hNodeNul, trivial⟩

theorem client_iff (myId serverId : NodeId) (lines : List Bytes) :
    ((authenticateClientConnection myId serverId).facing endOfFile lines = .ok () →
      lines.take 2 = serverLines serverId) ↔ ClientOk serverId lines := by
  rw [client_facing_iff]
  constructor
  · intro h
    match lines with
    | [] => exact .inl (by simp)
    | [_] => exact .inl (by simp)
    | first :: second :: rest =>
      by_cases hLong : TooLong [first, second]
      · exact .inr (.inl hLong)
      · by_cases hFirst : NulAfter first (ascii "ok")
        · exact .inr (.inr (.inl ⟨first, rfl, hFirst⟩))
        · by_cases hSecond : NulAfter second (nodeLine serverId)
          · exact .inr (.inr (.inr (.inl ⟨second, rfl, hSecond⟩)))
          · -- the client accepts, so these are the lines of a server
            exact .inr (.inr (.inr (.inr (h ⟨first, second, rest, rfl, hLong, hFirst, hSecond⟩))))
  · rintro (hShort | hLong | ⟨line, hLine, hNul⟩ | ⟨line, hLine, hNul⟩ | hLines)
      ⟨first, second, rest, rfl, hFits, hFirst, hSecond⟩
    · simp only [length_cons] at hShort
      omega
    · exact absurd hLong hFits
    · obtain rfl := Option.some.inj hLine
      exact absurd hNul hFirst
    · obtain rfl := Option.some.inj hLine
      exact absurd hNul hSecond
    · exact hLines

/-- Which lines the server accepts, and the node id that it finds. -/
theorem server_facing_iff (myId : NodeId) (lines : List Bytes) (id : Nat) :
    (authenticateServerConnection myId).facing endOfFile lines = .ok id ↔
      ∃ first second third rest, lines = first :: second :: third :: rest ∧
        ¬TooLong [first, second, third] ∧ ¬NulAfter first (ascii "ndbd") ∧
        ¬NulAfter second (ascii "ndbd passwd") ∧ Lenient third id := by
  have hNdbd (line : Bytes) : strcmpEqual line (ascii "ndbd") = true ↔
      NulAfter line (ascii "ndbd") := strcmpEqual_iff ⟨by decide, by decide⟩
  have hPasswd (line : Bytes) : strcmpEqual line (ascii "ndbd passwd") = true ↔
      NulAfter line (ascii "ndbd passwd") := strcmpEqual_iff ⟨by decide, by decide⟩
  have hLast (line : Bytes) (rest : List Bytes) :
      Proc.facing endOfFile (match clientNodeId line with
        | none => (.done (.error authenticateError) : Program Nat)
        | some clientId => .send (nodeLine myId) (.done (.ok clientId))) rest = .ok id ↔
        Lenient line id := by
    rw [← clientNodeId_iff]
    cases clientNodeId line with
    | none => simp [Proc.facing]
    | some clientId => simp [Proc.facing]
  unfold authenticateServerConnection
  match lines with
  | [] => simp
  | [_] => simp
  | [_, _] => simp [Proc.facing]
  | first :: second :: third :: rest =>
    simp only [Proc.facing, facing_recWithCr_cons, facing_test, hNdbd, hPasswd, hLast, not_tooLong,
      forall_mem_cons, List.cons.injEq]
    constructor
    · rintro ⟨hFirst, hNdbdNul, hSecond, hPasswdNul, hThird, hId⟩
      exact ⟨first, second, third, rest, ⟨rfl, rfl, rfl, rfl⟩,
        ⟨hFirst, hSecond, hThird, by simp⟩, hNdbdNul, hPasswdNul, hId⟩
    · rintro ⟨_, _, _, _, ⟨rfl, rfl, rfl, rfl⟩, ⟨hFirst, hSecond, hThird, -⟩, hNdbdNul,
        hPasswdNul, hId⟩
      exact ⟨hFirst, hNdbdNul, hSecond, hPasswdNul, hThird, hId⟩

theorem server_iff (myId : NodeId) (lines : List Bytes) :
    (∀ id, (authenticateServerConnection myId).facing endOfFile lines = .ok id →
      ∃ clientId : NodeId, clientId.1 = id ∧ lines.take 3 = clientLines clientId) ↔
        ServerOk lines := by
  simp only [server_facing_iff]
  constructor
  · intro h
    match lines with
    | [] => exact .inl (by simp)
    | [_] => exact .inl (by simp)
    | [_, _] => exact .inl (by simp)
    | first :: second :: third :: rest =>
      by_cases hLong : TooLong [first, second, third]
      · exact .inr (.inl hLong)
      · by_cases hFirst : NulAfter first (ascii "ndbd")
        · exact .inr (.inr (.inl ⟨first, rfl, hFirst⟩))
        · by_cases hSecond : NulAfter second (ascii "ndbd passwd")
          · exact .inr (.inr (.inr (.inl ⟨second, rfl, hSecond⟩)))
          · -- the node id is what is left to check
            by_cases hThird : ∃ id, Lenient third id
            · obtain ⟨id, hId⟩ := hThird
              obtain ⟨clientId, -, hLines⟩ :=
                h id ⟨first, second, third, rest, rfl, hLong, hFirst, hSecond, hId⟩
              exact .inr (.inr (.inr (.inr (.inr ⟨clientId, hLines⟩))))
            · exact .inr (.inr (.inr (.inr (.inl ⟨third, rfl, not_exists.mp hThird⟩))))
  · rintro (hShort | hLong | ⟨line, hLine, hNul⟩ | ⟨line, hLine, hNul⟩ | ⟨line, hLine, hNone⟩ |
      ⟨clientId, hLines⟩) id ⟨first, second, third, rest, rfl, hFits, hFirst, hSecond, hThird⟩
    · simp only [length_cons] at hShort
      omega
    · exact absurd hLong hFits
    · obtain rfl := Option.some.inj hLine
      exact absurd hNul hFirst
    · obtain rfl := Option.some.inj hLine
      exact absurd hNul hSecond
    · obtain rfl := Option.some.inj hLine
      exact absurd hThird (hNone id)
    · refine ⟨clientId, ?_, hLines⟩
      have hNode : third = nodeLine clientId := by
        simp only [clientLines, take_succ_cons, take_zero, List.cons.injEq] at hLines
        exact hLines.2.2.1
      rw [hNode] at hThird
      exact (lenient_nodeLine_eq hThird).1.symm

/-! ## The result -/

theorem authenticate_iff (clientId serverId : NodeId) (lines : List Bytes) :
    (Completes clientId serverId ↔ clientId.1 ≠ maxNodeId) ∧
    (((authenticateClientConnection clientId serverId).facing endOfFile lines = .ok () →
      lines.take 2 = serverLines serverId) ↔ ClientOk serverId lines) ∧
    ((∀ id, (authenticateServerConnection serverId).facing endOfFile lines = .ok id →
      ∃ peerId : NodeId, peerId.1 = id ∧ lines.take 3 = clientLines peerId) ↔ ServerOk lines) :=
  ⟨completes_iff clientId serverId, client_iff clientId serverId lines, server_iff serverId lines⟩

/-- A peer that knows neither the password nor the protocol. -/
def strangerLines : List Bytes := [ascii "hello", [], ascii "7 1!"]

theorem stranger_accepted : (authenticateServerConnection 1).facing endOfFile strangerLines = .ok 7 ∧
    ∀ clientId, strangerLines ≠ clientLines clientId := by
  constructor
  · decide
  · intro clientId h
    have hFirst : ascii "hello" = ascii "ndbd" := (List.cons.inj h).1
    revert hFirst
    decide

end IClaustron.Apid.Authenticate
