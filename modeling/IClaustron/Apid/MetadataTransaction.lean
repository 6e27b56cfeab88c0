import IClaustron.DynArray.Slots

/-!
# Apid.MetadataTransaction — the metadata transaction that creates a table

Model of the first half of api/ic_apid_handle_dict_messages.ic. The caller puts a
reference to its transaction into the translation array, asks the dictionary of the
master node to begin a schema transaction, and polls until a message handler has set
`return_to_api`. Each request carries the index of the entry, each reply echoes it, and
the handler of the reply looks the transaction up and sends the next request: begin,
hash map, table, end.

1. **Model**: the objects in memory, the handlers and `executeMetaDataTransaction`.
2. **Dictionary**: it answers an outstanding request with a CONF or a REF, or, when its
   node fails, never.
3. **Lookup**: what a handler finds under an index.
4. **Steps**: the reply to each of the four requests.

* `metadata_transaction_iff` — when the transaction returns what happened.

Scope limits: the contents of the table description and the time between two polls
are left out. Codes are kept as the words of the messages.
-/

namespace IClaustron.Apid.Metadata

open DynArray List Option

/-! ## Model -/

/-- The states that are used for creating a table. -/
inductive MdState where
  | waitSchemaTransBeginConf | waitCreateHashMapConf | waitCreateTableConf | waitSchemaTransEndConf
deriving DecidableEq

/-- The operation a transaction is for: alter_op_type, or a tablespace operation. -/
inductive Operation where
  | createTable | alterTable | dropTable | renameTable | alterTablespace
deriving DecidableEq

inductive Category where
  | none | internal | external | user
deriving DecidableEq

inductive Severity where
  | none | temporary | error | stop
deriving DecidableEq

/-- IC_INT_APID_ERROR. -/
structure ApidError where
  errorCode : Nat
  category : Category
  severity : Severity
  errorLine : Nat
  errorNodeId : Nat
  masterNodeId : Nat
deriving DecidableEq

/-- IC_INT_METADATA_TRANSACTION with the ids its table operation gets. `sends` and
`waiting` are not in the source: they count the requests, and say that one of them is at
the dictionary. -/
structure MdTrans where
  nodeId : Nat
  errorObject : ApidError
  returnToApi : Bool
  ndbTransRef : Nat
  myTransRef : Nat
  state : MdState
  operation : Operation
  hashMapId : Nat
  hashMapVersion : Nat
  tableId : Nat
  tableVersion : Nat
  sends : Nat
  waiting : Bool
deriving DecidableEq

inductive RefType where
  | mdTrans
deriving DecidableEq

/-- IC_REFERENCE_CONTAINER. -/
structure Container where
  reference : Nat
  refType : RefType
deriving DecidableEq

/-- The translation array, and the containers and transactions by their addresses. -/
structure World where
  mapArray : DynamicArray
  container : Nat → Option Container
  trans : Nat → MdTrans

def World.set (w : World) (p : Nat) (t : MdTrans) : World :=
  { w with trans := fun q => if q = p then t else w.trans q }

@[simp] theorem World.set_trans_self (w : World) (p : Nat) (t : MdTrans) :
    (w.set p t).trans p = t := by simp [World.set]

theorem World.set_trans_ne (w : World) {p q : Nat} (t : MdTrans) (h : q ≠ p) :
    (w.set p t).trans q = w.trans q := by simp [World.set, h]

/-- What the calls return that are not modelled: the allocation of the insert that fails,
`ic_get_master_node_id`, the preparation of the table description of a transaction, and
its n-th send. -/
structure Env where
  failAt : Option Nat
  masterRet : Nat
  masterNodeId : Nat
  tableRet : Nat → Nat
  sendRet : Nat → Nat → Nat

/-- `md_trans_set_ndb_error`. -/
def mdTransSetNdbError (t : MdTrans) (errorLine errorNodeId masterNodeId : Nat) : MdTrans :=
  { t with errorObject := { t.errorObject with errorLine, errorNodeId, masterNodeId } }

/-- `md_trans_set_internal_error`. -/
def mdTransSetInternalError (t : MdTrans) (retCode : Nat) : MdTrans :=
  { t with
    returnToApi := true
    errorObject := { t.errorObject with
      errorCode := retCode, category := .internal, severity := .stop } }

def temporaryErrors : List Nat := [701, 711, 702, 786, 796, 780, 787, 762, 283, 1229, 785]

def userErrors : List Nat :=
  [707, 708, 704, 705, 720, 721, 736, 737, 738, 739, 740, 743, 299, 755, 759, 778, 790, 1224, 758,
    709, 741, 756, 776, 777, 4241, 4242, 4244, 4246, 4248, 4249, 4250, 4251, 4258, 4243, 4254]

/-- `md_trans_set_external_error`. -/
def mdTransSetExternalError (t : MdTrans) (errorCode : Nat) : MdTrans :=
  { t with
    returnToApi := true
    errorObject := { t.errorObject with
      errorCode
      category := if errorCode ∈ userErrors then .user else .external
      severity := if errorCode ∈ temporaryErrors then .temporary else .error } }

/-- `send_message` of a request, after which the transaction waits in `state`. -/
def sendRequest (env : Env) (p : Nat) (state : MdState) (t : MdTrans) : MdTrans :=
  let sent := { t with state, sends := t.sends + 1 }
  if env.sendRet p t.sends ≠ 0 then mdTransSetInternalError sent (env.sendRet p t.sends)
  else { sent with waiting := true }

/-- `sendSCHEMA_TRANS_BEGIN_REQ`. -/
def sendSchemaTransBeginReq (env : Env) (p : Nat) : MdTrans → MdTrans :=
  sendRequest env p .waitSchemaTransBeginConf

/-- `sendCREATE_HASH_MAP_REQ`. -/
def sendCreateHashMapReq (env : Env) (p : Nat) : MdTrans → MdTrans :=
  sendRequest env p .waitCreateHashMapConf

/-- `sendCREATE_TABLE_REQ`: the description of the table is allocated first. -/
def sendCreateTableReq (env : Env) (p : Nat) (t : MdTrans) : MdTrans :=
  if env.tableRet p ≠ 0 then mdTransSetInternalError t (env.tableRet p)
  else sendRequest env p .waitCreateTableConf t

/-- `sendSCHEMA_TRANS_END_REQ`. -/
def sendSchemaTransEndReq (env : Env) (p : Nat) : MdTrans → MdTrans :=
  sendRequest env p .waitSchemaTransEndConf

/-- What the four REF messages have in common. -/
structure Ref where
  errorCode : Nat
  errorLine : Nat
  errorNodeId : Nat
  masterNodeId : Nat
deriving DecidableEq

/-- The messages with the fields that the handlers read. -/
inductive Message where
  | schemaTransBeginConf (myTransactionId ndbTransactionId : Nat)
  | schemaTransBeginRef (myTransactionId : Nat) (ref : Ref)
  | createHashMapConf (myTransactionId ndbObjectId ndbObjectVersion : Nat)
  | createHashMapRef (myTransactionId : Nat) (ref : Ref)
  | createTableConf (myTransactionId tableId tableVersion : Nat)
  | createTableRef (myTransactionId : Nat) (ref : Ref)
  | schemaTransEndConf (myTransactionId : Nat)
  | schemaTransEndRef (myTransactionId : Nat) (ref : Ref)
deriving DecidableEq

/-- `get_metadata_transaction_from_message`. The outer `none` is a stop of the program:
the object found is NULL or no container. -/
def getMetadataTransactionFromMessage (w : World) (index : Nat) : Option (Option Nat) :=
  match getPtr w.mapArray index with
  | none => none
  | some (ret, object) =>
    if ret ≠ 0 then some none
    else
      match w.container object with
      | none => none
      | some c => if c.refType = .mdTrans then some (some c.reference) else some none

/-- A handler: it ignores the message when no transaction is found, and requires the
transaction to be in `state`. -/
def onTransaction (w : World) (index : Nat) (state : MdState)
    (f : Nat → MdTrans → Option MdTrans) : Option World :=
  match getMetadataTransactionFromMessage w index with
  | none => none
  | some none => some w
  | some (some p) =>
    if (w.trans p).state = state then (f p (w.trans p)).map (w.set p) else none

/-- SCHEMA_TRANS_WRONG_MASTER. -/
def wrongMaster : Nat := 702

/-- SCHEMA_TRANS_MASTER_BUSY. -/
def masterBusy : Nat := 701

/-- SCHEMA_TRANS_MASTER_NR_BUSY. -/
def masterNrBusy : Nat := 711

/-- The end of each REF handler. -/
def setRefError (t : MdTrans) (ref : Ref) : MdTrans :=
  mdTransSetNdbError (mdTransSetExternalError t ref.errorCode) ref.errorLine ref.errorNodeId
    ref.masterNodeId

/-- `execSCHEMA_TRANS_BEGIN_REF_v0`. Unlike the other handlers it does not take the id from
the message: `our_trans_id` is 0. -/
def execSchemaTransBeginRef (env : Env) (w : World) (ref : Ref) : Option World :=
  onTransaction w 0 .waitSchemaTransBeginConf fun p t =>
    if ref.errorCode = wrongMaster then
      some (sendSchemaTransBeginReq env p { t with nodeId := ref.masterNodeId })
    else if ref.errorCode = masterBusy ∨ ref.errorCode = masterNrBusy then
      some (sendSchemaTransBeginReq env p t)
    else some (setRefError t ref)

/-- `execSCHEMA_TRANS_BEGIN_CONF_v0`: only the creation of a table goes on from here. -/
def execSchemaTransBeginConf (env : Env) (w : World) (ourTransId ndbTransRef : Nat) : Option World :=
  onTransaction w ourTransId .waitSchemaTransBeginConf fun p t =>
    match t.operation with
    | .createTable => some (sendCreateHashMapReq env p { t with ndbTransRef })
    | _ => none

/-- `execCREATE_HASH_MAP_CONF_v0`. -/
def execCreateHashMapConf (env : Env) (w : World) (ourTransId hashMapId hashMapVersion : Nat) :
    Option World :=
  onTransaction w ourTransId .waitCreateHashMapConf fun p t =>
    some (sendCreateTableReq env p { t with hashMapId, hashMapVersion })

/-- `execCREATE_TABLE_CONF_v0`. -/
def execCreateTableConf (env : Env) (w : World) (ourTransId tableId tableVersion : Nat) :
    Option World :=
  onTransaction w ourTransId .waitCreateTableConf fun p t =>
    some (sendSchemaTransEndReq env p { t with tableId, tableVersion })

/-- `execSCHEMA_TRANS_END_CONF_v0`. -/
def execSchemaTransEndConf (w : World) (ourTransId : Nat) : Option World :=
  onTransaction w ourTransId .waitSchemaTransEndConf fun _ t => some { t with returnToApi := true }

/-- `execCREATE_HASH_MAP_REF_v0`. -/
def execCreateHashMapRef (w : World) (ourTransId : Nat) (ref : Ref) : Option World :=
  onTransaction w ourTransId .waitCreateHashMapConf fun _ t => some (setRefError t ref)

/-- `execCREATE_TABLE_REF_v0`. -/
def execCreateTableRef (w : World) (ourTransId : Nat) (ref : Ref) : Option World :=
  onTransaction w ourTransId .waitCreateTableConf fun _ t => some (setRefError t ref)

/-- `execSCHEMA_TRANS_END_REF_v0`. -/
def execSchemaTransEndRef (w : World) (ourTransId : Nat) (ref : Ref) : Option World :=
  onTransaction w ourTransId .waitSchemaTransEndConf fun _ t => some (setRefError t ref)

/-- `execute_message`, as far as it picks the handler. -/
def executeMessage (env : Env) (w : World) : Message → Option World
  | .schemaTransBeginConf i n => execSchemaTransBeginConf env w i n
  | .schemaTransBeginRef _ ref => execSchemaTransBeginRef env w ref
  | .createHashMapConf i n v => execCreateHashMapConf env w i n v
  | .createHashMapRef i ref => execCreateHashMapRef w i ref
  | .createTableConf i n v => execCreateTableConf env w i n v
  | .createTableRef i ref => execCreateTableRef w i ref
  | .schemaTransEndConf i => execSchemaTransEndConf w i
  | .schemaTransEndRef i ref => execSchemaTransEndRef w i ref

/-- What the dictionary says to a request; a CONF brings up to two ids. -/
inductive Reply where
  | conf (id version : Nat)
  | ref (ref : Ref)
deriving DecidableEq

/-- The message by which the dictionary answers the request of a transaction. -/
def answer (t : MdTrans) : Reply → Message
  | .conf id version =>
    match t.state with
    | .waitSchemaTransBeginConf => .schemaTransBeginConf t.myTransRef id
    | .waitCreateHashMapConf => .createHashMapConf t.myTransRef id version
    | .waitCreateTableConf => .createTableConf t.myTransRef id version
    | .waitSchemaTransEndConf => .schemaTransEndConf t.myTransRef
  | .ref ref =>
    match t.state with
    | .waitSchemaTransBeginConf => .schemaTransBeginRef t.myTransRef ref
    | .waitCreateHashMapConf => .createHashMapRef t.myTransRef ref
    | .waitCreateTableConf => .createTableRef t.myTransRef ref
    | .waitSchemaTransEndConf => .schemaTransEndRef t.myTransRef ref

/-- How a call ends: the program stops, the caller polls for ever, or the call returns
with a code, what it leaves and the steps that were confirmed. -/
inductive Outcome where
  | crashed
  | polling
  | returned (code : Nat) (w : World) (confirmed : List MdState)

/-- The steps confirmed so far, after one more reply. -/
def confirm (confirmed : List MdState) (t : MdTrans) : Reply → List MdState
  | .conf _ _ => confirmed ++ [t.state]
  | .ref _ => confirmed

/-- What follows the loop: the entry is removed and the error code returned. -/
def finish (p object index : Nat) (w : World) (confirmed : List MdState) : Outcome :=
  match removePtr w.mapArray index object with
  | some (a, 0) => .returned (w.trans p).errorObject.errorCode { w with mapArray := a } confirmed
  | _ => .crashed

/-- The loop that polls for messages. `replies` are the replies that the dictionary will
give; it gives one only to a request. -/
def pollLoop (env : Env) (p object index : Nat) : List MdState → World → List Reply → Outcome
  | confirmed, w, replies =>
    if (w.trans p).returnToApi then finish p object index w confirmed
    else
      match replies with
      | [] => .polling
      | reply :: replies =>
        if (w.trans p).waiting then
          match executeMessage env (w.set p { w.trans p with waiting := false })
            (answer (w.trans p) reply) with
          | none => .crashed
          | some w' => pollLoop env p object index (confirm confirmed (w.trans p) reply) w' replies
        else .polling

/-- `execute_meta_data_transaction` for the transaction at `p`, with its container at
`object`. -/
def executeMetaDataTransaction (env : Env) (w : World) (p object : Nat) (replies : List Reply) :
    Outcome :=
  let w := { w with container := fun o => if o = object then some ⟨p, .mdTrans⟩ else w.container o }
  match insertPtr (allocOk env.failAt w.mapArray.mem.fresh) w.mapArray object with
  | none => .crashed
  | some (mapArray, ret, index) =>
    let w := { w with mapArray }
    if ret ≠ 0 then .returned ret w []
    else
      let w := w.set p { w.trans p with myTransRef := index % 2 ^ 32 }
      if env.masterRet ≠ 0 then .returned env.masterRet w []
      else
        let w := w.set p (sendSchemaTransBeginReq env p { w.trans p with nodeId := env.masterNodeId })
        pollLoop env p object index [] w replies

/-! ## What the callers rely on -/

/-- The steps of a transaction that creates a table. -/
def allSteps : List MdState :=
  [.waitSchemaTransBeginConf, .waitCreateHashMapConf, .waitCreateTableConf, .waitSchemaTransEndConf]

/-- No entry of the translation array leads to the container. -/
def Gone (w : World) (object : Nat) : Prop :=
  ∀ i, i < getMaxIndex w.mapArray → getPtr w.mapArray i ≠ some (0, object)

/-- The call returns, with code 0 if and only if all steps were confirmed in their order, and
the entry is gone. -/
def Returns (object : Nat) (outcome : Outcome) : Prop :=
  ∃ code w confirmed, outcome = .returned code w confirmed ∧ (code = 0 ↔ confirmed = allSteps) ∧
    Gone w object

/-- Before the call: the array stores `slots`, the container is a new object, and the
transaction is as it was created. -/
structure Ready (w : World) (slots : List Nat) (p object : Nat) : Prop where
  stored : Slots w.mapArray slots
  head : slots[0]? = some 0
  fits : entrySize * (slots.length + 1) ≤ 2 ^ 64
  words : ∀ v ∈ slots, v < 2 ^ 64
  pos : 0 < object
  lt : object < highestBitSet
  new : object ∉ slots
  null : w.container 0 = none
  only : ∀ o c, w.container o = some c → c.reference = p → o = object
  running : (w.trans p).returnToApi = false
  noError : (w.trans p).errorObject.errorCode = 0
  noSends : (w.trans p).sends = 0

/-- The request that brings a transaction into this state cannot be sent. The requests are
numbered in the order in which they are sent. -/
def SendFails (env : Env) (p : Nat) : MdState → Prop
  | .waitSchemaTransBeginConf => env.sendRet p 0 ≠ 0
  | .waitCreateHashMapConf => env.sendRet p 1 ≠ 0
  | .waitCreateTableConf => env.tableRet p ≠ 0 ∨ env.sendRet p 2 ≠ 0
  | .waitSchemaTransEndConf => env.sendRet p 3 ≠ 0

/-- Every request, from the one a transaction waits for in this state on, is confirmed, up to
the last one, to one that cannot be sent, or to one that is refused with an error. The first
request is not refused, and it is for the creation of a table. -/
def Answered (env : Env) (p : Nat) (operation : Operation) : MdState → List Reply → Prop
  | _, [] => False
  | .waitSchemaTransBeginConf, .ref _ :: _ => False
  | _, .ref ref :: _ => ref.errorCode ≠ 0
  | .waitSchemaTransBeginConf, .conf _ _ :: replies =>
    operation = .createTable ∧ (SendFails env p .waitCreateHashMapConf ∨
      Answered env p operation .waitCreateHashMapConf replies)
  | .waitCreateHashMapConf, .conf _ _ :: replies =>
    SendFails env p .waitCreateTableConf ∨ Answered env p operation .waitCreateTableConf replies
  | .waitCreateTableConf, .conf _ _ :: replies =>
    SendFails env p .waitSchemaTransEndConf ∨ Answered env p operation .waitSchemaTransEndConf replies
  | .waitSchemaTransEndConf, .conf _ _ :: _ => True

/-! ## Lookup -/

/-- During the call the entry `slots.length` leads to the transaction, and no other does. -/
structure Mapped (w : World) (slots : List Nat) (p object : Nat) : Prop where
  stored : Slots w.mapArray (slots ++ [object])
  head : slots[0]? = some 0
  fits : entrySize * (slots ++ [object]).length ≤ 2 ^ 64
  words : ∀ v ∈ slots, v < 2 ^ 64
  lt : object < highestBitSet
  new : object ∉ slots
  null : w.container 0 = none
  own : w.container object = some ⟨p, .mdTrans⟩
  only : ∀ o c, w.container o = some c → c.reference = p → o = object

variable {env : Env} {w w' : World} {slots : List Nat} {p object index : Nat} {operation : Operation}

theorem Mapped.set (h : Mapped w slots p object) (q : Nat) (t : MdTrans) :
    Mapped (w.set q t) slots p object :=
  { h with }

theorem Mapped.object_slot (slots : List Nat) (object : Nat) :
    (slots ++ [object])[slots.length]? = some object := by
  simp

section

variable (h : Mapped w slots p object)

include h

theorem Mapped.length_pos : 0 < slots.length := by
  rcases slots with _ | ⟨x, xs⟩
  · cases h.head
  · simp

theorem Mapped.getPtr_own : getPtr w.mapArray slots.length = some (0, object) := by
  have hlt : object < 2 ^ 64 := h.lt.trans highestBitSet_lt
  rw [getPtr_spec h.stored (Mapped.object_slot slots object) hlt h.fits,
    if_neg (Nat.not_le.mpr h.lt)]

theorem Mapped.lookup_own : getMetadataTransactionFromMessage w slots.length = some (some p) := by
  simp [getMetadataTransactionFromMessage, h.getPtr_own, h.own]

/-- Entry 0 is the head of the free list, which is empty: a NULL pointer. -/
theorem Mapped.lookup_zero : getMetadataTransactionFromMessage w 0 = none := by
  have hzero : (slots ++ [object])[0]? = some 0 := by
    rw [getElem?_append_left h.length_pos, h.head]
  have hget := getPtr_spec h.stored hzero (by decide) h.fits
  rw [if_neg (by decide)] at hget
  simp [getMetadataTransactionFromMessage, hget, h.null]

end

variable {a : DynamicArray} {i ref : Nat} {state : MdState} {confirmed : List MdState} {t : MdTrans}

theorem getPtr_old (h : Slots a slots) (hfit : entrySize * slots.length ≤ 2 ^ 64) {v : Nat}
    (hv : slots[i]? = some v) (hlt : v < 2 ^ 64) (hne : v ≠ object) :
    getPtr a i ≠ some (0, object) := by
  rw [getPtr_spec h hv hlt hfit]
  split_ifs
  · simp [errorIndexError]
  · simp [hne]

theorem lookup_eq_some (h : getMetadataTransactionFromMessage w i = some (some p)) :
    ∃ o c, getPtr w.mapArray i = some (0, o) ∧ w.container o = some c ∧ c.reference = p := by
  unfold getMetadataTransactionFromMessage at h
  split at h
  · cases h
  · rename_i ret o hget
    by_cases hret : ret = 0
    · subst hret
      rw [if_neg (by simp)] at h
      split at h
      · cases h
      · rename_i c hc
        split_ifs at h
        · have hown : c.reference = p := by simpa using h
          exact ⟨o, c, hget, hc, hown⟩
        · cases h
    · rw [if_pos hret] at h
      cases h

theorem Mapped.lookup_other (h : Mapped w slots p object) (hi : i < slots.length) :
    getMetadataTransactionFromMessage w i ≠ some (some p) := by
  have hmem : slots[i] ∈ slots := getElem_mem hi
  have hv : (slots ++ [object])[i]? = some slots[i] := by
    rw [getElem?_append_left hi, getElem?_eq_getElem hi]
  intro hlook
  obtain ⟨o, c, hget, hc, hown⟩ := lookup_eq_some hlook
  have ho : o = object := h.only o c hc hown
  subst ho
  have hne : slots[i] ≠ o := fun heq => h.new (heq ▸ hmem)
  exact getPtr_old h.stored h.fits hv (h.words _ hmem) hne hget

/-- A message whose index does not lead to a transaction leaves it alone. -/
theorem onTransaction_frame {f : Nat → MdTrans → Option MdTrans}
    (hne : getMetadataTransactionFromMessage w i ≠ some (some p))
    (h : onTransaction w i state f = some w') : w'.trans p = w.trans p := by
  unfold onTransaction at h
  split at h
  · cases h
  · cases h
    rfl
  · rename_i q hq
    split_ifs at h
    obtain ⟨t, -, rfl⟩ := map_eq_some_iff.mp h
    refine World.set_trans_ne w t ?_
    rintro rfl
    exact hne hq

/-! ## The end of the loop -/

theorem Slots.getMaxIndex_eq (h : Slots a slots) : getMaxIndex a = slots.length := by
  rw [getMaxIndex, h.total, Nat.mul_div_cancel_left _ (by decide)]

/-- The entry is marked free. -/
theorem finish_spec (h : Mapped w slots p object) (confirmed : List MdState) :
    ∃ w', finish p object slots.length w confirmed =
      .returned (w.trans p).errorObject.errorCode w' confirmed ∧ Gone w' object := by
  have hslot := Mapped.object_slot slots object
  have hlt : object < 2 ^ 64 := h.lt.trans highestBitSet_lt
  have hhead : (slots ++ [object])[0]? = some 0 := by
    rw [getElem?_append_left h.length_pos, h.head]
  obtain ⟨a, hrun, ha⟩ := removePtr_spec h.stored hhead h.length_pos hslot hlt h.fits
  refine ⟨{ w with mapArray := a }, ?_, ?_⟩
  · simp [finish, hrun]
  · intro i hi
    have hlen : ((slots ++ [object]).set slots.length highestBitSet).length = slots.length + 1 := by
      simp
    have hfit : entrySize * ((slots ++ [object]).set slots.length highestBitSet).length ≤ 2 ^ 64 := by
      rw [length_set]
      exact h.fits
    have hi' : i < slots.length + 1 := by
      rw [← hlen, ← Slots.getMaxIndex_eq ha]
      exact hi
    rcases Nat.lt_succ_iff_lt_or_eq.mp hi' with hlt' | rfl
    · have hv : ((slots ++ [object]).set slots.length highestBitSet)[i]? = some slots[i] := by
        rw [getElem?_set_ne (by omega), getElem?_append_left hlt',
          getElem?_eq_getElem hlt']
      have hmem : slots[i] ∈ slots := getElem_mem hlt'
      exact getPtr_old ha hfit hv (h.words _ hmem) fun heq => h.new (heq ▸ hmem)
    · have hv : ((slots ++ [object]).set slots.length highestBitSet)[slots.length]? =
          some highestBitSet := by
        simp
      exact getPtr_old ha hfit hv highestBitSet_lt (Nat.ne_of_gt h.lt)

theorem pollLoop_returns (h : Mapped w slots p object) (confirmed : List MdState)
    (hret : (w.trans p).returnToApi = true) (replies : List Reply) :
    Returns object (pollLoop env p object slots.length confirmed w replies) ↔
      ((w.trans p).errorObject.errorCode = 0 ↔ confirmed = allSteps) := by
  have hloop : pollLoop env p object slots.length confirmed w replies =
      finish p object slots.length w confirmed := by
    unfold pollLoop
    rw [if_pos hret]
  obtain ⟨w', hfin, hgone⟩ := finish_spec h confirmed
  rw [hloop, hfin]
  constructor
  · rintro ⟨code, _, _, heq, hiff, -⟩
    cases heq
    exact hiff
  · intro hiff
    exact ⟨_, _, _, rfl, hiff, hgone⟩

theorem not_returns_polling : ¬ Returns object .polling := by
  rintro ⟨_, _, _, heq, -⟩
  cases heq

theorem not_returns_crashed : ¬ Returns object .crashed := by
  rintro ⟨_, _, _, heq, -⟩
  cases heq

/-- Without a request at the dictionary, the caller polls for ever. -/
theorem pollLoop_stuck (hret : (w.trans p).returnToApi = false)
    (hwait : (w.trans p).waiting = false) (replies : List Reply) :
    ¬ Returns object (pollLoop env p object index confirmed w replies) := by
  have hloop : pollLoop env p object index confirmed w replies = .polling := by
    unfold pollLoop
    rcases replies with _ | ⟨reply, replies⟩
    · simp [hret]
    · simp [hret, hwait]
  rw [hloop]
  exact not_returns_polling

/-! ## Steps -/

/-- The number of requests sent before the one of this state. -/
def MdState.number : MdState → Nat
  | .waitSchemaTransBeginConf => 0
  | .waitCreateHashMapConf => 1
  | .waitCreateTableConf => 2
  | .waitSchemaTransEndConf => 3

/-- The steps before the one of this state. -/
def MdState.before (state : MdState) : List MdState := allSteps.take state.number

theorem MdState.before_ne_allSteps (state : MdState) : state.before ≠ allSteps := by
  cases state <;> decide

/-- A transaction that waits for a reply. -/
structure Asked (t : MdTrans) (state : MdState) (ref : Nat) (operation : Operation) : Prop where
  state_eq : t.state = state
  waiting : t.waiting = true
  running : t.returnToApi = false
  noError : t.errorObject.errorCode = 0
  sends : t.sends = state.number + 1
  ref_eq : t.myTransRef = ref
  operation_eq : t.operation = operation

/-- A transaction after the request for this state was sent or could not be sent. -/
structure Sent (env : Env) (p : Nat) (t : MdTrans) (state : MdState) (ref : Nat)
    (operation : Operation) : Prop where
  failed : SendFails env p state → t.returnToApi = true ∧ t.errorObject.errorCode ≠ 0
  asked : ¬ SendFails env p state → Asked t state ref operation

/-- A transaction that may send its next request, the one with this number. -/
structure CanSend (t : MdTrans) (number : Nat) (ref : Nat) (operation : Operation) : Prop where
  running : t.returnToApi = false
  noError : t.errorObject.errorCode = 0
  sends : t.sends = number
  ref_eq : t.myTransRef = ref
  operation_eq : t.operation = operation

theorem sendRequest_spec (h : CanSend t state.number ref operation) :
    (env.sendRet p state.number ≠ 0 → (sendRequest env p state t).returnToApi = true ∧
      (sendRequest env p state t).errorObject.errorCode ≠ 0) ∧
    (env.sendRet p state.number = 0 → Asked (sendRequest env p state t) state ref operation) := by
  constructor
  · intro hret
    simp [sendRequest, h.sends, hret, mdTransSetInternalError]
  · intro hret
    simp only [sendRequest, h.sends, hret, ne_eq, not_true_eq_false, if_false]
    exact ⟨rfl, rfl, h.running, h.noError, rfl, h.ref_eq, h.operation_eq⟩

theorem sendRequest_sent (h : CanSend t state.number ref operation)
    (hfails : SendFails env p state ↔ env.sendRet p state.number ≠ 0) :
    Sent env p (sendRequest env p state t) state ref operation := by
  constructor
  · intro hf
    exact (sendRequest_spec h).1 (hfails.mp hf)
  · intro hf
    rw [hfails, not_not] at hf
    exact (sendRequest_spec h).2 hf

theorem sendCreateTableReq_sent (h : CanSend t MdState.waitCreateTableConf.number ref operation) :
    Sent env p (sendCreateTableReq env p t) .waitCreateTableConf ref operation := by
  by_cases htab : env.tableRet p = 0
  · have heq : sendCreateTableReq env p t = sendRequest env p .waitCreateTableConf t := by
      simp [sendCreateTableReq, htab]
    rw [heq]
    exact sendRequest_sent h (by simp [SendFails, htab, MdState.number])
  · constructor
    · intro _
      simp [sendCreateTableReq, htab, mdTransSetInternalError]
    · intro hf
      exact absurd (.inl htab) hf

theorem World.set_set (w : World) (p : Nat) (t t' : MdTrans) : (w.set p t).set p t' = w.set p t' := by
  unfold World.set
  congr 1
  funext q
  by_cases hq : q = p
  · simp [hq]
  · simp [hq]

/-- The handler of a message with the index of the transaction. -/
theorem onTransaction_own (h : Mapped w slots p object) (t : MdTrans) (hstate : t.state = state)
    (f : Nat → MdTrans → Option MdTrans) :
    onTransaction (w.set p t) slots.length state f = (f p t).map (w.set p) := by
  simp only [onTransaction, (h.set p t).lookup_own, World.set_trans_self, hstate, if_true]
  congr 1
  funext t'
  exact World.set_set w p t t'

theorem onTransaction_zero (h : Mapped w slots p object) (t : MdTrans) (state : MdState)
    (f : Nat → MdTrans → Option MdTrans) : onTransaction (w.set p t) 0 state f = none := by
  simp only [onTransaction, (h.set p t).lookup_zero]

theorem pollLoop_cons {reply : Reply} {replies : List Reply}
    (ht : Asked (w.trans p) state ref operation) :
    pollLoop env p object index confirmed w (reply :: replies) =
      match executeMessage env (w.set p { w.trans p with waiting := false })
        (answer (w.trans p) reply) with
      | none => .crashed
      | some w' => pollLoop env p object index (confirm confirmed (w.trans p) reply) w' replies := by
  rw [pollLoop]
  simp [ht.running, ht.waiting]

theorem Asked.not_returns_nil (ht : Asked (w.trans p) state ref operation) :
    ¬ Returns object (pollLoop env p object index confirmed w []) := by
  have hloop : pollLoop env p object index confirmed w [] = .polling := by
    rw [pollLoop]
    simp [ht.running]
  rw [hloop]
  exact not_returns_polling

/-- After a REF, the call returns its code. -/
theorem returns_setRefError (h : Mapped w slots p object) (t : MdTrans) (state : MdState) (ref : Ref)
    (replies : List Reply) :
    Returns object
      (pollLoop env p object slots.length state.before (w.set p (setRefError t ref)) replies) ↔
      ref.errorCode ≠ 0 := by
  rw [pollLoop_returns (h.set p _) state.before (by simp [setRefError, mdTransSetNdbError,
    mdTransSetExternalError])]
  simp [setRefError, mdTransSetNdbError, mdTransSetExternalError, state.before_ne_allSteps]

/-- After a CONF, the call returns the error of the next send, or goes on. -/
theorem returns_sent (h : Mapped w slots p object) (hsent : Sent env p t state ref operation)
    {replies : List Reply} {P : Prop} (hloop : Asked t state ref operation → (Returns object
      (pollLoop env p object slots.length state.before (w.set p t) replies) ↔ P)) :
    Returns object (pollLoop env p object slots.length state.before (w.set p t) replies) ↔
      SendFails env p state ∨ P := by
  by_cases hf : SendFails env p state
  · obtain ⟨hret, hcode⟩ := hsent.failed hf
    rw [pollLoop_returns (h.set p t) state.before (by simpa using hret)]
    simp [hcode, state.before_ne_allSteps, hf]
  · rw [hloop (hsent.asked hf)]
    simp [hf]

/-- The loop, from a state in which it waits for a reply. By induction on the replies: a
reply ends the loop, or the next request is sent. -/
theorem pollLoop_iff (replies : List Reply) (h : Mapped w slots p object)
    (ht : Asked (w.trans p) state slots.length operation) :
    Returns object (pollLoop env p object slots.length state.before w replies) ↔
      Answered env p operation state replies := by
  induction replies generalizing w state with
  | nil =>
    simp only [ht.not_returns_nil, false_iff]
    cases state <;> exact id
  | cons reply replies ih =>
    rw [pollLoop_cons ht]
    have hstate : ({ w.trans p with waiting := false } : MdTrans).state = state := ht.state_eq
    have hcan : CanSend { w.trans p with waiting := false } (state.number + 1) slots.length operation :=
      ⟨ht.running, ht.noError, ht.sends, ht.ref_eq, ht.operation_eq⟩
    generalize { w.trans p with waiting := false } = t at hstate hcan
    have hnext : ∀ next t, Asked t next slots.length operation →
        (Returns object (pollLoop env p object slots.length next.before (w.set p t) replies) ↔
          Answered env p operation next replies) := by
      intro next t hask
      exact ih (h.set p t) (by simpa using hask)
    cases reply with
    | ref ref =>
      cases state with
      | waitSchemaTransBeginConf =>
        -- The handler looks under index 0.
        simp only [answer, ht.state_eq, executeMessage, execSchemaTransBeginRef, onTransaction_zero h,
          not_returns_crashed, Answered]
      | waitCreateHashMapConf | waitCreateTableConf | waitSchemaTransEndConf =>
        simp only [answer, ht.state_eq, executeMessage, execCreateHashMapRef, execCreateTableRef,
          execSchemaTransEndRef, ht.ref_eq, onTransaction_own h t hstate, map_some, confirm, Answered]
        exact returns_setRefError h t _ ref replies
    | conf id version =>
      cases state with
      | waitSchemaTransBeginConf =>
        simp only [answer, ht.state_eq, executeMessage, execSchemaTransBeginConf, ht.ref_eq,
          onTransaction_own h t hstate, hcan.operation_eq, confirm]
        cases operation with
        | createTable =>
          simp only [map_some, Answered, true_and]
          have hsent : Sent env p
              (sendCreateHashMapReq env p { t with ndbTransRef := id, operation := .createTable })
              .waitCreateHashMapConf slots.length .createTable :=
            sendRequest_sent ⟨hcan.1, hcan.2, hcan.3, hcan.4, rfl⟩ Iff.rfl
          exact returns_sent h hsent (hnext _ _)
        | alterTable | dropTable | renameTable | alterTablespace =>
          simp [not_returns_crashed, Answered]
      | waitCreateHashMapConf =>
        simp only [answer, ht.state_eq, executeMessage, execCreateHashMapConf, ht.ref_eq,
          onTransaction_own h t hstate, map_some, confirm, Answered]
        have hsent : Sent env p
            (sendCreateTableReq env p { t with hashMapId := id, hashMapVersion := version })
            .waitCreateTableConf slots.length operation :=
          sendCreateTableReq_sent ⟨hcan.1, hcan.2, hcan.3, hcan.4, hcan.5⟩
        exact returns_sent h hsent (hnext _ _)
      | waitCreateTableConf =>
        simp only [answer, ht.state_eq, executeMessage, execCreateTableConf, ht.ref_eq,
          onTransaction_own h t hstate, map_some, confirm, Answered]
        have hsent : Sent env p
            (sendSchemaTransEndReq env p { t with tableId := id, tableVersion := version })
            .waitSchemaTransEndConf slots.length operation :=
          sendRequest_sent ⟨hcan.1, hcan.2, hcan.3, hcan.4, hcan.5⟩ Iff.rfl
        exact returns_sent h hsent (hnext _ _)
      | waitSchemaTransEndConf =>
        simp only [answer, ht.state_eq, executeMessage, execSchemaTransEndConf, ht.ref_eq,
          onTransaction_own h t hstate, map_some, confirm, Answered]
        rw [pollLoop_returns (h.set p _) _ (by simp)]
        simp [hcan.noError, MdState.before, MdState.number, allSteps]

/-- The index does not fit in the 32 bits of a message: the first reply misses the
transaction. -/
theorem pollLoop_wrong_index (replies : List Reply) (h : Mapped w slots p object)
    (ht : Asked (w.trans p) .waitSchemaTransBeginConf ref operation) (hlt : ref < slots.length) :
    ¬ Returns object (pollLoop env p object index [] w replies) := by
  rcases replies with _ | ⟨reply, replies⟩
  · exact ht.not_returns_nil
  · rw [pollLoop_cons ht]
    have hrun : ({ w.trans p with waiting := false } : MdTrans).returnToApi = false := ht.running
    have hwait : ({ w.trans p with waiting := false } : MdTrans).waiting = false := rfl
    generalize { w.trans p with waiting := false } = t at hrun hwait
    cases reply with
    | ref r =>
      simp only [answer, ht.state_eq, executeMessage, execSchemaTransBeginRef, onTransaction_zero h]
      exact not_returns_crashed
    | conf id version =>
      simp only [answer, ht.state_eq, executeMessage, execSchemaTransBeginConf, ht.ref_eq]
      split
      · exact not_returns_crashed
      · rename_i w' hw'
        have hframe := onTransaction_frame ((h.set p t).lookup_other hlt) hw'
        rw [World.set_trans_self] at hframe
        exact pollLoop_stuck (by rw [hframe, hrun]) (by rw [hframe, hwait]) replies

/-! ## The call -/

/-- The transaction is entered into the translation array. -/
theorem Ready.mapped (h : Ready w slots p object) (ha : Slots a (slots ++ [object])) :
    Mapped { w with
        mapArray := a
        container := fun o => if o = object then some ⟨p, .mdTrans⟩ else w.container o }
      slots p object := by
  have hpos := h.pos
  refine ⟨ha, h.head, by simpa using h.fits, h.words, h.lt, h.new, ?_, by simp, ?_⟩
  · rw [← h.null]
    exact if_neg (by omega)
  · intro o c hc hown
    by_cases ho : o = object
    · exact ho
    · simp only [if_neg ho] at hc
      exact h.only o c hc hown

theorem returns_insert_fails (h : Ready w slots p object) (hneed : NeedsBuf w.mapArray)
    (hfail : env.failAt = some 0) (replies : List Reply) :
    Returns object (executeMetaDataTransaction env w p object replies) := by
  obtain ⟨a, hrun, ha⟩ := insertPtr_noBuf h.stored h.head object hneed
  rw [← hfail] at hrun
  simp only [executeMetaDataTransaction, hrun]
  refine ⟨_, _, _, rfl, by simp [errorMemAlloc, allSteps], ?_⟩
  intro i hi
  have hi' : i < slots.length := by
    rw [← Slots.getMaxIndex_eq ha]
    exact hi
  have hfit : entrySize * slots.length ≤ 2 ^ 64 :=
    (Nat.mul_le_mul_left _ (Nat.le_succ _)).trans h.fits
  have hmem : slots[i] ∈ slots := getElem_mem hi'
  exact getPtr_old ha hfit (getElem?_eq_getElem hi') (h.words _ hmem)
    fun heq => h.new (heq ▸ hmem)

/-- The entry is inserted: the begin request is sent, or not, and the loop starts. -/
theorem returns_inserted (h : Ready w slots p object) (hidx : ¬ FailsIndex w.mapArray env.failAt)
    (hbuf : ¬ (NeedsBuf w.mapArray ∧ env.failAt = some 0)) (replies : List Reply) :
    Returns object (executeMetaDataTransaction env w p object replies) ↔
      env.masterRet = 0 ∧ (SendFails env p .waitSchemaTransBeginConf ∨
        (slots.length < 2 ^ 32 ∧
          Answered env p (w.trans p).operation .waitSchemaTransBeginConf replies)) := by
  obtain ⟨a, hrun, ha⟩ := insertPtr_of_ok h.stored h.head object hbuf hidx
  have hmap := h.mapped ha
  simp only [executeMetaDataTransaction, hrun]
  by_cases hmaster : env.masterRet = 0
  · simp only [hmaster, ne_eq, not_true_eq_false, if_false, true_and, World.set_set,
      World.set_trans_self]
    have hsent : Sent env p (sendSchemaTransBeginReq env p
        { w.trans p with myTransRef := slots.length % 2 ^ 32, nodeId := env.masterNodeId })
        .waitSchemaTransBeginConf (slots.length % 2 ^ 32) (w.trans p).operation :=
      sendRequest_sent ⟨h.running, h.noError, h.noSends, rfl, rfl⟩ Iff.rfl
    refine returns_sent hmap hsent ?_
    intro hask
    by_cases hlt : slots.length < 2 ^ 32
    · rw [Nat.mod_eq_of_lt hlt] at hask ⊢
      simp only [hlt, true_and]
      exact pollLoop_iff replies (hmap.set p _) (by simpa using hask)
    · simp only [hlt, false_and, iff_false]
      have hmod : slots.length % 2 ^ 32 < 2 ^ 32 := Nat.mod_lt _ (by decide)
      exact pollLoop_wrong_index replies (hmap.set p _) (by simpa using hask) (by omega)
  · -- The call returns without a look at the entry.
    simp only [hmaster, ne_eq, not_true_eq_false, if_false, not_false_eq_true, if_true, false_and,
      iff_false]
    rintro ⟨_, _, _, heq, -, hgone⟩
    cases heq
    refine hgone slots.length ?_ hmap.getPtr_own
    change slots.length < getMaxIndex a
    rw [Slots.getMaxIndex_eq ha]
    simp

/-- The call returns, 0 if and only if all steps were confirmed, and leaves no entry behind, if
and only if the entry cannot be inserted, or the master is known and the begin request cannot
be sent, or is confirmed and all later requests are answered. -/
theorem metadata_transaction_iff (h : Ready w slots p object)
    (hidx : ¬ FailsIndex w.mapArray env.failAt) (replies : List Reply) :
    Returns object (executeMetaDataTransaction env w p object replies) ↔
      (NeedsBuf w.mapArray ∧ env.failAt = some 0) ∨
      (env.masterRet = 0 ∧ (SendFails env p .waitSchemaTransBeginConf ∨
        (slots.length < 2 ^ 32 ∧
          Answered env p (w.trans p).operation .waitSchemaTransBeginConf replies))) := by
  by_cases hbuf : NeedsBuf w.mapArray ∧ env.failAt = some 0
  · simp only [hbuf, and_self, true_or, iff_true]
    exact returns_insert_fails h hbuf.1 hbuf.2 replies
  · rw [returns_inserted h hidx hbuf]
    simp only [hbuf, false_or]

/-! ## A transaction of its own -/

/-- A transaction as it was created. -/
def newTrans : MdTrans :=
  ⟨0, ⟨0, .none, .none, 0, 0, 0⟩, false, 0, 0, .waitSchemaTransBeginConf, .createTable, 0, 0, 0, 0, 0,
    false⟩

def newWorld (a : DynamicArray) : World := ⟨a, fun _ => none, fun _ => newTrans⟩

/-- All calls succeed. -/
def calmEnv : Env := ⟨none, 0, 1, fun _ => 0, fun _ _ => 0⟩

theorem newWorld_ready (ha : Slots a [0]) : Ready (newWorld a) [0] 64 128 := by
  refine ⟨ha, rfl, by decide, by simp, by decide, by decide, by decide, rfl, ?_, rfl, rfl, rfl⟩
  intro o c hc
  cases hc

theorem calmEnv_failsIndex (a : DynamicArray) : ¬ FailsIndex a calmEnv.failAt := by
  rintro ⟨-, j, -, hj⟩
  cases hj

/-- All four requests are confirmed. -/
theorem metadata_transaction_confirmed :
    ∃ a, createPtrArray (fun _ => true) Lib.Heap.empty = some a ∧ Ready (newWorld a) [0] 64 128 ∧
      ¬ FailsIndex a calmEnv.failAt ∧
      Returns 128 (executeMetaDataTransaction calmEnv (newWorld a) 64 128
        [.conf 7 0, .conf 8 1, .conf 9 1, .conf 0 0]) := by
  obtain ⟨a, ha, h⟩ := createPtrArray_spec
  have hready : Ready (newWorld a) [0] 64 128 := newWorld_ready h.stored
  refine ⟨a, ha, hready, calmEnv_failsIndex a, ?_⟩
  have hanswered : Answered calmEnv 64 .createTable .waitSchemaTransBeginConf
      [.conf 7 0, .conf 8 1, .conf 9 1, .conf 0 0] :=
    ⟨rfl, Or.inr (Or.inr (Or.inr trivial))⟩
  exact (metadata_transaction_iff hready (calmEnv_failsIndex a) _).mpr
    (Or.inr ⟨rfl, Or.inr ⟨by decide, hanswered⟩⟩)

/-- The master is busy: the refusal stops the program instead of being sent again. -/
theorem begin_refused :
    ∃ a, createPtrArray (fun _ => true) Lib.Heap.empty = some a ∧ Ready (newWorld a) [0] 64 128 ∧
      ¬ Returns 128 (executeMetaDataTransaction calmEnv (newWorld a) 64 128
        [.ref ⟨masterBusy, 1, 2, 2⟩, .conf 7 0, .conf 8 1, .conf 9 1, .conf 0 0]) := by
  obtain ⟨a, ha, h⟩ := createPtrArray_spec
  have hready : Ready (newWorld a) [0] 64 128 := newWorld_ready h.stored
  refine ⟨a, ha, hready, ?_⟩
  have hbuf : ¬ (NeedsBuf (newWorld a).mapArray ∧ calmEnv.failAt = some 0) := by
    rintro ⟨-, hfail⟩
    cases hfail
  rw [returns_inserted hready (calmEnv_failsIndex a) hbuf]
  rintro ⟨-, hfail | ⟨-, hanswered⟩⟩
  · exact hfail rfl
  · exact hanswered

end IClaustron.Apid.Metadata
