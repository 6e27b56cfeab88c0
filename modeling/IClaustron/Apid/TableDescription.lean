import IClaustron.Lib.Words

/-!
# Apid.TableDescription — the property list of a table

Model of the second half of api/ic_apid_handle_dict_messages.ic. A table is described to
the dictionary by a list of properties: a word with type and key, a word with the value or
the length, and, for strings and binary values, the value itself, filled up to full words.
Properties of the table come first, then a group of properties for each column.

* `table_description_not_read` — the reader accepts nothing.

Scope limits: allocations succeed, and the 32-bit counters of the reader do not wrap.
Character sets, scales and precisions are not part of the description.
-/

namespace IClaustron.Apid.TableDescription

open Lib

/-! ## Keys -/

def uint32ValueType : UInt32 := 0
def stringValueType : UInt32 := 1
def binaryValueType : UInt32 := 2

namespace Key

def tableName : UInt32 := 1
def tableId : UInt32 := 2
def tableVersion : UInt32 := 3
def tableLogged : UInt32 := 4
def numPkeyCol : UInt32 := 5
def numCol : UInt32 := 6
def numNullCol : UInt32 := 7
def numVariableCol : UInt32 := 8
def tableKValue : UInt32 := 9
def minLoadFactor : UInt32 := 10
def maxLoadFactor : UInt32 := 11
def pkeyLen : UInt32 := 12
def fragmentType : UInt32 := 13
def tableType : UInt32 := 18
def primaryTable : UInt32 := 19
def primaryTableId : UInt32 := 20
def indexState : UInt32 := 21
def insertTriggerId : UInt32 := 22
def updateTriggerId : UInt32 := 23
def deleteTriggerId : UInt32 := 24
def customTriggerId : UInt32 := 25
def frmLen : UInt32 := 26
def frmData : UInt32 := 27
def tableTemporary : UInt32 := 28
def forceVarPart : UInt32 := 29
def fragmentCount : UInt32 := 128
def fragmentDataLen : UInt32 := 129
def fragmentData : UInt32 := 130
def tablespaceId : UInt32 := 131
def tablespaceVersion : UInt32 := 132
def tablespaceDataLen : UInt32 := 133
def tablespaceData : UInt32 := 134
def rangeListDataLen : UInt32 := 135
def rangeListData : UInt32 := 136
def replicaListDataLen : UInt32 := 137
def replicaListData : UInt32 := 138
def maxRowsLow : UInt32 := 139
def maxRowsHigh : UInt32 := 140
def defaultNumPartitionsFlag : UInt32 := 141
def linearHashFlag : UInt32 := 142
def minRowsLow : UInt32 := 143
def minRowsHigh : UInt32 := 144
def rowGciFlag : UInt32 := 150
def rowChecksumFlag : UInt32 := 151
def singleUserMode : UInt32 := 152
def hashMapId : UInt32 := 153
def hashMapVersion : UInt32 := 154
def tableStorageType : UInt32 := 155
def extraRowGciBits : UInt32 := 156
def extraRowAuthorBits : UInt32 := 157
def tableEnd : UInt32 := 999
def columnName : UInt32 := 1000
def columnId : UInt32 := 1001
def columnType : UInt32 := 1002
def columnSize : UInt32 := 1003
def columnArraySize : UInt32 := 1005
def columnPkeyFlag : UInt32 := 1006
def columnStorageType : UInt32 := 1007
def columnNullFlag : UInt32 := 1008
def columnDynamicFlag : UInt32 := 1009
def columnDistributionKeyFlag : UInt32 := 1010
def columnExtType : UInt32 := 1013
def columnExtPrecision : UInt32 := 1014
def columnExtScale : UInt32 := 1015
def columnExtLen : UInt32 := 1016
def columnAutoIncrementFlag : UInt32 := 1017
def columnArrayType : UInt32 := 1019
def columnDefaultValueLen : UInt32 := 1020
def columnDefaultValue : UInt32 := 1021
def columnEnd : UInt32 := 1999

/-- The numbers of a table that the reader takes no value from. -/
def ignoredTableKeys : List UInt32 :=
  [tableLogged, numVariableCol, tableKValue, minLoadFactor, maxLoadFactor, pkeyLen, fragmentType,
    tableType, primaryTableId, indexState, insertTriggerId, updateTriggerId, deleteTriggerId,
    customTriggerId, frmLen, tableTemporary, forceVarPart, fragmentCount, fragmentDataLen,
    tablespaceDataLen, rangeListDataLen, replicaListDataLen, maxRowsLow, maxRowsHigh,
    defaultNumPartitionsFlag, linearHashFlag, minRowsLow, minRowsHigh, rowGciFlag, rowChecksumFlag,
    singleUserMode, tableStorageType, extraRowGciBits, extraRowAuthorBits]

/-- The binary values of a table, none of which is used. -/
def ignoredBinaryKeys : List UInt32 :=
  [frmData, tablespaceData, fragmentData, rangeListData, replicaListData]

/-- The numbers of a column that the reader takes no value from. -/
def ignoredColumnKeys : List UInt32 :=
  [columnStorageType, columnDynamicFlag, columnDistributionKeyFlag, columnExtType,
    columnExtPrecision, columnExtScale, columnExtLen, columnAutoIncrementFlag, columnArrayType,
    columnDefaultValueLen, columnEnd]

end Key

/-! ## Writer -/

/-- IC_DEFINE_FIELD. -/
structure DefineField where
  name : List UInt8
  type : UInt32
  size : UInt32
  arraySize : UInt32
  isNullable : Bool
  isFieldDiskStored : Bool
  isPartOfPkey : Bool
  defaultValue : List UInt8
deriving DecidableEq

inductive IndexType where
  | primaryKey | uniqueKey | orderedIndex
deriving DecidableEq

/-- IC_DEFINE_INDEX. -/
structure DefineIndex where
  type : IndexType
  numFields : UInt32
deriving DecidableEq

/-- IC_INT_ALTER_TABLE. -/
structure AlterTable where
  tableName : List UInt8
  addFields : List DefineField
  addIndexes : List DefineIndex
  tablespaceId : UInt32
  tablespaceVersion : UInt32
  isTableDiskStored : Bool
  isTableLogged : Bool
  isTableTemporary : Bool
  hashMapId : UInt32
  hashMapVersion : UInt32
deriving DecidableEq

/-- IC_RNIL. -/
def rnil : UInt32 := 0xFFFFFF00

/-- IC_MINUS_ONE. -/
def minusOne : UInt32 := 0xFFFFFFFF

def flag (b : Bool) : UInt32 := if b then 1 else 0

/-- The two words in front of every property. -/
def header (type key value : UInt32) : List UInt8 := bytesOfWords [(type <<< 16) + key, value]

/-- `fill_uint32_property`. -/
def fillUint32Property (key value : UInt32) : List UInt8 := header uint32ValueType key value

/-- Bytes in a zeroed memory of so many words. -/
def padded (bytes : List UInt8) (words : Nat) : List UInt8 :=
  bytes ++ List.replicate (4 * words - bytes.length) 0

/-- `fill_binary_property`. -/
def fillBinaryProperty (key : UInt32) (value : List UInt8) : List UInt8 :=
  header binaryValueType key (UInt32.ofNat value.length) ++
    if value.length = 0 then [] else padded value ((value.length + 4 - 1) / 4)

/-- `fill_string_property`. A string has its terminating zero, and always another byte of
padding. -/
def fillStringProperty (key : UInt32) (string : Option (List UInt8)) : List UInt8 :=
  match string with
  | none => header stringValueType key 0
  | some s =>
    header stringValueType key (UInt32.ofNat (s.length + 1)) ++
      padded (s ++ [0]) ((s.length + 1 + 4) / 4)

/-- `get_num_added_null_cols`. -/
def getNumAddedNullCols (t : AlterTable) : UInt32 :=
  UInt32.ofNat (t.addFields.filter (·.isNullable)).length

/-- `get_num_added_pkey_cols`. -/
def getNumAddedPkeyCols (t : AlterTable) : UInt32 :=
  match t.addIndexes.find? (·.type = .primaryKey) with
  | some i => i.numFields
  | none => 0

/-- `get_col_size`; `none` is a stop of the program. -/
def getColSize (f : DefineField) : Option UInt32 :=
  if f.size = 1 then some 3
  else if f.size = 2 then some 4
  else if f.size = 3 ∨ f.size = 4 then some 5
  else if f.size = 8 then some 6
  else if f.size = 16 then some 7
  else none

def tableProperties (t : AlterTable) : List (List UInt8) :=
  [fillStringProperty Key.tableName (some t.tableName),
    fillUint32Property Key.tableVersion minusOne,
    fillUint32Property Key.tableLogged (flag t.isTableLogged),
    fillUint32Property Key.numPkeyCol (getNumAddedPkeyCols t),
    fillUint32Property Key.numCol (UInt32.ofNat t.addFields.length),
    fillUint32Property Key.numNullCol (getNumAddedNullCols t),
    fillUint32Property Key.numVariableCol 0,
    fillUint32Property Key.tableKValue 6,
    fillUint32Property Key.minLoadFactor 78,
    fillUint32Property Key.maxLoadFactor 90,
    fillUint32Property Key.pkeyLen 0,
    fillUint32Property Key.fragmentType 9,
    fillUint32Property Key.tableType 2,
    fillStringProperty Key.primaryTable none,
    fillUint32Property Key.primaryTableId rnil,
    fillUint32Property Key.indexState minusOne,
    fillUint32Property Key.insertTriggerId rnil,
    fillUint32Property Key.updateTriggerId rnil,
    fillUint32Property Key.deleteTriggerId rnil,
    fillUint32Property Key.customTriggerId rnil,
    fillUint32Property Key.frmLen 0,
    fillBinaryProperty Key.frmData [],
    fillUint32Property Key.tableTemporary (flag t.isTableTemporary),
    fillUint32Property Key.forceVarPart 0,
    fillUint32Property Key.fragmentCount 0,
    fillUint32Property Key.fragmentDataLen 0,
    fillBinaryProperty Key.fragmentData [],
    fillUint32Property Key.tablespaceId t.tablespaceId,
    fillUint32Property Key.tablespaceVersion t.tablespaceVersion,
    fillUint32Property Key.tablespaceDataLen 0,
    fillBinaryProperty Key.tablespaceData [],
    fillUint32Property Key.rangeListDataLen 0,
    fillBinaryProperty Key.rangeListData [],
    fillUint32Property Key.replicaListDataLen 0,
    fillBinaryProperty Key.replicaListData [],
    fillUint32Property Key.maxRowsLow 0,
    fillUint32Property Key.maxRowsHigh 0,
    fillUint32Property Key.defaultNumPartitionsFlag 1,
    fillUint32Property Key.linearHashFlag 1,
    fillUint32Property Key.minRowsLow 0,
    fillUint32Property Key.minRowsHigh 0,
    fillUint32Property Key.rowGciFlag 1,
    fillUint32Property Key.rowChecksumFlag 1,
    fillUint32Property Key.singleUserMode 0,
    fillUint32Property Key.hashMapId t.hashMapId,
    fillUint32Property Key.hashMapVersion t.hashMapVersion,
    fillUint32Property Key.tableStorageType (flag t.isTableDiskStored),
    fillUint32Property Key.extraRowGciBits 0,
    fillUint32Property Key.extraRowAuthorBits 0]

def columnProperties (f : DefineField) (colSize : UInt32) : List (List UInt8) :=
  [fillStringProperty Key.columnName (some f.name),
    fillUint32Property Key.columnId minusOne,
    fillUint32Property Key.columnType minusOne,
    fillUint32Property Key.columnSize colSize,
    fillUint32Property Key.columnArraySize f.arraySize,
    fillUint32Property Key.columnPkeyFlag (flag f.isPartOfPkey),
    fillUint32Property Key.columnStorageType (flag f.isFieldDiskStored),
    fillUint32Property Key.columnNullFlag (flag f.isNullable),
    fillUint32Property Key.columnDynamicFlag 0,
    fillUint32Property Key.columnDistributionKeyFlag 0,
    fillUint32Property Key.columnExtType f.type,
    fillUint32Property Key.columnExtPrecision 0,
    fillUint32Property Key.columnExtScale 0,
    fillUint32Property Key.columnExtLen f.arraySize,
    fillUint32Property Key.columnAutoIncrementFlag 0,
    fillUint32Property Key.columnArrayType 0,
    fillUint32Property Key.columnDefaultValueLen (UInt32.ofNat f.defaultValue.length),
    fillBinaryProperty Key.columnDefaultValue f.defaultValue,
    fillUint32Property Key.columnEnd 1]

/-- The loop over the columns. -/
def fillColumns : List DefineField → Option (List UInt8)
  | [] => some []
  | f :: fields => do
    let colSize ← getColSize f
    let rest ← fillColumns fields
    some ((columnProperties f colSize).flatten ++ rest)

/-- `fill_create_table_info_properties`. The loop is entered without a look whether there
is a column. -/
def fillCreateTableInfoProperties (t : AlterTable) : Option (List UInt8) :=
  if t.addFields = [] then none
  else do
    let columns ← fillColumns t.addFields
    some ((tableProperties t).flatten ++ columns ++ fillUint32Property Key.tableEnd 1)

/-! ## Reader -/

/-- IC_FIELD_DEF. -/
structure FieldDef where
  fieldName : List UInt8
  fieldId : UInt32
  fieldSize : UInt32
  fieldArraySize : UInt32
  isNullable : Bool
  defaultValue : List UInt8
  fieldType : UInt32
deriving DecidableEq

/-- IC_INT_TABLE_DEF, as far as it is filled in from a description. -/
structure TableDef where
  tableName : List UInt8
  tableId : UInt32
  tableVersion : UInt32
  hashMapId : UInt32
  hashMapVersion : UInt32
  tablespaceId : UInt32
  tablespaceVersion : UInt32
  numFields : UInt32
  numKeyFields : UInt32
  numNullFields : UInt32
  fields : List FieldDef
deriving DecidableEq

def zeroTableDef : TableDef := ⟨[], 0, 0, 0, 0, 0, 0, 0, 0, 0, []⟩

/-- What stops the reader: an error code, or an access to memory that is not there. -/
inductive Failure where
  | error (code : Nat)
  | fault
deriving DecidableEq

/-- IC_PROTOCOL_ERROR. -/
def protocolError : Failure := .error 7044

/-- IC_ERROR_MISSING_TABLE_NAME. -/
def missingTableName : Failure := .error 7105

/-- IC_ERROR_MISSING_COLUMN_NAME. -/
def missingColumnName : Failure := .error 7109

/-- The local variables of `get_create_table_info_properties`. `propertyPtr` is the position of
a byte in the array, or not set. The current field is the last one in the table. -/
structure Reader where
  index : Nat
  currentNumColumn : Nat
  currentNumNullColumn : Nat
  currentNumPkeyColumn : Nat
  columnMode : Bool
  propertyPtr : Option Nat
  tableDef : TableDef
deriving DecidableEq

def startReader : Reader := ⟨0, 0, 0, 0, false, none, zeroTableDef⟩

/-- `memcpy` from `property_ptr`. What a pointer that is not set leads to is not known:
`wild` says what is read there. -/
def copyProperty (wild : Nat → Option (List UInt8)) (bytes : List UInt8) (r : Reader) (len : Nat) :
    Option (List UInt8) :=
  match r.propertyPtr with
  | none => wild len
  | some pos => if pos + len ≤ bytes.length then some ((bytes.drop pos).take len) else none

/-- The numbers of the table. The version of the hash map goes into the field of its id. -/
def readTableNumber (r : Reader) (key value : UInt32) : Except Failure Reader :=
  let t := r.tableDef
  if key = Key.tableId then .ok { r with tableDef := { t with tableId := value } }
  else if key = Key.tableVersion then .ok { r with tableDef := { t with tableVersion := value } }
  else if key = Key.numPkeyCol then .ok { r with tableDef := { t with numKeyFields := value } }
  else if key = Key.numCol then .ok { r with tableDef := { t with numFields := value } }
  else if key = Key.numNullCol then .ok { r with tableDef := { t with numNullFields := value } }
  else if key = Key.tablespaceId then .ok { r with tableDef := { t with tablespaceId := value } }
  else if key = Key.tablespaceVersion then
    .ok { r with tableDef := { t with tablespaceVersion := value } }
  else if key = Key.hashMapId then .ok { r with tableDef := { t with hashMapId := value } }
  else if key = Key.hashMapVersion then .ok { r with tableDef := { t with hashMapId := value } }
  else if key ∈ Key.ignoredTableKeys then .ok r
  else .error protocolError

def readTableString (wild : Nat → Option (List UInt8)) (bytes : List UInt8) (r : Reader)
    (key value : UInt32) : Except Failure Reader :=
  if key = Key.tableName then
    if value = 0 then .error missingTableName
    else
      match copyProperty wild bytes r value.toNat with
      | none => .error .fault
      | some name => .ok { r with tableDef := { r.tableDef with tableName := name } }
  else if key = Key.primaryTable then .ok r
  else .error protocolError

def readTableBinary (r : Reader) (key : UInt32) : Except Failure Reader :=
  if key ∈ Key.ignoredBinaryKeys then .ok r else .error protocolError

/-- Changes the current field. -/
def onCurrentField (r : Reader) (f : FieldDef → FieldDef) : Except Failure Reader :=
  match r.tableDef.fields.getLast? with
  | none => .error .fault
  | some field =>
    .ok { r with tableDef := { r.tableDef with fields := r.tableDef.fields.dropLast ++ [f field] } }

/-- The numbers of a column. It is nullable whatever its flag says. -/
def readColumnNumber (r : Reader) (key value : UInt32) : Except Failure Reader :=
  if key = Key.columnId then onCurrentField r fun f => { f with fieldId := value }
  else if key = Key.columnType then onCurrentField r fun f => { f with fieldType := value }
  else if key = Key.columnSize then onCurrentField r fun f => { f with fieldSize := value }
  else if key = Key.columnArraySize then onCurrentField r fun f => { f with fieldArraySize := value }
  else if key = Key.columnPkeyFlag then
    .ok { r with currentNumPkeyColumn := r.currentNumPkeyColumn + if value = 0 then 0 else 1 }
  else if key = Key.columnNullFlag then
    onCurrentField
      { r with currentNumNullColumn := r.currentNumNullColumn + if value = 0 then 0 else 1 }
      fun f => { f with isNullable := true }
  else if key ∈ Key.ignoredColumnKeys then .ok r
  else .error protocolError

/-- The name starts a new column. -/
def readColumnString (wild : Nat → Option (List UInt8)) (bytes : List UInt8) (r : Reader)
    (key value : UInt32) : Except Failure Reader :=
  if key = Key.columnName then
    if value = 0 then .error missingColumnName
    else
      match copyProperty wild bytes r value.toNat with
      | none => .error .fault
      | some name =>
        if r.currentNumColumn < r.tableDef.numFields.toNat then
          .ok { r with
            currentNumColumn := r.currentNumColumn + 1
            tableDef := { r.tableDef with
              fields := r.tableDef.fields ++ [⟨name, 0, 0, 0, false, [], 0⟩] } }
        else .error .fault
  else .error protocolError

def readColumnBinary (wild : Nat → Option (List UInt8)) (bytes : List UInt8) (r : Reader)
    (key value : UInt32) : Except Failure Reader :=
  if key = Key.columnDefaultValue then
    if value = 0 then onCurrentField r fun f => { f with defaultValue := [] }
    else
      match copyProperty wild bytes r value.toNat with
      | none => .error .fault
      | some bytes => onCurrentField r fun f => { f with defaultValue := bytes }
  else .error protocolError

/-- The value of a string or a binary property is skipped, if the type is both. -/
def skipValue (r : Reader) (length : Nat) (type value : UInt32) : Except Failure Reader :=
  if type = stringValueType ∧ type = binaryValueType then
    let index := r.index + (value.toNat + 3) / 4
    if index ≥ length then .error protocolError
    else .ok { r with propertyPtr := some (4 * r.index), index := index }
  else .ok r

/-- One property. -/
def readProperty (wild : Nat → Option (List UInt8)) (bytes : List UInt8) (length : Nat) (r : Reader)
    (val1 value : UInt32) : Except Failure Reader := do
  let type := val1 >>> 16
  let key := val1 &&& 0xFFFF
  let r ← skipValue { r with index := r.index + 2 } length type value
  if !r.columnMode then
    if type = uint32ValueType then readTableNumber r key value
    else if type = stringValueType then readTableString wild bytes r key value
    else if type = binaryValueType then readTableBinary r key
    else .error protocolError
  else
    if type = uint32ValueType then readColumnNumber r key value
    else if type = stringValueType then readColumnString wild bytes r key value
    else if type = binaryValueType then readColumnBinary wild bytes r key value
    else .error protocolError

/-- What follows the loop. -/
def finishReader (r : Reader) : Except Failure TableDef :=
  if r.currentNumColumn ≠ 0 ∧ r.currentNumColumn = r.tableDef.numFields.toNat ∧
      r.currentNumPkeyColumn = r.tableDef.numKeyFields.toNat ∧
      r.currentNumNullColumn = r.tableDef.numNullFields.toNat then
    .ok r.tableDef
  else .error protocolError

/-- The loop over the properties. Each one is at least two words long, so that `fuel` words are
enough. -/
def readLoop (wild : Nat → Option (List UInt8)) (bytes : List UInt8) (words : List UInt32) :
    Nat → Reader → Except Failure TableDef
  | 0, r => finishReader r
  | fuel + 1, r =>
    match words[r.index]?, words[r.index + 1]? with
    | some val1, some value =>
      match readProperty wild bytes words.length r val1 value with
      | .error failure => .error failure
      | .ok r => readLoop wild bytes words fuel r
    | _, _ => finishReader r

/-- `get_create_table_info_properties`. -/
def getCreateTableInfoProperties (wild : Nat → Option (List UInt8)) (bytes : List UInt8) :
    Except Failure TableDef :=
  let words := wordsOfBytes bytes
  readLoop wild bytes words words.length startReader

/-! ## Round trip -/

/-- What should be read back of a column. -/
def DescribedField (f : DefineField) (d : FieldDef) : Prop :=
  d.fieldName = f.name ++ [0] ∧ some d.fieldSize = getColSize f ∧ d.fieldArraySize = f.arraySize ∧
    d.isNullable = f.isNullable ∧ d.defaultValue = f.defaultValue

/-- What should be read back of a table. -/
structure Described (t : AlterTable) (d : TableDef) : Prop where
  tableName : d.tableName = t.tableName ++ [0]
  hashMapId : d.hashMapId = t.hashMapId
  hashMapVersion : d.hashMapVersion = t.hashMapVersion
  tablespaceId : d.tablespaceId = t.tablespaceId
  tablespaceVersion : d.tablespaceVersion = t.tablespaceVersion
  numKeyFields : d.numKeyFields = getNumAddedPkeyCols t
  fields : List.Forall₂ DescribedField t.addFields d.fields

/-- The description of the table is read back. -/
def RoundTrip (wild : Nat → Option (List UInt8)) (t : AlterTable) : Prop :=
  ∃ bytes d, fillCreateTableInfoProperties t = some bytes ∧
    getCreateTableInfoProperties wild bytes = .ok d ∧ Described t d

variable {wild : Nat → Option (List UInt8)} {bytes : List UInt8} {r r' : Reader}

/-- The table mode of the reader is never left, so that no column is counted. -/
structure TableMode (r : Reader) : Prop where
  mode : r.columnMode = false
  noColumn : r.currentNumColumn = 0

theorem readTableNumber_mode {key value : UInt32} (h : TableMode r)
    (hr : readTableNumber r key value = .ok r') : TableMode r' := by
  unfold readTableNumber at hr
  split_ifs at hr
  all_goals
    cases hr
    exact ⟨h.mode, h.noColumn⟩

theorem readTableString_mode {key value : UInt32} (h : TableMode r)
    (hr : readTableString wild bytes r key value = .ok r') : TableMode r' := by
  unfold readTableString at hr
  split_ifs at hr
  · split at hr
    · cases hr
    · cases hr
      exact ⟨h.mode, h.noColumn⟩
  · cases hr
    exact h

theorem readTableBinary_mode {key : UInt32} (h : TableMode r) (hr : readTableBinary r key = .ok r') :
    TableMode r' := by
  unfold readTableBinary at hr
  split_ifs at hr
  cases hr
  exact h

/-- No type is both a string and a binary type. -/
theorem skipValue_eq (r : Reader) (length : Nat) (type value : UInt32) :
    skipValue r length type value = .ok r := by
  unfold skipValue
  refine if_neg ?_
  rintro ⟨rfl, h⟩
  exact absurd h (by decide)

theorem readProperty_mode {length : Nat} {val1 value : UInt32} (h : TableMode r)
    (hr : readProperty wild bytes length r val1 value = .ok r') : TableMode r' := by
  have h₂ : TableMode { r with index := r.index + 2 } := ⟨h.mode, h.noColumn⟩
  unfold readProperty at hr
  simp only [skipValue_eq] at hr
  generalize { r with index := r.index + 2 } = r₂ at h₂ hr
  change (if (!r₂.columnMode) = true then _ else _) = _ at hr
  rw [if_pos (by rw [h₂.mode]; rfl)] at hr
  split_ifs at hr
  · exact readTableNumber_mode h₂ hr
  · exact readTableString_mode h₂ hr
  · exact readTableBinary_mode h₂ hr

theorem finishReader_mode (h : TableMode r) : finishReader r = .error protocolError := by
  refine if_neg ?_
  rintro ⟨hne, -⟩
  exact hne h.noColumn

/-- By induction over the properties: no table comes out of the loop. -/
theorem readLoop_ne_ok {words : List UInt32} (fuel : Nat) (h : TableMode r) (d : TableDef) :
    readLoop wild bytes words fuel r ≠ .ok d := by
  induction fuel generalizing r with
  | zero =>
    rw [readLoop, finishReader_mode h]
    nofun
  | succ fuel ih =>
    unfold readLoop
    split
    · split
      · nofun
      · rename_i hr
        exact ih (readProperty_mode h hr)
    · rw [finishReader_mode h]
      nofun

theorem getCreateTableInfoProperties_ne_ok (bytes : List UInt8) (d : TableDef) :
    getCreateTableInfoProperties wild bytes ≠ .ok d :=
  readLoop_ne_ok _ ⟨rfl, rfl⟩ d

/-- The description of no table is read back. -/
theorem table_description_not_read (wild : Nat → Option (List UInt8)) (t : AlterTable) :
    ¬ RoundTrip wild t := by
  rintro ⟨bytes, d, -, hread, -⟩
  exact getCreateTableInfoProperties_ne_ok bytes d hread

/-- `fill_columns` stops at a size that is none of the known ones. -/
theorem fillColumns_isSome {fields : List DefineField}
    (h : ∀ f ∈ fields, (getColSize f).isSome = true) : (fillColumns fields).isSome = true := by
  induction fields with
  | nil => rfl
  | cons f fields ih =>
    obtain ⟨colSize, hcol⟩ := Option.isSome_iff_exists.mp (h f List.mem_cons_self)
    obtain ⟨rest, hrest⟩ := Option.isSome_iff_exists.mp
      (ih fun g hg => h g (List.mem_cons_of_mem f hg))
    simp [fillColumns, hcol, hrest]

/-- The tables that are written. -/
theorem fillCreateTableInfoProperties_isSome {t : AlterTable} (hne : t.addFields ≠ [])
    (h : ∀ f ∈ t.addFields, (getColSize f).isSome = true) :
    (fillCreateTableInfoProperties t).isSome = true := by
  obtain ⟨columns, hcols⟩ := Option.isSome_iff_exists.mp (fillColumns_isSome h)
  simp [fillCreateTableInfoProperties, hne, hcols]

/-- A table `t` with one integer column `a`, its primary key. -/
def oneColumn : AlterTable where
  tableName := [116]
  addFields := [⟨[97], 7, 4, 1, false, false, true, []⟩]
  addIndexes := [⟨.primaryKey, 1⟩]
  tablespaceId := rnil
  tablespaceVersion := minusOne
  isTableDiskStored := false
  isTableLogged := true
  isTableTemporary := false
  hashMapId := 2
  hashMapVersion := 1

/-- The table is written, but whatever the pointer that is not set leads to, it is not read
back. -/
theorem one_column_not_read :
    (fillCreateTableInfoProperties oneColumn).isSome = true ∧ ∀ wild, ¬ RoundTrip wild oneColumn := by
  constructor
  · refine fillCreateTableInfoProperties_isSome (by decide) ?_
    intro f hf
    cases List.mem_singleton.mp hf
    rfl
  · rintro wild ⟨bytes, d, -, hread, -⟩
    exact getCreateTableInfoProperties_ne_ok bytes d hread

end IClaustron.Apid.TableDescription
