import IClaustron.LinkedList.Sll

/-!
# Apid.TableBuilder — building up a table

Model of the calls of api/ic_apid_table.ic that collect the definitions of an alter-table object:
at_add_field, at_set_charset, at_set_decimal_field, at_drop_field, at_add_index and at_drop_index,
and of get_num_added_pkey_cols in api/ic_apid_handle_dict_messages.ic.

Scope limits: the memory container gives the memory that it is asked for or none, which is a choice
of the call, and a definition takes less than 2 ^ 31 bytes. Names are compared by `strcmp`, so they
have no NUL byte.
-/

namespace IClaustron.Apid.TableBuilder

open Lib LinkedList List

/-! ## Definitions -/

abbrev Name := List UInt8

/-- IC_FIELD_TYPE. `noType` is a value of it that is not listed, such as the 0 of memory that was
cleared. -/
inductive FieldType where
  | noType
  | tinyInt | tinyUnsigned | smallInt | smallUnsigned | mediumInt | mediumUnsigned
  | int | unsigned | bigInt | bigUnsigned | float | double
  | char | varchar | binary | varbinary | datetime | date | blob | text | bit
  | longVarchar | longVarbinary | time | year | decimal | decimalUnsigned
deriving DecidableEq

inductive IndexType where
  | primaryKey
  | uniqueKey
  | orderedIndex
deriving DecidableEq

/-- IC_ALTER_OPERATION_TYPE -/
inductive AlterOp where
  | createTable
  | alterTable
  | dropTable
  | renameTable
deriving DecidableEq

/-- IC_DEFINE_FIELD, without the links and the default value. -/
structure DefineField where
  name : Name
  type : FieldType := .noType
  size : UInt32 := 0
  arraySize : UInt32 := 0
  charsetId : UInt32 := 0
  scale : UInt32 := 0
  precision : UInt32 := 0
  isNullable : Bool := false
  isFieldDiskStored : Bool := false
  isPartOfPkey : Bool := false
deriving DecidableEq

/-- IC_DEFINE_INDEX, without the links. `num_fields` is the length of `def_fields`. -/
structure DefineIndex where
  name : Name
  type : IndexType := .primaryKey
  defFields : List Nat := []
  isNullValuesInIndexAllowed : Bool := false
deriving DecidableEq

/-- The definitions of one kind: the memory of those allocated so far, and the lists of the added
and of the dropped ones. -/
structure Defs (D : Type) where
  object : Nat → D
  count : Nat
  add : Sll Nat
  drop : Sll Nat

/-- IC_INT_ALTER_TABLE -/
structure AlterTable where
  alterOpType : AlterOp
  fields : Defs DefineField
  indexes : Defs DefineIndex
  numFields : UInt32
  isTableDiskStored : Bool

section

variable {D : Type}

def Defs.empty (d : D) : Defs D where
  object _ := d
  count := 0
  add := .empty fun _ => none
  drop := .empty fun _ => none

/-- The new object is the one with the number `count`. -/
def Defs.allocate (t : Defs D) (d : D) : Defs D :=
  { t with object := Function.update t.object t.count d, count := t.count + 1 }

/-- The objects that FOR_EACH_SLL visits in the list of the added definitions. -/
def Defs.added (t : Defs D) : Option (List Nat) := visits t.add.next t.count t.add.first

def Defs.dropped (t : Defs D) : Option (List Nat) := visits t.drop.next t.count t.drop.first

/-- `find_field_in_add_field` and the three functions like it. -/
def findDef (name : D → Name) (t : Defs D) (visited : Option (List Nat)) (defName : Name) :
    Option (Option Nat) :=
  visited.map fun l => l.find? fun p => name (t.object p) = defName

end

def findFieldInAddField (s : AlterTable) := findDef DefineField.name s.fields s.fields.added

def findFieldInDropField (s : AlterTable) := findDef DefineField.name s.fields s.fields.dropped

def findIndexInAddIndex (s : AlterTable) := findDef DefineIndex.name s.indexes s.indexes.added

def findIndexInDropIndex (s : AlterTable) := findDef DefineIndex.name s.indexes s.indexes.dropped

/-! ## Calls -/

namespace Err

def memAlloc : Nat := 7005
def fieldAlreadyDefined : Nat := 7064
def fieldNotDefined : Nat := 7065
def notACharsetField : Nat := 7066
def notADecimalField : Nat := 7067
def indexAlreadyDefined : Nat := 7069
def indexNotDefined : Nat := 7070
def illegalMdOperationDropRename : Nat := 7074
def illegalMdOperationCreate : Nat := 7075
def noSuchDataType : Nat := 7108

end Err

/-- `is_charset_field` -/
def isCharsetField : FieldType → Bool
  | .longVarchar | .varchar | .char => true
  | _ => false

/-- `is_decimal_field` -/
def isDecimalField : FieldType → Bool
  | .decimal | .decimalUnsigned => true
  | _ => false

/-- The switch of `at_add_field`: `field_size` and `array_size`. -/
def fieldSize (fieldType : FieldType) (arraySize : UInt32) : Option (UInt32 × UInt32) :=
  match fieldType with
  | .tinyInt | .tinyUnsigned => some (1, arraySize)
  | .smallInt | .smallUnsigned => some (2, arraySize)
  | .mediumInt | .mediumUnsigned => some (1, arraySize * 3)
  | .int | .unsigned => some (4, arraySize)
  | .bigInt | .bigUnsigned => some (8, arraySize)
  | .float => some (4, arraySize)
  | .double => some (8, arraySize)
  | .bit => some (0, arraySize)
  | .char | .varchar | .binary | .varbinary | .blob | .text => some (1, arraySize)
  | .date => some (1, arraySize * 3)
  | .datetime => some (1, arraySize * 8)
  | .time => some (1, arraySize * 3)
  | .year => some (1, arraySize)
  | .decimal | .decimalUnsigned => some (1, arraySize)
  | .noType | .longVarchar | .longVarbinary => none

/-- Fields and indexes can be defined: `alter_op_type` is IC_CREATE_TABLE_OP or IC_ALTER_TABLE_OP. -/
def AlterTable.defines (s : AlterTable) : Bool :=
  match s.alterOpType with
  | .createTable | .alterTable => true
  | _ => false

/-- Writes to the memory of a field. -/
def AlterTable.updateField (s : AlterTable) (p : Nat) (f : DefineField → DefineField) :
    AlterTable :=
  { s with fields := { s.fields with
    object := Function.update s.fields.object p (f (s.fields.object p)) } }

/-- A call, with the choice of the memory container. -/
inductive Call where
  | addField (fieldName : Name) (fieldType : FieldType) (arraySize : UInt32)
      (isNullable isFieldDiskStored : Bool) (memory : Bool)
  | setCharset (fieldName : Name) (csId : UInt32)
  | setDecimalField (fieldName : Name) (scale precision : UInt32)
  | dropField (fieldName : Name) (memory : Bool)
  | addIndex (indexName : Name) (fieldNames : List Name) (indexType : IndexType)
      (isNullValuesInIndexAllowed : Bool) (memory : Bool)
  | dropIndex (indexName : Name) (memory : Bool)

/-- The definition of a field, of which only the flag for the primary key and what the setters set
change later. -/
def newField (fieldName : Name) (fieldType : FieldType) (size arraySize : UInt32)
    (isNullable isFieldDiskStored : Bool) : DefineField where
  name := fieldName
  type := fieldType
  size := size
  arraySize := arraySize
  isNullable := isNullable
  isFieldDiskStored := isFieldDiskStored

/-- `at_add_field`: the object after it and the return code. It is `none` when a NULL pointer is
used. -/
def atAddField (s : AlterTable) (fieldName : Name) (fieldType : FieldType) (arraySize : UInt32)
    (isNullable isFieldDiskStored : Bool) (memory : Bool) : Option (AlterTable × Nat) :=
  if s.defines = false then some (s, Err.illegalMdOperationDropRename)
  else do
    match ← findFieldInAddField s fieldName with
    | some _ => return (s, Err.fieldAlreadyDefined)
    | none =>
      if memory = false then return (s, Err.memAlloc)
      else
        match fieldSize fieldType arraySize with
        | none =>
          let fields := s.fields.allocate { name := fieldName, type := fieldType }
          return ({ s with fields := fields }, Err.noSuchDataType)
        | some (size, arraySize) =>
          let fields := s.fields.allocate
            (newField fieldName fieldType size arraySize isNullable isFieldDiskStored)
          let add ← insertSll fields.add s.fields.count
          return ({ s with
            fields := { fields with add := add }
            numFields := s.numFields + 1
            isTableDiskStored := isFieldDiskStored || s.isTableDiskStored }, 0)

/-- `at_set_charset` and `at_set_decimal_field`. -/
def atSet (s : AlterTable) (fieldName : Name) (isSuitable : FieldType → Bool) (unsuitable : Nat)
    (set : DefineField → DefineField) : Option (AlterTable × Nat) :=
  if s.defines = false then some (s, Err.illegalMdOperationDropRename)
  else do
    let defField ← findFieldInAddField s fieldName
    if defField.isSome then return (s, Err.fieldNotDefined)
    else
      -- `def_field` is used, which is NULL here
      let p ← defField
      if isSuitable (s.fields.object p).type = false then return (s, unsuitable)
      else return (s.updateField p set, 0)

def atSetCharset (s : AlterTable) (fieldName : Name) (csId : UInt32) : Option (AlterTable × Nat) :=
  atSet s fieldName isCharsetField Err.notACharsetField fun d => { d with charsetId := csId }

def atSetDecimalField (s : AlterTable) (fieldName : Name) (scale precision : UInt32) :
    Option (AlterTable × Nat) :=
  atSet s fieldName isDecimalField Err.notADecimalField
    fun d => { d with scale := scale, precision := precision }

/-- `at_drop_field` -/
def atDropField (s : AlterTable) (fieldName : Name) (memory : Bool) : Option (AlterTable × Nat) :=
  if s.defines = false then some (s, Err.illegalMdOperationDropRename)
  else if s.alterOpType = .createTable then some (s, Err.illegalMdOperationCreate)
  else do
    match ← findFieldInAddField s fieldName with
    | none => return (s, Err.fieldNotDefined)
    | some _ =>
      match ← findFieldInDropField s fieldName with
      | some _ => return (s, Err.fieldAlreadyDefined)
      | none =>
        if memory = false then return (s, Err.memAlloc)
        else
          let fields := s.fields.allocate { name := fieldName }
          let drop ← insertSll fields.drop s.fields.count
          return ({ s with fields := { fields with drop := drop } }, 0)

/-- The loop of `at_add_index`: the fields of the index, if all are found. -/
def indexFields (indexType : IndexType) : AlterTable → List Name →
    Option (AlterTable × Option (List Nat))
  | s, [] => some (s, some [])
  | s, fieldName :: fieldNames => do
    match ← findFieldInAddField s fieldName with
    | none => return (s, none)
    | some p =>
      let s :=
        if indexType = .primaryKey then s.updateField p fun d => { d with isPartOfPkey := true }
        else s
      let (s, defFields) ← indexFields indexType s fieldNames
      return (s, defFields.map (p :: ·))

/-- `at_add_index` -/
def atAddIndex (s : AlterTable) (indexName : Name) (fieldNames : List Name) (indexType : IndexType)
    (isNullValuesInIndexAllowed : Bool) (memory : Bool) : Option (AlterTable × Nat) :=
  if s.defines = false then some (s, Err.illegalMdOperationDropRename)
  else do
    match ← findIndexInAddIndex s indexName with
    | some _ => return (s, Err.indexAlreadyDefined)
    | none =>
      if memory = false then return (s, Err.memAlloc)
      else
        let (t, defFields) ← indexFields indexType s fieldNames
        match defFields with
        | none =>
          -- the index stays as it was allocated
          return ({ t with indexes := s.indexes.allocate { name := indexName } },
            Err.fieldNotDefined)
        | some defFields =>
          let indexes := s.indexes.allocate {
            name := indexName
            type := indexType
            defFields := defFields
            isNullValuesInIndexAllowed := isNullValuesInIndexAllowed }
          let add ← insertSll indexes.add s.indexes.count
          return ({ t with indexes := { indexes with add := add } }, 0)

/-- `at_drop_index` -/
def atDropIndex (s : AlterTable) (indexName : Name) (memory : Bool) : Option (AlterTable × Nat) :=
  if s.defines = false then some (s, Err.illegalMdOperationDropRename)
  else if s.alterOpType = .createTable then some (s, Err.illegalMdOperationCreate)
  else do
    match ← findIndexInAddIndex s indexName with
    | none => return (s, Err.indexNotDefined)
    | some _ =>
      match ← findIndexInDropIndex s indexName with
      | some _ => return (s, Err.indexAlreadyDefined)
      | none =>
        if memory = false then return (s, Err.memAlloc)
        else
          let indexes := s.indexes.allocate { name := indexName }
          let drop ← insertSll indexes.drop s.indexes.count
          return ({ s with indexes := { indexes with drop := drop } }, 0)

def atCall (s : AlterTable) : Call → Option (AlterTable × Nat)
  | .addField fieldName fieldType arraySize isNullable isFieldDiskStored memory =>
    atAddField s fieldName fieldType arraySize isNullable isFieldDiskStored memory
  | .setCharset fieldName csId => atSetCharset s fieldName csId
  | .setDecimalField fieldName scale precision => atSetDecimalField s fieldName scale precision
  | .dropField fieldName memory => atDropField s fieldName memory
  | .addIndex indexName fieldNames indexType isNullValuesInIndexAllowed memory =>
    atAddIndex s indexName fieldNames indexType isNullValuesInIndexAllowed memory
  | .dropIndex indexName memory => atDropIndex s indexName memory

/-- An alter-table object without definitions. -/
def AlterTable.fresh (op : AlterOp) : AlterTable where
  alterOpType := op
  fields := .empty { name := [] }
  indexes := .empty { name := [] }
  numFields := 0
  isTableDiskStored := false

/-- `get_num_added_pkey_cols` -/
def getNumAddedPkeyCols (s : AlterTable) : Option Nat := do
  let l ← s.indexes.added
  match l.find? fun p => (s.indexes.object p).type = .primaryKey with
  | some p => return (s.indexes.object p).defFields.length
  | none => return 0

/-! ## What the lists hold -/

section

variable {D E : Type} {t : Defs D} {a d : List Nat}

/-- The definitions `a` were added, and `d` dropped. -/
structure Tracks (t : Defs D) (a d : List Nat) : Prop where
  add : t.add.Shows a
  drop : t.drop.Shows d
  addLt : ∀ p ∈ a, p < t.count
  dropLt : ∀ p ∈ d, p < t.count
  addLen : a.length ≤ t.count
  dropLen : d.length ≤ t.count

theorem Tracks.empty (x : D) : Tracks (Defs.empty x) [] [] where
  add := .empty _
  drop := .empty _
  addLt := forall_mem_nil _
  dropLt := forall_mem_nil _
  addLen := Nat.le_refl 0
  dropLen := Nat.le_refl 0

theorem Tracks.added_eq (h : Tracks t a d) : t.added = some (ends a) :=
  visits_of_chain h.add.forward (Nat.le_trans (ends_sublist a).length_le h.addLen)

theorem Tracks.dropped_eq (h : Tracks t a d) : t.dropped = some (ends d) :=
  visits_of_chain h.drop.forward (Nat.le_trans (ends_sublist d).length_le h.dropLen)

theorem Tracks.write (h : Tracks t a d) (object : Nat → D) :
    Tracks { t with object := object } a d where
  add := h.add
  drop := h.drop
  addLt := h.addLt
  dropLt := h.dropLt
  addLen := h.addLen
  dropLen := h.dropLen

theorem Tracks.allocate (h : Tracks t a d) (x : D) : Tracks (t.allocate x) a d where
  add := h.add
  drop := h.drop
  addLt p hp := Nat.lt_succ_of_lt (h.addLt p hp)
  dropLt p hp := Nat.lt_succ_of_lt (h.dropLt p hp)
  addLen := Nat.le_succ_of_le h.addLen
  dropLen := Nat.le_succ_of_le h.dropLen

/-- A new object is none of those allocated before. -/
theorem allocate_of_lt (x : D) {p : Nat} (hp : p < t.count) :
    (t.allocate x).object p = t.object p :=
  Function.update_of_ne (Nat.ne_of_lt hp) _ _

theorem allocate_count (x : D) : (t.allocate x).object t.count = x := Function.update_self _ _ _

theorem map_allocate (x : D) (f : D → E) {l : List Nat} (hl : ∀ p ∈ l, p < t.count) :
    l.map (fun p => f ((t.allocate x).object p)) = l.map fun p => f (t.object p) :=
  map_congr_left fun p hp => congrArg f (allocate_of_lt x (hl p hp))

theorem map_allocate_append (x : D) (f : D → E) {l : List Nat} (hl : ∀ p ∈ l, p < t.count) :
    (l ++ [t.count]).map (fun p => f ((t.allocate x).object p)) =
      (l.map fun p => f (t.object p)) ++ [f x] := by
  rw [map_append, map_allocate x f hl, map_singleton, allocate_count]

theorem not_mem_of_lt {l : List Nat} {n : Nat} (h : ∀ p ∈ l, p < n) : n ∉ l := fun hMem =>
  Nat.lt_irrefl n (h n hMem)

theorem forall_lt_append {l : List Nat} {n : Nat} (h : ∀ p ∈ l, p < n) :
    ∀ p ∈ l ++ [n], p < n + 1 := by
  intro p hp
  rcases mem_append.mp hp with hp | hp
  · exact Nat.lt_succ_of_lt (h p hp)
  · rw [mem_singleton.mp hp]
    exact Nat.lt_succ_self n

/-- A new definition is added. -/
theorem Tracks.insertAdd (h : Tracks t a d) (x : D) :
    ∃ add, insertSll (t.allocate x).add t.count = some add ∧
      Tracks { t.allocate x with add := add } (a ++ [t.count]) d := by
  rcases h.add.insert (not_mem_of_lt h.addLt) with ⟨add, hInsert, hShows⟩
  refine ⟨add, hInsert, hShows, h.drop, forall_lt_append h.addLt, (h.allocate x).dropLt, ?_,
    (h.allocate x).dropLen⟩
  rw [length_append]
  exact Nat.succ_le_succ h.addLen

/-- A new definition is dropped. -/
theorem Tracks.insertDrop (h : Tracks t a d) (x : D) :
    ∃ drop, insertSll (t.allocate x).drop t.count = some drop ∧
      Tracks { t.allocate x with drop := drop } a (d ++ [t.count]) := by
  rcases h.drop.insert (not_mem_of_lt h.dropLt) with ⟨drop, hInsert, hShows⟩
  refine ⟨drop, hInsert, h.add, hShows, (h.allocate x).addLt, forall_lt_append h.dropLt,
    (h.allocate x).addLen, ?_⟩
  rw [length_append]
  exact Nat.succ_le_succ h.dropLen

/-- A definition is found by its name where the list shows one. -/
theorem findDef_isSome (name : D → Name) (l : List Nat) (defName : Name) :
    ∃ r, findDef name t (some l) defName = some r ∧
      (r.isSome ↔ defName ∈ l.map fun p => name (t.object p)) ∧
      ∀ p ∈ r, p ∈ l ∧ name (t.object p) = defName := by
  refine ⟨_, rfl, ?_, fun p hp => ?_⟩
  · rw [find?_isSome, mem_map]
    exact exists_congr fun p => and_congr_right fun _ => decide_eq_true_iff
  · have hFind : (l.find? fun p => name (t.object p) = defName) = some p := hp
    exact ⟨mem_of_find?_eq_some hFind, by simpa using find?_some hFind⟩

end

end IClaustron.Apid.TableBuilder
