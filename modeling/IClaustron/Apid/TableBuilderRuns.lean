import IClaustron.Apid.TableBuilder
import Mathlib.Data.List.TakeWhile

/-!
# Apid.TableBuilderRuns — sequences of calls that build a table

The calls of `TableBuilder`, from an object without definitions on, with a history of those that
returned 0.

* `run_builds` — this, for any run.
-/

namespace IClaustron.Apid.TableBuilder

open Lib LinkedList List Option Function

/-! ## History -/

/-- A field as it was added. -/
def DefineField.asAdded (d : DefineField) : DefineField :=
  { d with charsetId := 0, scale := 0, precision := 0, isPartOfPkey := false }

/-- An index as it was added. -/
structure AddedIndex where
  name : Name
  type : IndexType
  fieldNames : List Name
  isNullValuesInIndexAllowed : Bool
deriving DecidableEq

def Call.addedField? : Call → Option DefineField
  | .addField fieldName fieldType arraySize isNullable isFieldDiskStored _ =>
    (fieldSize fieldType arraySize).map fun sizes =>
      newField fieldName fieldType sizes.1 sizes.2 isNullable isFieldDiskStored
  | _ => none

def Call.droppedField? : Call → Option Name
  | .dropField fieldName _ => some fieldName
  | _ => none

def Call.addedIndex? : Call → Option AddedIndex
  | .addIndex indexName fieldNames indexType isNullValuesInIndexAllowed _ =>
    some ⟨indexName, indexType, fieldNames, isNullValuesInIndexAllowed⟩
  | _ => none

def Call.droppedIndex? : Call → Option Name
  | .dropIndex indexName _ => some indexName
  | _ => none

/-- What the calls `done`, which returned 0, have added and dropped. -/
def addedFields (done : List Call) : List DefineField := done.filterMap Call.addedField?

def droppedFields (done : List Call) : List Name := done.filterMap Call.droppedField?

def addedIndexes (done : List Call) : List AddedIndex := done.filterMap Call.addedIndex?

def droppedIndexes (done : List Call) : List Name := done.filterMap Call.droppedIndex?

/-- A call goes into the history if it returns 0. -/
def record (done : List Call) (c : Call) (retCode : Nat) : List Call :=
  if retCode = 0 then done ++ [c] else done

def callStep (s : AlterTable × List Call) (c : Call) : Option (AlterTable × List Call) := do
  let (t, retCode) ← atCall s.1 c
  return (t, record s.2 c retCode)

/-! ## What the calls keep -/

/-- An index with the names of its fields. -/
def AlterTable.indexAsAdded (s : AlterTable) (d : DefineIndex) : AddedIndex :=
  ⟨d.name, d.type, d.defFields.map fun q => (s.fields.object q).name, d.isNullValuesInIndexAllowed⟩

/-- The objects `a`, `d`, `i` and `j` of the four lists are the definitions of the history. -/
structure Builds (s : AlterTable) (done : List Call) (a d i j : List Nat) : Prop where
  fields : Tracks s.fields a d
  indexes : Tracks s.indexes i j
  added : a.map (fun p => (s.fields.object p).asAdded) = addedFields done
  dropped : d.map (fun p => (s.fields.object p).name) = droppedFields done
  addedIndex : i.map (fun p => s.indexAsAdded (s.indexes.object p)) = addedIndexes done
  droppedIndex : j.map (fun p => (s.indexes.object p).name) = droppedIndexes done
  keyFields : ∀ p ∈ i, ∀ q ∈ (s.indexes.object p).defFields, q ∈ a
  numFields : s.numFields = UInt32.ofNat a.length

variable {s t : AlterTable} {done : List Call} {a d i j : List Nat} {c : Call}

theorem builds_fresh (op : AlterOp) : Builds (.fresh op) [] [] [] [] [] where
  fields := .empty _
  indexes := .empty _
  added := rfl
  dropped := rfl
  addedIndex := rfl
  droppedIndex := rfl
  keyFields := forall_mem_nil _
  numFields := rfl

/-- Definitions in the lists stay as they are, but for what `asAdded` leaves out. -/
structure SameDefs (s t : AlterTable) (a d i j : List Nat) : Prop where
  fields : Tracks t.fields a d
  indexes : Tracks t.indexes i j
  added : ∀ p ∈ a, (t.fields.object p).asAdded = (s.fields.object p).asAdded
  dropped : ∀ p ∈ d, (t.fields.object p).name = (s.fields.object p).name
  addedIndex : ∀ p ∈ i, t.indexes.object p = s.indexes.object p
  droppedIndex : ∀ p ∈ j, t.indexes.object p = s.indexes.object p
  numFields : t.numFields = s.numFields
  alterOpType : t.alterOpType = s.alterOpType

theorem SameDefs.name_eq (h : SameDefs s t a d i j) {p : Nat} (hp : p ∈ a) :
    (t.fields.object p).name = (s.fields.object p).name := by
  have hName := congrArg DefineField.name (h.added p hp)
  exact hName

variable {x : DefineIndex} {β : Type} {retCode : Nat}

/-- An index keeps the names of its fields. -/
theorem indexAsAdded_congr
    (h : ∀ q ∈ x.defFields, (t.fields.object q).name = (s.fields.object q).name) :
    t.indexAsAdded x = s.indexAsAdded x := by
  unfold AlterTable.indexAsAdded
  rw [map_congr_left h]

theorem Builds.same (h : Builds s done a d i j) (hSame : SameDefs s t a d i j) :
    Builds t done a d i j where
  fields := hSame.fields
  indexes := hSame.indexes
  added := (map_congr_left hSame.added).trans h.added
  dropped := (map_congr_left hSame.dropped).trans h.dropped
  addedIndex := by
    rw [← h.addedIndex]
    refine map_congr_left fun p hp => ?_
    rw [hSame.addedIndex p hp]
    exact indexAsAdded_congr fun q hq => hSame.name_eq (h.keyFields p hp q hq)
  droppedIndex := by
    rw [← h.droppedIndex]
    exact map_congr_left fun p hp => congrArg DefineIndex.name (hSame.droppedIndex p hp)
  keyFields := by
    intro p hp
    rw [hSame.addedIndex p hp]
    exact h.keyFields p hp
  numFields := hSame.numFields.trans h.numFields

/-- Memory that is allocated for a field is not one of its fields. -/
theorem Builds.allocateField (h : Builds s done a d i j) (x : DefineField) :
    SameDefs s { s with fields := s.fields.allocate x } a d i j where
  fields := h.fields.allocate x
  indexes := h.indexes
  added p hp := congrArg _ (allocate_of_lt x (h.fields.addLt p hp))
  dropped p hp := congrArg _ (allocate_of_lt x (h.fields.dropLt p hp))
  addedIndex _ _ := rfl
  droppedIndex _ _ := rfl
  numFields := rfl
  alterOpType := rfl

theorem Builds.allocateIndex (h : Builds s done a d i j) (x : DefineIndex) :
    SameDefs s { s with indexes := s.indexes.allocate x } a d i j where
  fields := h.fields
  indexes := h.indexes.allocate x
  added _ _ := rfl
  dropped _ _ := rfl
  addedIndex p hp := allocate_of_lt x (h.indexes.addLt p hp)
  droppedIndex p hp := allocate_of_lt x (h.indexes.dropLt p hp)
  numFields := rfl
  alterOpType := rfl

theorem filterMap_concat (f : Call → Option β) (done : List Call) (c : Call) :
    (done ++ [c]).filterMap f = done.filterMap f ++ (f c).toList := by
  rw [filterMap_append]
  cases hc : f c with
  | none => rw [filterMap_cons_none hc]; rfl
  | some x => rw [filterMap_cons_some hc]; rfl

/-- A call leaves a part of the history as it is. -/
theorem eq_concat_none {f : Call → Option β} {l : List β} (h : l = done.filterMap f)
    (hc : f c = none) : l = (done ++ [c]).filterMap f := by
  rw [filterMap_concat, hc, h]
  exact (append_nil _).symm

theorem eq_concat_some {f : Call → Option β} {l l' : List β} {x : β} (h : l = done.filterMap f)
    (hc : f c = some x) (hl : l' = l ++ [x]) : l' = (done ++ [c]).filterMap f := by
  rw [filterMap_concat, hc, hl, h]
  rfl

section

variable (h : Builds s done a d i j)

include h

/-- A field is added. -/
theorem Builds.addField {x : DefineField} (hAs : x.asAdded = x)
    (hCall : c.addedField? = some x ∧ c.droppedField? = none ∧ c.addedIndex? = none ∧
      c.droppedIndex? = none) {add : Sll Nat}
    (hTracks : Tracks { s.fields.allocate x with add := add } (a ++ [s.fields.count]) d)
    (disk : Bool) :
    Builds { s with
      fields := { s.fields.allocate x with add := add }
      numFields := s.numFields + 1
      isTableDiskStored := disk } (done ++ [c]) (a ++ [s.fields.count]) d i j := by
  have hNext := h.same (h.allocateField x)
  exact {
    fields := hTracks
    indexes := h.indexes
    added := eq_concat_some h.added hCall.1 <|
      (map_allocate_append x DefineField.asAdded h.fields.addLt).trans (by rw [hAs])
    dropped := eq_concat_none hNext.dropped hCall.2.1
    addedIndex := eq_concat_none hNext.addedIndex hCall.2.2.1
    droppedIndex := eq_concat_none hNext.droppedIndex hCall.2.2.2
    keyFields := fun p hp q hq => mem_append_left _ (h.keyFields p hp q hq)
    numFields := by
      show s.numFields + 1 = _
      rw [h.numFields, length_append, length_singleton, UInt32.ofNat_add]
      rfl }

/-- A field is dropped. -/
theorem Builds.dropField {x : DefineField}
    (hCall : c.addedField? = none ∧ c.droppedField? = some x.name ∧ c.addedIndex? = none ∧
      c.droppedIndex? = none) {drop : Sll Nat}
    (hTracks : Tracks { s.fields.allocate x with drop := drop } a (d ++ [s.fields.count])) :
    Builds { s with fields := { s.fields.allocate x with drop := drop } } (done ++ [c]) a
      (d ++ [s.fields.count]) i j := by
  have hNext := h.same (h.allocateField x)
  exact {
    fields := hTracks
    indexes := h.indexes
    added := eq_concat_none hNext.added hCall.1
    dropped := eq_concat_some h.dropped hCall.2.1
      (map_allocate_append x DefineField.name h.fields.dropLt)
    addedIndex := eq_concat_none hNext.addedIndex hCall.2.2.1
    droppedIndex := eq_concat_none hNext.droppedIndex hCall.2.2.2
    keyFields := h.keyFields
    numFields := h.numFields }

/-- An index is added. -/
theorem Builds.addIndex (hKeys : ∀ q ∈ x.defFields, q ∈ a)
    (hCall : c.addedField? = none ∧ c.droppedField? = none ∧
      c.addedIndex? = some (s.indexAsAdded x) ∧ c.droppedIndex? = none) {add : Sll Nat}
    (hTracks : Tracks { s.indexes.allocate x with add := add } (i ++ [s.indexes.count]) j) :
    Builds { s with indexes := { s.indexes.allocate x with add := add } } (done ++ [c]) a d
      (i ++ [s.indexes.count]) j := by
  have hNext := h.same (h.allocateIndex x)
  exact {
    fields := h.fields
    indexes := hTracks
    added := eq_concat_none hNext.added hCall.1
    dropped := eq_concat_none hNext.dropped hCall.2.1
    addedIndex := eq_concat_some h.addedIndex hCall.2.2.1
      (map_allocate_append x (fun y => s.indexAsAdded y) h.indexes.addLt)
    droppedIndex := eq_concat_none hNext.droppedIndex hCall.2.2.2
    keyFields := by
      intro p hp q hq
      rcases mem_append.mp hp with hp | hp
      · exact hNext.keyFields p hp q hq
      · rw [mem_singleton.mp hp] at hq
        have hNew : (s.indexes.allocate x).object s.indexes.count = x := allocate_count x
        exact hKeys q (hNew ▸ hq)
    numFields := h.numFields }

/-- An index is dropped. -/
theorem Builds.dropIndex
    (hCall : c.addedField? = none ∧ c.droppedField? = none ∧ c.addedIndex? = none ∧
      c.droppedIndex? = some x.name) {drop : Sll Nat}
    (hTracks : Tracks { s.indexes.allocate x with drop := drop } i (j ++ [s.indexes.count])) :
    Builds { s with indexes := { s.indexes.allocate x with drop := drop } } (done ++ [c]) a d i
      (j ++ [s.indexes.count]) := by
  have hNext := h.same (h.allocateIndex x)
  exact {
    fields := h.fields
    indexes := hTracks
    added := eq_concat_none hNext.added hCall.1
    dropped := eq_concat_none hNext.dropped hCall.2.1
    addedIndex := eq_concat_none hNext.addedIndex hCall.2.2.1
    droppedIndex := eq_concat_some h.droppedIndex hCall.2.2.2
      (map_allocate_append x DefineIndex.name h.indexes.dropLt)
    keyFields := hNext.keyFields
    numFields := h.numFields }

theorem Builds.sameSelf : SameDefs s s a d i j where
  fields := h.fields
  indexes := h.indexes
  added _ _ := rfl
  dropped _ _ := rfl
  addedIndex _ _ := rfl
  droppedIndex _ _ := rfl
  numFields := rfl
  alterOpType := rfl

end

/-! ## Outcomes of the calls -/

/-- The names that the four lists show. -/
structure Shown where
  fields : List Name
  dropFields : List Name
  indexes : List Name
  dropIndexes : List Name

def shown (s : AlterTable) (a d i j : List Nat) : Shown where
  fields := (ends a).map fun p => (s.fields.object p).name
  dropFields := (ends d).map fun p => (s.fields.object p).name
  indexes := (ends i).map fun p => (s.indexes.object p).name
  dropIndexes := (ends j).map fun p => (s.indexes.object p).name

/-- The call returns 0. -/
def Accepted (s : AlterTable) (n : Shown) : Call → Prop
  | .addField fieldName fieldType arraySize _ _ memory =>
    s.defines = true ∧ fieldName ∉ n.fields ∧ memory = true ∧
      (fieldSize fieldType arraySize).isSome
  | .setCharset _ _ | .setDecimalField _ _ _ => False
  | .dropField fieldName memory =>
    s.defines = true ∧ s.alterOpType ≠ .createTable ∧ fieldName ∈ n.fields ∧
      fieldName ∉ n.dropFields ∧ memory = true
  | .addIndex indexName fieldNames _ _ memory =>
    s.defines = true ∧ indexName ∉ n.indexes ∧ memory = true ∧ ∀ m ∈ fieldNames, m ∈ n.fields
  | .dropIndex indexName memory =>
    s.defines = true ∧ s.alterOpType ≠ .createTable ∧ indexName ∈ n.indexes ∧
      indexName ∉ n.dropIndexes ∧ memory = true

/-- The call is refused, and changes no definition. -/
def Refused (s : AlterTable) (c : Call) (a d i j : List Nat) : Prop :=
  ¬Accepted s (shown s a d i j) c ∧ ∃ t retCode, atCall s c = some (t, retCode) ∧ retCode ≠ 0 ∧
    SameDefs s t a d i j ∧ ∀ p ∈ a, t.fields.object p = s.fields.object p

section

variable (h : Builds s done a d i j)

include h

theorem Builds.refusedSelf (hNot : ¬Accepted s (shown s a d i j) c)
    (hCall : atCall s c = some (s, retCode)) (hErr : retCode ≠ 0) : Refused s c a d i j :=
  ⟨hNot, s, retCode, hCall, hErr, h.sameSelf, fun _ _ => rfl⟩

theorem Builds.findAdded (fieldName : Name) :
    ∃ r, findFieldInAddField s fieldName = some r ∧
      (r.isSome ↔ fieldName ∈ (shown s a d i j).fields) ∧
      ∀ p ∈ r, p ∈ ends a ∧ (s.fields.object p).name = fieldName := by
  unfold findFieldInAddField
  rw [h.fields.added_eq]
  exact findDef_isSome DefineField.name (ends a) fieldName

theorem Builds.findDropped (fieldName : Name) :
    ∃ r, findFieldInDropField s fieldName = some r ∧
      (r.isSome ↔ fieldName ∈ (shown s a d i j).dropFields) := by
  unfold findFieldInDropField
  rw [h.fields.dropped_eq]
  rcases findDef_isSome DefineField.name (ends d) fieldName with ⟨r, hFind, hSome, -⟩
  exact ⟨r, hFind, hSome⟩

theorem Builds.findAddedIndex (indexName : Name) :
    ∃ r, findIndexInAddIndex s indexName = some r ∧
      (r.isSome ↔ indexName ∈ (shown s a d i j).indexes) := by
  unfold findIndexInAddIndex
  rw [h.indexes.added_eq]
  rcases findDef_isSome DefineIndex.name (ends i) indexName with ⟨r, hFind, hSome, -⟩
  exact ⟨r, hFind, hSome⟩

theorem Builds.findDroppedIndex (indexName : Name) :
    ∃ r, findIndexInDropIndex s indexName = some r ∧
      (r.isSome ↔ indexName ∈ (shown s a d i j).dropIndexes) := by
  unfold findIndexInDropIndex
  rw [h.indexes.dropped_eq]
  rcases findDef_isSome DefineIndex.name (ends j) indexName with ⟨r, hFind, hSome, -⟩
  exact ⟨r, hFind, hSome⟩

/-- The outcome of `at_add_field`. -/
theorem atAddField_outcome (fieldName : Name) (fieldType : FieldType) (arraySize : UInt32)
    (isNullable isFieldDiskStored memory : Bool) :
    let c := Call.addField fieldName fieldType arraySize isNullable isFieldDiskStored memory
    Refused s c a d i j ∨
    (Accepted s (shown s a d i j) c ∧ ∃ t, atCall s c = some (t, 0) ∧
      Builds t (done ++ [c]) (a ++ [s.fields.count]) d i j ∧ t.alterOpType = s.alterOpType ∧
      (∀ p ∈ a, t.fields.object p = s.fields.object p) ∧
      (t.fields.object s.fields.count).isPartOfPkey = false ∧
      (t.fields.object s.fields.count).name = fieldName) := by
  intro c
  have hCall : atCall s c = atAddField s fieldName fieldType arraySize isNullable isFieldDiskStored
    memory := rfl
  unfold atAddField at hCall
  by_cases hDef : s.defines = false
  · rw [if_pos hDef] at hCall
    refine .inl (h.refusedSelf (fun hAcc => ?_) hCall (by decide))
    exact Bool.false_ne_true (hDef.symm.trans hAcc.1)
  have hDef' : s.defines = true := eq_true_of_ne_false hDef
  rcases h.findAdded fieldName with ⟨r, hFind, hSome, -⟩
  rw [if_neg hDef, hFind, bind_eq_bind, bind_some] at hCall
  cases r with
  | some p => exact .inl (h.refusedSelf (fun hAcc => hAcc.2.1 (hSome.mp rfl)) hCall (by decide))
  | none =>
    have hNew : fieldName ∉ (shown s a d i j).fields := fun hMem => nomatch hSome.mpr hMem
    dsimp only at hCall
    by_cases hMem : memory = false
    · rw [if_pos hMem] at hCall
      refine .inl (h.refusedSelf (fun hAcc => ?_) hCall (by decide))
      exact Bool.false_ne_true (hMem.symm.trans hAcc.2.2.1)
    rw [if_neg hMem] at hCall
    cases hSize : fieldSize fieldType arraySize with
    | none =>
      rw [hSize] at hCall
      refine .inl ⟨fun hAcc => ?_, _, _, hCall, by decide, h.allocateField _, fun p hp =>
        allocate_of_lt _ (h.fields.addLt p hp)⟩
      have hSized : (fieldSize fieldType arraySize).isSome = true := hAcc.2.2.2
      rw [hSize] at hSized
      cases hSized
    | some sizes =>
      rcases sizes with ⟨size, array⟩
      rw [hSize] at hCall
      let x := newField fieldName fieldType size array isNullable isFieldDiskStored
      rcases h.fields.insertAdd x with ⟨add, hInsert, hTracks⟩
      dsimp only at hCall
      rw [hInsert] at hCall
      refine .inr ⟨⟨hDef', hNew, eq_true_of_ne_false hMem, by rw [hSize]; rfl⟩, _, hCall,
        h.addField rfl ⟨?_, rfl, rfl, rfl⟩ hTracks _, rfl,
        fun p hp => allocate_of_lt x (h.fields.addLt p hp),
        congrArg DefineField.isPartOfPkey (allocate_count x),
        congrArg DefineField.name (allocate_count x)⟩
      show (fieldSize fieldType arraySize).map _ = _
      rw [hSize]
      rfl

/-- The outcome of the two setters: an error where a field is found, and a NULL pointer where none
is. -/
theorem atSet_outcome (fieldName : Name) (isSuitable : FieldType → Bool) (unsuitable : Nat)
    (set : DefineField → DefineField) :
    (∃ retCode, atSet s fieldName isSuitable unsuitable set = some (s, retCode) ∧ retCode ≠ 0 ∧
      (s.defines = true → fieldName ∈ (shown s a d i j).fields)) ∨
    (atSet s fieldName isSuitable unsuitable set = none ∧ s.defines = true ∧
      fieldName ∉ (shown s a d i j).fields) := by
  by_cases hDef : s.defines = false
  · exact .inl ⟨_, if_pos hDef, by decide, fun hTrue => nomatch hDef.symm.trans hTrue⟩
  rcases h.findAdded fieldName with ⟨r, hFind, hSome, -⟩
  have hCall : atSet s fieldName isSuitable unsuitable set = _ := if_neg hDef
  rw [hFind, bind_eq_bind, bind_some] at hCall
  cases r with
  | some p => exact .inl ⟨_, hCall, by decide, fun _ => hSome.mp rfl⟩
  | none => exact .inr ⟨hCall, eq_true_of_ne_false hDef, fun hMem => nomatch hSome.mpr hMem⟩

/-- The checks that a drop makes: `r` is the definition it finds, and `r'` the one that it finds
dropped. -/
theorem Builds.drops {r r' : Option Nat} {memory : Bool} {found dropped : Prop} {err err' : Nat}
    {accepted : Option (AlterTable × Nat)} (hErr : err ≠ 0) (hErr' : err' ≠ 0)
    (hSome : r.isSome ↔ found) (hSome' : r'.isSome ↔ dropped)
    (hAcc : Accepted s (shown s a d i j) c ↔ s.defines = true ∧ s.alterOpType ≠ .createTable ∧
      found ∧ ¬dropped ∧ memory = true)
    (hCall : atCall s c = if s.defines = false then some (s, Err.illegalMdOperationDropRename)
      else if s.alterOpType = .createTable then some (s, Err.illegalMdOperationCreate)
      else if r.isNone then some (s, err)
      else if r'.isSome then some (s, err')
      else if memory = false then some (s, Err.memAlloc) else accepted) :
    Refused s c a d i j ∨ Accepted s (shown s a d i j) c ∧ atCall s c = accepted := by
  split_ifs at hCall with hDef hCreate hFound hDropped hMem
  · refine .inl (h.refusedSelf (fun hAll => ?_) hCall (by decide))
    exact Bool.false_ne_true (hDef.symm.trans (hAcc.mp hAll).1)
  · exact .inl (h.refusedSelf (fun hAll => (hAcc.mp hAll).2.1 hCreate) hCall (by decide))
  · refine .inl (h.refusedSelf (fun hAll => ?_) hCall hErr)
    have hIn := hSome.mpr (hAcc.mp hAll).2.2.1
    rw [isNone_iff_eq_none.mp hFound] at hIn
    cases hIn
  · refine .inl (h.refusedSelf (fun hAll => ?_) hCall hErr')
    exact (hAcc.mp hAll).2.2.2.1 (hSome'.mp hDropped)
  · refine .inl (h.refusedSelf (fun hAll => ?_) hCall (by decide))
    exact Bool.false_ne_true (hMem.symm.trans (hAcc.mp hAll).2.2.2.2)
  · exact .inr ⟨hAcc.mpr ⟨eq_true_of_ne_false hDef, hCreate,
      hSome.mp (isSome_iff_ne_none.mpr fun hNone => hFound (by rw [hNone]; rfl)),
      fun hIn => hDropped (hSome'.mpr hIn),
      eq_true_of_ne_false hMem⟩, hCall⟩

/-- The outcome of `at_drop_field`. -/
theorem atDropField_outcome (fieldName : Name) (memory : Bool) :
    let c := Call.dropField fieldName memory
    Refused s c a d i j ∨
    (Accepted s (shown s a d i j) c ∧ ∃ t, atCall s c = some (t, 0) ∧
      Builds t (done ++ [c]) a (d ++ [s.fields.count]) i j ∧ t.alterOpType = s.alterOpType ∧
      ∀ p ∈ a, t.fields.object p = s.fields.object p) := by
  intro c
  rcases h.findAdded fieldName with ⟨r, hFind, hSome, -⟩
  rcases h.findDropped fieldName with ⟨r', hFind', hSome'⟩
  rcases h.fields.insertDrop { name := fieldName } with ⟨drop, hInsert, hTracks⟩
  refine (h.drops (show Err.fieldNotDefined ≠ 0 by decide)
    (show Err.fieldAlreadyDefined ≠ 0 by decide) hSome hSome' Iff.rfl ?_).imp_right
    fun ⟨hAcc, hCall⟩ => ⟨hAcc, _, hCall, h.dropField ⟨rfl, rfl, rfl, rfl⟩ hTracks, rfl,
      fun p hp => allocate_of_lt _ (h.fields.addLt p hp)⟩
  show atDropField s fieldName memory = _
  simp only [atDropField, hFind, hFind', bind_eq_bind, bind_some, hInsert]
  cases r <;> cases r' <;> rfl

/-- The outcome of `at_drop_index`. -/
theorem atDropIndex_outcome (indexName : Name) (memory : Bool) :
    let c := Call.dropIndex indexName memory
    Refused s c a d i j ∨
    (Accepted s (shown s a d i j) c ∧ ∃ t, atCall s c = some (t, 0) ∧
      Builds t (done ++ [c]) a d i (j ++ [s.indexes.count]) ∧ t.alterOpType = s.alterOpType ∧
      ∀ p ∈ a, t.fields.object p = s.fields.object p) := by
  intro c
  rcases h.findAddedIndex indexName with ⟨r, hFind, hSome⟩
  rcases h.findDroppedIndex indexName with ⟨r', hFind', hSome'⟩
  rcases h.indexes.insertDrop { name := indexName } with ⟨drop, hInsert, hTracks⟩
  refine (h.drops (show Err.indexNotDefined ≠ 0 by decide)
    (show Err.indexAlreadyDefined ≠ 0 by decide) hSome hSome' Iff.rfl ?_).imp_right
    fun ⟨hAcc, hCall⟩ => ⟨hAcc, _, hCall, h.dropIndex ⟨rfl, rfl, rfl, rfl⟩ hTracks, rfl,
      fun _ _ => rfl⟩
  show atDropIndex s indexName memory = _
  simp only [atDropIndex, hFind, hFind', bind_eq_bind, bind_some, hInsert]
  cases r <;> cases r' <;> rfl

end

/-! ### The fields of an index -/

/-- The fields of the names up to the first one that is not in the list. -/
def foundFields (s : AlterTable) (l : List Nat) : List Name → List Nat
  | [] => []
  | fieldName :: fieldNames =>
    match l.find? fun p => (s.fields.object p).name = fieldName with
    | none => []
    | some p => p :: foundFields s l fieldNames

/-- Other contents of the memory of the fields. -/
def AlterTable.write (s : AlterTable) (object : Nat → DefineField) : AlterTable :=
  { s with fields := { s.fields with object := object } }

/-- Some fields are flagged as part of the primary key, if the index is one. -/
def flagged (indexType : IndexType) (object : Nat → DefineField) (ps : List Nat) (p : Nat) :
    DefineField :=
  if indexType = .primaryKey ∧ p ∈ ps then { object p with isPartOfPkey := true } else object p

def flag (indexType : IndexType) (s : AlterTable) (ps : List Nat) : AlterTable :=
  s.write (flagged indexType s.fields.object ps)

theorem flagged_asAdded (indexType : IndexType) (object : Nat → DefineField) (ps : List Nat)
    (p : Nat) : (flagged indexType object ps p).asAdded = (object p).asAdded := by
  unfold flagged
  split <;> rfl

theorem flagged_name (indexType : IndexType) (object : Nat → DefineField) (ps : List Nat)
    (p : Nat) : (flagged indexType object ps p).name = (object p).name := by
  unfold flagged
  split <;> rfl

theorem flagged_nil (indexType : IndexType) (object : Nat → DefineField) :
    flagged indexType object [] = object := by
  funext p
  exact if_neg fun h => not_mem_nil h.2

/-- One more field is flagged. -/
theorem flagged_cons (object : Nat → DefineField) (p : Nat) (ps : List Nat) :
    flagged .primaryKey (update object p { object p with isPartOfPkey := true }) ps =
      flagged .primaryKey object (p :: ps) := by
  funext q
  unfold flagged
  by_cases hq : q = p
  · subst hq
    have hIn : IndexType.primaryKey = .primaryKey ∧ q ∈ q :: ps := ⟨rfl, mem_cons_self⟩
    rw [update_self, if_pos hIn]
    split <;> rfl
  · have hIff : q ∈ p :: ps ↔ q ∈ ps := by simp [hq]
    simp only [update_of_ne hq, hIff]

theorem flagged_of_ne {indexType : IndexType} (hType : indexType ≠ .primaryKey)
    (object : Nat → DefineField) (ps : List Nat) : flagged indexType object ps = object := by
  funext p
  exact if_neg fun h => hType h.1

theorem flag_cons (indexType : IndexType) (s : AlterTable) (p : Nat) (ps : List Nat) :
    flag indexType (if indexType = .primaryKey then
        s.updateField p fun d => { d with isPartOfPkey := true } else s) ps =
      flag indexType s (p :: ps) := by
  by_cases hPk : indexType = .primaryKey
  · subst hPk
    rw [if_pos rfl]
    exact congrArg s.write (flagged_cons s.fields.object p ps)
  · rw [if_neg hPk]
    unfold flag
    rw [flagged_of_ne hPk, flagged_of_ne hPk]

/-- A field that is not flagged newly is not written. -/
theorem flagged_eq_self {indexType : IndexType} {object : Nat → DefineField} {ps : List Nat}
    {p : Nat} (h : (flagged indexType object ps p).isPartOfPkey = (object p).isPartOfPkey) :
    flagged indexType object ps p = object p := by
  unfold flagged at h ⊢
  split
  · rename_i hIn
    rw [if_pos hIn] at h
    rw [show true = (object p).isPartOfPkey from h]
  · rfl

theorem updateField_name (s : AlterTable) {p : Nat} {f : DefineField → DefineField}
    (hName : (f (s.fields.object p)).name = (s.fields.object p).name) (q : Nat) :
    ((s.updateField p f).fields.object q).name = (s.fields.object q).name := by
  show (update s.fields.object p (f (s.fields.object p)) q).name = _
  by_cases hq : q = p
  · subst hq
    rw [update_self, hName]
  · rw [update_of_ne hq]

theorem foundFields_congr {l : List Nat} {fieldNames : List Name}
    (h : ∀ p, (t.fields.object p).name = (s.fields.object p).name) :
    foundFields t l fieldNames = foundFields s l fieldNames := by
  induction fieldNames with
  | nil => rfl
  | cons m ms ih =>
    simp only [foundFields, h, ih]

theorem not_mem_names {s : AlterTable} {l : List Nat} {m : Name}
    (h : (l.find? fun p => (s.fields.object p).name = m) = none) :
    m ∉ l.map fun p => (s.fields.object p).name := by
  intro hMem
  rcases mem_map.mp hMem with ⟨p, hIn, hName⟩
  exact find?_eq_none.mp h p hIn (decide_eq_true hName)

/-- The loop of `at_add_index` flags the fields that it finds. -/
theorem indexFields_eq (indexType : IndexType) (fieldNames : List Name) :
    ∀ {s : AlterTable} {l : List Nat}, s.fields.added = some l →
      indexFields indexType s fieldNames =
        some (flag indexType s (foundFields s l fieldNames),
          if ∀ m ∈ fieldNames, m ∈ l.map fun p => (s.fields.object p).name then
            some (foundFields s l fieldNames) else none) := by
  induction fieldNames with
  | nil =>
    intro s l hAdded
    rw [if_pos (forall_mem_nil _), foundFields, flag, flagged_nil]
    rfl
  | cons m ms ih =>
    intro s l hAdded
    have hFind : findFieldInAddField s m =
        some (l.find? fun p => (s.fields.object p).name = m) := by
      unfold findFieldInAddField
      rw [hAdded]
      rfl
    rw [indexFields, hFind, bind_eq_bind, bind_some, foundFields]
    cases hp : l.find? fun p => (s.fields.object p).name = m with
    | none =>
      have hNot := not_mem_names hp
      rw [if_neg fun hAll => hNot (hAll m mem_cons_self)]
      dsimp only
      unfold flag
      rw [flagged_nil]
      rfl
    | some p =>
      have hMem : m ∈ l.map fun p => (s.fields.object p).name :=
        mem_map.mpr ⟨p, mem_of_find?_eq_some hp, by simpa using find?_some hp⟩
      dsimp only
      -- the fields keep their names while they are flagged
      have hNames : ∀ q, ((if indexType = .primaryKey then
          s.updateField p fun d => { d with isPartOfPkey := true } else s).fields.object q).name =
          (s.fields.object q).name := by
        intro q
        split
        · exact updateField_name s rfl q
        · rfl
      have hAdded' : (if indexType = .primaryKey then
          s.updateField p fun d => { d with isPartOfPkey := true } else s).fields.added = some l := by
        split
        · exact hAdded
        · exact hAdded
      rw [ih hAdded', flag_cons, foundFields_congr hNames,
        map_congr_left fun q _ => hNames q, bind_eq_bind, bind_some]
      by_cases hAll : ∀ m ∈ ms, m ∈ l.map fun p => (s.fields.object p).name
      · rw [if_pos hAll, if_pos (forall_mem_cons.mpr ⟨hMem, hAll⟩)]
        rfl
      · rw [if_neg hAll, if_neg fun h => hAll (forall_mem_cons.mp h).2]
        rfl

/-- The fields that are found have the names up to the first one that is not in the list. -/
theorem foundFields_spec (s : AlterTable) (l : List Nat) (fieldNames : List Name) :
    (foundFields s l fieldNames).map (fun p => (s.fields.object p).name) =
      fieldNames.takeWhile (fun m => m ∈ l.map fun p => (s.fields.object p).name) ∧
    ∀ p ∈ foundFields s l fieldNames, p ∈ l := by
  induction fieldNames with
  | nil => exact ⟨rfl, forall_mem_nil _⟩
  | cons m ms ih =>
    rw [foundFields, takeWhile_cons]
    cases hp : l.find? fun p => (s.fields.object p).name = m with
    | none =>
      have hNot := not_mem_names hp
      rw [if_neg (by simpa using hNot)]
      exact ⟨rfl, forall_mem_nil _⟩
    | some p =>
      have hName : (s.fields.object p).name = m := by simpa using find?_some hp
      have hIn := mem_of_find?_eq_some hp
      rw [if_pos (decide_eq_true (List.mem_map.mpr ⟨p, hIn, hName⟩))]
      refine ⟨?_, forall_mem_cons.mpr ⟨hIn, ih.2⟩⟩
      dsimp only
      rw [map_cons, hName, ih.1]

theorem Builds.flag (h : Builds s done a d i j) (indexType : IndexType) (ps : List Nat) :
    SameDefs s (flag indexType s ps) a d i j where
  fields := h.fields.write _
  indexes := h.indexes
  added p _ := flagged_asAdded indexType s.fields.object ps p
  dropped p _ := flagged_name indexType s.fields.object ps p
  addedIndex _ _ := rfl
  droppedIndex _ _ := rfl
  numFields := rfl
  alterOpType := rfl

/-- The outcome of `at_add_index`. -/
theorem atAddIndex_outcome (h : Builds s done a d i j) (indexName : Name) (fieldNames : List Name)
    (indexType : IndexType) (isNullValuesInIndexAllowed memory : Bool) :
    let c := Call.addIndex indexName fieldNames indexType isNullValuesInIndexAllowed memory
    let ps := foundFields s (ends a) fieldNames
    (Refused s c a d i j ∧ ¬(s.defines = true ∧ indexName ∉ (shown s a d i j).indexes ∧
      memory = true)) ∨
    (¬Accepted s (shown s a d i j) c ∧ s.defines = true ∧ indexName ∉ (shown s a d i j).indexes ∧
      memory = true ∧ ∃ t retCode, atCall s c = some (t, retCode) ∧ retCode ≠ 0 ∧
        SameDefs s t a d i j ∧
        ∀ p, t.fields.object p = flagged indexType s.fields.object ps p) ∨
    (Accepted s (shown s a d i j) c ∧ ∃ t, atCall s c = some (t, 0) ∧
      Builds t (done ++ [c]) a d (i ++ [s.indexes.count]) j ∧ t.alterOpType = s.alterOpType ∧
      ∀ p, t.fields.object p = flagged indexType s.fields.object ps p) := by
  intro c ps
  have hCall : atCall s c = atAddIndex s indexName fieldNames indexType isNullValuesInIndexAllowed
    memory := rfl
  unfold atAddIndex at hCall
  by_cases hDef : s.defines = false
  · rw [if_pos hDef] at hCall
    have hNot : s.defines ≠ true := fun hTrue => Bool.false_ne_true (hDef.symm.trans hTrue)
    exact .inl ⟨h.refusedSelf (fun hAcc => hNot hAcc.1) hCall (by decide), fun hAll => hNot hAll.1⟩
  rcases h.findAddedIndex indexName with ⟨r, hFind, hSome⟩
  rw [if_neg hDef, hFind, bind_eq_bind, bind_some] at hCall
  cases r with
  | some p =>
    exact .inl ⟨h.refusedSelf (fun hAcc => hAcc.2.1 (hSome.mp rfl)) hCall (by decide),
      fun hAll => hAll.2.1 (hSome.mp rfl)⟩
  | none =>
    have hNew : indexName ∉ (shown s a d i j).indexes := fun hIn => nomatch hSome.mpr hIn
    dsimp only at hCall
    by_cases hMem : memory = false
    · rw [if_pos hMem] at hCall
      have hNot : memory ≠ true := fun hTrue => Bool.false_ne_true (hMem.symm.trans hTrue)
      exact .inl ⟨h.refusedSelf (fun hAcc => hNot hAcc.2.2.1) hCall (by decide),
        fun hAll => hNot hAll.2.2⟩
    rw [if_neg hMem, indexFields_eq indexType fieldNames h.fields.added_eq, bind_eq_bind,
      bind_some] at hCall
    have hSame := h.flag indexType ps
    have hBuilds := h.same hSame
    by_cases hAll : ∀ m ∈ fieldNames, m ∈ (ends a).map fun p => (s.fields.object p).name
    · let x : DefineIndex := {
        name := indexName
        type := indexType
        defFields := ps
        isNullValuesInIndexAllowed := isNullValuesInIndexAllowed }
      rcases h.indexes.insertAdd x with ⟨add, hInsert, hTracks⟩
      rw [if_pos hAll] at hCall
      dsimp only at hCall
      rw [hInsert] at hCall
      have hAdded := (foundFields_spec s (ends a) fieldNames).1
      have hIn := (foundFields_spec s (ends a) fieldNames).2
      have hNames : ps.map (fun p => ((flag indexType s ps).fields.object p).name) = fieldNames := by
        refine (map_congr_left fun p _ => flagged_name indexType s.fields.object ps p).trans
          (hAdded.trans ?_)
        rw [takeWhile_eq_self_iff]
        exact fun m hm => decide_eq_true (hAll m hm)
      refine .inr (.inr ⟨⟨eq_true_of_ne_false hDef, hNew, eq_true_of_ne_false hMem, hAll⟩, _, hCall,
        hBuilds.addIndex (x := x) (fun q hq => (ends_sublist a).subset (hIn q hq))
          ⟨rfl, rfl, ?_, rfl⟩ hTracks, rfl, fun _ => rfl⟩)
      show some _ = some (AddedIndex.mk _ _ _ _)
      rw [hNames]
    · rw [if_neg hAll] at hCall
      refine .inr (.inl ⟨fun hAcc => hAll hAcc.2.2.2, eq_true_of_ne_false hDef, hNew,
        eq_true_of_ne_false hMem, _, _, hCall, by decide, ?_, fun _ => rfl⟩)
      exact {
        fields := hSame.fields
        indexes := h.indexes.allocate _
        added := hSame.added
        dropped := hSame.dropped
        addedIndex := fun p hp => allocate_of_lt _ (h.indexes.addLt p hp)
        droppedIndex := fun p hp => allocate_of_lt _ (h.indexes.dropLt p hp)
        numFields := rfl
        alterOpType := rfl }

/-! ## Runs -/

/-- A setter is never recorded. -/
theorem builds_set (h : Builds s done a d i j) {fieldName : Name} {isSuitable : FieldType → Bool}
    {unsuitable : Nat} {set : DefineField → DefineField}
    (hCall : atSet s fieldName isSuitable unsuitable set = some (t, retCode)) :
    t = s ∧ retCode ≠ 0 := by
  rcases atSet_outcome h fieldName isSuitable unsuitable set with ⟨r, hSome, hErr, -⟩ | ⟨hNone, -⟩
  · rw [hSome] at hCall
    cases hCall
    exact ⟨rfl, hErr⟩
  · rw [hNone] at hCall
    cases hCall

/-- A call that is refused leaves the history as it is. -/
theorem Refused.builds (hRef : Refused s c a d i j) (h : Builds s done a d i j)
    (hCall : atCall s c = some (t, retCode)) : Builds t (record done c retCode) a d i j := by
  rcases hRef with ⟨-, t', r, hSome, hErr, hSame, -⟩
  rw [hSome] at hCall
  cases hCall
  rw [record, if_neg hErr]
  exact h.same hSame

/-- One call. -/
theorem call_builds (h : Builds s done a d i j) (hCall : atCall s c = some (t, retCode)) :
    ∃ a' d' i' j', Builds t (record done c retCode) a' d' i' j' := by
  cases c with
  | addField fieldName fieldType arraySize isNullable isFieldDiskStored memory =>
    rcases atAddField_outcome h fieldName fieldType arraySize isNullable isFieldDiskStored memory
      with hRef | ⟨-, t', hSome, hNext, -⟩
    · exact ⟨a, d, i, j, hRef.builds h hCall⟩
    · cases hSome.symm.trans hCall
      exact ⟨_, _, _, _, hNext⟩
  | setCharset fieldName csId | setDecimalField fieldName scale precision =>
    rcases builds_set h hCall with ⟨rfl, hErr⟩
    rw [record, if_neg hErr]
    exact ⟨a, d, i, j, h⟩
  | dropField fieldName memory =>
    rcases atDropField_outcome h fieldName memory with hRef | ⟨-, t', hSome, hNext, -⟩
    · exact ⟨a, d, i, j, hRef.builds h hCall⟩
    · cases hSome.symm.trans hCall
      exact ⟨_, _, _, _, hNext⟩
  | addIndex indexName fieldNames indexType isNullValuesInIndexAllowed memory =>
    rcases atAddIndex_outcome h indexName fieldNames indexType isNullValuesInIndexAllowed memory
      with ⟨hRef, -⟩ | ⟨-, -, -, -, t', r, hSome, hErr, hSame, -⟩ | ⟨-, t', hSome, hNext, -⟩
    · exact ⟨a, d, i, j, hRef.builds h hCall⟩
    · cases hSome.symm.trans hCall
      rw [record, if_neg hErr]
      exact ⟨a, d, i, j, h.same hSame⟩
    · cases hSome.symm.trans hCall
      exact ⟨_, _, _, _, hNext⟩
  | dropIndex indexName memory =>
    rcases atDropIndex_outcome h indexName memory with hRef | ⟨-, t', hSome, hNext, -⟩
    · exact ⟨a, d, i, j, hRef.builds h hCall⟩
    · cases hSome.symm.trans hCall
      exact ⟨_, _, _, _, hNext⟩

/-- In any run the lists are made of the definitions of the history. -/
theorem run_builds (op : AlterOp) {calls : List Call}
    (hRun : Run.exec callStep (.fresh op, []) calls = some (s, done)) :
    ∃ a d i j, Builds s done a d i j := by
  refine Run.invariant callStep (fun s => ∃ a d i j, Builds s.1 s.2 a d i j) ?_ hRun
    ⟨[], [], [], [], builds_fresh op⟩
  rintro ⟨s, done⟩ c ⟨t, done'⟩ hStep ⟨a, d, i, j, h⟩
  rw [callStep, bind_eq_bind, bind_eq_some_iff] at hStep
  rcases hStep with ⟨⟨t', retCode⟩, hCall, hRecord⟩
  cases hRecord
  exact call_builds h hCall

end IClaustron.Apid.TableBuilder
