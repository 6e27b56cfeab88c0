import IClaustron.Lib.Sorting
import Mathlib.Algebra.Ring.Nat

/-!
# Apid.QueryFields — the fields of a query

Model of compare_field_in_query, organize_field_in_query_array and apid_query_define_field in
api/ic_apid_op.ic. A query has an array of pointers to its field objects. When the last field is
defined the array is sorted, searched for equal ids, and its key fields are entered into a second
array.

The comparator is handed pointers into the array, but takes them for pointers to the objects. What
it compares is the start of the stored pointers: the fields are sorted by where their objects are,
and those stand in the order of definition.

* `run_partial` — a run that fills the query has the outcome of organizing its fields.
* `organizeLoop_start` — when the loop finds equal ids.

## Scope limits

`ic_create_apid_query` is modelled for the sizes that it computes, not for its allocation: the
query is taken to have its objects and arrays apart from each other.
-/

namespace IClaustron.Apid.QueryFields

open Lib List Option Function

/-! ## Model -/

namespace Err

def tooManyFields : Nat := 7062
def duplicateFieldIds : Nat := 7063

end Err

def maxUInt32 : UInt32 := 0xFFFFFFFF

/-- `IC_FIELD_IN_QUERY`: what a definition sets of it. -/
structure FieldInQuery where
  fieldId : UInt32
  dataOffset : UInt32
  nullOffset : UInt32
deriving DecidableEq

/-- `IC_INT_TABLE_DEF`: what defining fields reads of it. -/
structure TableDef where
  numFields : UInt32
  /-- The first `num_key_fields` of them. -/
  keyFieldIdOrder : List UInt32
  numKeyFields_lt : keyFieldIdOrder.length < 2 ^ 32
  /-- The area of the bitmap. -/
  keyFields : List UInt8
  isIndex : Bool
  isUniqueIndex : Bool

def TableDef.numKeyFields (t : TableDef) : Nat := t.keyFieldIdOrder.length

/-- `ic_bitmap_get_bit`. It is `none` outside of the area. -/
def icBitmapGetBit (bitmapArea : List UInt8) (bitNumber : UInt32) : Option Bool :=
  (bitmapArea[(bitNumber / 8).toNat]?).map fun byte =>
    (byte >>> (bitNumber &&& 7).toUInt8) &&& 1 = 1

/-- `IC_INT_APID_QUERY`. A pointer to a field is the number of its object. -/
structure Query where
  numFields : Nat
  object : Nat → FieldInQuery
  fields : List Nat
  keyFields : Option (List (Option Nat))
  numFieldsDefined : Nat
  numKeyFields : Nat
  isAllKeyFieldsDefined : Bool

/-- The number of pointers to key fields that a query for `numFields` fields has room for. -/
def keyFieldsOf (t : TableDef) (numFields : UInt32) : Nat :=
  if (!t.isIndex || t.isUniqueIndex) && t.numKeyFields ≤ numFields.toNat then t.numKeyFields else 0

/-- The query of `ic_create_apid_query`, before any of its fields is defined. -/
def newQuery (t : TableDef) (numFields : UInt32) : Query where
  numFields := (if numFields = 0 then t.numFields else numFields).toNat
  object _ := ⟨0, 0, 0⟩
  fields := List.range (if numFields = 0 then t.numFields else numFields).toNat
  keyFields :=
    if keyFieldsOf t numFields = 0 then none
    else some (List.replicate (keyFieldsOf t numFields) none)
  numFieldsDefined := 0
  numKeyFields := keyFieldsOf t numFields
  isAllKeyFieldsDefined := false

/-- `compare_field_in_query` on two elements of the array, where `word` are the four bytes at the
start of a pointer. -/
def compareFieldInQuery (word : Nat → UInt32) (a b : Nat) : Int :=
  let leftFieldId := word a
  let rightFieldId := word b
  if rightFieldId < leftFieldId then 1
  else if leftFieldId < rightFieldId then -1
  else 0

/-- The search for a field in `key_field_id_order`, from entry `j` on. -/
def searchKeyField (fieldId : UInt32) : List UInt32 → Nat → Nat → Nat
  | [], _, keyFieldId => keyFieldId
  | x :: xs, j, keyFieldId =>
    searchKeyField fieldId xs (j + 1) (if x = fieldId then j else keyFieldId)

def TableDef.keyFieldId (t : TableDef) (fieldId : UInt32) : Nat :=
  searchKeyField fieldId t.keyFieldIdOrder 0 maxUInt32.toNat

/-- The loop of `organize_field_in_query_array`, with the return code, the array of key fields and
their number. It is `none` when its ic_require fails or there is no such array. -/
def organizeLoop (t : TableDef) (object : Nat → FieldInQuery) :
    List Nat → UInt32 → Option (List (Option Nat)) → Nat →
      Option (Nat × Option (List (Option Nat)) × Nat)
  | [], _, area, keyFields => some (0, area, keyFields)
  | p :: ps, fieldIdCompare, area, keyFields =>
    let fieldId := (object p).fieldId
    if fieldIdCompare = fieldId then some (Err.duplicateFieldIds, area, keyFields)
    else do
      if ← icBitmapGetBit t.keyFields fieldId then
        if t.keyFieldId fieldId < t.numKeyFields then
          let entries ← area
          organizeLoop t object ps fieldId (some (entries.set (t.keyFieldId fieldId) (some p)))
            (keyFields + 1)
        else none
      else organizeLoop t object ps fieldId area keyFields

/-- `organize_field_in_query_array` -/
def organizeFieldInQueryArray (qsort : Sorter Nat) (word : Nat → UInt32) (t : TableDef)
    (q : Query) : Option (Nat × Query) := do
  let fields := qsort.sort (compareFieldInQuery word) q.fields
  let (retCode, area, keyFields) ← organizeLoop t q.object fields maxUInt32 q.keyFields 0
  let q := { q with fields, keyFields := area }
  if retCode ≠ 0 then return (retCode, q)
  else if keyFields = t.numKeyFields then
    return (0, { q with isAllKeyFieldsDefined := true, numKeyFields := t.numKeyFields })
  else return (0, q)

/-- `apid_query_define_field` -/
def apidQueryDefineField (qsort : Sorter Nat) (word : Nat → UInt32) (t : TableDef) (q : Query)
    (fieldId bufferValueIndex nullOffset : UInt32) : Option (Nat × Query) :=
  if t.numFields < fieldId ∨ q.numFields ≤ q.numFieldsDefined then some (Err.tooManyFields, q)
  else do
    let fieldInQuery ← q.fields[q.numFieldsDefined]?
    let q := { q with
      numFieldsDefined := q.numFieldsDefined + 1
      object := update q.object fieldInQuery ⟨fieldId, bufferValueIndex, nullOffset⟩ }
    if q.numFieldsDefined = q.numFields then organizeFieldInQueryArray qsort word t q
    else return (0, q)

/-! ## The property -/

/-- The start of the addresses of `n` objects. These lie in one area whose size has 32 bits. -/
structure Addresses (n : Nat) where
  word : Nat → UInt32
  distinct : ∀ k < n, ∀ l < n, word k = word l → k = l

/-- A call, as the field that it defines, with what it returned and left. -/
structure Step where
  call : FieldInQuery
  before : Query
  retCode : Nat
  after : Query

def run (qsort : Sorter Nat) (word : Nat → UInt32) (t : TableDef) :
    Query → List FieldInQuery → Option (List Step)
  | _, [] => some []
  | q, c :: cs => do
    let (retCode, q') ← apidQueryDefineField qsort word t q c.fieldId c.dataOffset c.nullOffset
    let steps ← run qsort word t q' cs
    return ⟨c, q, retCode, q'⟩ :: steps

/-- The fields whose definitions were accepted. -/
def definedFields (steps : List Step) : List FieldInQuery :=
  (steps.filter fun s => s.retCode ≠ Err.tooManyFields).map Step.call

/-- The call defines the last field. -/
def Step.Fills (s : Step) : Prop :=
  s.before.numFieldsDefined < s.before.numFields ∧ s.after.numFieldsDefined = s.after.numFields

/-- The field that entry `j` of the key fields points to. -/
def Query.keyField? (q : Query) (j : Nat) : Option FieldInQuery :=
  (q.keyFields.bind fun area => area[j]?.join).map q.object

/-- The query shows the fields `defined` in order, with the key fields among them. -/
structure Organized (t : TableDef) (defined : List FieldInQuery) (q : Query) : Prop where
  sorted : (q.fields.map fun p => (q.object p).fieldId).Pairwise (· ≤ ·)
  perm : (q.fields.map q.object).Perm defined
  keyFields : ∀ (j : Nat) fieldId, t.keyFieldIdOrder[j]? = some fieldId → ∀ f ∈ defined,
    f.fieldId = fieldId → q.keyField? j = some f
  all : q.isAllKeyFieldsDefined = true ↔
    ∀ fieldId ∈ t.keyFieldIdOrder, ∃ f ∈ defined, f.fieldId = fieldId

structure Correct (t : TableDef) (steps : List Step) : Prop where
  accepted : ∀ s ∈ steps, s.retCode ≠ Err.tooManyFields → s.call.fieldId < t.numFields
  duplicates : ∀ s ∈ steps, s.Fills → (s.retCode = Err.duplicateFieldIds ↔
    ¬ ((definedFields steps).map FieldInQuery.fieldId).Nodup)
  organized : ∀ s ∈ steps, s.Fills → s.retCode = 0 → Organized t (definedFields steps) s.after

/-- The calls are enough for `n` fields. -/
def FillCalls (t : TableDef) (n : Nat) (calls : List FieldInQuery) : Prop :=
  n ≤ calls.countP fun c => c.fieldId ≤ t.numFields

/-- The calls that define the `n` fields: the others name no field, or come too late. -/
def storedCalls (t : TableDef) (n : Nat) (calls : List FieldInQuery) : List FieldInQuery :=
  (calls.filter fun c => c.fieldId ≤ t.numFields).take n

/-- The table definition says of a field whether it is a key field, and which. -/
def Describes (t : TableDef) (fieldId : UInt32) : Prop :=
  icBitmapGetBit t.keyFields fieldId = some (decide (fieldId ∈ t.keyFieldIdOrder)) ∧
    ∀ i j : Nat, t.keyFieldIdOrder[i]? = some fieldId → t.keyFieldIdOrder[j]? = some fieldId → i = j

/-- The loop gets past a field: its bit can be read, and where it is set the field is found in
`key_field_id_order` and the query has key fields. -/
def Passable (t : TableDef) (hasArea : Bool) (fieldId : UInt32) : Prop :=
  ∃ isKey, icBitmapGetBit t.keyFields fieldId = some isKey ∧
    (isKey = true → fieldId ∈ t.keyFieldIdOrder ∧ hasArea = true)

/-- The ids ascend with the addresses of the objects, and the definition describes the fields. -/
def Ascending (t : TableDef) (hasArea : Bool) (word : Nat → UInt32) (n : Nat)
    (object : Nat → FieldInQuery) : Prop :=
  (∀ k < n, ∀ l < n, word k < word l → (object k).fieldId < (object l).fieldId) ∧
    ∀ k < n, Describes t (object k).fieldId ∧
      ((object k).fieldId ∈ t.keyFieldIdOrder → hasArea = true)

/-- Two objects with no object in between have the same id, and the loop gets to them. -/
def EqualNeighbours (t : TableDef) (hasArea : Bool) (word : Nat → UInt32) (n : Nat)
    (object : Nat → FieldInQuery) : Prop :=
  ∃ k < n, ∃ l < n, word k < word l ∧ (∀ m < n, ¬ (word k < word m ∧ word m < word l)) ∧
    (object k).fieldId = (object l).fieldId ∧
    ∀ m < n, word m ≤ word k → Passable t hasArea (object m).fieldId

/-! ## Calls -/

variable {qsort : Sorter Nat} {word : Nat → UInt32} {t : TableDef} {numFields : UInt32}

/-- The objects after the fields `fs` are defined. -/
def objects (fs : List FieldInQuery) (k : Nat) : FieldInQuery := fs.getD k ⟨0, 0, 0⟩

/-- The query after the fields `fs` are defined, before they are organized. -/
def partialQuery (t : TableDef) (numFields : UInt32) (fs : List FieldInQuery) : Query :=
  { newQuery t numFields with object := objects fs, numFieldsDefined := fs.length }

theorem objects_append (fs : List FieldInQuery) (f : FieldInQuery) :
    update (objects fs) fs.length f = objects (fs ++ [f]) := by
  funext k
  unfold objects
  rw [getD_eq_getElem?_getD]
  by_cases hk : k = fs.length
  · subst hk
    rw [update_self, getElem?_concat_length, getD_some]
  · rw [update_of_ne hk, getD_eq_getElem?_getD]
    rcases Nat.lt_or_gt_of_ne hk with hLt | hGt
    · rw [getElem?_append_left hLt]
    · rw [getElem?_eq_none hGt.le, getElem?_eq_none]
      rw [length_append, length_singleton]
      exact hGt

theorem map_objects (fs : List FieldInQuery) :
    (List.range fs.length).map (objects fs) = fs := by
  refine ext_getElem (by rw [length_map, length_range]) fun k hk hk' => ?_
  rw [getElem_map, getElem_range]
  unfold objects
  rw [getD_eq_getElem?_getD, getElem?_eq_getElem hk', getD_some]

variable {q : Query} {ps : List Nat}

theorem define_refused {fieldId dataOffset nullOffset : UInt32}
    (h : t.numFields < fieldId ∨ q.numFields ≤ q.numFieldsDefined) :
    apidQueryDefineField qsort word t q fieldId dataOffset nullOffset =
      some (Err.tooManyFields, q) :=
  if_pos h

theorem define_partial (qsort : Sorter Nat) (word : Nat → UInt32) {fs : List FieldInQuery}
    {f : FieldInQuery}
    (hId : f.fieldId ≤ t.numFields) (hRoom : fs.length < (newQuery t numFields).numFields) :
    apidQueryDefineField qsort word t (partialQuery t numFields fs) f.fieldId f.dataOffset
        f.nullOffset =
      if fs.length + 1 = (newQuery t numFields).numFields then
        organizeFieldInQueryArray qsort word t (partialQuery t numFields (fs ++ [f]))
      else some (0, partialQuery t numFields (fs ++ [f])) := by
  have hNot : ¬ (t.numFields < f.fieldId ∨
      (partialQuery t numFields fs).numFields ≤ (partialQuery t numFields fs).numFieldsDefined) :=
    not_or.mpr ⟨UInt32.not_lt.mpr hId, Nat.not_le.mpr hRoom⟩
  have hPointer : (partialQuery t numFields fs).fields[fs.length]? = some fs.length :=
    getElem?_range hRoom
  have hNext : { partialQuery t numFields fs with
      numFieldsDefined := fs.length + 1
      object := update (objects fs) fs.length f } =
        partialQuery t numFields (fs ++ [f]) := by
    unfold partialQuery
    rw [objects_append, length_append, length_singleton]
  unfold apidQueryDefineField
  rw [if_neg hNot]
  show ((partialQuery t numFields fs).fields[fs.length]?).bind _ = _
  rw [hPointer, bind_some]
  show (if fs.length + 1 = (newQuery t numFields).numFields then
    organizeFieldInQueryArray qsort word t { partialQuery t numFields fs with
      numFieldsDefined := fs.length + 1
      object := update (objects fs) fs.length f }
    else some (0, { partialQuery t numFields fs with
      numFieldsDefined := fs.length + 1
      object := update (objects fs) fs.length f })) = _
  rw [hNext]

theorem run_full (h : q.numFields ≤ q.numFieldsDefined) (calls : List FieldInQuery) :
    run qsort word t q calls = some (calls.map fun c => ⟨c, q, Err.tooManyFields, q⟩) := by
  induction calls with
  | nil => rfl
  | cons c cs ih =>
    rw [run, define_refused (.inr h)]
    show (run qsort word t q cs).bind _ = _
    rw [ih]
    rfl

/-- Organizing a query returns one of two codes, and leaves it full. -/
theorem organize_outcome {q' : Query} {retCode : Nat}
    (h : organizeFieldInQueryArray qsort word t q = some (retCode, q')) :
    ∃ area keyFields,
      organizeLoop t q.object (qsort.sort (compareFieldInQuery word) q.fields) maxUInt32
        q.keyFields 0 = some (retCode, area, keyFields) ∧
      q'.object = q.object ∧ q'.fields = qsort.sort (compareFieldInQuery word) q.fields ∧
      q'.keyFields = area ∧ q'.numFields = q.numFields ∧
      q'.numFieldsDefined = q.numFieldsDefined ∧
      (retCode = 0 → (q'.isAllKeyFieldsDefined = true ↔
        q.isAllKeyFieldsDefined = true ∨ keyFields = t.numKeyFields)) := by
  change (organizeLoop t q.object (qsort.sort (compareFieldInQuery word) q.fields) maxUInt32
    q.keyFields 0).bind _ = _ at h
  cases hLoop : organizeLoop t q.object (qsort.sort (compareFieldInQuery word) q.fields) maxUInt32
      q.keyFields 0 with
  | none =>
    rw [hLoop] at h
    nomatch h
  | some r =>
    rcases r with ⟨code, area, keyFields⟩
    rw [hLoop] at h
    change (if code ≠ 0 then _ else _) = _ at h
    split at h
    · rename_i hCode
      cases h
      exact ⟨area, keyFields, rfl, rfl, rfl, rfl, rfl, rfl, fun hZero => absurd hZero hCode⟩
    rename_i hCode
    rw [not_not.mp hCode]
    change (if keyFields = t.numKeyFields then _ else _) = _ at h
    split at h
    · rename_i hAll
      cases h
      exact ⟨area, keyFields, rfl, rfl, rfl, rfl, rfl, rfl, fun _ => iff_of_true rfl (.inr hAll)⟩
    · rename_i hNot
      cases h
      exact ⟨area, keyFields, rfl, rfl, rfl, rfl, rfl, rfl, fun _ =>
        ⟨.inl, fun hAny => hAny.resolve_right hNot⟩⟩

/-- The steps define `defined`, and the one that fills the query organizes it with this outcome. -/
structure Filled (steps : List Step) (defined : List FieldInQuery) (retCode : Nat)
    (q' : Query) : Prop where
  defined : definedFields steps = defined
  exists_fills : ∃ s ∈ steps, s.Fills ∧ s.retCode = retCode ∧ s.after = q'
  fills : ∀ s ∈ steps, s.Fills → s.retCode = retCode ∧ s.after = q'

theorem definedFields_cons (s : Step) (steps : List Step) :
    definedFields (s :: steps) =
      if s.retCode ≠ Err.tooManyFields then s.call :: definedFields steps
      else definedFields steps := by
  unfold definedFields
  rw [filter_cons]
  simp only [decide_eq_true_eq]
  split
  · rw [map_cons]
  · rfl

theorem definedFields_refused (q : Query) (calls : List FieldInQuery) :
    definedFields (calls.map fun c => ⟨c, q, Err.tooManyFields, q⟩) = [] := by
  induction calls with
  | nil => rfl
  | cons c cs ih =>
    rw [map_cons, definedFields_cons, if_neg (not_not.mpr rfl), ih]

theorem Filled.cons {s : Step} {steps : List Step} {defined : List FieldInQuery} {retCode : Nat}
    {q' : Query} (h : Filled steps defined retCode q') (hNot : ¬ s.Fills) :
    Filled (s :: steps) (if s.retCode ≠ Err.tooManyFields then s.call :: defined else defined)
      retCode q' where
  defined := by rw [definedFields_cons, h.defined]
  exists_fills := by
    rcases h.exists_fills with ⟨s', hs', hFills⟩
    exact ⟨s', mem_cons_of_mem s hs', hFills⟩
  fills := by
    intro s' hs' hFills
    rcases mem_cons.mp hs' with rfl | hIn
    · exact absurd hFills hNot
    · exact h.fills s' hIn hFills

/-- A run that fills the query organizes all of its fields, once, with the outcome `r`. -/
theorem run_partial {all : List FieldInQuery} {r : Option (Nat × Query)}
    (hOrganize : organizeFieldInQueryArray qsort word t (partialQuery t numFields all) = r)
    (hOutcome : ∀ p ∈ r, p.1 ≠ Err.tooManyFields ∧ p.2.numFieldsDefined = p.2.numFields)
    (calls : List FieldInQuery) : ∀ fs : List FieldInQuery,
    fs.length < (newQuery t numFields).numFields →
    FillCalls t ((newQuery t numFields).numFields - fs.length) calls →
    fs ++ storedCalls t ((newQuery t numFields).numFields - fs.length) calls = all →
    ∃ stepsOf : Nat × Query → List Step,
      run qsort word t (partialQuery t numFields fs) calls = r.map stepsOf ∧
      ∀ p ∈ r, Filled (stepsOf p)
        (storedCalls t ((newQuery t numFields).numFields - fs.length) calls) p.1 p.2 := by
  set n := (newQuery t numFields).numFields with hn
  induction calls with
  | nil =>
    intro fs hRoom hFill
    exact absurd hFill (Nat.not_le.mpr (Nat.sub_pos_of_lt hRoom))
  | cons c cs ih =>
    intro fs hRoom hFill hAll
    by_cases hId : c.fieldId ≤ t.numFields
    · have hLeft : n - fs.length = n - (fs ++ [c]).length + 1 := by
        rw [length_append, length_singleton]
        omega
      have hStored : storedCalls t (n - fs.length) (c :: cs) =
          c :: storedCalls t (n - (fs ++ [c]).length) cs := by
        unfold storedCalls
        rw [filter_cons_of_pos (by rwa [decide_eq_true_eq]), hLeft, take_succ_cons]
      have hFill' : FillCalls t (n - (fs ++ [c]).length) cs := by
        unfold FillCalls at hFill ⊢
        rw [countP_cons_of_pos (by rwa [decide_eq_true_eq]), hLeft] at hFill
        exact Nat.le_of_succ_le_succ hFill
      have hDefine := define_partial qsort word hId hRoom
      rw [hStored, append_cons] at hAll
      rw [hStored, run, hDefine, ← hn]
      by_cases hLast : fs.length + 1 = n
      · -- the last field: what follows is refused
        have hNone : n - (fs ++ [c]).length = 0 := by
          rw [length_append, length_singleton, hLast, Nat.sub_self]
        rw [hNone, storedCalls, take_zero, append_nil] at hAll
        rw [if_pos hLast, hNone, storedCalls, take_zero, hAll, hOrganize]
        refine ⟨fun p => ⟨c, partialQuery t numFields fs, p.1, p.2⟩ ::
          cs.map fun c => ⟨c, p.2, Err.tooManyFields, p.2⟩, ?_, fun p hp => ?_⟩
        · cases r with
          | none => rfl
          | some p =>
            show (run qsort word t p.2 cs).bind _ = _
            rw [run_full (hOutcome p rfl).2.ge]
            rfl
        · rcases hOutcome p hp with ⟨hCode, hFull⟩
          refine ⟨?_, ⟨_, mem_cons_self, ⟨hRoom, hFull⟩, rfl, rfl⟩, fun s hs hFills => ?_⟩
          · rw [definedFields_cons, if_pos hCode, definedFields_refused]
          · rcases mem_cons.mp hs with rfl | hIn
            · exact ⟨rfl, rfl⟩
            · rcases mem_map.mp hIn with ⟨_, _, rfl⟩
              exact absurd hFills.2 hFills.1.ne
      · have hRoom' : (fs ++ [c]).length < n := by
          rw [length_append, length_singleton]
          omega
        rcases ih (fs ++ [c]) hRoom' hFill' hAll with ⟨stepsOf, hRun, hFilled⟩
        rw [if_neg hLast]
        refine ⟨fun p => ⟨c, partialQuery t numFields fs, 0,
          partialQuery t numFields (fs ++ [c])⟩ :: stepsOf p, ?_, fun p hp => ?_⟩
        · show (run qsort word t (partialQuery t numFields (fs ++ [c])) cs).bind _ = _
          rw [hRun]
          cases r <;> rfl
        · exact (hFilled p hp).cons fun hFills => hRoom'.ne hFills.2
    · have hStored : storedCalls t (n - fs.length) (c :: cs) =
          storedCalls t (n - fs.length) cs := by
        unfold storedCalls
        rw [filter_cons_of_neg (by rwa [decide_eq_true_eq])]
      have hFill' : FillCalls t (n - fs.length) cs := by
        unfold FillCalls at hFill ⊢
        rwa [countP_cons_of_neg (by rwa [decide_eq_true_eq])] at hFill
      rw [hStored] at hAll ⊢
      rcases ih fs hRoom hFill' hAll with ⟨stepsOf, hRun, hFilled⟩
      rw [run, define_refused (.inl (UInt32.not_le.mp hId))]
      refine ⟨fun p => ⟨c, partialQuery t numFields fs, Err.tooManyFields,
        partialQuery t numFields fs⟩ :: stepsOf p, ?_, fun p hp => ?_⟩
      · show (run qsort word t (partialQuery t numFields fs) cs).bind _ = _
        rw [hRun]
        cases r <;> rfl
      · exact (hFilled p hp).cons fun hFills => hFills.1.ne hFills.2

/-! ## The loop -/

variable {object : Nat → FieldInQuery}

theorem organizeLoop_code : ∀ {prev : UInt32} {area : Option (List (Option Nat))}
    {keyFields : Nat} {r}, organizeLoop t object ps prev area keyFields = some r →
      r.1 = 0 ∨ r.1 = Err.duplicateFieldIds := by
  induction ps with
  | nil =>
    intro prev area keyFields r h
    cases h
    exact .inl rfl
  | cons p ps ih =>
    intro prev area keyFields r h
    rw [organizeLoop] at h
    split at h
    · cases h
      exact .inr rfl
    rcases bind_eq_some_iff.mp h with ⟨isKey, _, h⟩
    split at h
    · split at h
      · rcases bind_eq_some_iff.mp h with ⟨entries, _, h⟩
        exact ih h
      · nomatch h
    · exact ih h

/-- What a field that the loop gets past does to the key fields. -/
def enter (t : TableDef) (object : Nat → FieldInQuery) (area : Option (List (Option Nat)))
    (p : Nat) : Option (List (Option Nat)) :=
  if icBitmapGetBit t.keyFields (object p).fieldId = some true then
    area.map fun entries => entries.set (t.keyFieldId (object p).fieldId) (some p)
  else area

/-- The field counts as a key field. -/
def isKeyField (t : TableDef) (object : Nat → FieldInQuery) (p : Nat) : Bool :=
  icBitmapGetBit t.keyFields (object p).fieldId = some true

theorem searchKeyField_eq (fieldId : UInt32) (xs : List UInt32) : ∀ j found : Nat,
    (searchKeyField fieldId xs j found = found ∧ fieldId ∉ xs) ∨
      ∃ i : Nat, xs[i]? = some fieldId ∧ searchKeyField fieldId xs j found = j + i := by
  induction xs with
  | nil => exact fun j found => .inl ⟨rfl, not_mem_nil⟩
  | cons x xs ih =>
    intro j found
    rw [searchKeyField]
    rcases ih (j + 1) (if x = fieldId then j else found) with ⟨hEq, hNot⟩ | ⟨i, hi, hEq⟩
    · rw [hEq]
      split
      · rename_i hx
        exact .inr ⟨0, by rw [getElem?_cons_zero, hx], rfl⟩
      · rename_i hx
        exact .inl ⟨rfl, not_mem_cons_of_ne_of_not_mem (Ne.symm hx) hNot⟩
    · exact .inr ⟨i + 1, by rw [getElem?_cons_succ, hi], by rw [hEq]; omega⟩

theorem TableDef.keyFieldId_spec (t : TableDef) (fieldId : UInt32) :
    (t.keyFieldId fieldId < t.numKeyFields ↔ fieldId ∈ t.keyFieldIdOrder) ∧
      (fieldId ∈ t.keyFieldIdOrder →
        t.keyFieldIdOrder[t.keyFieldId fieldId]? = some fieldId) := by
  unfold TableDef.keyFieldId TableDef.numKeyFields
  rcases searchKeyField_eq fieldId t.keyFieldIdOrder 0 maxUInt32.toNat with
    ⟨hEq, hNot⟩ | ⟨i, hi, hEq⟩
  · rw [hEq]
    have hLt := t.numKeyFields_lt
    exact ⟨iff_of_false (Nat.not_lt.mpr (Nat.le_of_lt_succ hLt)) hNot, fun h => absurd h hNot⟩
  · rw [hEq, Nat.zero_add]
    exact ⟨iff_of_true (List.getElem?_eq_some_iff.mp hi).1 (List.mem_of_getElem? hi), fun _ => hi⟩

theorem enter_isSome (area : Option (List (Option Nat))) (p : Nat) :
    (enter t object area p).isSome = area.isSome := by
  unfold enter
  split
  · exact isSome_map
  · rfl

/-- One round of the loop, on a field whose id differs from the one before. -/
theorem organizeLoop_cons {p : Nat} {prev : UInt32} (hNe : prev ≠ (object p).fieldId)
    (ps : List Nat) (area : Option (List (Option Nat))) (keyFields : Nat) :
    (Passable t area.isSome (object p).fieldId →
      organizeLoop t object (p :: ps) prev area keyFields =
        organizeLoop t object ps (object p).fieldId (enter t object area p)
          (keyFields + if isKeyField t object p then 1 else 0)) ∧
    (¬ Passable t area.isSome (object p).fieldId →
      organizeLoop t object (p :: ps) prev area keyFields = none) := by
  rw [organizeLoop, if_neg hNe]
  unfold Passable enter isKeyField
  cases hBit : icBitmapGetBit t.keyFields (object p).fieldId with
  | none => exact ⟨(fun h => nomatch h.choose_spec.1), fun _ => rfl⟩
  | some isKey =>
    cases isKey with
    | false =>
      exact ⟨fun _ => rfl, fun h => absurd ⟨false, rfl, fun h => nomatch h⟩ h⟩
    | true =>
      rw [if_pos rfl, bind_eq_bind, bind_some, if_pos rfl]
      by_cases hKey : (object p).fieldId ∈ t.keyFieldIdOrder
      · rw [if_pos ((t.keyFieldId_spec _).1.mpr hKey)]
        cases area with
        | none =>
          refine ⟨fun h => ?_, fun _ => rfl⟩
          rcases h with ⟨_, hb, h⟩
          cases hb
          nomatch (h rfl).2
        | some entries =>
          exact ⟨fun _ => rfl, fun h => absurd ⟨true, rfl, fun _ => ⟨hKey, rfl⟩⟩ h⟩
      · rw [if_neg fun h => hKey ((t.keyFieldId_spec _).1.mp h)]
        refine ⟨fun h => ?_, fun _ => rfl⟩
        rcases h with ⟨_, hb, h⟩
        cases hb
        exact absurd (h rfl).1 hKey

/-- Where the loop returns 0 it has got past every field, and entered the key fields. -/
theorem organizeLoop_zero : ∀ {prev : UInt32}
    {area area' : Option (List (Option Nat))} {keyFields keyFields' : Nat},
    organizeLoop t object ps prev area keyFields = some (0, area', keyFields') →
      (∀ p ∈ ps, Passable t area.isSome (object p).fieldId) ∧
        area' = ps.foldl (enter t object) area ∧
        keyFields' = keyFields + ps.countP (isKeyField t object) := by
  induction ps with
  | nil =>
    intro prev area area' keyFields keyFields' h
    cases h
    exact ⟨fun p hp => absurd hp not_mem_nil, rfl, rfl⟩
  | cons p ps ih =>
    intro prev area area' keyFields keyFields' h
    by_cases hNe : prev = (object p).fieldId
    · rw [organizeLoop, if_pos hNe] at h
      nomatch h
    rcases organizeLoop_cons (t := t) hNe ps area keyFields with ⟨hPass, hStop⟩
    by_cases hP : Passable t area.isSome (object p).fieldId
    · rw [hPass hP] at h
      rcases ih h with ⟨hRest, hArea, hCount⟩
      rw [enter_isSome] at hRest
      refine ⟨forall_mem_cons.mpr ⟨hP, hRest⟩, hArea, ?_⟩
      rw [hCount, countP_cons]
      omega
    · rw [hStop hP] at h
      nomatch h

theorem organizeLoop_of_nodup : ∀ {prev : UInt32}
    {area : Option (List (Option Nat))} {keyFields : Nat},
    (prev :: ps.map fun p => (object p).fieldId).Nodup →
    (∀ p ∈ ps, Passable t area.isSome (object p).fieldId) →
    organizeLoop t object ps prev area keyFields =
      some (0, ps.foldl (enter t object) area, keyFields + ps.countP (isKeyField t object)) := by
  induction ps with
  | nil => exact fun _ _ => rfl
  | cons p ps ih =>
    intro prev area keyFields hNodup hAll
    rw [map_cons] at hNodup
    have hNe : prev ≠ (object p).fieldId :=
      ne_of_not_mem_cons (nodup_cons.mp hNodup).1
    rcases forall_mem_cons.mp hAll with ⟨hP, hRest⟩
    rw [(organizeLoop_cons hNe ps area keyFields).1 hP, ih (nodup_cons.mp hNodup).2
      (by rwa [enter_isSome]), countP_cons, foldl_cons]
    congr 3
    omega

theorem mem_of_split {p x y : Nat} {l₁ l₂ : List Nat} (h : p :: ps = l₁ ++ x :: y :: l₂) :
    p ∈ l₁ ++ [x] := by
  rcases l₁ with _ | ⟨z, l₁⟩
  · injection h with hX
    rw [hX]
    exact mem_singleton.mpr rfl
  · injection h with hX
    rw [hX]
    exact mem_cons_self

/-- Behind a field that it got past, the loop stops at the first two fields of one id. -/
theorem organizeLoop_duplicate : ∀ {a : Nat} {area : Option (List (Option Nat))}
    {keyFields : Nat}, Passable t area.isSome (object a).fieldId →
    ((organizeLoop t object ps (object a).fieldId area keyFields).map Prod.fst =
        some Err.duplicateFieldIds ↔
      ∃ l₁ x y l₂, a :: ps = l₁ ++ x :: y :: l₂ ∧ (object x).fieldId = (object y).fieldId ∧
        ∀ c ∈ l₁ ++ [x], Passable t area.isSome (object c).fieldId) := by
  induction ps with
  | nil =>
    intro a area keyFields _
    refine iff_of_false (fun h => nomatch h) ?_
    rintro ⟨l₁, x, y, l₂, hEq, _⟩
    have hLength := congrArg List.length hEq
    simp only [length_cons, length_nil, length_append] at hLength
    omega
  | cons b ps ih =>
    intro a area keyFields hA
    by_cases hEq : (object a).fieldId = (object b).fieldId
    · refine iff_of_true (by rw [organizeLoop, if_pos hEq]; rfl) ⟨[], a, b, ps, rfl, hEq, ?_⟩
      exact fun c hc => mem_singleton.mp hc ▸ hA
    rcases organizeLoop_cons (t := t) hEq ps area keyFields with ⟨hPass, hStop⟩
    -- a split of `a :: b :: ps` at two equal ids is one of `b :: ps`
    have hSplit : (∃ l₁ x y l₂, a :: b :: ps = l₁ ++ x :: y :: l₂ ∧
          (object x).fieldId = (object y).fieldId ∧
          ∀ c ∈ l₁ ++ [x], Passable t area.isSome (object c).fieldId) ↔
        ∃ l₁ x y l₂, b :: ps = l₁ ++ x :: y :: l₂ ∧
          (object x).fieldId = (object y).fieldId ∧
          ∀ c ∈ l₁ ++ [x], Passable t area.isSome (object c).fieldId := by
      constructor
      · rintro ⟨l₁, x, y, l₂, hL, hId, hAll⟩
        rcases l₁ with _ | ⟨z, l₁⟩
        · injection hL with hX hL
          injection hL with hY
          rw [← hX, ← hY] at hId
          exact absurd hId hEq
        · injection hL with _ hL
          exact ⟨l₁, x, y, l₂, hL, hId, fun c hc => hAll c (mem_cons_of_mem z hc)⟩
      · rintro ⟨l₁, x, y, l₂, hL, hId, hAll⟩
        exact ⟨a :: l₁, x, y, l₂, by rw [hL, cons_append], hId,
          forall_mem_cons.mpr ⟨hA, hAll⟩⟩
    rw [hSplit]
    by_cases hB : Passable t area.isSome (object b).fieldId
    · rw [hPass hB, ih (by rwa [enter_isSome]), enter_isSome]
    · rw [hStop hB]
      refine iff_of_false (fun h => nomatch h) ?_
      rintro ⟨l₁, x, y, l₂, hL, _, hAll⟩
      exact hB (hAll b (mem_of_split hL))

/-- From its start, if no id is the value that it starts with. -/
theorem organizeLoop_start (t : TableDef) (area : Option (List (Option Nat)))
    (hMax : ∀ p ∈ ps, (object p).fieldId ≠ maxUInt32) :
    (organizeLoop t object ps maxUInt32 area 0).map Prod.fst = some Err.duplicateFieldIds ↔
      ∃ l₁ x y l₂, ps = l₁ ++ x :: y :: l₂ ∧ (object x).fieldId = (object y).fieldId ∧
        ∀ c ∈ l₁ ++ [x], Passable t area.isSome (object c).fieldId := by
  rcases ps with _ | ⟨p, ps⟩
  · refine iff_of_false (fun h => nomatch h) ?_
    rintro ⟨l₁, x, y, l₂, hEq, _⟩
    exact absurd hEq.symm (append_ne_nil_of_right_ne_nil l₁ (cons_ne_nil x _))
  have hNe : maxUInt32 ≠ (object p).fieldId := (hMax p mem_cons_self).symm
  rcases organizeLoop_cons (t := t) hNe ps area 0 with ⟨hPass, hStop⟩
  by_cases hP : Passable t area.isSome (object p).fieldId
  · rw [hPass hP, organizeLoop_duplicate (by rwa [enter_isSome]), enter_isSome]
  · rw [hStop hP]
    refine iff_of_false (fun h => nomatch h) ?_
    rintro ⟨l₁, x, y, l₂, hL, _, hAll⟩
    exact hP (hAll p (mem_of_split hL))

end IClaustron.Apid.QueryFields
