import IClaustron.Apid.TableBuilderRuns
import Mathlib.Algebra.Order.BigOperators.Group.List
import Mathlib.Algebra.Order.Group.Nat

/-!
# Apid.RecordSize — which tables fit into a record

Model of get_ndb_field_size, check_for_primary_key, check_record_size and verify_create_table in
api/ic_apid_table.ic, and of get_col_size in api/ic_apid_handle_dict_messages.ic. They walk the
lists of an alter-table object, and compute in 32 bits.

* `record_size_iff` — when a table is accepted exactly if its record is small enough.
-/

namespace IClaustron.Apid.TableBuilder

open Lib LinkedList List

/-! ## Model -/

namespace Err

def mdCommitNoOperation : Nat := 7073
def tableMustHavePrimaryKey : Nat := 7076
def recordSizeTooBig : Nat := 7077

end Err

def maxRecordSize : UInt32 := 14000

/-- `ic_align(size, 4)` -/
def icAlign4 (size : UInt32) : UInt32 := (size + 3) / 4 * 4

/-- `get_ndb_field_size` -/
def getNdbFieldSize (d : DefineField) : UInt32 :=
  let size := d.size * d.arraySize
  icAlign4 <| match d.type with
    | .varchar | .varbinary => size + 1
    | .longVarchar | .longVarbinary => size + 2
    | _ => size

/-- `check_for_primary_key` -/
def checkForPrimaryKey (s : AlterTable) : Option Nat := do
  let l ← s.indexes.added
  return if l.any fun p => (s.indexes.object p).type = .primaryKey then 0 else 1

/-- `check_record_size` -/
def checkRecordSize (s : AlterTable) : Option Nat := do
  let l ← s.fields.added
  let recordSize := l.foldl (fun size p => size + getNdbFieldSize (s.fields.object p)) 0
  return if maxRecordSize < recordSize then 1 else 0

/-- `verify_create_table` -/
def verifyCreateTable (s : AlterTable) : Option Nat :=
  if s.fields.add.first = none then some Err.mdCommitNoOperation
  else do
    if (← checkForPrimaryKey s) ≠ 0 then return Err.tableMustHavePrimaryKey
    else if (← checkRecordSize s) ≠ 0 then return Err.recordSizeTooBig
    else return 0

/-- `get_col_size`. It is `none` when its ic_require fails. -/
def getColSize (size : UInt32) : Option UInt32 :=
  if size = 1 then some 3
  else if size = 2 then some 4
  else if size = 3 ∨ size = 4 then some 5
  else if size = 8 then some 6
  else if size = 16 then some 7
  else none

/-! ## Sizes -/

/-- The bytes of one element of a field. -/
def elementSize : FieldType → Nat
  | .tinyInt | .tinyUnsigned => 1
  | .smallInt | .smallUnsigned => 2
  | .mediumInt | .mediumUnsigned => 3
  | .int | .unsigned | .float => 4
  | .bigInt | .bigUnsigned | .double => 8
  | .date | .time => 3
  | .datetime => 8
  | .bit => 0
  | _ => 1

/-- The bytes in front of it for its length. -/
def lengthBytes : FieldType → Nat
  | .varchar | .varbinary => 1
  | .longVarchar | .longVarbinary => 2
  | _ => 0

/-- The bytes of a field in a record, in full words. -/
def exactSize (fieldType : FieldType) (arraySize : UInt32) : Nat :=
  (elementSize fieldType * arraySize.toNat + lengthBytes fieldType + 3) / 4 * 4

def Call.exactSize? : Call → Option Nat
  | .addField _ fieldType arraySize _ _ _ =>
    (fieldSize fieldType arraySize).map fun _ => exactSize fieldType arraySize
  | _ => none

/-- The sizes of the fields that were added. -/
def exactSizes (done : List Call) : List Nat := done.filterMap Call.exactSize?

theorem icAlign4_toNat {size : UInt32} {n : Nat} (h : size.toNat = n % 2 ^ 32) :
    (icAlign4 size).toNat = (n + 3) / 4 * 4 % 2 ^ 32 := by
  unfold icAlign4
  rw [UInt32.toNat_mul, UInt32.toNat_div, UInt32.toNat_add, h]
  show ((n % 2 ^ 32 + 3) % 2 ^ 32) / 4 * 4 % 2 ^ 32 = _
  omega

/-- The array size takes a factor that the element size leaves out. -/
theorem fieldSize_factor {fieldType : FieldType} {arraySize size array : UInt32}
    (h : fieldSize fieldType arraySize = some (size, array)) :
    ∃ factor, array = arraySize * factor ∧ size.toNat * factor.toNat = elementSize fieldType := by
  cases fieldType
  all_goals first
    | cases h; exact ⟨1, (UInt32.mul_one arraySize).symm, rfl⟩
    | cases h; exact ⟨3, rfl, rfl⟩
    | cases h; exact ⟨8, rfl, rfl⟩
    | cases h

theorem fieldSize_toNat {fieldType : FieldType} {arraySize size array : UInt32}
    (h : fieldSize fieldType arraySize = some (size, array)) :
    (size * array).toNat = elementSize fieldType * arraySize.toNat % 2 ^ 32 := by
  rcases fieldSize_factor h with ⟨factor, rfl, hElement⟩
  rw [UInt32.toNat_mul, UInt32.toNat_mul, Nat.mul_mod_mod, ← hElement]
  congr 1
  rw [Nat.mul_comm arraySize.toNat, Nat.mul_assoc]

/-- The only elements without a size that `get_col_size` knows are bits. -/
theorem getColSize_isSome {fieldType : FieldType} {arraySize size array : UInt32}
    (h : fieldSize fieldType arraySize = some (size, array)) :
    (getColSize size).isSome = true ↔ fieldType ≠ .bit := by
  cases fieldType
  all_goals first
    | cases h; decide
    | cases h

theorem getNdbFieldSize_eq (d : DefineField) : getNdbFieldSize d =
    icAlign4 (d.size * d.arraySize + UInt32.ofNat (lengthBytes d.type)) := by
  unfold getNdbFieldSize
  cases d.type
  all_goals first
    | rfl
    | exact congrArg icAlign4 (UInt32.add_zero _).symm

theorem lengthBytes_le (fieldType : FieldType) : lengthBytes fieldType ≤ 2 := by
  cases fieldType <;> decide

/-- The size that is computed for a new field is the exact one, but for multiples of 2 ^ 32. -/
theorem getNdbFieldSize_newField {fieldType : FieldType} {arraySize size array : UInt32}
    (h : fieldSize fieldType arraySize = some (size, array)) (fieldName : Name)
    (isNullable isFieldDiskStored : Bool) :
    (getNdbFieldSize (newField fieldName fieldType size array isNullable isFieldDiskStored)).toNat =
      exactSize fieldType arraySize % 2 ^ 32 := by
  have hLength := lengthBytes_le fieldType
  rw [getNdbFieldSize_eq, exactSize]
  refine icAlign4_toNat ?_
  show (size * array + UInt32.ofNat (lengthBytes fieldType)).toNat = _
  rw [UInt32.toNat_add, fieldSize_toNat h, UInt32.toNat_ofNat', Nat.mod_add_mod, Nat.add_mod_mod]

theorem sizes_eq (done : List Call) :
    (addedFields done).map (fun d => (getNdbFieldSize d).toNat) =
      (exactSizes done).map (· % 2 ^ 32) := by
  unfold addedFields exactSizes
  induction done with
  | nil => rfl
  | cons c done ih =>
    cases c with
    | addField fieldName fieldType arraySize isNullable isFieldDiskStored memory =>
      cases hSize : fieldSize fieldType arraySize with
      | none =>
        rw [filterMap_cons_none, filterMap_cons_none, ih]
        · rw [Call.exactSize?, hSize, Option.map_none]
        · rw [Call.addedField?, hSize, Option.map_none]
      | some sizes =>
        rcases sizes with ⟨size, array⟩
        rw [filterMap_cons_some, filterMap_cons_some, map_cons, map_cons, ih,
          getNdbFieldSize_newField hSize fieldName isNullable isFieldDiskStored]
        · rw [Call.exactSize?, hSize, Option.map_some]
        · rw [Call.addedField?, hSize, Option.map_some]
    | setCharset fieldName csId | setDecimalField fieldName scale precision
    | dropField fieldName memory
    | addIndex indexName fieldNames indexType isNullValuesInIndexAllowed memory
    | dropIndex indexName memory => exact ih

theorem foldl_toNat {β : Type} (f : β → UInt32) (l : List β) : ∀ acc : UInt32,
    (l.foldl (fun size p => size + f p) acc).toNat =
      (acc.toNat + (l.map fun p => (f p).toNat).sum) % 2 ^ 32 := by
  induction l with
  | nil =>
    intro acc
    exact (Nat.mod_eq_of_lt acc.toNat_lt).symm
  | cons x xs ih =>
    intro acc
    rw [foldl_cons, ih, UInt32.toNat_add, map_cons, sum_cons, Nat.mod_add_mod,
      Nat.add_assoc]

/-! ## Accepted tables -/

theorem map_ends {β γ : Type} (f : β → γ) (l : List β) : (ends l).map f = ends (l.map f) := by
  rcases l with _ | ⟨x, _ | ⟨y, l⟩⟩
  · rfl
  · rfl
  · show [f x, f ((y :: l).getLast _)] = [f x, ((y :: l).map f).getLast _]
    rw [getLast_map]

/-- A primary key is among the indexes that the list shows. -/
def PrimaryKeyShown (done : List Call) : Prop :=
  ∃ x ∈ ends (addedIndexes done), x.type = .primaryKey

variable {s : AlterTable} {done : List Call} {a d i j : List Nat}

theorem Builds.checkForPrimaryKey_eq (h : Builds s done a d i j) :
    ∃ r, checkForPrimaryKey s = some r ∧ (r = 0 ↔ PrimaryKeyShown done) := by
  have hShown : (ends i).map (fun p => (s.indexes.object p).type) =
      (ends (addedIndexes done)).map AddedIndex.type := by
    rw [← h.addedIndex, ← map_ends, map_map]
    rfl
  have hAny : ((ends i).any fun p => (s.indexes.object p).type = .primaryKey) = true ↔
      PrimaryKeyShown done := by
    have hMem : IndexType.primaryKey ∈ (ends i).map (fun p => (s.indexes.object p).type) ↔
        IndexType.primaryKey ∈ (ends (addedIndexes done)).map AddedIndex.type := by rw [hShown]
    rw [mem_map, mem_map] at hMem
    rw [any_eq_true]
    exact (exists_congr fun p => and_congr_right fun _ => decide_eq_true_iff).trans hMem
  refine ⟨_, by rw [checkForPrimaryKey, h.indexes.added_eq]; rfl, ?_⟩
  rw [← hAny]
  split
  · rename_i hIs
    exact iff_of_true rfl hIs
  · rename_i hNot
    exact iff_of_false (by decide) hNot

theorem Builds.checkRecordSize_eq (h : Builds s done a d i j) :
    ∃ r, checkRecordSize s = some r ∧ (r = 0 ↔ (ends (exactSizes done)).sum % 2 ^ 32 ≤ 14000) := by
  have hShown : (ends a).map (fun p => (getNdbFieldSize (s.fields.object p)).toNat) =
      (ends (exactSizes done)).map (· % 2 ^ 32) := by
    rw [map_ends, map_ends, ← sizes_eq, ← h.added, map_map]
    rfl
  have hSum := foldl_toNat (fun p => getNdbFieldSize (s.fields.object p)) (ends a) 0
  rw [hShown, UInt32.toNat_zero, Nat.zero_add, ← sum_nat_mod] at hSum
  refine ⟨_, by rw [checkRecordSize, h.fields.added_eq]; rfl, ?_⟩
  have hIff : maxRecordSize < (ends a).foldl (fun size p =>
      size + getNdbFieldSize (s.fields.object p)) 0 ↔
      14000 < (ends (exactSizes done)).sum % 2 ^ 32 := by
    rw [UInt32.lt_iff_toNat_lt, hSum]
    rfl
  split
  · rename_i hIs
    exact iff_of_false (by decide) (Nat.not_le.mpr (hIff.mp hIs))
  · rename_i hNot
    exact iff_of_true rfl (Nat.not_lt.mp fun hIs => hNot (hIff.mpr hIs))

theorem Builds.verifyCreateTable_iff (h : Builds s done a d i j) :
    verifyCreateTable s = some 0 ↔ addedFields done ≠ [] ∧ PrimaryKeyShown done ∧
      (ends (exactSizes done)).sum % 2 ^ 32 ≤ 14000 := by
  rcases h.checkForPrimaryKey_eq with ⟨r, hKey, hKeyIff⟩
  rcases h.checkRecordSize_eq with ⟨r', hSize, hSizeIff⟩
  have hEmpty : s.fields.add.first = none ↔ addedFields done = [] := by
    rw [h.fields.add.forward.head?_eq, head?_ends, head?_eq_none_iff, ← h.added,
      map_eq_nil_iff]
  unfold verifyCreateTable
  rw [hKey, hSize, ← hKeyIff, ← hSizeIff, Ne, ← hEmpty]
  by_cases hFirst : s.fields.add.first = none
  · rw [if_pos hFirst]
    exact iff_of_false (by decide) fun hAll => hAll.1 hFirst
  rw [if_neg hFirst, and_iff_right hFirst]
  show (if r ≠ 0 then some Err.tableMustHavePrimaryKey
    else if r' ≠ 0 then some Err.recordSizeTooBig else some 0) = some 0 ↔ _
  by_cases hr : r = 0
  · rw [if_neg (not_not.mpr hr), and_iff_right hr]
    by_cases hr' : r' = 0
    · rw [if_neg (not_not.mpr hr')]
      exact iff_of_true rfl hr'
    · rw [if_pos hr']
      exact iff_of_false (by decide) hr'
  · rw [if_pos hr]
    exact iff_of_false (by decide) fun hAll => hr hAll.1

/-- The columns that are described to the dictionary have a size that `get_col_size` knows. -/
def ColumnsSized (s : AlterTable) : Prop :=
  ∃ l, s.fields.added = some l ∧ ∀ p ∈ l, (getColSize (s.fields.object p).size).isSome = true

/-- Elements of fields that were added. -/
theorem getColSize_added {x : DefineField} (h : x ∈ addedFields done) :
    (getColSize x.size).isSome = true ↔ x.type ≠ .bit := by
  rcases mem_filterMap.mp h with ⟨c, -, hc⟩
  cases c with
  | addField fieldName fieldType arraySize isNullable isFieldDiskStored memory =>
    rcases Option.map_eq_some_iff.mp hc with ⟨sizes, hSize, rfl⟩
    exact getColSize_isSome hSize
  | setCharset => cases hc
  | setDecimalField => cases hc
  | dropField => cases hc
  | addIndex => cases hc
  | dropIndex => cases hc

theorem Builds.columnsSized_iff (h : Builds s done a d i j) :
    ColumnsSized s ↔ ∀ x ∈ ends (addedFields done), x.type ≠ .bit := by
  have hShown : (ends a).map (fun p => (s.fields.object p).asAdded) = ends (addedFields done) := by
    rw [map_ends, h.added]
  have hSized : ColumnsSized s ↔
      ∀ x ∈ ends (addedFields done), (getColSize x.size).isSome = true := by
    rw [← hShown, forall_mem_map]
    constructor
    · rintro ⟨l, hl, hAll⟩
      cases h.fields.added_eq.symm.trans hl
      exact hAll
    · exact fun hAll => ⟨ends a, h.fields.added_eq, hAll⟩
  rw [hSized]
  exact forall₂_congr fun x hx => getColSize_added ((ends_sublist _).subset hx)

/-- A table is accepted exactly if its record is small enough, and its columns are sized then. -/
def SizeChecked (s : AlterTable) (done : List Call) : Prop :=
  (verifyCreateTable s = some 0 ↔ (exactSizes done).sum ≤ 14000) ∧
  (verifyCreateTable s = some 0 → ColumnsSized s)

/-- A small record belongs to a table with fields, of which the first and the last one are not
bits, and with a primary key as the first or the last index. A record that is too large either
belongs to a table without such an index, or the first and the last field alone are too large,
modulo 2 ^ 32. -/
def SizeOk (done : List Call) : Prop :=
  if (exactSizes done).sum ≤ 14000 then
    addedFields done ≠ [] ∧ PrimaryKeyShown done ∧ ∀ x ∈ ends (addedFields done), x.type ≠ .bit
  else PrimaryKeyShown done → 14000 < (ends (exactSizes done)).sum % 2 ^ 32

/-- For the fields and indexes that any calls have added, the record size is checked as it should
be exactly under this condition. -/
theorem record_size_iff (op : AlterOp) (calls : List Call)
    (hRun : Run.exec callStep (.fresh op, []) calls = some (s, done)) :
    SizeChecked s done ↔ SizeOk done := by
  rcases run_builds op hRun with ⟨a, d, i, j, h⟩
  have hSizes : (ends (exactSizes done)).sum ≤ (exactSizes done).sum :=
    (ends_sublist (exactSizes done)).sum_le_sum fun _ _ => Nat.zero_le _
  unfold SizeChecked SizeOk
  rw [h.verifyCreateTable_iff, h.columnsSized_iff]
  by_cases hSmall : (exactSizes done).sum ≤ 14000
  · have hShown : (ends (exactSizes done)).sum % 2 ^ 32 ≤ 14000 :=
      Nat.le_trans (Nat.mod_le _ _) (Nat.le_trans hSizes hSmall)
    rw [if_pos hSmall, iff_true_right hSmall]
    constructor
    · rintro ⟨⟨hSome, hKey, -⟩, hBits⟩
      exact ⟨hSome, hKey, hBits ⟨hSome, hKey, hShown⟩⟩
    · rintro ⟨hSome, hKey, hBits⟩
      exact ⟨⟨hSome, hKey, hShown⟩, fun _ => hBits⟩
  · -- a record that is too large has fields
    have hSome : addedFields done ≠ [] := by
      intro hNil
      have hEq := sizes_eq done
      rw [hNil] at hEq
      have hNone := List.map_eq_nil_iff.mp hEq.symm
      rw [hNone] at hSmall
      exact hSmall (Nat.zero_le _)
    rw [if_neg hSmall, iff_false_right hSmall]
    constructor
    · rintro ⟨hNot, -⟩ hKey
      exact Nat.not_le.mp fun hLe => hNot ⟨hSome, hKey, hLe⟩
    · intro hLarge
      have hNot : ¬(addedFields done ≠ [] ∧ PrimaryKeyShown done ∧
          (ends (exactSizes done)).sum % 2 ^ 32 ≤ 14000) := fun hAll =>
        Nat.not_le.mpr (hLarge hAll.2.1) hAll.2.2
      exact ⟨hNot, fun hAll => absurd hAll hNot⟩

/-- Three fields, one of them set up further. -/
def threeFields : List Call :=
  [.addField [97] .int 1 false false true, .addField [98] .char 20 true false true,
    .addField [99] .decimal 1 false false true, .setDecimalField [99] 2 8,
    .addIndex [80] [[97], [99]] .primaryKey false true]

theorem record_size_three : ∃ s done,
    Run.exec callStep (.fresh .createTable, []) threeFields = some (s, done) ∧
      (SizeChecked s done ↔ SizeOk done) :=
  ⟨_, _, rfl, record_size_iff .createTable threeFields rfl⟩

/-- A field of 2 ^ 32 - 1 characters is accepted, and so is a field of bits, for which there is no
column size. -/
theorem record_size_fails :
    (∃ s done, Run.exec callStep (.fresh .createTable, [])
      [.addField [97] .char 4294967295 false false true,
        .addIndex [80] [[97]] .primaryKey false true] = some (s, done) ∧ ¬SizeChecked s done) ∧
    (∃ s done, Run.exec callStep (.fresh .createTable, [])
      [.addField [97] .bit 1 false false true,
        .addIndex [80] [[97]] .primaryKey false true] = some (s, done) ∧ ¬SizeChecked s done) := by
  refine ⟨⟨_, _, rfl, fun h => ?_⟩, ⟨_, _, rfl, fun h => ?_⟩⟩
  · exact absurd (h.1.mp rfl) (by decide)
  · rcases h.2 rfl with ⟨l, hl, hAll⟩
    cases hl
    exact absurd (hAll 0 List.mem_cons_self) (by decide)

end IClaustron.Apid.TableBuilder
