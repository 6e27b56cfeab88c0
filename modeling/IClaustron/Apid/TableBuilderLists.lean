import IClaustron.Apid.TableBuilderRuns
import Mathlib.Data.List.Perm.Subperm

/-!
# Apid.TableBuilderLists — when the lists of a table are complete

Whether the lists of an alter-table object, its number of fields and the flags of its primary key
are those of the calls that returned 0. They are not where a list gets a third definition, where a
setter is called for a field that is defined and of the right type or is not defined at all, and
where the flags of a primary key that is refused, comes second or names a field twice stay.

* `builder_iff` — every call of a sequence leaves the object as it should exactly if every call
  meets the condition.
-/

namespace IClaustron.Apid.TableBuilder

open Lib LinkedList List

/-! ## The property -/

/-- What the lists of an object show. -/
structure View where
  addField : List DefineField
  dropField : List Name
  addIndex : List DefineIndex
  dropIndex : List Name
  numFields : UInt32

def AlterTable.view (s : AlterTable) : Option View := do
  let a ← s.fields.added
  let d ← s.fields.dropped
  let i ← s.indexes.added
  let j ← s.indexes.dropped
  return {
    addField := a.map s.fields.object
    dropField := d.map fun p => (s.fields.object p).name
    addIndex := i.map s.indexes.object
    dropIndex := j.map fun p => (s.indexes.object p).name
    numFields := s.numFields }

/-- The lists hold what was added and dropped, in the order of the calls, the names in each list are
distinct, and the number of fields and of flagged fields is right. -/
structure View.Matches (v : View) (s : AlterTable) (done : List Call) : Prop where
  addField : v.addField.map DefineField.asAdded = addedFields done
  dropField : v.dropField = droppedFields done
  addIndex : v.addIndex.map s.indexAsAdded = addedIndexes done
  dropIndex : v.dropIndex = droppedIndexes done
  numFields : v.numFields.toNat = v.addField.length
  addFieldNames : (v.addField.map DefineField.name).Nodup
  dropFieldNames : v.dropField.Nodup
  addIndexNames : (v.addIndex.map DefineIndex.name).Nodup
  dropIndexNames : v.dropIndex.Nodup
  pkeyCols : getNumAddedPkeyCols s = some (v.addField.countP DefineField.isPartOfPkey)

def AsBuilt (s : AlterTable) (done : List Call) : Prop :=
  ∃ v, s.view = some v ∧ v.Matches s done

/-- A field is defined and of a suitable type. -/
def Suits (done : List Call) (fieldName : Name) (isSuitable : FieldType → Bool) : Prop :=
  ∃ x ∈ addedFields done, x.name = fieldName ∧ isSuitable x.type = true

/-- A setter succeeds exactly for such fields. -/
def SetterRight (done : List Call) (c : Call) (retCode : Nat) : Prop :=
  match c with
  | .setCharset fieldName _ => retCode = 0 ↔ Suits done fieldName isCharsetField
  | .setDecimalField fieldName _ _ => retCode = 0 ↔ Suits done fieldName isDecimalField
  | _ => True

/-- The call returns, a setter as it should, an error changes nothing, and the object is as it was
built afterwards. -/
def CallGoes (s : AlterTable × List Call) (c : Call) : Prop :=
  ∃ t retCode, atCall s.1 c = some (t, retCode) ∧ SetterRight s.2 c retCode ∧
    (retCode ≠ 0 → t.view = s.1.view) ∧ AsBuilt t (record s.2 c retCode)

/-! ## The condition -/

/-- The names in the four lists. -/
def recorded (done : List Call) : Shown where
  fields := (addedFields done).map DefineField.name
  dropFields := droppedFields done
  indexes := (addedIndexes done).map AddedIndex.name
  dropIndexes := droppedIndexes done

/-- The first primary key. -/
def primaryKey (done : List Call) : Option AddedIndex :=
  (addedIndexes done).find? fun x => x.type = .primaryKey

/-- The names of its fields. -/
def pkeyNames (done : List Call) : List Name :=
  match primaryKey done with
  | some x => x.fieldNames
  | none => []

/-- A field is defined, and of another type. -/
def Unsuitable (s : AlterTable) (done : List Call) (fieldName : Name)
    (isSuitable : FieldType → Bool) : Prop :=
  s.defines = false ∨ ∃ x ∈ addedFields done, x.name = fieldName ∧ isSuitable x.type = false

/-- The call can be made. Lists take two definitions. A setter goes for a field of a type that does
not suit it, or for no field where no field can be defined. A primary key that is accepted names
each of its fields once if it is the first one, and no other fields than that one else; one that is
refused for a field that is not defined names only fields of the first one in front of that. -/
def callOk (s : AlterTable × List Call) (c : Call) : Prop :=
  match c with
  | .addField _ _ _ _ _ _ => Accepted s.1 (recorded s.2) c → (addedFields s.2).length ≤ 1
  | .setCharset fieldName _ => Unsuitable s.1 s.2 fieldName isCharsetField
  | .setDecimalField fieldName _ _ => Unsuitable s.1 s.2 fieldName isDecimalField
  | .dropField _ _ => Accepted s.1 (recorded s.2) c → (droppedFields s.2).length ≤ 1
  | .addIndex indexName fieldNames indexType _ memory =>
    (Accepted s.1 (recorded s.2) c →
      (addedIndexes s.2).length ≤ 1 ∧
      (indexType = .primaryKey →
        if (primaryKey s.2).isSome then ∀ m ∈ fieldNames, m ∈ pkeyNames s.2
        else fieldNames.Nodup)) ∧
    (¬Accepted s.1 (recorded s.2) c → s.1.defines = true → memory = true →
      indexName ∉ (recorded s.2).indexes → indexType = .primaryKey →
      ∀ m ∈ fieldNames.takeWhile (fun m => m ∈ (recorded s.2).fields), m ∈ pkeyNames s.2)
  | .dropIndex _ _ => Accepted s.1 (recorded s.2) c → (droppedIndexes s.2).length ≤ 1

/-! ## Counting flags -/

/-- Names that are members of a list without duplicates fill it as far as they are distinct. -/
theorem length_filter_eq_iff {l k ns : List Name} (hl : l.Nodup) (hk : k.Nodup)
    (hkl : ∀ m ∈ k, m ∈ l) (hns : ∀ m ∈ ns, m ∈ l) :
    (l.filter fun m => m ∈ k ∨ m ∈ ns).length = k.length ↔ ∀ m ∈ ns, m ∈ k := by
  have hSub : k.Subperm (l.filter fun m => m ∈ k ∨ m ∈ ns) := hk.subperm fun m hm =>
    mem_filter.mpr ⟨hkl m hm, decide_eq_true (.inl hm)⟩
  constructor
  · intro hLen m hm
    have hPerm := hSub.perm_of_length_le (Nat.le_of_eq hLen)
    exact hPerm.mem_iff.mpr (mem_filter.mpr ⟨hns m hm, decide_eq_true (.inr hm)⟩)
  · intro hIn
    have hPerm : (l.filter fun m => m ∈ k ∨ m ∈ ns).Perm k := by
      refine (perm_ext_iff_of_nodup (hl.filter _) hk).mpr fun m => ?_
      rw [mem_filter, decide_eq_true_iff]
      exact ⟨fun h => h.2.elim id (hIn m), fun h => ⟨hkl m h, .inl h⟩⟩
    exact hPerm.length_eq

theorem length_filter_eq_iff_nodup {l ns : List Name} (hl : l.Nodup) (hns : ∀ m ∈ ns, m ∈ l) :
    (l.filter fun m => m ∈ ns).length = ns.length ↔ ns.Nodup := by
  have hSub : (l.filter fun m => m ∈ ns).Subperm ns := (hl.filter _).subperm fun m hm => by
    simpa using (mem_filter.mp hm).2
  constructor
  · intro hLen
    exact (hSub.perm_of_length_le (Nat.le_of_eq hLen.symm)).nodup_iff.mp (hl.filter _)
  · intro hNodup
    have hPerm : (l.filter fun m => m ∈ ns).Perm ns := by
      refine (perm_ext_iff_of_nodup (hl.filter _) hNodup).mpr fun m => ?_
      rw [mem_filter, decide_eq_true_iff]
      exact ⟨fun h => h.2, fun h => ⟨hns m h, h⟩⟩
    exact hPerm.length_eq

/-! ## What is kept -/

/-- The lists are complete, and the fields of the first primary key are flagged. -/
structure Kept (s : AlterTable) (done : List Call) (a d i j : List Nat) : Prop
    extends Builds s done a d i j where
  addLe : a.length ≤ 2
  dropLe : d.length ≤ 2
  addIndexLe : i.length ≤ 2
  dropIndexLe : j.length ≤ 2
  addNames : (recorded done).fields.Nodup
  dropNames : (recorded done).dropFields.Nodup
  addIndexNames : (recorded done).indexes.Nodup
  dropIndexNames : (recorded done).dropIndexes.Nodup
  flags : ∀ p ∈ a, (s.fields.object p).isPartOfPkey = true ↔
    (s.fields.object p).name ∈ pkeyNames done
  pkeyNodup : (pkeyNames done).Nodup
  pkeyDefined : ∀ m ∈ pkeyNames done, m ∈ (recorded done).fields
  idle : s.defines = false → done = []

variable {s t : AlterTable} {done : List Call} {a d i j : List Nat} {c : Call}

theorem ends_of_length_le {α : Type} {l : List α} (h : l.length ≤ 2) : ends l = l := by
  rcases l with _ | ⟨x, _ | ⟨y, _ | ⟨z, l⟩⟩⟩
  · rfl
  · rfl
  · rfl
  · exact absurd h (by simp)

theorem length_ends_le {α : Type} (l : List α) : (ends l).length ≤ 2 := by
  rcases l with _ | ⟨x, _ | ⟨y, l⟩⟩
  · exact Nat.zero_le 2
  · exact Nat.le_succ 1
  · exact Nat.le_refl 2

section

variable (h : Builds s done a d i j)

include h

theorem Builds.names_eq : a.map (fun p => (s.fields.object p).name) = (recorded done).fields := by
  show _ = (addedFields done).map DefineField.name
  rw [← h.added, map_map]
  rfl

theorem Builds.indexNames_eq :
    i.map (fun p => (s.indexes.object p).name) = (recorded done).indexes := by
  show _ = (addedIndexes done).map AddedIndex.name
  rw [← h.addedIndex, map_map]
  rfl

/-- The primary key columns of a table with all its indexes. -/
theorem Builds.pkeyCols (hLe : i.length ≤ 2) :
    getNumAddedPkeyCols s = some (pkeyNames done).length := by
  unfold getNumAddedPkeyCols pkeyNames primaryKey
  rw [h.indexes.added_eq, ends_of_length_le hLe, ← h.addedIndex, find?_map,
    Option.bind_eq_bind, Option.bind_some]
  have hSame : (fun p => decide ((s.indexes.object p).type = .primaryKey)) =
      ((fun x : AddedIndex => decide (x.type = .primaryKey)) ∘
        fun p => s.indexAsAdded (s.indexes.object p)) := rfl
  rw [← hSame]
  cases i.find? fun p => (s.indexes.object p).type = .primaryKey with
  | none => rfl
  | some p => exact congrArg some (length_map _).symm

theorem Builds.view_eq :
    s.view = some {
      addField := (ends a).map s.fields.object
      dropField := (ends d).map fun p => (s.fields.object p).name
      addIndex := (ends i).map s.indexes.object
      dropIndex := (ends j).map fun p => (s.indexes.object p).name
      numFields := s.numFields } := by
  unfold AlterTable.view
  rw [h.fields.added_eq, h.fields.dropped_eq, h.indexes.added_eq, h.indexes.dropped_eq]
  rfl

/-- The object is as it was built when the number of flags is right. -/
theorem Builds.asBuilt (hA : a.length ≤ 2) (hD : d.length ≤ 2) (hI : i.length ≤ 2)
    (hJ : j.length ≤ 2) (hFields : (recorded done).fields.Nodup)
    (hDropFields : (recorded done).dropFields.Nodup) (hIndexes : (recorded done).indexes.Nodup)
    (hDropIndexes : (recorded done).dropIndexes.Nodup) :
    AsBuilt s done ↔ a.countP (fun p => (s.fields.object p).isPartOfPkey) =
      (pkeyNames done).length := by
  have hView := h.view_eq
  rw [ends_of_length_le hA, ends_of_length_le hD, ends_of_length_le hI, ends_of_length_le hJ]
    at hView
  have hCount : (a.map s.fields.object).countP DefineField.isPartOfPkey =
      a.countP fun p => (s.fields.object p).isPartOfPkey := countP_map
  constructor
  · rintro ⟨v, hSome, hMatches⟩
    rw [hView] at hSome
    cases hSome
    have hCols := hMatches.pkeyCols
    rw [h.pkeyCols hI, hCount] at hCols
    exact (Option.some.inj hCols).symm
  · intro hFlags
    refine ⟨_, hView, ?_, h.dropped, ?_, h.droppedIndex, ?_, ?_, h.dropped ▸ hDropFields, ?_,
      h.droppedIndex ▸ hDropIndexes, ?_⟩
    · exact map_map.trans h.added
    · exact map_map.trans h.addedIndex
    · show s.numFields.toNat = (a.map s.fields.object).length
      rw [h.numFields, length_map, UInt32.toNat_ofNat']
      exact Nat.mod_eq_of_lt (by omega)
    · rw [map_map]
      exact h.names_eq ▸ hFields
    · rw [map_map]
      exact h.indexNames_eq ▸ hIndexes
    · rw [h.pkeyCols hI, ← hFlags]
      exact congrArg some hCount.symm

end

theorem Kept.shown_eq (h : Kept s done a d i j) : shown s a d i j = recorded done := by
  unfold shown
  rw [ends_of_length_le h.addLe, ends_of_length_le h.dropLe, ends_of_length_le h.addIndexLe,
    ends_of_length_le h.dropIndexLe, h.names_eq, h.indexNames_eq, h.dropped, h.droppedIndex]
  rfl

/-- Flags that are given by names are counted among the names. -/
theorem Builds.countFlags (h : Builds s done a d i j) {P : Name → Prop} [DecidablePred P]
    (hFlags : ∀ p ∈ a, (s.fields.object p).isPartOfPkey = true ↔ P (s.fields.object p).name) :
    a.countP (fun p => (s.fields.object p).isPartOfPkey) =
      ((recorded done).fields.filter fun m => P m).length := by
  rw [← h.names_eq, ← countP_eq_length_filter, countP_map]
  refine countP_congr fun p hp => ?_
  rw [hFlags p hp]
  exact decide_eq_true_iff.symm

theorem Kept.asBuilt (h : Kept s done a d i j) : AsBuilt s done := by
  rw [h.toBuilds.asBuilt h.addLe h.dropLe h.addIndexLe h.dropIndexLe h.addNames h.dropNames
    h.addIndexNames h.dropIndexNames, h.countFlags h.flags]
  exact (length_filter_eq_iff_nodup h.addNames h.pkeyDefined).mpr h.pkeyNodup

theorem kept_fresh (op : AlterOp) : Kept (.fresh op) [] [] [] [] [] where
  toBuilds := builds_fresh op
  addLe := Nat.zero_le 2
  dropLe := Nat.zero_le 2
  addIndexLe := Nat.zero_le 2
  dropIndexLe := Nat.zero_le 2
  addNames := nodup_nil
  dropNames := nodup_nil
  addIndexNames := nodup_nil
  dropIndexNames := nodup_nil
  flags := forall_mem_nil _
  pkeyNodup := nodup_nil
  pkeyDefined := forall_mem_nil _
  idle _ := rfl

/-- A list with a third definition does not show the second one. -/
theorem Builds.lengths_le (h : Builds s done a d i j) (hBuilt : AsBuilt s done) :
    a.length ≤ 2 ∧ d.length ≤ 2 ∧ i.length ≤ 2 ∧ j.length ≤ 2 := by
  rcases hBuilt with ⟨v, hView, hMatches⟩
  rw [h.view_eq] at hView
  cases hView
  have hAdd := congrArg List.length hMatches.addField
  have hDrop := congrArg List.length hMatches.dropField
  have hAddIndex := congrArg List.length hMatches.addIndex
  have hDropIndex := congrArg List.length hMatches.dropIndex
  rw [← h.added] at hAdd
  rw [← h.dropped] at hDrop
  rw [← h.addedIndex] at hAddIndex
  rw [← h.droppedIndex] at hDropIndex
  simp only [length_map] at hAdd hDrop hAddIndex hDropIndex
  rw [← hAdd, ← hDrop, ← hAddIndex, ← hDropIndex]
  exact ⟨length_ends_le a, length_ends_le d, length_ends_le i, length_ends_le j⟩

/-- What a call that is refused leaves. -/
theorem Kept.refused (h : Kept s done a d i j) (hSame : SameDefs s t a d i j)
    (hFlags : ∀ p ∈ a, (t.fields.object p).isPartOfPkey = (s.fields.object p).isPartOfPkey) :
    Kept t done a d i j where
  toBuilds := h.toBuilds.same hSame
  addLe := h.addLe
  dropLe := h.dropLe
  addIndexLe := h.addIndexLe
  dropIndexLe := h.dropIndexLe
  addNames := h.addNames
  dropNames := h.dropNames
  addIndexNames := h.addIndexNames
  dropIndexNames := h.dropIndexNames
  flags p hp := by
    rw [hFlags p hp, hSame.name_eq hp]
    exact h.flags p hp
  pkeyNodup := h.pkeyNodup
  pkeyDefined := h.pkeyDefined
  idle hDef := by
    apply h.idle
    unfold AlterTable.defines at hDef ⊢
    rwa [← hSame.alterOpType]

/-- It looks as before, if its flags are. -/
theorem Kept.view_eq_iff (h : Kept s done a d i j) (hSame : SameDefs s t a d i j) :
    t.view = s.view ↔ ∀ p ∈ a, t.fields.object p = s.fields.object p := by
  have hNext := h.toBuilds.same hSame
  rw [hNext.view_eq, h.toBuilds.view_eq, ends_of_length_le h.addLe]
  constructor
  · intro hView
    exact map_inj_left.mp (View.mk.inj (Option.some.inj hView)).1
  · intro hObject
    have hDrop : (ends d).map (fun p => (t.fields.object p).name) =
        (ends d).map fun p => (s.fields.object p).name :=
      map_congr_left fun p hp => hSame.dropped p ((ends_sublist d).subset hp)
    have hAddIndex : (ends i).map t.indexes.object = (ends i).map s.indexes.object :=
      map_congr_left fun p hp => hSame.addedIndex p ((ends_sublist i).subset hp)
    have hDropIndex : (ends j).map (fun p => (t.indexes.object p).name) =
        (ends j).map fun p => (s.indexes.object p).name :=
      map_congr_left fun p hp =>
        congrArg DefineIndex.name (hSame.droppedIndex p ((ends_sublist j).subset hp))
    rw [map_congr_left hObject, hDrop, hAddIndex, hDropIndex, hSame.numFields]

/-! ## Calls -/

/-- A call goes as it should exactly if the condition holds, and keeps the invariant then. -/
def Settled (s : AlterTable) (done : List Call) (c : Call) : Prop :=
  (CallGoes (s, done) c ↔ callOk (s, done) c) ∧
  (callOk (s, done) c → ∃ t retCode, atCall s c = some (t, retCode) ∧
    ∃ a d i j, Kept t (record done c retCode) a d i j)

theorem Kept.settled {retCode : Nat} (h : Kept t (record done c retCode) a d i j)
    (hCall : atCall s c = some (t, retCode)) (hOk : callOk (s, done) c)
    (hRight : SetterRight done c retCode) (hView : retCode ≠ 0 → t.view = s.view) :
    Settled s done c :=
  ⟨iff_of_true ⟨t, retCode, hCall, hRight, hView, h.asBuilt⟩ hOk,
    fun _ => ⟨t, retCode, hCall, a, d, i, j, h⟩⟩

theorem settled_of_not (hOk : ¬callOk (s, done) c) (hGoes : ¬CallGoes (s, done) c) :
    Settled s done c :=
  ⟨iff_of_false hGoes hOk, fun h => absurd h hOk⟩

/-- A call that is refused goes as it should, if it is no setter. -/
theorem Kept.settled_refused (h : Kept s done a d i j) (hRef : Refused s c a d i j)
    (hOk : callOk (s, done) c) (hRight : ∀ retCode, SetterRight done c retCode) :
    Settled s done c := by
  rcases hRef with ⟨-, t, retCode, hCall, hErr, hSame, hObject⟩
  have hKept : Kept t (record done c retCode) a d i j := by
    rw [record, if_neg hErr]
    exact h.refused hSame fun p hp => congrArg DefineField.isPartOfPkey (hObject p hp)
  exact hKept.settled hCall hOk (hRight retCode) fun _ => (h.view_eq_iff hSame).mpr hObject

/-- An object that is not as it was built breaks the property. -/
theorem not_goes_of_lengths (hCall : atCall s c = some (t, 0))
    (h : Builds t (done ++ [c]) a d i j)
    (hLong : ¬(a.length ≤ 2 ∧ d.length ≤ 2 ∧ i.length ≤ 2 ∧ j.length ≤ 2)) :
    ¬CallGoes (s, done) c := by
  rintro ⟨t', retCode, hCall', -, -, hBuilt⟩
  cases hCall.symm.trans hCall'
  exact hLong (h.lengths_le hBuilt)

theorem length_concat_le {α : Type} {l : List α} {x : α} : (l ++ [x]).length ≤ 2 ↔ l.length ≤ 1 := by
  rw [length_append]
  exact Nat.succ_le_succ_iff

/-! ### The history of one more call -/

theorem recorded_fields (done : List Call) (c : Call) : (recorded (done ++ [c])).fields =
    (recorded done).fields ++ (c.addedField?.toList.map DefineField.name) := by
  show (addedFields (done ++ [c])).map DefineField.name = _
  rw [addedFields, filterMap_concat, map_append]
  rfl

theorem recorded_dropFields (done : List Call) (c : Call) : (recorded (done ++ [c])).dropFields =
    (recorded done).dropFields ++ c.droppedField?.toList := filterMap_concat _ done c

theorem recorded_indexes (done : List Call) (c : Call) : (recorded (done ++ [c])).indexes =
    (recorded done).indexes ++ (c.addedIndex?.toList.map AddedIndex.name) := by
  show (addedIndexes (done ++ [c])).map AddedIndex.name = _
  rw [addedIndexes, filterMap_concat, map_append]
  rfl

theorem recorded_dropIndexes (done : List Call) (c : Call) : (recorded (done ++ [c])).dropIndexes =
    (recorded done).dropIndexes ++ c.droppedIndex?.toList := filterMap_concat _ done c

/-- Only a call that adds an index changes the first primary key. -/
theorem primaryKey_concat (hCall : c.addedIndex? = none) :
    primaryKey (done ++ [c]) = primaryKey done := by
  unfold primaryKey addedIndexes
  rw [filterMap_concat, hCall]
  exact congrArg _ (append_nil _)

theorem pkeyNames_concat (hCall : c.addedIndex? = none) :
    pkeyNames (done ++ [c]) = pkeyNames done := by
  unfold pkeyNames
  rw [primaryKey_concat hCall]

/-- Names stay distinct where the call brings none, or a new one. -/
theorem nodup_append_of {α : Type} {l l' : List α} (h : l.Nodup) (hNew : l' = [] ∨ ∃ x, l' = [x] ∧ x ∉ l) :
    (l ++ l').Nodup := by
  rcases hNew with rfl | ⟨x, rfl, hx⟩
  · rwa [append_nil]
  · refine nodup_append.mpr ⟨h, nodup_singleton x, ?_⟩
    rintro y hy z hz rfl
    rw [mem_singleton.mp hz] at hy
    exact hx hy

/-- The names after a call that is accepted. -/
theorem Kept.names (h : Kept s done a d i j) (hAcc : Accepted s (recorded done) c) :
    (recorded (done ++ [c])).fields.Nodup ∧ (recorded (done ++ [c])).dropFields.Nodup ∧
      (recorded (done ++ [c])).indexes.Nodup ∧ (recorded (done ++ [c])).dropIndexes.Nodup := by
  rw [recorded_fields, recorded_dropFields, recorded_indexes, recorded_dropIndexes]
  cases c with
  | addField fieldName fieldType arraySize isNullable isFieldDiskStored memory =>
    rcases Option.isSome_iff_exists.mp hAcc.2.2.2 with ⟨sizes, hSize⟩
    refine ⟨nodup_append_of h.addNames (.inr ⟨fieldName, ?_, hAcc.2.1⟩),
      nodup_append_of h.dropNames (.inl rfl), nodup_append_of h.addIndexNames (.inl rfl),
      nodup_append_of h.dropIndexNames (.inl rfl)⟩
    rw [Call.addedField?, hSize]
    rfl
  | setCharset fieldName csId => exact hAcc.elim
  | setDecimalField fieldName scale precision => exact hAcc.elim
  | dropField fieldName memory =>
    exact ⟨nodup_append_of h.addNames (.inl rfl),
      nodup_append_of h.dropNames (.inr ⟨fieldName, rfl, hAcc.2.2.2.1⟩),
      nodup_append_of h.addIndexNames (.inl rfl), nodup_append_of h.dropIndexNames (.inl rfl)⟩
  | addIndex indexName fieldNames indexType isNullValuesInIndexAllowed memory =>
    exact ⟨nodup_append_of h.addNames (.inl rfl), nodup_append_of h.dropNames (.inl rfl),
      nodup_append_of h.addIndexNames (.inr ⟨indexName, rfl, hAcc.2.1⟩),
      nodup_append_of h.dropIndexNames (.inl rfl)⟩
  | dropIndex indexName memory =>
    exact ⟨nodup_append_of h.addNames (.inl rfl), nodup_append_of h.dropNames (.inl rfl),
      nodup_append_of h.addIndexNames (.inl rfl),
      nodup_append_of h.dropIndexNames (.inr ⟨indexName, rfl, hAcc.2.2.2.1⟩)⟩

theorem Accepted.defines {n : Shown} (h : Accepted s n c) : s.defines = true := by
  cases c with
  | addField => exact h.1
  | setCharset => exact h.elim
  | setDecimalField => exact h.elim
  | dropField => exact h.1
  | addIndex => exact h.1
  | dropIndex => exact h.1

section

variable (h : Kept s done a d i j)

include h

/-- A call that is accepted keeps the invariant, if the lists stay short and the flags right. -/
theorem Kept.accepted {a' d' i' j' : List Nat} (hAcc : Accepted s (recorded done) c)
    (hNext : Builds t (done ++ [c]) a' d' i' j') (hOp : t.alterOpType = s.alterOpType)
    (hLe : a'.length ≤ 2 ∧ d'.length ≤ 2 ∧ i'.length ≤ 2 ∧ j'.length ≤ 2)
    (hFlags : ∀ p ∈ a', (t.fields.object p).isPartOfPkey = true ↔
      (t.fields.object p).name ∈ pkeyNames (done ++ [c])) (hNodup : (pkeyNames (done ++ [c])).Nodup)
    (hDefined : ∀ m ∈ pkeyNames (done ++ [c]), m ∈ (recorded done).fields) :
    Kept t (done ++ [c]) a' d' i' j' where
  toBuilds := hNext
  addLe := hLe.1
  dropLe := hLe.2.1
  addIndexLe := hLe.2.2.1
  dropIndexLe := hLe.2.2.2
  addNames := (h.names hAcc).1
  dropNames := (h.names hAcc).2.1
  addIndexNames := (h.names hAcc).2.2.1
  dropIndexNames := (h.names hAcc).2.2.2
  flags := hFlags
  pkeyNodup := hNodup
  pkeyDefined m hm := by
    rw [recorded_fields]
    exact mem_append_left _ (hDefined m hm)
  idle hDef := by
    have hSame : t.defines = s.defines := by
      unfold AlterTable.defines
      rw [hOp]
    exact absurd (hDef.symm.trans (hSame.trans hAcc.defines)) Bool.false_ne_true

/-- Flags of fields that are not written. -/
theorem Kept.flags_same (hCall : c.addedIndex? = none)
    (hObject : ∀ p ∈ a, t.fields.object p = s.fields.object p) :
    ∀ p ∈ a, (t.fields.object p).isPartOfPkey = true ↔
      (t.fields.object p).name ∈ pkeyNames (done ++ [c]) := by
  intro p hp
  rw [pkeyNames_concat hCall, hObject p hp]
  exact h.flags p hp

theorem addField_settled (fieldName : Name) (fieldType : FieldType) (arraySize : UInt32)
    (isNullable isFieldDiskStored memory : Bool) :
    Settled s done (.addField fieldName fieldType arraySize isNullable isFieldDiskStored memory) := by
  have hLen : a.length = (addedFields done).length := by rw [← h.added, length_map]
  have hOutcome := atAddField_outcome h.toBuilds fieldName fieldType arraySize isNullable
    isFieldDiskStored memory
  dsimp only at hOutcome
  rw [h.shown_eq] at hOutcome
  rcases hOutcome with hRef | ⟨hAcc, t, hCall, hNext, hOp, hObject, hNew, hName⟩
  · refine h.settled_refused hRef (fun hAcc => ?_) fun _ => trivial
    exact absurd hAcc (h.shown_eq ▸ hRef.1)
  by_cases hShort : (addedFields done).length ≤ 1
  swap
  · refine settled_of_not (fun hOk => hShort (hOk hAcc)) (not_goes_of_lengths hCall hNext ?_)
    rw [← hLen] at hShort
    exact fun hLe => hShort (length_concat_le.mp hLe.1)
  have hPkey : pkeyNames (done ++ [.addField fieldName fieldType arraySize isNullable
      isFieldDiskStored memory]) = pkeyNames done := pkeyNames_concat rfl
  have hKept := h.accepted hAcc hNext hOp
    ⟨length_concat_le.mpr (hLen ▸ hShort), h.dropLe, h.addIndexLe, h.dropIndexLe⟩ ?_
    (hPkey ▸ h.pkeyNodup) (hPkey ▸ h.pkeyDefined)
  · exact hKept.settled hCall (fun _ => hShort) trivial fun hErr => absurd rfl hErr
  intro p hp
  rcases mem_append.mp hp with hp | hp
  · exact h.flags_same rfl hObject p hp
  · -- the new field is not in the primary key
    rw [mem_singleton.mp hp, hNew, hPkey]
    refine iff_of_false Bool.false_ne_true fun hIn => hAcc.2.1 (h.pkeyDefined _ ?_)
    rwa [hName] at hIn

/-- A drop: it is seen as long as `n`, the number of drops before it, is at most 1. -/
theorem Kept.drop_settled {d' j' : List Nat} {n : Nat}
    (hNone : c.addedIndex? = none) (hOutcome : Refused s c a d i j ∨
      (Accepted s (shown s a d i j) c ∧ ∃ t, atCall s c = some (t, 0) ∧
        Builds t (done ++ [c]) a d' i j' ∧ t.alterOpType = s.alterOpType ∧
        ∀ p ∈ a, t.fields.object p = s.fields.object p))
    (hOk : callOk (s, done) c ↔ (Accepted s (recorded done) c → n ≤ 1))
    (hRight : ∀ retCode, SetterRight done c retCode)
    (hLe : d'.length ≤ 2 ∧ j'.length ≤ 2 ↔ n ≤ 1) : Settled s done c := by
  rw [h.shown_eq] at hOutcome
  rcases hOutcome with hRef | ⟨hAcc, t, hCall, hNext, hOp, hObject⟩
  · exact h.settled_refused hRef (hOk.mpr fun hAcc => absurd hAcc (h.shown_eq ▸ hRef.1)) hRight
  by_cases hShort : n ≤ 1
  · have hPkey : pkeyNames (done ++ [c]) = pkeyNames done := pkeyNames_concat hNone
    have hKept := h.accepted hAcc hNext hOp
      ⟨h.addLe, (hLe.mpr hShort).1, h.addIndexLe, (hLe.mpr hShort).2⟩
      (h.flags_same hNone hObject) (hPkey ▸ h.pkeyNodup) (hPkey ▸ h.pkeyDefined)
    exact hKept.settled hCall (hOk.mpr fun _ => hShort) (hRight 0) fun hErr => absurd rfl hErr
  · exact settled_of_not (fun h' => hShort (hOk.mp h' hAcc))
      (not_goes_of_lengths hCall hNext fun hAll => hShort (hLe.mp ⟨hAll.2.1, hAll.2.2.2⟩))

theorem dropField_settled (fieldName : Name) (memory : Bool) :
    Settled s done (.dropField fieldName memory) := by
  have hLen : (droppedFields done).length = d.length := by rw [← h.dropped, length_map]
  refine h.drop_settled rfl (atDropField_outcome h.toBuilds fieldName memory) Iff.rfl
    (fun _ => trivial) ?_
  rw [length_concat_le, hLen]
  exact and_iff_left h.dropIndexLe

theorem dropIndex_settled (indexName : Name) (memory : Bool) :
    Settled s done (.dropIndex indexName memory) := by
  have hLen : (droppedIndexes done).length = j.length := by rw [← h.droppedIndex, length_map]
  refine h.drop_settled rfl (atDropIndex_outcome h.toBuilds indexName memory) Iff.rfl
    (fun _ => trivial) ?_
  rw [length_concat_le, hLen]
  exact and_iff_right h.dropLe

/-- A field of a name is the only one. -/
theorem Kept.unsuitable {fieldName : Name} {isSuitable : FieldType → Bool}
    (hOk : Unsuitable s done fieldName isSuitable) : ¬Suits done fieldName isSuitable := by
  rintro ⟨x, hx, hName, hType⟩
  rcases hOk with hDef | ⟨y, hy, hName', hType'⟩
  · rw [h.idle hDef] at hx
    cases hx
  · have hEq : x = y := inj_on_of_nodup_map h.addNames hx hy (hName.trans hName'.symm)
    rw [hEq, hType'] at hType
    cases hType

/-- The setters. -/
theorem set_settled {fieldName : Name} {isSuitable : FieldType → Bool} {unsuitable : Nat}
    {set : DefineField → DefineField}
    (hCall : atCall s c = atSet s fieldName isSuitable unsuitable set)
    (hOk : callOk (s, done) c ↔ Unsuitable s done fieldName isSuitable)
    (hRight : ∀ retCode, SetterRight done c retCode ↔
      (retCode = 0 ↔ Suits done fieldName isSuitable)) : Settled s done c := by
  have hOutcome := atSet_outcome h.toBuilds fieldName isSuitable unsuitable set
  rw [h.shown_eq, ← hCall] at hOutcome
  rcases hOutcome with ⟨retCode, hSome, hErr, hFound⟩ | ⟨hNone, hDef, hNot⟩
  · by_cases hUns : Unsuitable s done fieldName isSuitable
    · have hKept : Kept s (record done c retCode) a d i j := by
        rwa [record, if_neg hErr]
      exact hKept.settled hSome (hOk.mpr hUns)
        ((hRight retCode).mpr (iff_of_false hErr (h.unsuitable hUns))) fun _ => rfl
    · -- the field suits, and the setter returns an error
      refine settled_of_not (fun h' => hUns (hOk.mp h')) ?_
      rintro ⟨t, r, hSome', hRight', -⟩
      cases hSome.symm.trans hSome'
      have hDef : s.defines = true := eq_true_of_ne_false fun hDef => hUns (.inl hDef)
      rcases mem_map.mp (hFound hDef) with ⟨x, hx, hName⟩
      have hType : isSuitable x.type = true := eq_true_of_ne_false fun hType =>
        hUns (.inr ⟨x, hx, hName, hType⟩)
      exact hErr (((hRight retCode).mp hRight').mpr ⟨x, hx, hName, hType⟩)
  · -- a NULL pointer is used
    refine settled_of_not (fun h' => ?_) ?_
    · rcases hOk.mp h' with hFalse | ⟨x, hx, hName, -⟩
      · exact Bool.false_ne_true (hFalse.symm.trans hDef)
      · exact hNot (mem_map.mpr ⟨x, hx, hName⟩)
    · rintro ⟨t, r, hSome, -⟩
      rw [hNone] at hSome
      cases hSome

end

/-! ### Adding an index -/

/-- The names that `at_add_index` finds. -/
def foundNames (done : List Call) (fieldNames : List Name) : List Name :=
  fieldNames.takeWhile fun m => m ∈ (recorded done).fields

/-- The flags after its loop. -/
theorem Kept.flagged_iff (h : Kept s done a d i j) (indexType : IndexType) (fieldNames : List Name)
    {p : Nat} (hp : p ∈ a) :
    (flagged indexType s.fields.object (foundFields s (ends a) fieldNames) p).isPartOfPkey = true ↔
      (s.fields.object p).name ∈ pkeyNames done ∨
        indexType = .primaryKey ∧ (s.fields.object p).name ∈ foundNames done fieldNames := by
  rcases foundFields_spec s (ends a) fieldNames with ⟨hNames, hIn⟩
  rw [ends_of_length_le h.addLe] at hNames hIn ⊢
  rw [h.names_eq] at hNames
  have hFound : p ∈ foundFields s a fieldNames ↔
      (s.fields.object p).name ∈ foundNames done fieldNames := by
    rw [foundNames, ← hNames]
    constructor
    · exact fun hMem => mem_map.mpr ⟨p, hMem, rfl⟩
    · intro hMem
      rcases mem_map.mp hMem with ⟨q, hq, hName⟩
      have hNodup : (a.map fun p => (s.fields.object p).name).Nodup := h.names_eq ▸ h.addNames
      rwa [← inj_on_of_nodup_map hNodup (hIn q hq) hp hName]
  rw [← h.flags p hp, ← hFound]
  unfold flagged
  split
  · rename_i hBoth
    exact iff_of_true rfl (.inr hBoth)
  · rename_i hNot
    exact (or_iff_left hNot).symm

/-- A primary key that is refused has flagged no field newly, or is seen. -/
theorem refusedIndex_settled (h : Kept s done a d i j) {indexName : Name} {fieldNames : List Name}
    {indexType : IndexType} {isNullValuesInIndexAllowed memory : Bool} {retCode : Nat}
    (hAcc : ¬Accepted s (recorded done)
      (.addIndex indexName fieldNames indexType isNullValuesInIndexAllowed memory))
    (hDef : s.defines = true) (hNew : indexName ∉ (recorded done).indexes) (hMem : memory = true)
    (hCall : atCall s (.addIndex indexName fieldNames indexType isNullValuesInIndexAllowed memory) =
      some (t, retCode)) (hErr : retCode ≠ 0) (hSame : SameDefs s t a d i j)
    (hObject : ∀ p, t.fields.object p =
      flagged indexType s.fields.object (foundFields s (ends a) fieldNames) p) :
    Settled s done (.addIndex indexName fieldNames indexType isNullValuesInIndexAllowed memory) := by
  have hIff := fun p hp => h.flagged_iff indexType fieldNames (p := p) hp
  by_cases hOk : indexType = .primaryKey → ∀ m ∈ foundNames done fieldNames, m ∈ pkeyNames done
  · have hFlags : ∀ p ∈ a, (t.fields.object p).isPartOfPkey = (s.fields.object p).isPartOfPkey := by
      intro p hp
      rw [Bool.eq_iff_iff, hObject p, hIff p hp, h.flags p hp]
      exact or_iff_left_of_imp fun hFound => hOk hFound.1 _ hFound.2
    have hKept : Kept t (record done (.addIndex indexName fieldNames indexType
        isNullValuesInIndexAllowed memory) retCode) a d i j := by
      rw [record, if_neg hErr]
      exact h.refused hSame hFlags
    refine hKept.settled hCall ⟨fun hIs => absurd hIs hAcc, fun _ _ _ _ hPk => hOk hPk⟩ trivial
      fun _ => (h.view_eq_iff hSame).mpr fun p hp => ?_
    rw [hObject p]
    apply flagged_eq_self
    rw [← hObject p]
    exact hFlags p hp
  · refine settled_of_not (fun hIs => hOk (hIs.2 hAcc hDef hMem hNew)) ?_
    rintro ⟨t', r, hCall', -, hView, -⟩
    cases hCall.symm.trans hCall'
    rcases Classical.not_imp.mp hOk with ⟨hPk, hNot⟩
    apply hNot
    intro m hm
    -- the field of this name is flagged afterwards, and so it was before
    have hField : m ∈ (recorded done).fields := by simpa using mem_takeWhile_imp hm
    rw [← h.names_eq] at hField
    rcases mem_map.mp hField with ⟨p, hp, rfl⟩
    rw [← h.flags p hp, ← (h.view_eq_iff hSame).mp (hView hErr) p hp, hObject p, hIff p hp]
    exact .inr ⟨hPk, hm⟩

/-- The first primary key is not replaced. -/
theorem primaryKey_addIndex (done : List Call) (indexName : Name) (fieldNames : List Name)
    (indexType : IndexType) (isNullValuesInIndexAllowed memory : Bool) :
    primaryKey (done ++ [.addIndex indexName fieldNames indexType isNullValuesInIndexAllowed
      memory]) =
      (primaryKey done).or (if indexType = .primaryKey then
        some ⟨indexName, indexType, fieldNames, isNullValuesInIndexAllowed⟩ else none) := by
  unfold primaryKey addedIndexes
  rw [filterMap_concat, find?_append]
  congr 1
  by_cases hPk : indexType = .primaryKey
  · rw [if_pos hPk]
    exact find?_cons_of_pos (decide_eq_true hPk)
  · rw [if_neg hPk]
    exact find?_cons_of_neg (by simpa using hPk)

theorem acceptedIndex_settled (h : Kept s done a d i j) {indexName : Name} {fieldNames : List Name}
    {indexType : IndexType} {isNullValuesInIndexAllowed memory : Bool}
    (hAcc : Accepted s (recorded done)
      (.addIndex indexName fieldNames indexType isNullValuesInIndexAllowed memory))
    (hCall : atCall s (.addIndex indexName fieldNames indexType isNullValuesInIndexAllowed memory) =
      some (t, 0))
    (hNext : Builds t (done ++ [.addIndex indexName fieldNames indexType
      isNullValuesInIndexAllowed memory]) a d (i ++ [s.indexes.count]) j)
    (hOp : t.alterOpType = s.alterOpType)
    (hObject : ∀ p, t.fields.object p =
      flagged indexType s.fields.object (foundFields s (ends a) fieldNames) p) :
    Settled s done (.addIndex indexName fieldNames indexType isNullValuesInIndexAllowed memory) := by
  let c := Call.addIndex indexName fieldNames indexType isNullValuesInIndexAllowed memory
  have hLen : i.length = (addedIndexes done).length := by rw [← h.addedIndex, length_map]
  by_cases hShort : (addedIndexes done).length ≤ 1
  swap
  · refine settled_of_not (fun hOk => hShort (hOk.1 hAcc).1) (not_goes_of_lengths hCall hNext ?_)
    rw [← hLen] at hShort
    exact fun hLe => hShort (length_concat_le.mp hLe.2.2.1)
  have hDefined : ∀ m ∈ fieldNames, m ∈ (recorded done).fields := hAcc.2.2.2
  have hFound : foundNames done fieldNames = fieldNames :=
    takeWhile_eq_self_iff.mpr fun m hm => decide_eq_true (hDefined m hm)
  have hFlags : ∀ p ∈ a, (t.fields.object p).isPartOfPkey = true ↔
      (t.fields.object p).name ∈ pkeyNames done ∨
        indexType = .primaryKey ∧ (t.fields.object p).name ∈ fieldNames := by
    intro p hp
    rw [hObject p, h.flagged_iff indexType fieldNames hp, flagged_name, hFound]
  have hLe : a.length ≤ 2 ∧ d.length ≤ 2 ∧ (i ++ [s.indexes.count]).length ≤ 2 ∧ j.length ≤ 2 :=
    ⟨h.addLe, h.dropLe, length_concat_le.mpr (hLen ▸ hShort), h.dropIndexLe⟩
  have hPrimary := primaryKey_addIndex done indexName fieldNames indexType
    isNullValuesInIndexAllowed memory
  have hFields : (recorded (done ++ [c])).fields = (recorded done).fields :=
    (recorded_fields done c).trans (append_nil _)
  have hNames := h.names hAcc
  by_cases hPk : indexType = .primaryKey
  swap
  · -- no flag changes
    have hSame : pkeyNames (done ++ [c]) = pkeyNames done := by
      unfold pkeyNames
      rw [hPrimary, if_neg hPk, Option.or_none]
    have hKept := h.accepted hAcc hNext hOp hLe
      (fun p hp => (hFlags p hp).trans (hSame ▸ or_iff_left fun hBoth => hPk hBoth.1))
      (hSame ▸ h.pkeyNodup) (hSame ▸ h.pkeyDefined)
    exact hKept.settled hCall ⟨fun _ => ⟨hShort, fun hIs => absurd hIs hPk⟩,
      fun hNot => absurd hAcc hNot⟩ trivial fun hErr => absurd rfl hErr
  -- the flags are right exactly if the names are
  have hBuilt : AsBuilt t (done ++ [c]) ↔
      ((recorded done).fields.filter fun m => m ∈ pkeyNames done ∨ m ∈ fieldNames).length =
        (pkeyNames (done ++ [c])).length := by
    rw [hNext.asBuilt hLe.1 hLe.2.1 hLe.2.2.1 hLe.2.2.2 hNames.1 hNames.2.1 hNames.2.2.1
      hNames.2.2.2, hNext.countFlags (P := fun m => m ∈ pkeyNames done ∨ m ∈ fieldNames)
      fun p hp => (hFlags p hp).trans (or_congr_right (and_iff_right hPk)), hFields]
  have hBroken : ¬AsBuilt t (done ++ [c]) → ¬CallGoes (s, done) c := by
    rintro hNot ⟨t', r, hCall', -, -, hIs⟩
    cases hCall.symm.trans hCall'
    exact hNot hIs
  rw [if_pos hPk] at hPrimary
  cases hFirst : primaryKey done with
  | some x =>
    rw [hFirst, Option.some_or] at hPrimary
    have hSame : pkeyNames (done ++ [c]) = pkeyNames done := by
      unfold pkeyNames
      rw [hPrimary, hFirst]
    rw [hSame, length_filter_eq_iff h.addNames h.pkeyNodup h.pkeyDefined hDefined] at hBuilt
    have hOk : callOk (s, done) c ↔ ∀ m ∈ fieldNames, m ∈ pkeyNames done := by
      constructor
      · intro hIs
        have hIn := (hIs.1 hAcc).2 hPk
        rwa [if_pos (hFirst ▸ rfl)] at hIn
      · refine fun hIn => ⟨fun _ => ⟨hShort, fun _ => ?_⟩, fun hNot => absurd hAcc hNot⟩
        rwa [if_pos (hFirst ▸ rfl)]
    by_cases hIn : ∀ m ∈ fieldNames, m ∈ pkeyNames done
    · have hKept := h.accepted hAcc hNext hOp hLe (fun p hp => (hFlags p hp).trans ?_)
        (hSame ▸ h.pkeyNodup) (hSame ▸ h.pkeyDefined)
      · exact hKept.settled hCall (hOk.mpr hIn) trivial fun hErr => absurd rfl hErr
      · rw [hSame]
        exact or_iff_left_of_imp fun hBoth => hIn _ hBoth.2
    · exact settled_of_not (fun hIs => hIn (hOk.mp hIs)) (hBroken fun hIs => hIn (hBuilt.mp hIs))
  | none =>
    rw [hFirst, Option.none_or] at hPrimary
    have hNone : pkeyNames done = [] := by
      unfold pkeyNames
      rw [hFirst]
    have hNew : pkeyNames (done ++ [c]) = fieldNames := by
      unfold pkeyNames
      rw [hPrimary]
    have hFilter : ((recorded done).fields.filter fun m => m ∈ pkeyNames done ∨ m ∈ fieldNames) =
        (recorded done).fields.filter fun m => m ∈ fieldNames := by
      refine filter_congr fun m _ => ?_
      rw [hNone]
      simp
    rw [hFilter, hNew, length_filter_eq_iff_nodup h.addNames hDefined] at hBuilt
    have hOk : callOk (s, done) c ↔ fieldNames.Nodup := by
      constructor
      · intro hIs
        have hNodup := (hIs.1 hAcc).2 hPk
        rwa [if_neg (hFirst ▸ Bool.false_ne_true)] at hNodup
      · refine fun hNodup => ⟨fun _ => ⟨hShort, fun _ => ?_⟩, fun hNot => absurd hAcc hNot⟩
        rwa [if_neg (hFirst ▸ Bool.false_ne_true)]
    by_cases hNodup : fieldNames.Nodup
    · have hKept := h.accepted hAcc hNext hOp hLe (fun p hp => (hFlags p hp).trans ?_)
        (show (pkeyNames (done ++ [c])).Nodup by rwa [hNew])
        (show ∀ m ∈ pkeyNames (done ++ [c]), m ∈ _ by rwa [hNew])
      · exact hKept.settled hCall (hOk.mpr hNodup) trivial fun hErr => absurd rfl hErr
      · rw [hNew, hNone]
        simp [hPk]
    · exact settled_of_not (fun hIs => hNodup (hOk.mp hIs))
        (hBroken fun hIs => hNodup (hBuilt.mp hIs))

theorem addIndex_settled (h : Kept s done a d i j) (indexName : Name) (fieldNames : List Name)
    (indexType : IndexType) (isNullValuesInIndexAllowed memory : Bool) :
    Settled s done (.addIndex indexName fieldNames indexType isNullValuesInIndexAllowed memory) := by
  have hOutcome := atAddIndex_outcome h.toBuilds indexName fieldNames indexType
    isNullValuesInIndexAllowed memory
  dsimp only at hOutcome
  rw [h.shown_eq] at hOutcome
  rcases hOutcome with ⟨hRef, hNot⟩ | ⟨hAcc, hDef, hNew, hMem, t, retCode, hCall, hErr, hSame,
    hObject⟩ | ⟨hAcc, t, hCall, hNext, hOp, hObject⟩
  · refine h.settled_refused hRef ⟨fun hAcc => ?_, fun _ hDef hMem hNew => ?_⟩ fun _ => trivial
    · exact absurd hAcc (h.shown_eq ▸ hRef.1)
    · exact absurd ⟨hDef, hNew, hMem⟩ hNot
  · exact refusedIndex_settled h hAcc hDef hNew hMem hCall hErr hSame hObject
  · exact acceptedIndex_settled h hAcc hCall hNext hOp hObject

/-! ## Runs -/

theorem call_settled (h : Kept s done a d i j) (c : Call) : Settled s done c := by
  cases c with
  | addField fieldName fieldType arraySize isNullable isFieldDiskStored memory =>
    exact addField_settled h fieldName fieldType arraySize isNullable isFieldDiskStored memory
  | setCharset fieldName csId => exact set_settled h rfl Iff.rfl fun _ => Iff.rfl
  | setDecimalField fieldName scale precision =>
    exact set_settled h rfl Iff.rfl fun _ => Iff.rfl
  | dropField fieldName memory => exact dropField_settled h fieldName memory
  | addIndex indexName fieldNames indexType isNullValuesInIndexAllowed memory =>
    exact addIndex_settled h indexName fieldNames indexType isNullValuesInIndexAllowed memory
  | dropIndex indexName memory => exact dropIndex_settled h indexName memory

/-- Every call of a sequence returns as it should and leaves the object with the lists, the number
of fields and the flags of the calls that returned 0, exactly if every call meets the condition. -/
theorem builder_iff (op : AlterOp) (calls : List Call) :
    Run.Runs callStep CallGoes (.fresh op, []) calls ↔
      Run.Meets callStep callOk (.fresh op, []) calls := by
  refine Run.runs_iff_meets callStep (fun s => ∃ a d i j, Kept s.1 s.2 a d i j) ?_ ?_ calls
    ⟨[], [], [], [], kept_fresh op⟩
  · rintro ⟨s, done⟩ c ⟨a, d, i, j, h⟩
    exact (call_settled h c).1
  · rintro ⟨s, done⟩ c ⟨a, d, i, j, h⟩ hOk
    rcases (call_settled h c).2 hOk with ⟨t, retCode, hCall, hKept⟩
    refine ⟨(t, record done c retCode), ?_, hKept⟩
    rw [callStep, hCall]
    rfl

/-- The second of three fields is lost, and a character set is refused for a field that has one. -/
theorem builder_fails :
    ¬Run.Runs callStep CallGoes (.fresh .createTable, [])
      [.addField [97] .int 1 false false true, .addField [98] .int 1 false false true,
        .addField [99] .int 1 false false true] ∧
    ¬Run.Runs callStep CallGoes (.fresh .createTable, [])
      [.addField [97] .char 10 false false true, .setCharset [97] 8] := by
  constructor
  · rintro ⟨-, s1, h1, -, s2, h2, ⟨t, r, hCall, -, -, v, hView, hMatches⟩, -⟩
    cases h1
    cases h2
    cases hCall
    cases hView
    exact absurd hMatches.addField (by decide)
  · rintro ⟨-, s1, h1, ⟨t, r, hCall, hRight, -⟩, -⟩
    cases h1
    cases hCall
    exact absurd (hRight.mpr ⟨_, List.mem_cons_self, rfl, rfl⟩) (by decide)

end IClaustron.Apid.TableBuilder
