import IClaustron.Apid.QueryFields
import Mathlib.Data.List.Pairwise

/-!
# Apid.QueryFieldsOrganized — when a query is organized as it should be

The fields of a query come out in the order of their ids only if that is the order of the
addresses of their objects.

* `organizesWell_iff` — the fields that are organized well.
* `query_fields_iff` — the sequences of calls that are.
-/

namespace IClaustron.Apid.QueryFields

open Lib List

variable {qsort : Sorter Nat} {word : Nat → UInt32} {t : TableDef} {numFields : UInt32}
  {object : Nat → FieldInQuery}

/-! ## Key fields -/

/-- Entry `j` of an array of key fields. -/
def entry (area : Option (List (Option Nat))) (j : Nat) : Option Nat :=
  area.bind fun entries => entries[j]?.join

variable {area : Option (List (Option Nat))} {keyFields n p retCode : Nat} {ps : List Nat}
  {hasArea : Bool} {fieldId : UInt32} {q' : Query}

theorem enter_of_not (h : isKeyField t object p = false) : enter t object area p = area :=
  if_neg (of_decide_eq_false h)

theorem enter_some {entries : List (Option Nat)} (h : isKeyField t object p = true) :
    enter t object (some entries) p =
      some (entries.set (t.keyFieldId (object p).fieldId) (some p)) :=
  if_pos (of_decide_eq_true h)

theorem enter_none (p : Nat) : enter t object none p = none := by
  unfold enter
  split <;> rfl

/-- Entering a field changes the entry of its id, if that. -/
theorem entry_enter (t : TableDef) (object : Nat → FieldInQuery)
    (area : Option (List (Option Nat))) (p j : Nat) :
    entry (enter t object area p) j = entry area j ∨
      entry (enter t object area p) j = some p ∧ isKeyField t object p = true ∧
        t.keyFieldId (object p).fieldId = j := by
  cases hKey : isKeyField t object p with
  | false => exact .inl (by rw [enter_of_not hKey])
  | true =>
    cases area with
    | none => exact .inl (by rw [enter_none])
    | some entries =>
      rw [enter_some hKey]
      by_cases hj : t.keyFieldId (object p).fieldId = j
      · unfold entry
        rw [Option.bind_some, Option.bind_some, hj, getElem?_set_self']
        cases entries[j]? with
        | none => exact .inl rfl
        | some x => exact .inr ⟨rfl, rfl, rfl⟩
      · exact .inl (by
          unfold entry
          rw [Option.bind_some, Option.bind_some, getElem?_set_ne hj])

/-- What an entry holds in the end was there, or is a key field of this place. -/
theorem entry_foldl (ps : List Nat) : ∀ {area : Option (List (Option Nat))} {p j : Nat},
    entry (ps.foldl (enter t object) area) j = some p →
      entry area j = some p ∨ p ∈ ps ∧ isKeyField t object p = true ∧
        t.keyFieldId (object p).fieldId = j := by
  induction ps with
  | nil => exact fun h => .inl h
  | cons x ps ih =>
    intro area p j h
    rcases ih h with hHas | ⟨hIn, hKey, hj⟩
    · rcases entry_enter t object area x j with hSame | ⟨hNew, hKey, hj⟩
      · exact .inl (hSame ▸ hHas)
      · cases hNew.symm.trans hHas
        exact .inr ⟨mem_cons_self, hKey, hj⟩
    · exact .inr ⟨mem_cons_of_mem x hIn, hKey, hj⟩

theorem length_enter (t : TableDef) (object : Nat → FieldInQuery) (ps : List Nat)
    (entries : List (Option Nat)) :
    ∃ entries', ps.foldl (enter t object) (some entries) = some entries' ∧
      entries'.length = entries.length := by
  induction ps generalizing entries with
  | nil => exact ⟨entries, rfl, rfl⟩
  | cons p ps ih =>
    rw [foldl_cons]
    cases hKey : isKeyField t object p with
    | false =>
      rw [enter_of_not hKey]
      exact ih entries
    | true =>
      rw [enter_some hKey]
      rcases ih (entries.set (t.keyFieldId (object p).fieldId) (some p)) with
        ⟨entries', hFold, hLength⟩
      exact ⟨entries', hFold, hLength.trans length_set⟩

/-- The fields of other entries leave an entry. -/
theorem entry_keep {j : Nat} : ∀ {area : Option (List (Option Nat))},
    entry area j = some p →
    (∀ x ∈ ps, isKeyField t object x = true → t.keyFieldId (object x).fieldId = j → x = p) →
    entry (ps.foldl (enter t object) area) j = some p := by
  induction ps with
  | nil => exact fun h _ => h
  | cons x ps ih =>
    intro area h hOnly
    rcases forall_mem_cons.mp hOnly with ⟨hX, hRest⟩
    rw [foldl_cons]
    refine ih ?_ hRest
    rcases entry_enter t object area x j with hSame | ⟨hNew, hIs, hj⟩
    · exact hSame.trans h
    · rw [hNew, hX hIs hj]

/-- A key field is in its entry in the end, if no other field has this entry. -/
theorem entry_of_mem (entries : List (Option Nat)) (hIn : p ∈ ps)
    (hKey : isKeyField t object p = true) (hLt : t.keyFieldId (object p).fieldId < entries.length)
    (hOnly : ∀ x ∈ ps, isKeyField t object x = true →
      t.keyFieldId (object x).fieldId = t.keyFieldId (object p).fieldId → x = p) :
    entry (ps.foldl (enter t object) (some entries)) (t.keyFieldId (object p).fieldId) =
      some p := by
  rcases append_of_mem hIn with ⟨l₁, l₂, rfl⟩
  rw [foldl_append, foldl_cons]
  rcases length_enter t object l₁ entries with ⟨entries', hFold, hLength⟩
  have hSet : entry (enter t object (some entries') p) (t.keyFieldId (object p).fieldId) =
      some p := by
    rw [enter_some hKey]
    unfold entry
    rw [Option.bind_some, getElem?_set_self (by omega)]
    rfl
  rw [hFold]
  exact entry_keep hSet fun x hx => hOnly x (mem_append_right _ (mem_cons_of_mem p hx))

/-- Every key field is counted exactly if all of them are there. -/
theorem count_eq_iff (hNodup : (ps.map fun p => (object p).fieldId).Nodup)
    (hKey : ∀ p ∈ ps, isKeyField t object p = true → (object p).fieldId ∈ t.keyFieldIdOrder) :
    ps.countP (isKeyField t object) = t.numKeyFields ↔
      ∀ j < t.numKeyFields, ∃ p ∈ ps, isKeyField t object p = true ∧
        t.keyFieldId (object p).fieldId = j := by
  have hInj : ((ps.filter (isKeyField t object)).map
      fun p => t.keyFieldId (object p).fieldId).Nodup := by
    refine List.Nodup.map_on ?_ (hNodup.of_map.filter _)
    intro x hx y hy hEq
    rw [mem_filter] at hx hy
    have hX := (t.keyFieldId_spec _).2 (hKey x hx.1 hx.2)
    have hY := (t.keyFieldId_spec _).2 (hKey y hy.1 hy.2)
    rw [hEq, hY] at hX
    exact inj_on_of_nodup_map hNodup hx.1 hy.1 (Option.some.inj hX).symm
  have hLt : ∀ j ∈ (ps.filter (isKeyField t object)).map
      fun p => t.keyFieldId (object p).fieldId, j < t.numKeyFields := by
    intro j hj
    rcases mem_map.mp hj with ⟨p, hp, rfl⟩
    rw [mem_filter] at hp
    exact (t.keyFieldId_spec _).1.mpr (hKey p hp.1 hp.2)
  have hIff := length_eq_iff_of_lt hInj hLt
  rw [length_map, ← countP_eq_length_filter] at hIff
  rw [hIff]
  refine forall_congr' fun j => imp_congr_right fun _ => ?_
  rw [mem_map]
  simp only [mem_filter, and_assoc]

/-! ## Organized queries -/

theorem compareFieldInQuery_nonpos (word : Nat → UInt32) (a b : Nat) :
    compareFieldInQuery word a b ≤ 0 ↔ (word a).toNat ≤ (word b).toNat := by
  unfold compareFieldInQuery
  simp only [UInt32.lt_iff_toNat_lt]
  split
  · rename_i h
    exact iff_of_false (by decide) (Nat.not_le.mpr h)
  · rename_i h
    refine iff_of_true ?_ (Nat.not_lt.mp h)
    split <;> decide

/-- The area of a new query has an entry for each key field of the table. -/
theorem newQuery_area (t : TableDef) (numFields : UInt32) :
    (newQuery t numFields).keyFields = none ∨
      (newQuery t numFields).keyFields = some (List.replicate t.numKeyFields none) := by
  unfold newQuery keyFieldsOf
  dsimp only
  split
  · split
    · exact .inl rfl
    · exact .inr rfl
  · exact .inl rfl

theorem newQuery_entry (t : TableDef) (numFields : UInt32) (j : Nat) :
    entry (newQuery t numFields).keyFields j = none := by
  rcases newQuery_area t numFields with h | h
  · rw [h]
    rfl
  · rw [h]
    unfold entry
    rw [Option.bind_some, getElem?_replicate]
    split <;> rfl

theorem Describes.isKeyField_iff (h : Describes t (object p).fieldId) :
    isKeyField t object p = true ↔ (object p).fieldId ∈ t.keyFieldIdOrder := by
  unfold isKeyField
  rw [h.1, decide_eq_true_eq, Option.some.injEq, decide_eq_true_eq]

theorem Describes.passable (h : Describes t fieldId)
    (hArea : fieldId ∈ t.keyFieldIdOrder → hasArea = true) : Passable t hasArea fieldId :=
  ⟨_, h.1, fun hKey => ⟨of_decide_eq_true hKey, hArea (of_decide_eq_true hKey)⟩⟩

theorem Passable.mem_of_isKeyField (h : Passable t hasArea (object p).fieldId)
    (hKey : isKeyField t object p = true) :
    (object p).fieldId ∈ t.keyFieldIdOrder ∧ hasArea = true := by
  rcases h with ⟨isKey, hBit, hIf⟩
  have hTrue := of_decide_eq_true hKey
  rw [hBit] at hTrue
  exact hIf (Option.some.inj hTrue)

/-- The pointers of the query in the order that they are sorted into. -/
def pointerOrder (qsort : Sorter Nat) (word : Nat → UInt32) (n : Nat) : List Nat :=
  qsort.sort (compareFieldInQuery word) (List.range n)

theorem mem_pointerOrder {k : Nat} : k ∈ pointerOrder qsort word n ↔ k < n :=
  (qsort.perm _ _).mem_iff.trans mem_range

theorem pointerOrder_strict (qsort : Sorter Nat) (addresses : Addresses n) :
    (pointerOrder qsort addresses.word n).Pairwise fun a b =>
      (addresses.word a).toNat < (addresses.word b).toNat := by
  refine qsort.strict (fun k => (addresses.word k).toNat)
    (compareFieldInQuery_nonpos addresses.word) nodup_range ?_
  intro a ha b hb hEq
  exact addresses.distinct a (mem_range.mp ha) b (mem_range.mp hb)
    (UInt32.toNat_inj.mp hEq)

theorem pointerOrder_perm (qsort : Sorter Nat) (word : Nat → UInt32) (fs : List FieldInQuery) :
    ((pointerOrder qsort word fs.length).map (objects fs)).Perm fs := by
  have hPerm := ((qsort.perm (compareFieldInQuery word) (List.range fs.length)).map (objects fs))
  rwa [map_objects] at hPerm

/-- In the order of the pointers the ids ascend exactly if they ascend with the addresses. -/
theorem ids_ascend_iff (qsort : Sorter Nat) (addresses : Addresses n)
    (object : Nat → FieldInQuery) :
    ((pointerOrder qsort addresses.word n).Pairwise fun a b =>
        (object a).fieldId < (object b).fieldId) ↔
      ∀ k < n, ∀ l < n, addresses.word k < addresses.word l →
        (object k).fieldId < (object l).fieldId := by
  have hStrict := pointerOrder_strict qsort addresses
  simp only [UInt32.lt_iff_toNat_lt (a := addresses.word _)]
  constructor
  · intro hIds k hk l hl
    have hUp : (pointerOrder qsort addresses.word n).Pairwise fun a b =>
        (addresses.word a).toNat < (addresses.word b).toNat →
          (object a).fieldId < (object b).fieldId := by
      refine hIds.imp ?_
      exact fun h _ => h
    exact hUp.forall_of_forall_of_flip (fun a _ h => absurd h (Nat.lt_irrefl _))
      (hStrict.imp fun h hBack => absurd hBack h.asymm)
      (mem_pointerOrder.mpr hk) (mem_pointerOrder.mpr hl)
  · intro hAll
    exact hStrict.imp_of_mem fun ha hb h =>
      hAll _ (mem_pointerOrder.mp ha) _ (mem_pointerOrder.mp hb) h

/-- Organizing the fields `fs` gives the outcome that the property asks for. -/
def OrganizesWell (qsort : Sorter Nat) (word : Nat → UInt32) (t : TableDef) (numFields : UInt32)
    (fs : List FieldInQuery) : Prop :=
  ∃ retCode q', organizeFieldInQueryArray qsort word t (partialQuery t numFields fs) =
      some (retCode, q') ∧
    (retCode = Err.duplicateFieldIds ↔ ¬ (fs.map FieldInQuery.fieldId).Nodup) ∧
    (retCode = 0 → Organized t fs q')

variable {fs : List FieldInQuery}

/-- The loop of `organize_field_in_query_array` on the fields `fs`. -/
def loopOf (qsort : Sorter Nat) (word : Nat → UInt32) (t : TableDef) (numFields : UInt32)
    (fs : List FieldInQuery) : Option (Nat × Option (List (Option Nat)) × Nat) :=
  organizeLoop t (objects fs) (pointerOrder qsort word fs.length) maxUInt32
    (newQuery t numFields).keyFields 0

theorem loop_of_organize (hLength : fs.length = (newQuery t numFields).numFields)
    (h : organizeFieldInQueryArray qsort word t (partialQuery t numFields fs) =
      some (retCode, q')) :
    ∃ area keyFields, loopOf qsort word t numFields fs = some (retCode, area, keyFields) ∧
      q'.object = objects fs ∧ q'.fields = pointerOrder qsort word fs.length ∧
      q'.keyFields = area ∧ q'.numFieldsDefined = q'.numFields ∧
      (retCode = 0 → (q'.isAllKeyFieldsDefined = true ↔ keyFields = t.numKeyFields)) := by
  rcases organize_outcome h with
    ⟨area, keyFields, hLoop, hObject, hFields, hArea, hNum, hDefined, hAll⟩
  have hRange : (partialQuery t numFields fs).fields = List.range fs.length := by
    rw [hLength]
    rfl
  rw [hRange] at hLoop hFields
  refine ⟨area, keyFields, hLoop, hObject, hFields, hArea, ?_, fun hZero => ?_⟩
  · rw [hDefined, hNum]
    exact hLength
  · rw [hAll hZero]
    exact or_iff_right fun hFalse => nomatch hFalse

theorem organize_of_loop (hLength : fs.length = (newQuery t numFields).numFields)
    (h : loopOf qsort word t numFields fs = some (retCode, area, keyFields)) :
    ∃ q', organizeFieldInQueryArray qsort word t (partialQuery t numFields fs) =
      some (retCode, q') := by
  have hRange : (partialQuery t numFields fs).fields = List.range fs.length := by
    rw [hLength]
    rfl
  unfold organizeFieldInQueryArray
  rw [hRange]
  change ∃ q', (loopOf qsort word t numFields fs).bind _ = some (retCode, q')
  rw [h]
  change ∃ q', (if retCode ≠ 0 then _ else _) = some (retCode, q')
  split
  · exact ⟨_, rfl⟩
  rename_i hZero
  rw [not_not.mp hZero]
  split
  · exact ⟨_, rfl⟩
  · exact ⟨_, rfl⟩

theorem fieldId_objects_lt (hBound : ∀ f ∈ fs, f.fieldId < t.numFields) {k : Nat}
    (hk : k < fs.length) : (objects fs k).fieldId < t.numFields := by
  refine hBound _ ?_
  unfold objects
  rw [getD_eq_getElem?_getD, getElem?_eq_getElem hk, Option.getD_some]
  exact getElem_mem hk

theorem ne_max_of_lt {bound : UInt32} (h : fieldId < bound) : fieldId ≠ maxUInt32 := by
  rintro rfl
  have hLt := UInt32.lt_iff_toNat_lt.mp h
  have hBound := bound.toNat_lt
  have hMax : maxUInt32.toNat = 2 ^ 32 - 1 := rfl
  omega

/-- The loop finds equal ids exactly if neighbours have them. -/
theorem duplicate_iff (qsort : Sorter Nat) (addresses : Addresses fs.length)
    (hBound : ∀ f ∈ fs, f.fieldId < t.numFields) :
    (loopOf qsort addresses.word t numFields fs).map Prod.fst = some Err.duplicateFieldIds ↔
      EqualNeighbours t (newQuery t numFields).keyFields.isSome addresses.word fs.length
        (objects fs) := by
  have hStart := organizeLoop_start t (newQuery t numFields).keyFields
    fun p (hp : p ∈ pointerOrder qsort addresses.word fs.length) =>
      ne_max_of_lt (fieldId_objects_lt hBound (mem_pointerOrder.mp hp))
  refine hStart.trans ((exists_split_iff (fun k => (addresses.word k).toNat)
    (pointerOrder_strict qsort addresses)).trans ?_)
  unfold EqualNeighbours
  simp only [mem_pointerOrder, UInt32.lt_iff_toNat_lt, UInt32.le_iff_toNat_le]

theorem nodup_pointerOrder (qsort : Sorter Nat) (word : Nat → UInt32)
    (h : (fs.map FieldInQuery.fieldId).Nodup) :
    ((pointerOrder qsort word fs.length).map fun p => (objects fs p).fieldId).Nodup := by
  have hPerm := (pointerOrder_perm qsort word fs).map FieldInQuery.fieldId
  rw [map_map] at hPerm
  exact hPerm.nodup_iff.mpr h

/-- Two objects of one id are two fields of one id. -/
theorem EqualNeighbours.not_nodup (h : EqualNeighbours t hasArea word fs.length (objects fs)) :
    ¬ (fs.map FieldInQuery.fieldId).Nodup := by
  rcases h with ⟨k, hk, l, hl, hLt, _, hEq, _⟩
  intro hNodup
  rw [← map_objects fs, map_map] at hNodup
  have hSame := inj_on_of_nodup_map hNodup (mem_range.mpr hk) (mem_range.mpr hl) hEq
  rw [hSame] at hLt
  exact UInt32.lt_irrefl _ hLt

section

variable (addresses : Addresses fs.length)

include addresses

theorem organizesWell_of_neighbours (hLength : fs.length = (newQuery t numFields).numFields)
    (hBound : ∀ f ∈ fs, f.fieldId < t.numFields)
    (h : EqualNeighbours t (newQuery t numFields).keyFields.isSome addresses.word fs.length
      (objects fs)) : OrganizesWell qsort addresses.word t numFields fs := by
  rcases Option.map_eq_some_iff.mp ((duplicate_iff qsort addresses hBound).mpr h) with
    ⟨⟨retCode, area, keyFields⟩, hLoop, hCode⟩
  rcases organize_of_loop hLength hLoop with ⟨q', hOrganize⟩
  refine ⟨retCode, q', hOrganize, iff_of_true hCode h.not_nodup, fun hZero => ?_⟩
  cases hCode.symm.trans hZero

/-- Key fields that are described stand where the definition has them. -/
theorem organized_of_ascending
    (hAsc : Ascending t (newQuery t numFields).keyFields.isSome addresses.word fs.length
      (objects fs))
    (hArea : area = (pointerOrder qsort addresses.word fs.length).foldl (enter t (objects fs))
      (newQuery t numFields).keyFields)
    (hCount : keyFields = (pointerOrder qsort addresses.word fs.length).countP
      (isKeyField t (objects fs))) (hNodup : (fs.map FieldInQuery.fieldId).Nodup)
    (hObject : q'.object = objects fs)
    (hFields : q'.fields = pointerOrder qsort addresses.word fs.length)
    (hKeyFields : q'.keyFields = area)
    (hAll : q'.isAllKeyFieldsDefined = true ↔ keyFields = t.numKeyFields) : Organized t fs q' := by
  set ps := pointerOrder qsort addresses.word fs.length
  have hIn : ∀ f, f ∈ fs ↔ ∃ p ∈ ps, objects fs p = f := fun f => by
    rw [← (pointerOrder_perm qsort addresses.word fs).mem_iff, List.mem_map]
  have hDescribes : ∀ p ∈ ps, Describes t (objects fs p).fieldId := fun p hp =>
    (hAsc.2 p (mem_pointerOrder.mp hp)).1
  have hIds : (ps.map fun p => (objects fs p).fieldId).Nodup :=
    nodup_pointerOrder qsort addresses.word hNodup
  -- a key field has one place in the order, which is the one that the search finds
  have hPlace : ∀ p ∈ ps, ∀ j : Nat, t.keyFieldIdOrder[j]? = some (objects fs p).fieldId →
      isKeyField t (objects fs) p = true ∧ t.keyFieldId (objects fs p).fieldId = j := by
    intro p hp j hj
    have hMem := List.mem_of_getElem? hj
    refine ⟨(hDescribes p hp).isKeyField_iff.mpr hMem, ?_⟩
    exact (hDescribes p hp).2 _ _ ((t.keyFieldId_spec _).2 hMem) hj
  refine ⟨?_, ?_, ?_, ?_⟩
  · rw [hFields, hObject, List.pairwise_map]
    exact ((ids_ascend_iff qsort addresses _).mpr hAsc.1).imp UInt32.le_of_lt
  · rw [hFields, hObject]
    exact pointerOrder_perm qsort addresses.word fs
  · rintro j fieldId hj f hf rfl
    rcases (hIn f).mp hf with ⟨p, hp, rfl⟩
    rcases hPlace p hp j hj with ⟨hKey, rfl⟩
    have hMem := List.mem_of_getElem? hj
    have hSome := (hAsc.2 p (mem_pointerOrder.mp hp)).2 hMem
    have hNew : (newQuery t numFields).keyFields = some (List.replicate t.numKeyFields none) := by
      rcases newQuery_area t numFields with hNone | hNew
      · rw [hNone] at hSome
        nomatch hSome
      · exact hNew
    have hEntry := entry_of_mem (List.replicate t.numKeyFields none) hp hKey
      (by rw [List.length_replicate]; exact (t.keyFieldId_spec _).1.mpr hMem) (by
        intro x hx hIsKey hSame
        have hX := (t.keyFieldId_spec _).2 ((hDescribes x hx).isKeyField_iff.mp hIsKey)
        rw [hSame, hj] at hX
        exact List.inj_on_of_nodup_map hIds hx hp (Option.some.inj hX).symm)
    show (entry q'.keyFields _).map q'.object = _
    rw [hKeyFields, hArea, hNew, hEntry, hObject]
    rfl
  · rw [hAll, hCount, count_eq_iff hIds fun p hp => (hDescribes p hp).isKeyField_iff.mp]
    constructor
    · intro hEvery fieldId hMem
      rcases List.mem_iff_getElem?.mp hMem with ⟨j, hj⟩
      rcases hEvery j (List.getElem?_eq_some_iff.mp hj).1 with ⟨p, hp, hKey, rfl⟩
      have hP := (t.keyFieldId_spec _).2 ((hDescribes p hp).isKeyField_iff.mp hKey)
      exact ⟨objects fs p, (hIn _).mpr ⟨p, hp, rfl⟩, Option.some.inj (hP.symm.trans hj)⟩
    · intro hEvery j hj
      have hBelow : j < t.keyFieldIdOrder.length := hj
      have hGet : t.keyFieldIdOrder[j]? = some t.keyFieldIdOrder[j] :=
        List.getElem?_eq_getElem hBelow
      rcases hEvery _ (List.mem_of_getElem? hGet) with ⟨f, hf, hId⟩
      rcases (hIn f).mp hf with ⟨p, hp, rfl⟩
      exact ⟨p, hp, hPlace p hp j (hId ▸ hGet)⟩

theorem organizesWell_of_ascending (hLength : fs.length = (newQuery t numFields).numFields)
    (hBound : ∀ f ∈ fs, f.fieldId < t.numFields)
    (h : Ascending t (newQuery t numFields).keyFields.isSome addresses.word fs.length
      (objects fs)) : OrganizesWell qsort addresses.word t numFields fs := by
  have hOrder := (ids_ascend_iff qsort addresses (objects fs)).mpr h.1
  have hIds : ((pointerOrder qsort addresses.word fs.length).map
      fun p => (objects fs p).fieldId).Nodup := by
    refine pairwise_map.mpr (hOrder.imp ?_)
    exact fun hLt => UInt32.ne_of_lt hLt
  have hNodup : (fs.map FieldInQuery.fieldId).Nodup := by
    have hPerm := (pointerOrder_perm qsort addresses.word fs).map
      FieldInQuery.fieldId
    rw [map_map] at hPerm
    exact hPerm.nodup_iff.mp hIds
  have hLoop : loopOf qsort addresses.word t numFields fs = _ :=
    organizeLoop_of_nodup (nodup_cons.mpr ⟨fun hMem => ?_, hIds⟩) fun p hp =>
      (h.2 p (mem_pointerOrder.mp hp)).1.passable (h.2 p (mem_pointerOrder.mp hp)).2
  · rcases organize_of_loop hLength hLoop with ⟨q', hOrganize⟩
    rcases loop_of_organize hLength hOrganize with
      ⟨area, keyFields, hLoop', hObject, hFields, hArea, _, hAll⟩
    cases hLoop.symm.trans hLoop'
    refine ⟨0, q', hOrganize, iff_of_false (by decide) (not_not.mpr hNodup), fun _ => ?_⟩
    exact organized_of_ascending addresses h rfl (Nat.zero_add _) hNodup hObject hFields hArea
      (hAll rfl)
  · rcases mem_map.mp hMem with ⟨p, hp, hMax⟩
    exact ne_max_of_lt (fieldId_objects_lt hBound (mem_pointerOrder.mp hp)) hMax

theorem ascending_of_organized
    (hLoop : loopOf qsort addresses.word t numFields fs = some (0, area, keyFields))
    (hNodup : (fs.map FieldInQuery.fieldId).Nodup) (hObject : q'.object = objects fs)
    (hFields : q'.fields = pointerOrder qsort addresses.word fs.length)
    (hKeyFields : q'.keyFields = area) (h : Organized t fs q') :
    Ascending t (newQuery t numFields).keyFields.isSome addresses.word fs.length
      (objects fs) := by
  rcases organizeLoop_zero hLoop with ⟨hPass, hArea, _⟩
  refine ⟨(ids_ascend_iff qsort addresses _).mp ?_, fun k hk => ?_⟩
  · have hSorted := h.sorted
    rw [hFields, hObject] at hSorted
    have hBoth := hSorted.and (nodup_pointerOrder qsort addresses.word hNodup)
    exact (pairwise_map.mp hBoth).imp fun hLe => UInt32.lt_of_le_of_ne hLe.1 hLe.2
  have hIn : objects fs k ∈ fs :=
    (pointerOrder_perm qsort addresses.word fs).mem_iff.mp
      (mem_map_of_mem (mem_pointerOrder.mpr hk))
  -- its entry was filled by a field with its id
  have hEntered : ∀ j : Nat, t.keyFieldIdOrder[j]? = some (objects fs k).fieldId →
      isKeyField t (objects fs) k = true ∧ t.keyFieldId (objects fs k).fieldId = j := by
    intro j hj
    have hEntry := h.keyFields j _ hj _ hIn rfl
    rcases Option.map_eq_some_iff.mp hEntry with ⟨p, hP, hSame⟩
    have hP' : entry area j = some p := by
      rw [← hKeyFields]
      exact hP
    rw [hArea] at hP'
    rw [hObject] at hSame
    rcases entry_foldl _ hP' with hOld | ⟨_, hKey, hj'⟩
    · rw [newQuery_entry] at hOld
      nomatch hOld
    · unfold isKeyField at hKey ⊢
      rw [hSame] at hKey hj'
      exact ⟨hKey, hj'⟩
  have hPassK := hPass k (mem_pointerOrder.mpr hk)
  have hKey : (objects fs k).fieldId ∈ t.keyFieldIdOrder →
      isKeyField t (objects fs) k = true := by
    intro hMem
    rcases mem_iff_getElem?.mp hMem with ⟨j, hj⟩
    exact (hEntered j hj).1
  refine ⟨⟨?_, fun i j hi hj => ?_⟩, fun hMem => (hPassK.mem_of_isKeyField (hKey hMem)).2⟩
  · rcases hPassK with ⟨isKey, hBit, hIf⟩
    rw [hBit]
    congr 1
    cases isKey with
    | true => exact (decide_eq_true (hIf rfl).1).symm
    | false =>
      refine (decide_eq_false fun hMem => ?_).symm
      have hTrue := of_decide_eq_true (hKey hMem)
      rw [hBit] at hTrue
      nomatch hTrue
  · exact (hEntered i hi).2.symm.trans (hEntered j hj).2

end

/-- Organizing fields of the table goes well in two cases. -/
theorem organizesWell_iff (qsort : Sorter Nat) (addresses : Addresses fs.length)
    (hLength : fs.length = (newQuery t numFields).numFields)
    (hBound : ∀ f ∈ fs, f.fieldId < t.numFields) :
    OrganizesWell qsort addresses.word t numFields fs ↔
      Ascending t (newQuery t numFields).keyFields.isSome addresses.word fs.length (objects fs) ∨
      EqualNeighbours t (newQuery t numFields).keyFields.isSome addresses.word fs.length
        (objects fs) := by
  constructor
  · rintro ⟨retCode, q', hOrganize, hDuplicate, hZero⟩
    rcases loop_of_organize hLength hOrganize with
      ⟨area, keyFields, hLoop, hObject, hFields, hArea, _, _⟩
    rcases organizeLoop_code hLoop with hCode | hCode
    · change retCode = 0 at hCode
      subst hCode
      have hNodup := not_not.mp fun hNot => absurd (hDuplicate.mpr hNot) (by decide)
      exact .inl (ascending_of_organized addresses hLoop hNodup hObject hFields hArea (hZero rfl))
    · refine .inr ((duplicate_iff qsort addresses hBound).mp ?_)
      rw [hLoop]
      exact congrArg some hCode
  · rintro (h | h)
    · exact organizesWell_of_ascending addresses hLength hBound h
    · exact organizesWell_of_neighbours addresses hLength hBound h

/-! ## Every sequence of calls -/

theorem length_storedCalls {calls : List FieldInQuery} (h : FillCalls t n calls) :
    (storedCalls t n calls).length = n := by
  unfold storedCalls
  rw [length_take, ← countP_eq_length_filter]
  exact Nat.min_eq_left h

/-- The calls were accepted in the steps that did not refuse them. -/
theorem accepted_iff (t : TableDef) (steps : List Step) :
    (∀ s ∈ steps, s.retCode ≠ Err.tooManyFields → s.call.fieldId < t.numFields) ↔
      ∀ f ∈ definedFields steps, f.fieldId < t.numFields := by
  unfold definedFields
  rw [forall_mem_map]
  refine forall_congr' fun s => ?_
  rw [mem_filter, decide_eq_true_eq, and_imp]

theorem Filled.correct_iff {steps : List Step} {defined : List FieldInQuery}
    (h : Filled steps defined retCode q') :
    Correct t steps ↔ (∀ f ∈ defined, f.fieldId < t.numFields) ∧
      (retCode = Err.duplicateFieldIds ↔ ¬ (defined.map FieldInQuery.fieldId).Nodup) ∧
      (retCode = 0 → Organized t defined q') := by
  constructor
  · intro hCorrect
    rcases h.exists_fills with ⟨s, hs, hFills, rfl, rfl⟩
    have hDuplicates := hCorrect.duplicates s hs hFills
    have hOrganized := hCorrect.organized s hs hFills
    rw [h.defined] at hDuplicates hOrganized
    refine ⟨?_, hDuplicates, hOrganized⟩
    rw [← h.defined]
    exact (accepted_iff t steps).mp hCorrect.accepted
  · rintro ⟨hAccepted, hDuplicates, hOrganized⟩
    refine ⟨(accepted_iff t steps).mpr (h.defined ▸ hAccepted), fun s hs hFills => ?_,
      fun s hs hFills hZero => ?_⟩
    · rw [(h.fills s hs hFills).1, h.defined]
      exact hDuplicates
    · rw [(h.fills s hs hFills).2, h.defined]
      exact hOrganized ((h.fills s hs hFills).1.symm.trans hZero)

/-- A run that fills the query is correct if its fields are the table's and organized well. -/
theorem run_correct_iff (qsort : Sorter Nat) (word : Nat → UInt32) {calls : List FieldInQuery}
    (hPos : 0 < (newQuery t numFields).numFields)
    (hFill : FillCalls t (newQuery t numFields).numFields calls) :
    (∃ steps, run qsort word t (newQuery t numFields) calls = some steps ∧ Correct t steps) ↔
      (∀ f ∈ storedCalls t (newQuery t numFields).numFields calls, f.fieldId < t.numFields) ∧
      OrganizesWell qsort word t numFields
        (storedCalls t (newQuery t numFields).numFields calls) := by
  have hLength := length_storedCalls hFill
  set fs := storedCalls t (newQuery t numFields).numFields calls
  have hOutcome : ∀ p ∈ organizeFieldInQueryArray qsort word t (partialQuery t numFields fs),
      p.1 ≠ Err.tooManyFields ∧ p.2.numFieldsDefined = p.2.numFields := by
    rintro ⟨retCode, q'⟩ hOrganize
    rcases loop_of_organize hLength hOrganize with ⟨_, _, hLoop, _, _, _, hFull, _⟩
    refine ⟨?_, hFull⟩
    rcases organizeLoop_code hLoop with hCode | hCode
    · exact fun h => absurd (hCode.symm.trans h) (by decide)
    · exact fun h => absurd (hCode.symm.trans h) (by decide)
  rcases run_partial rfl hOutcome calls [] hPos hFill rfl with ⟨stepsOf, hRun, hFilled⟩
  have hNew : partialQuery t numFields [] = newQuery t numFields := rfl
  rw [hNew] at hRun
  rw [hRun]
  unfold OrganizesWell
  cases hOrganize : organizeFieldInQueryArray qsort word t (partialQuery t numFields fs) with
  | none =>
    refine iff_of_false ?_ ?_
    · rintro ⟨steps, hSteps, _⟩
      nomatch hSteps
    · rintro ⟨_, retCode, q', hSome, _⟩
      nomatch hSome
  | some p =>
    have hCorrect := (hFilled p hOrganize).correct_iff (t := t)
    constructor
    · rintro ⟨steps, hSteps, h⟩
      cases hSteps
      exact ⟨(hCorrect.mp h).1, p.1, p.2, rfl, (hCorrect.mp h).2⟩
    · rintro ⟨hAccepted, retCode, q', hSome, h⟩
      cases hSome
      exact ⟨_, rfl, hCorrect.mpr ⟨hAccepted, h⟩⟩

/-- A query without fields defines none. -/
theorem run_empty (qsort : Sorter Nat) (word : Nat → UInt32) (calls : List FieldInQuery)
    (hZero : (newQuery t numFields).numFields = 0) :
    ∃ steps, run qsort word t (newQuery t numFields) calls = some steps ∧ Correct t steps := by
  refine ⟨_, run_full hZero.le calls, ?_, ?_, ?_⟩
  · intro s hs hCode
    rcases mem_map.mp hs with ⟨_, _, rfl⟩
    exact absurd rfl hCode
  all_goals
    intro s hs hFills
    rcases mem_map.mp hs with ⟨_, _, rfl⟩
    exact absurd hFills.2 hFills.1.ne

/-- A sequence of calls that fills a query has the property exactly if no call names the field
behind the last one, and either the ids ascend with the addresses of their objects and the
definition describes them, or neighbours among the addresses show two equal ids. -/
theorem query_fields_iff (qsort : Sorter Nat) (t : TableDef) (numFields : UInt32)
    (addresses : Addresses (newQuery t numFields).numFields) (calls : List FieldInQuery)
    (hFill : FillCalls t (newQuery t numFields).numFields calls) :
    (∃ steps, run qsort addresses.word t (newQuery t numFields) calls = some steps ∧
        Correct t steps) ↔
      (∀ f ∈ storedCalls t (newQuery t numFields).numFields calls, f.fieldId < t.numFields) ∧
      (Ascending t (newQuery t numFields).keyFields.isSome addresses.word
          (newQuery t numFields).numFields
          (objects (storedCalls t (newQuery t numFields).numFields calls)) ∨
        EqualNeighbours t (newQuery t numFields).keyFields.isSome addresses.word
          (newQuery t numFields).numFields
          (objects (storedCalls t (newQuery t numFields).numFields calls))) := by
  rcases Nat.eq_zero_or_pos (newQuery t numFields).numFields with hZero | hPos
  · refine iff_of_true (run_empty qsort addresses.word calls hZero) ⟨?_, .inl ⟨?_, ?_⟩⟩
    · intro f hf
      rw [hZero] at hf
      exact absurd hf List.not_mem_nil
    · intro k hk
      exact absurd (hZero ▸ hk) (Nat.not_lt_zero k)
    · intro k hk
      exact absurd (hZero ▸ hk) (Nat.not_lt_zero k)
  · rcases addresses with ⟨word, hDistinct⟩
    have hLength := length_storedCalls hFill
    rw [run_correct_iff qsort word hPos hFill]
    refine and_congr_right fun hBound => ?_
    rw [← hLength] at hDistinct
    have hIff := organizesWell_iff qsort ⟨word, hDistinct⟩ hLength hBound
    dsimp only at hIff
    rwa [hLength] at hIff

/-- Three fields, of which field 0 is the key. -/
def threeFields : TableDef where
  numFields := 3
  keyFieldIdOrder := [0]
  numKeyFields_lt := by decide
  keyFields := [1, 0, 0, 0]
  isIndex := false
  isUniqueIndex := false

/-- The addresses of two objects of 64 bytes, one behind the other. -/
def twoObjects : Addresses (newQuery threeFields 2).numFields where
  word k := if k = 0 then 0x1000 else 0x1040
  distinct := by decide

theorem describes_threeFields (h : fieldId = 0 ∨ fieldId = 1) : Describes threeFields fieldId := by
  refine ⟨?_, fun i j hi hj => ?_⟩
  · rcases h with rfl | rfl <;> decide
  · have hLt := (List.getElem?_eq_some_iff.mp hi).1
    exact (List.getElem?_inj hLt (List.nodup_singleton 0)).mp (hi.trans hj.symm)

/-- Fields 0 and 1, defined in this order. -/
theorem query_fields_ascending :
    ∃ steps, run (insertionSorter Nat) twoObjects.word threeFields (newQuery threeFields 2)
        [⟨0, 0, 0⟩, ⟨1, 8, 0⟩] = some steps ∧ Correct threeFields steps := by
  refine (query_fields_iff (insertionSorter Nat) threeFields 2 twoObjects _
    (by unfold FillCalls; decide)).mpr
    ⟨by decide, .inl ⟨by decide, fun k hk => ⟨describes_threeFields ?_, fun _ => rfl⟩⟩⟩
  have hTwo : k = 0 ∨ k = 1 := by
    have hLt : k < 2 := hk
    omega
  rcases hTwo with rfl | rfl
  · exact .inl rfl
  · exact .inr rfl

/-- Fields 1 and 0, defined in this order, stay in it. -/
theorem query_fields_unsorted :
    ¬ ∃ steps, run (insertionSorter Nat) twoObjects.word threeFields (newQuery threeFields 2)
        [⟨1, 0, 0⟩, ⟨0, 8, 0⟩] = some steps ∧ Correct threeFields steps := by
  rw [run_correct_iff (insertionSorter Nat) twoObjects.word (by decide)
    (by unfold FillCalls; decide)]
  rintro ⟨hBound, hOrganizes⟩
  have hCases := (organizesWell_iff (insertionSorter Nat) ⟨twoObjects.word, by decide⟩ rfl
    hBound).mp hOrganizes
  rcases hCases with ⟨hIds, _⟩ | ⟨k, hk, l, hl, hLt, _, hEq, _⟩
  · exact absurd (hIds 0 (by decide) 1 (by decide) (by decide)) (by decide)
  · have hNo : ∀ k < 2, ∀ l < 2, twoObjects.word k < twoObjects.word l →
        (objects [⟨1, 0, 0⟩, ⟨0, 8, 0⟩] k).fieldId ≠
          (objects [⟨1, 0, 0⟩, ⟨0, 8, 0⟩] l).fieldId := by decide
    exact hNo k hk l hl hLt hEq

end IClaustron.Apid.QueryFields
