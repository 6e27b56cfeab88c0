import IClaustron.Config.ClusterSections
import Mathlib.Data.List.Chain
import Mathlib.Order.Interval.Finset.Nat

/-!
# Config.AcceptedConfig — what a configuration is worth that has been accepted

An accepted configuration is well formed when each section of a node has one node of its own, under
the id that stands in its struct, when all numbers are within their bounds, and when the mandatory
parameters are there. It is, as long as no section has its node id from a default section or from
two lines, and as long as a data server has been given the two parameters that nothing asks for:
data_server_checkpoint_path, which has the mandatory bit of node_id, and long_message_memory, the
default of which is too small.

* `WellFormed`, and `GridOk` with `SectionsOk` for the text.
* `accepted_wellFormed_iff` — one if and only if the other.
* `default_nodeId_lost` — a text with a node id in a default section.
-/

namespace IClaustron.Config.ClusterReader

open Lib Lib.Attempt Protocol List Option

variable {env : Env} {s : Load} {doc : Doc} {name : String} {e e' : ConfigEntry}
  {t : ConfigType} {value : UInt64} {keys : List Key} {nums : Nums} {k : Nat}

/-! ## The table -/

/-- The parameters of the table. -/
def parameters : List ConfigEntry := initConfigParameters.map (·.entry)

/-- A parameter with a number. -/
def isNumber (e : ConfigEntry) : Bool :=
  e.dataType = .uint16 || e.dataType = .boolean || e.dataType = .uint32 || e.dataType = .uint64

/-- The default as it is stored. -/
def storedDefault (e : ConfigEntry) : UInt64 :=
  match e.dataType with
  | .uint16 => e.defaultValue.toUInt16.toUInt64
  | .boolean => e.defaultValue.toUInt8.toUInt64
  | .uint32 => e.defaultValue.toUInt32.toUInt64
  | _ => e.defaultValue

/-- The parameters that do not take their own default. -/
def withoutDefault : List String :=
  ["node_id", "number_of_replicas", "long_message_memory", "first_node_id", "second_node_id",
   "server_node_id"]

instance (e : ConfigEntry) (value : UInt64) : Decidable (ValueOk e value) := by
  unfold ValueOk
  infer_instance

/-- What the rows of the table have in common. -/
def RowOk (e : ConfigEntry) : Prop :=
  (isNumber e = true → ValueOk e (storedDefault e) ∨ e.configEntryName ∈ withoutDefault) ∧
  (e.isStringType = false → isNumber e = true ∨ e.configEntryName = "") ∧
  (isNumber e = true → e.isStringType = false) ∧
  (e.isStringType = true → e.configEntryName ∉ withoutDefault) ∧
  e.configEntryName ≠ mandatoryBitsName ∧
  (e.configEntryName = "long_message_memory" → e.defaultValue = 0 ∧ e.minValue = some 524288) ∧
  -- only a data server has these two
  (e.configTypes ≠ ConfigType.dataServer.mask →
    e.configEntryName ≠ "data_server_checkpoint_path" ∧
      e.configEntryName ≠ "long_message_memory") ∧
  (e.configTypes.testBit ConfigType.comm.code = true → e.configEntryName ≠ "node_id") ∧
  -- what the programs have beyond a client is never mandatory
  (e.configTypes.testBit ConfigType.client.code = false →
    (e.configTypes.testBit ConfigType.sqlServer.code = true ∨
      e.configTypes.testBit ConfigType.repServer.code = true ∨
      e.configTypes.testBit ConfigType.fileServer.code = true ∨
      e.configTypes.testBit ConfigType.restore.code = true) → mandatoryBit e = none)

instance (e : ConfigEntry) : Decidable (RowOk e) := by
  unfold RowOk
  infer_instance

theorem rowOk : ∀ e ∈ parameters, RowOk e := by
  decide +kernel

theorem valueOk_storedDefault (e : ConfigEntry) (he : e ∈ parameters) (h : isNumber e = true) :
    ValueOk e (storedDefault e) ∨ e.configEntryName ∈ withoutDefault :=
  (rowOk e he).1 h

theorem isNumber_of_not_string (e : ConfigEntry) (he : e ∈ parameters)
    (h : e.isStringType = false) : isNumber e = true ∨ e.configEntryName = "" :=
  (rowOk e he).2.1 h

theorem string_has_default (e : ConfigEntry) (he : e ∈ parameters) (h : e.isStringType = true) :
    e.configEntryName ∉ withoutDefault :=
  (rowOk e he).2.2.2.1 h

theorem ne_mandatoryBitsName (e : ConfigEntry) (he : e ∈ parameters) :
    e.configEntryName ≠ mandatoryBitsName :=
  (rowOk e he).2.2.2.2.1

theorem long_message_memory_row (e : ConfigEntry) (he : e ∈ parameters)
    (h : e.configEntryName = "long_message_memory") :
    e.defaultValue = 0 ∧ e.minValue = some 524288 :=
  (rowOk e he).2.2.2.2.2.1 h

theorem data_server_rows (e : ConfigEntry) (he : e ∈ parameters)
    (h : e.configTypes ≠ ConfigType.dataServer.mask) :
    e.configEntryName ≠ "data_server_checkpoint_path" ∧
      e.configEntryName ≠ "long_message_memory" :=
  (rowOk e he).2.2.2.2.2.2.1 h

theorem comm_rows (e : ConfigEntry) (he : e ∈ parameters)
    (h : e.configTypes.testBit ConfigType.comm.code = true) : e.configEntryName ≠ "node_id" :=
  (rowOk e he).2.2.2.2.2.2.2.1 h

theorem program_rows (e : ConfigEntry) (he : e ∈ parameters)
    (hClient : e.configTypes.testBit ConfigType.client.code = false)
    (h : e.configTypes.testBit ConfigType.sqlServer.code = true ∨
      e.configTypes.testBit ConfigType.repServer.code = true ∨
      e.configTypes.testBit ConfigType.fileServer.code = true ∨
      e.configTypes.testBit ConfigType.restore.code = true) : mandatoryBit e = none :=
  (rowOk e he).2.2.2.2.2.2.2.2 hClient h

theorem nodeId_row : (searchConfHash nodeIdStr).map (fun e => (e.configEntryName, e.isStringType,
    e.minValue, e.maxValue, e.configTypes)) =
      some ("node_id", false, some 1, some 255, allNodeTypes) := by
  decide +kernel

/-- The rows behind the first three stand in the order of their index, and none has the index of
one of these. -/
theorem rows_inx : ((initConfigParameters.map (·.inx)).drop 3).IsChain (· < ·) ∧
    (initConfigParameters.map (·.inx)).take 3 = [10, 11, 12] ∧
    (∀ i ∈ (initConfigParameters.map (·.inx)).drop 3, i ≠ 10 ∧ i ≠ 11 ∧ i ≠ 12) ∧
    (∀ i ∈ initConfigParameters.map (·.inx), 0 < i ∧ i < maxConfigId) := by
  decide +kernel

theorem mem_parameters_of_search {key : Bytes} (h : searchConfHash key = some e) :
    e ∈ parameters ∧ e.configEntryName ≠ "" := by
  refine ⟨mem_of_find?_eq_some h, ?_⟩
  intro hEmpty
  have hName := find?_some h
  unfold namesOf at hName
  simp [hEmpty] at hName

/-! ## Defaults -/

/-- The index of a row leads to the row. -/
theorem globConfEntry_of_mem {p : Parameter} (h : p ∈ initConfigParameters) :
    globTable.globConfEntry p.inx = p.entry := by
  have hNodup : (initConfigParameters.map (·.inx)).Nodup := by
    rw [← take_append_drop 3 (initConfigParameters.map (·.inx)), rows_inx.2.1]
    have hRest := rows_inx.1.pairwise.imp fun h => Nat.ne_of_lt h
    refine List.Nodup.append (by decide) hRest ?_
    intro i hi hi'
    have hNe := rows_inx.2.2.1 i hi'
    simp only [mem_cons, not_mem_nil, or_false] at hi
    omega
  have hFind : ∀ l : List Parameter, (l.map (·.inx)).Nodup → p ∈ l →
      l.find? (·.inx = p.inx) = some p := by
    intro l hl hp
    induction l with
    | nil => cases hp
    | cons q l ih =>
      rw [map_cons, nodup_cons] at hl
      rcases mem_cons.mp hp with rfl | hp
      · simp
      · have hNe : q.inx ≠ p.inx := fun hEq => hl.1 (hEq ▸ mem_map_of_mem hp)
        rw [find?_cons_of_neg (by simpa using hNe)]
        exact ih hl.2 hp
  show ((initConfigParameters.find? (·.inx = p.inx)).map (·.entry)).getD {} = p.entry
  rw [hFind _ hNodup h]
  rfl

/-- The rows that are gone through for the defaults of a kind. -/
def defaultRows (t : ConfigType) : List ConfigEntry :=
  ((List.range' 1 (maxConfigId - 1)).map globTable.globConfEntry).filter
    fun e => e.configTypes.testBit t.code

theorem mem_defaultRows :
    e ∈ defaultRows t ↔ e ∈ parameters ∧ e.configTypes.testBit t.code = true := by
  unfold defaultRows
  rw [mem_filter]
  refine and_congr_left fun hBit => ?_
  constructor
  · intro hMem
    rcases mem_map.mp hMem with ⟨i, -, rfl⟩
    change ((initConfigParameters.find? (·.inx = i)).map (·.entry)).getD {} ∈ parameters
    cases hFind : initConfigParameters.find? (·.inx = i) with
    | some p => exact mem_map_of_mem (mem_of_find?_eq_some hFind)
    | none =>
      -- a place without a row has no kind
      have hNone : globTable.globConfEntry i = {} := by
        show ((initConfigParameters.find? (·.inx = i)).map (·.entry)).getD {} = {}
        rw [hFind]
        rfl
      rw [hNone] at hBit
      simp at hBit
  · intro hMem
    rcases mem_map.mp hMem with ⟨p, hp, rfl⟩
    have hInx := rows_inx.2.2.2 p.inx (mem_map_of_mem hp)
    refine mem_map.mpr ⟨p.inx, ?_, globConfEntry_of_mem hp⟩
    rw [mem_range'_1]
    omega

theorem num_initConfigDefaultValue (conf : ConfObject) (e : ConfigEntry) :
    (initConfigDefaultValue conf e).num =
      if isNumber e then Nums.set conf.num e.configEntryName (storedDefault e) else conf.num := by
  unfold initConfigDefaultValue isNumber storedDefault
  cases e.dataType <;> rfl

/-- A member has the default of a row with its name, or no row has set it. -/
theorem num_foldl_default (rows : List ConfigEntry) (conf : ConfObject) (name : String) :
    (rows.foldl initConfigDefaultValue conf).num name = conf.num name ∧
        (∀ e ∈ rows, isNumber e = true → e.configEntryName ≠ name) ∨
      ∃ e ∈ rows, isNumber e = true ∧ e.configEntryName = name ∧
        (rows.foldl initConfigDefaultValue conf).num name = storedDefault e := by
  induction rows using List.reverseRecOn with
  | nil => exact .inl ⟨rfl, fun _ h => nomatch h⟩
  | append_singleton rows row ih =>
    rw [foldl_concat, num_initConfigDefaultValue]
    by_cases hRow : isNumber row = true ∧ row.configEntryName = name
    · refine .inr ⟨row, by simp, hRow.1, hRow.2, ?_⟩
      rw [if_pos hRow.1, ← hRow.2]
      exact if_pos rfl
    · have hSame : (if isNumber row then Nums.set (rows.foldl initConfigDefaultValue conf).num
          row.configEntryName (storedDefault row) else (rows.foldl initConfigDefaultValue conf).num)
            name = (rows.foldl initConfigDefaultValue conf).num name := by
        split_ifs with hNumber
        · exact if_neg fun hName => hRow ⟨hNumber, hName.symm⟩
        · rfl
      rw [hSame]
      rcases ih with ⟨hInit, hNone⟩ | ⟨e, hMem, hRest⟩
      · refine .inl ⟨hInit, fun e hMem hNumber => ?_⟩
        rcases mem_append.mp hMem with hMem | hMem
        · exact hNone e hMem hNumber
        · rw [mem_singleton.mp hMem] at hNumber ⊢
          exact fun hName => hRow ⟨hNumber, hName⟩
      · exact .inr ⟨e, mem_append_left _ hMem, hRest⟩

/-- The default of a parameter is the one that a row with its name has. -/
theorem defaultObject_num (hMem : e ∈ parameters) (hNumber : isNumber e = true)
    (hBit : e.configTypes.testBit t.code = true) : ∃ e' ∈ parameters, isNumber e' = true ∧
      e'.configEntryName = e.configEntryName ∧
      (defaultObject t).num e.configEntryName = storedDefault e' := by
  rcases num_foldl_default (defaultRows t)
    (if t = .sqlServer ∨ t = .repServer ∨ t = .fileServer ∨ t = .restore then
      initConfigObject globTable .client else .zero) e.configEntryName with
    ⟨-, hNone⟩ | ⟨e', hRow, h⟩
  · exact absurd rfl (hNone e (mem_defaultRows.mpr ⟨hMem, hBit⟩) hNumber)
  · exact ⟨e', (mem_defaultRows.mp hRow).1, h⟩

/-- No mandatory parameter is there from the start. -/
theorem defaultObject_bits (t : ConfigType) : (defaultObject t).num mandatoryBitsName = 0 := by
  have hRows : ∀ t conf, ((defaultRows t).foldl initConfigDefaultValue conf).num mandatoryBitsName =
      conf.num mandatoryBitsName := by
    intro t conf
    rcases num_foldl_default (defaultRows t) conf mandatoryBitsName with
      ⟨h, -⟩ | ⟨e, hRow, -, hName, -⟩
    · exact h
    · exact absurd hName (ne_mandatoryBitsName e (mem_defaultRows.mp hRow).1)
  have hObject : defaultObject t = (defaultRows t).foldl initConfigDefaultValue
      (if t = .sqlServer ∨ t = .repServer ∨ t = .fileServer ∨ t = .restore then
        initConfigObject globTable .client else .zero) := rfl
  have hClient : initConfigObject globTable .client =
      (defaultRows .client).foldl initConfigDefaultValue .zero := rfl
  rw [hObject, hRows, hClient]
  split_ifs
  · rw [hRows]
    rfl
  · rfl

/-! ## Keys -/

/-- The text gives a parameter a value. -/
def Gives (keys : List Key) (name : String) : Prop :=
  ∃ key ∈ keys, ∃ e, searchConfHash key.name = some e ∧ e.configEntryName = name

theorem setMandatory_of_ne (hName : name ≠ mandatoryBitsName) :
    nums.setMandatory e name = nums name := by
  unfold Nums.setMandatory
  cases mandatoryBit e with
  | none => rfl
  | some bit => exact if_neg hName

variable {key : Key} {bit : Nat}

/-- A key sets the member of its parameter, and no other than the mandatory bits. -/
theorem applyKey_of_ne (hName : name ≠ mandatoryBitsName)
    (h : ∀ e, searchConfHash key.name = some e → e.configEntryName = name →
      key.given env e = none) : applyKey env nums key name = nums name := by
  unfold applyKey
  cases hSearch : searchConfHash key.name with
  | none => rfl
  | some e =>
    show (nums.setMandatory e).setValue e (key.given env e) name = nums name
    unfold Nums.setValue
    cases hGiven : key.given env e with
    | none => exact setMandatory_of_ne hName
    | some value =>
      have hNe : name ≠ e.configEntryName := by
        intro hEq
        rw [h e hSearch hEq.symm] at hGiven
        cases hGiven
      exact (if_neg hNe).trans (setMandatory_of_ne hName)

theorem applyKey_of_given (hSearch : searchConfHash key.name = some e)
    (hGiven : key.given env e = some value) : applyKey env nums key e.configEntryName = value := by
  unfold applyKey
  rw [hSearch]
  show (nums.setMandatory e).setValue e (key.given env e) e.configEntryName = value
  rw [hGiven]
  exact if_pos rfl

/-- A member has the value of a key, or what it has had without one. -/
theorem foldl_applyKey (env : Env) (keys : List Key) (nums : Nums)
    (hName : name ≠ mandatoryBitsName) :
    keys.foldl (applyKey env) nums name = nums name ∧ (∀ key ∈ keys, ∀ e,
        searchConfHash key.name = some e → e.configEntryName = name → key.given env e = none) ∨
      ∃ key ∈ keys, ∃ e value, searchConfHash key.name = some e ∧ e.configEntryName = name ∧
        key.given env e = some value ∧ keys.foldl (applyKey env) nums name = value := by
  induction keys using List.reverseRecOn with
  | nil => exact .inl ⟨rfl, fun _ h => nomatch h⟩
  | append_singleton keys key ih =>
    rw [foldl_concat]
    by_cases hKey : ∃ e value, searchConfHash key.name = some e ∧ e.configEntryName = name ∧
        key.given env e = some value
    · rcases hKey with ⟨e, value, hSearch, rfl, hGiven⟩
      exact .inr ⟨key, by simp, e, value, hSearch, rfl, hGiven, applyKey_of_given hSearch hGiven⟩
    · have hNone : ∀ e, searchConfHash key.name = some e → e.configEntryName = name →
          key.given env e = none := by
        intro e hSearch hEq
        cases hGiven : key.given env e with
        | none => rfl
        | some value => exact absurd ⟨e, value, hSearch, hEq, hGiven⟩ hKey
      rw [applyKey_of_ne hName hNone]
      rcases ih with ⟨hSame, hAll⟩ | ⟨key', hMem, h⟩
      · refine .inl ⟨hSame, fun key' hMem => ?_⟩
        rcases mem_append.mp hMem with hMem | hMem
        · exact hAll key' hMem
        · rw [mem_singleton.mp hMem]
          exact hNone
      · exact .inr ⟨key', mem_append_left _ hMem, h⟩

/-! ## Mandatory parameters -/

theorem mandatoryBit_mem (h : mandatoryBit e = some bit) :
    (e.configEntryName, bit) ∈ mandatoryParameters := by
  rcases lookup_eq_some_iff.mp h with ⟨l₁, l₂, hList, -⟩
  rw [hList]
  simp

/-- Two parameters have one bit. -/
theorem mandatoryParameters_bits : ∀ p ∈ mandatoryParameters, p.2 < 64 ∧ (p.2 = 0 →
    p.1 = "node_id" ∨ p.1 = "data_server_checkpoint_path") ∧
      ∀ q ∈ mandatoryParameters, p.2 = q.2 → p.1 = q.1 ∨ p.2 = 0 := by
  decide

def HasBit (bits : UInt64) (bit : Nat) : Prop := bits.toNat.testBit bit = true

theorem hasBit_or {bits bits' : UInt64} :
    HasBit (bits ||| bits') bit ↔ HasBit bits bit ∨ HasBit bits' bit := by
  unfold HasBit
  rw [UInt64.toNat_or, Nat.testBit_or, Bool.or_eq_true]

theorem hasBit_bitMask {bit' : Nat} (hBit : bit < 64) : HasBit (bitMask bit) bit' ↔ bit' = bit := by
  have hNat : (bitMask bit).toNat = 2 ^ bit := by
    unfold bitMask
    rw [UInt64.toNat_shiftLeft, UInt64.toNat_ofNat', UInt64.toNat_one, Nat.shiftLeft_eq, one_mul]
    have hSmall : bit % 2 ^ 64 % 64 = bit := by omega
    rw [hSmall]
    exact Nat.mod_eq_of_lt (Nat.pow_lt_pow_right (by omega) hBit)
  unfold HasBit
  rw [hNat, Nat.testBit_two_pow, decide_eq_true_eq]
  exact eq_comm

/-- The bits of a kind are the ones of its mandatory parameters. -/
theorem hasBit_mandatoryBits (h : bit ∈ mandatoryOf t) : HasBit (mandatoryBits t) bit := by
  have hSmall : ∀ bit ∈ mandatoryOf t, bit < 64 := by
    intro bit hMem
    rcases mem_filterMap.mp hMem with ⟨e, -, hBit⟩
    exact (mandatoryParameters_bits _ (mandatoryBit_mem hBit)).1
  unfold mandatoryBits
  generalize mandatoryOf t = l at h hSmall
  induction l using List.reverseRecOn with
  | nil => cases h
  | append_singleton l b ih =>
    rw [foldl_concat, hasBit_or]
    rcases mem_append.mp h with h | h
    · exact .inl (ih h fun bit hMem => hSmall bit (mem_append_left _ hMem))
    · rw [mem_singleton.mp h, hasBit_bitMask (hSmall b (by simp))]
      exact .inr rfl

/-- A bit of a struct comes from a key with this bit. -/
theorem key_of_hasBit (h : HasBit (keys.foldl (applyKey env) nums mandatoryBitsName) bit)
    (hZero : nums mandatoryBitsName = 0) :
    ∃ key ∈ keys, ∃ e, searchConfHash key.name = some e ∧ mandatoryBit e = some bit := by
  induction keys using List.reverseRecOn with
  | nil =>
    have hBit : HasBit (nums mandatoryBitsName) bit := h
    rw [hZero] at hBit
    simp [HasBit] at hBit
  | append_singleton keys key ih =>
    rw [foldl_concat] at h
    by_cases hKey : ∃ e, searchConfHash key.name = some e ∧ mandatoryBit e = some bit
    · exact ⟨key, by simp, hKey⟩
    · have hBefore : HasBit (keys.foldl (applyKey env) nums mandatoryBitsName) bit := by
        generalize keys.foldl (applyKey env) nums = nums' at h ⊢
        unfold applyKey at h
        cases hSearch : searchConfHash key.name with
        | none => rwa [hSearch] at h
        | some e =>
          rw [hSearch] at h
          change HasBit
            ((nums'.setMandatory e).setValue e (key.given env e) mandatoryBitsName) bit at h
          have hName := ne_mandatoryBitsName e (mem_parameters_of_search hSearch).1
          have hValue : (nums'.setMandatory e).setValue e (key.given env e) mandatoryBitsName =
              nums'.setMandatory e mandatoryBitsName := by
            unfold Nums.setValue
            cases key.given env e with
            | none => rfl
            | some value => exact if_neg hName.symm
          rw [hValue] at h
          unfold Nums.setMandatory at h
          cases hBit : mandatoryBit e with
          | none => rwa [hBit] at h
          | some bit' =>
            rw [hBit] at h
            change HasBit (nums' mandatoryBitsName ||| bitMask bit') bit at h
            have hSmall := (mandatoryParameters_bits _ (mandatoryBit_mem hBit)).1
            rw [hasBit_or, hasBit_bitMask hSmall] at h
            rcases h with h | rfl
            · exact h
            · exact absurd ⟨e, hSearch, hBit⟩ hKey
      rcases ih hBefore with ⟨key', hMem, h⟩
      exact ⟨key', mem_append_left _ hMem, h⟩

/-- The end of a section asks for all mandatory parameters of its kind. -/
theorem hasBit_endBits (hKind : t ∈ sectionNames.map (·.2)) (hMem : e ∈ parameters)
    (hType : e.configTypes.testBit t.code = true) (hBit : mandatoryBit e = some bit) :
    HasBit (endBits t) bit := by
  have hOf : ∀ t', e.configTypes.testBit t'.code = true → bit ∈ mandatoryOf t' := fun t' hType =>
    mem_filterMap.mpr ⟨e, mem_filter.mpr ⟨hMem, hType⟩, hBit⟩
  have hProgram : (e.configTypes.testBit ConfigType.sqlServer.code = true ∨
      e.configTypes.testBit ConfigType.repServer.code = true ∨
      e.configTypes.testBit ConfigType.fileServer.code = true ∨
      e.configTypes.testBit ConfigType.restore.code = true) →
        HasBit (mandatoryBits .client) bit := by
    intro hProgram
    by_cases hClient : e.configTypes.testBit ConfigType.client.code = true
    · exact hasBit_mandatoryBits (hOf .client hClient)
    · rw [program_rows e hMem (by simpa using hClient) hProgram] at hBit
      cases hBit
  cases t with
  | dataServer => exact hasBit_mandatoryBits (hOf .dataServer hType)
  | client => exact hasBit_mandatoryBits (hOf .client hType)
  | comm => exact hasBit_mandatoryBits (hOf .comm hType)
  | sqlServer => exact hProgram (.inl hType)
  | repServer => exact hProgram (.inr (.inl hType))
  | fileServer => exact hProgram (.inr (.inr (.inl hType)))
  | restore => exact hProgram (.inr (.inr (.inr hType)))
  | _ => simp [sectionNames] at hKind

/-! ## Node ids -/

theorem nodeId_entry : ∃ e, searchConfHash nodeIdStr = some e ∧ e.configEntryName = "node_id" ∧
    e.isStringType = false ∧ e.minValue = some 1 ∧ e.maxValue = some 255 ∧
      e.configTypes = allNodeTypes := by
  rcases map_eq_some_iff.mp nodeId_row with ⟨e, hSearch, hRow⟩
  simp only [Prod.mk.injEq] at hRow
  exact ⟨e, hSearch, hRow⟩

/-- The parameter has no other name. -/
theorem name_of_nodeId {name : Bytes} (hSearch : searchConfHash name = some e)
    (hName : e.configEntryName = "node_id") : name = nodeIdStr := by
  have hMem := find?_some hSearch
  have hNdb : ndbNames.filter (·.2 = "node_id") = [] := by decide
  unfold namesOf at hMem
  rw [hName, if_neg (by decide), hNdb] at hMem
  have hEq : name = ascii "node_id" := by simpa using hMem
  exact hEq

/-- What a key with a node id says. -/
theorem nodeId_of_keyOk (hName : key.name = nodeIdStr) (h : KeyOk env t key) :
    t ≠ .comm ∧ ∃ e value, searchConfHash key.name = some e ∧ e.configEntryName = "node_id" ∧
      key.given env e = some value ∧ key.nodeId env = some value.toNat ∧
      1 ≤ value.toNat ∧ value.toNat ≤ 255 := by
  rcases nodeId_entry with ⟨e, hSearch, hEntry, hString, hMin, hMax, hTypes⟩
  rcases h with ⟨e', hSearch', hBit, hValue⟩
  rw [hName, hSearch] at hSearch'
  cases hSearch'
  rcases hValue hString with ⟨value, hNumber, hOk⟩
  have hBounds := Bool.and_eq_true_iff.mp (Bool.and_eq_true_iff.mp hOk.2).1
  rw [hMin, hMax] at hBounds
  have hLow : (1 : UInt64) ≤ value := by simpa using hBounds.1
  have hHigh : value ≤ 255 := by simpa using hBounds.2
  refine ⟨?_, e, value, by rw [hName, hSearch], hEntry, ?_, ?_, ?_, ?_⟩
  · rintro rfl
    rw [hTypes] at hBit
    revert hBit
    decide
  · unfold Key.given
    rw [hString]
    exact hNumber
  · unfold Key.nodeId
    rw [if_pos hName, hNumber]
    rfl
  · exact UInt64.le_iff_toNat_le.mp hLow
  · exact UInt64.le_iff_toNat_le.mp hHigh

theorem nodeId_of_ne (h : key.name ≠ nodeIdStr) : key.nodeId env = none := if_neg h

/-- The member has the last id that has been given. -/
theorem nodeId_foldl (h : ∀ key ∈ keys, KeyOk env t key) :
    (keys.foldl (applyKey env) nums "node_id").toNat =
      ((keys.filterMap (Key.nodeId env)).getLast?).getD (nums "node_id").toNat := by
  induction keys using List.reverseRecOn with
  | nil => rfl
  | append_singleton keys key ih =>
    rw [foldl_concat, filterMap_append]
    by_cases hName : key.name = nodeIdStr
    · rcases nodeId_of_keyOk hName (h key (by simp)) with
        ⟨-, e, value, hSearch, hEntry, hGiven, hId, -⟩
      rw [← hEntry, applyKey_of_given hSearch hGiven]
      simp [hId]
    · have hOther : ∀ e, searchConfHash key.name = some e → e.configEntryName = "node_id" →
          key.given env e = none := fun e hSearch hEntry =>
        absurd (name_of_nodeId hSearch hEntry) hName
      rw [applyKey_of_ne (by decide) hOther]
      simpa [nodeId_of_ne hName] using ih fun key hMem => h key (mem_append_left _ hMem)

/-- Each line with a node id gives one. -/
theorem length_ids (h : ∀ key ∈ doc.own (.struct k), KeyOk env t key) :
    (doc.ids env k).length = ((doc.own (.struct k)).filter (·.name = nodeIdStr)).length := by
  unfold Doc.ids
  rw [length_filterMap_eq_countP, ← countP_eq_length_filter]
  refine countP_congr fun key hMem => ?_
  by_cases hName : key.name = nodeIdStr
  · rcases nodeId_of_keyOk hName (h key hMem) with ⟨-, e, value, -, -, -, hId, -⟩
    simp [hName, hId]
  · simp [hName, nodeId_of_ne hName]

/-- An id of a section is one of its kind, within the bounds. -/
theorem ids_bounds {id : Nat} (h : ∀ key ∈ doc.own (.struct k), KeyOk env t key)
    (hId : id ∈ doc.ids env k) : t ≠ .comm ∧ 1 ≤ id ∧ id ≤ 255 := by
  rcases mem_filterMap.mp hId with ⟨key, hMem, hKey⟩
  by_cases hName : key.name = nodeIdStr
  · rcases nodeId_of_keyOk hName (h key hMem) with ⟨hType, e, value, -, -, -, hValue, hBounds⟩
    rw [hValue] at hKey
    cases hKey
    exact ⟨hType, hBounds⟩
  · rw [nodeId_of_ne hName] at hKey
    cases hKey

/-! ## Well-formed configurations -/

/-- A number that a parameter of this name takes. -/
def Declared (name : String) (value : UInt64) : Prop :=
  ∃ e ∈ parameters, isNumber e = true ∧ e.configEntryName = name ∧ ValueOk e value

/-- How many places have a node, among the first ones. -/
def countNodes {α : Type} (nodes : Nat → Option α) (slots : Nat) : Nat :=
  Nat.count (fun id => (nodes id).isSome) slots

/-- The configuration of these sections is well formed. -/
structure WellFormed (env : Env) (doc : Doc) (s : Load) : Prop where
  /-- each section of a node defines one node -/
  defines : ∀ k < doc.count, doc.type k ≠ .comm → ∃! id, s.nodeConfig id = some (.own (.struct k))
  /-- there are no nodes but those of the sections and of the grid -/
  own : ∀ id ptr, s.nodeConfig id = some (.own ptr) →
    ∃ k < doc.count, doc.type k ≠ .comm ∧ ptr = .struct k
  grid : ∀ id conf, s.nodeConfig id = some (.grid conf) ↔
    id ≤ env.grid.maxNodeId.toNat ∧ env.grid.nodeConfig id = some conf
  nodeId : ∀ id node, s.nodeConfig id = some node →
    1 ≤ id ∧ id ≤ 255 ∧ ((s.node node).num "node_id").toNat = id
  types : ∀ id k, s.nodeConfig id = some (.own (.struct k)) →
    (s.nodeTypes id).configType = doc.type k
  gridTypes : ∀ id conf, s.nodeConfig id = some (.grid conf) →
    s.nodeTypes id = env.grid.nodeTypes id
  numNodes : s.numNodes.toNat = countNodes s.nodeConfig s.nodeSlots
  values : ∀ k < doc.count, ∀ e ∈ parameters, isNumber e = true →
    e.configTypes.testBit (doc.type k).code = true →
      Declared e.configEntryName ((s.structs k).num e.configEntryName)
  mandatory : ∀ k < doc.count, ∀ e ∈ parameters, e.configTypes.testBit (doc.type k).code = true →
    mandatoryBit e ≠ none → Gives (doc.keysOf (.struct k)) e.configEntryName

/-- The configuration of the grid, which has been read before, is well formed. -/
structure GridOk (grid : Grid) : Prop where
  nodeId : ∀ id ≤ grid.maxNodeId.toNat, ∀ conf, grid.nodeConfig id = some conf →
    1 ≤ id ∧ id ≤ 255 ∧ (conf.num "node_id").toNat = id
  numNodes : grid.numNodes.toNat = countNodes grid.nodeConfig (grid.maxNodeId.toNat + 1)

/-- The text has what the reader does not ask for. -/
structure SectionsOk (doc : Doc) : Prop where
  /-- the node id is given in one line of the section itself -/
  nodeId : ∀ k < doc.count, doc.type k ≠ .comm →
    ((doc.own (.struct k)).filter (·.name = nodeIdStr)).length = 1
  /-- a data server has these parameters, from its section or from a default section -/
  path : ∀ k < doc.count, doc.type k = .dataServer →
    Gives (doc.keysOf (.struct k)) "data_server_checkpoint_path"
  memory : ∀ k < doc.count, doc.type k = .dataServer →
    Gives (doc.keysOf (.struct k)) "long_message_memory"

/-! ## The numbers of a section -/

theorem StructsOk.own_keys (h : StructsOk env doc s) (hk : k < doc.count) :
    ∀ key ∈ doc.own (.struct k), KeyOk env (doc.type k) key :=
  fun key hMem => h.keys (.struct k) hk key (mem_append_right _ hMem)

/-- A number has been checked, or it is a default that no line has touched. -/
theorem StructsOk.declared_or_default (h : StructsOk env doc s) (hk : k < doc.count)
    (hName : name ≠ mandatoryBitsName) :
    Declared name ((s.structs k).num name) ∨
      (∀ key ∈ doc.keysOf (.struct k), ∀ e, searchConfHash key.name = some e →
        e.configEntryName = name → e.isStringType = true) ∧
      (s.structs k).num name = (defaultObject (doc.type k)).num name := by
  have hNums : (s.structs k).num = doc.nums env (.struct k) := h.nums (.struct k) hk
  rw [hNums]
  have hKeys := h.keys (.struct k) hk
  rcases foldl_applyKey env (doc.keysOf (.struct k)) (defaultObject (doc.type k)).num hName with
    ⟨hDefault, hNone⟩ | ⟨key, hMem, e, value, hSearch, hEntry, hGiven, hValue⟩
  · refine .inr ⟨fun key hMem e hSearch hEntry => ?_, hDefault⟩
    by_contra hString
    rw [Bool.not_eq_true] at hString
    rcases hKeys key hMem with ⟨e', hSearch', -, hOk⟩
    cases hSearch.symm.trans hSearch'
    rcases hOk hString with ⟨value, hNumber, -⟩
    have hGiven := hNone key hMem e hSearch hEntry
    unfold Key.given at hGiven
    rw [hString, hNumber] at hGiven
    cases hGiven
  · refine .inl ?_
    have hString : e.isStringType = false := by
      by_contra hString
      rw [Bool.not_eq_false] at hString
      unfold Key.given at hGiven
      rw [if_pos hString] at hGiven
      cases hGiven
    rcases hKeys key hMem with ⟨e', hSearch', -, hOk⟩
    cases hSearch.symm.trans hSearch'
    rcases hOk hString with ⟨value', hNumber, hValueOk⟩
    unfold Key.given at hGiven
    rw [hString] at hGiven
    cases hNumber.symm.trans hGiven
    rcases mem_parameters_of_search hSearch with ⟨hParam, hEmpty⟩
    have hSame : doc.nums env (.struct k) name = value := hValue
    rw [hSame]
    have hNumber' := (isNumber_of_not_string e hParam hString).resolve_right hEmpty
    exact ⟨e, hParam, hNumber', hEntry, hValueOk⟩

/-- A parameter without a default of its own that a line has given. -/
theorem StructsOk.declared_of_gives (h : StructsOk env doc s) (hk : k < doc.count)
    (hName : name ∈ withoutDefault) (hGives : Gives (doc.keysOf (.struct k)) name) :
    Declared name ((s.structs k).num name) := by
  rcases hGives with ⟨key, hMem, e, hSearch, hEntry⟩
  have hParam := (mem_parameters_of_search hSearch).1
  rcases h.declared_or_default hk (hEntry ▸ ne_mandatoryBitsName e hParam) with hOk | ⟨hStrings, -⟩
  · exact hOk
  · have hString := hStrings key hMem e hSearch hEntry
    exact absurd (hEntry ▸ hName) (string_has_default e hParam hString)

/-- A parameter that takes its default. -/
theorem StructsOk.declared_of_default (h : StructsOk env doc s) (hk : k < doc.count)
    (hMem : e ∈ parameters) (hNumber : isNumber e = true)
    (hBit : e.configTypes.testBit (doc.type k).code = true)
    (hName : e.configEntryName ∉ withoutDefault) :
    Declared e.configEntryName ((s.structs k).num e.configEntryName) := by
  rcases h.declared_or_default hk (ne_mandatoryBitsName e hMem) with hOk | ⟨-, hDefault⟩
  · exact hOk
  · rcases defaultObject_num hMem hNumber hBit with ⟨e', hMem', hNumber', hEntry, hStored⟩
    rw [hDefault, hStored]
    rcases valueOk_storedDefault e' hMem' hNumber' with hOk | hWithout
    · exact ⟨e', hMem', hNumber', hEntry, hOk⟩
    · exact absurd (hEntry ▸ hWithout) hName

theorem memory_row : ∃ e ∈ parameters, e.configEntryName = "long_message_memory" ∧
    isNumber e = true ∧ e.configTypes.testBit ConfigType.dataServer.code = true := by
  have hRow : initConfigParameters[62]? = some (row 77 157 <|
      (ConfigEntry.setConfig .dataServer "long_message_memory" .uint32 0).minMax 524288
        4294967295) := rfl
  exact ⟨_, mem_map_of_mem (mem_of_getElem? hRow), rfl, rfl, by decide⟩

theorem path_row : ∃ e ∈ parameters, e.configEntryName = "data_server_checkpoint_path" ∧
    e.configTypes.testBit ConfigType.dataServer.code = true := by
  have hRow : initConfigParameters[63]? = some (row 78 158 <|
      ConfigEntry.setString .dataServer "data_server_checkpoint_path") := rfl
  exact ⟨_, mem_map_of_mem (mem_of_getElem? hRow), rfl, by decide⟩

/-- A data server without long_message_memory in its sections has a number that is too small. -/
theorem StructsOk.gives_memory (h : StructsOk env doc s) (hk : k < doc.count)
    (hType : doc.type k = .dataServer)
    (hOk : Declared "long_message_memory" ((s.structs k).num "long_message_memory")) :
    Gives (doc.keysOf (.struct k)) "long_message_memory" := by
  rcases memory_row with ⟨e₀, hMem, hName, hNumber, hBit⟩
  have hBits : "long_message_memory" ≠ mandatoryBitsName := hName ▸ ne_mandatoryBitsName e₀ hMem
  by_contra hNone
  -- no line has given it, so that the default is still there
  have hNums : (s.structs k).num = doc.nums env (.struct k) := h.nums (.struct k) hk
  have hValue : (s.structs k).num "long_message_memory" =
      (defaultObject .dataServer).num "long_message_memory" := by
    rw [hNums]
    rcases foldl_applyKey env (doc.keysOf (.struct k)) (defaultObject (doc.type k)).num hBits with
      ⟨hDefault, -⟩ | ⟨key, hKey, e, value, hSearch, hEntry, -⟩
    · rw [← hType]
      exact hDefault
    · exact absurd ⟨key, hKey, e, hSearch, hEntry⟩ hNone
  rcases defaultObject_num hMem hNumber hBit with ⟨e, hParam, -, hEntry, hStored⟩
  rw [hName] at hEntry hStored
  have hZero : (s.structs k).num "long_message_memory" = 0 := by
    rw [hValue, hStored]
    unfold storedDefault
    rw [(long_message_memory_row e hParam hEntry).1]
    cases e.dataType <;> rfl
  rcases hOk with ⟨e', hParam', -, hEntry', hValueOk⟩
  rw [hZero] at hValueOk
  have hMin := (Bool.and_eq_true_iff.mp (Bool.and_eq_true_iff.mp hValueOk.2).1).1
  rw [(long_message_memory_row e' hParam' hEntry').2] at hMin
  revert hMin
  decide

/-! ## The mandatory parameters of a section -/

theorem dataServer_of_row (hMem : e ∈ parameters) (hBit : e.configTypes.testBit t.code = true)
    (hName : e.configEntryName = "data_server_checkpoint_path" ∨
      e.configEntryName = "long_message_memory") : t = .dataServer := by
  by_contra hType
  have hRow : e.configTypes = ConfigType.dataServer.mask := by
    by_contra hTypes
    rcases data_server_rows e hMem hTypes with ⟨hPath, hMemory⟩
    rcases hName with hName | hName
    · exact hPath hName
    · exact hMemory hName
  rw [hRow] at hBit
  cases t with
  | dataServer => exact hType rfl
  | _ => revert hBit; decide

/-- The text gives a node its id. -/
theorem gives_nodeId (h : ((doc.own (.struct k)).filter (·.name = nodeIdStr)).length = 1) :
    Gives (doc.keysOf (.struct k)) "node_id" := by
  rcases length_eq_one_iff.mp h with ⟨key, hKey⟩
  have hMem : key ∈ (doc.own (.struct k)).filter (·.name = nodeIdStr) := by simp [hKey]
  rcases mem_filter.mp hMem with ⟨hOwn, hName⟩
  rcases nodeId_entry with ⟨e, hSearch, hEntry, -⟩
  refine ⟨key, mem_append_right _ hOwn, e, ?_, hEntry⟩
  rw [of_decide_eq_true hName]
  exact hSearch

/-- Behind the end of a section only the parameters with the bit 0 can be missing. -/
theorem StructsOk.gives_mandatory (h : StructsOk env doc s) (hk : k < doc.count)
    (hEnded : Ended doc s k) (hText : SectionsOk doc) (hMem : e ∈ parameters)
    (hBit : e.configTypes.testBit (doc.type k).code = true) (hMandatory : mandatoryBit e ≠ none) :
    Gives (doc.keysOf (.struct k)) e.configEntryName := by
  rcases ne_none_iff_exists'.mp hMandatory with ⟨bit, hOwn⟩
  have hHas : HasBit (doc.nums env (.struct k) mandatoryBitsName) bit := by
    rw [← h.nums (.struct k) hk, show s.nums (.struct k) mandatoryBitsName = _ from hEnded]
    exact hasBit_endBits (h.kinds k hk) hMem hBit hOwn
  rcases key_of_hasBit hHas (defaultObject_bits _) with ⟨key, hKey, e', hSearch, hBit'⟩
  rcases (mandatoryParameters_bits _ (mandatoryBit_mem hOwn)).2 with ⟨hZero, hSame⟩
  rcases hSame _ (mandatoryBit_mem hBit') rfl with hName | hName
  · exact ⟨key, hKey, e', hSearch, hName.symm⟩
  · change bit = 0 → e.configEntryName = "node_id" ∨
      e.configEntryName = "data_server_checkpoint_path" at hZero
    rcases hZero hName with hNode | hPath
    · rw [hNode]
      refine gives_nodeId (hText.nodeId k hk ?_)
      intro hComm
      rw [hComm] at hBit
      exact comm_rows e hMem hBit hNode
    · rw [hPath]
      exact hText.path k hk (dataServer_of_row hMem hBit (.inl hPath))

theorem StructsOk.values_declared (h : StructsOk env doc s) (hk : k < doc.count)
    (hEnded : Ended doc s k) (hText : SectionsOk doc) (hMem : e ∈ parameters)
    (hNumber : isNumber e = true) (hBit : e.configTypes.testBit (doc.type k).code = true) :
    Declared e.configEntryName ((s.structs k).num e.configEntryName) := by
  by_cases hName : e.configEntryName ∈ withoutDefault
  · refine h.declared_of_gives hk hName ?_
    by_cases hMemory : e.configEntryName = "long_message_memory"
    · rw [hMemory]
      exact hText.memory k hk (dataServer_of_row hMem hBit (.inr hMemory))
    · refine h.gives_mandatory hk hEnded hText hMem hBit ?_
      -- the others without a default are mandatory
      unfold mandatoryBit
      simp only [withoutDefault, mem_cons, not_mem_nil, or_false] at hName
      rcases hName with h | h | h | h | h | h
      · rw [h]
        decide
      · rw [h]
        decide
      · exact absurd h hMemory
      · rw [h]
        decide
      · rw [h]
        decide
      · rw [h]
        decide
  · exact h.declared_of_default hk hMem hNumber hBit hName

/-! ## Counting the nodes -/

variable {num : UInt32}

theorem countNodes_eq {α : Type} (nodes : Nat → Option α) (slots : Nat) :
    countNodes nodes slots = ((Finset.range slots).filter fun id => (nodes id).isSome).card :=
  Nat.count_eq_card_filter_range ..

/-- A section with one line for its node id has one id. -/
theorem StructsOk.ids_singleton (h : StructsOk env doc s) (hk : k < doc.count)
    (hLine : ((doc.own (.struct k)).filter (·.name = nodeIdStr)).length = 1) :
    ∃ id, doc.ids env k = [id] := by
  rw [← length_ids (h.own_keys hk)] at hLine
  exact length_eq_one_iff.mp hLine

/-- With one id for each section there are as many nodes as the grid and the sections have. -/
theorem DocInv.countNodes_eq (h : DocInv env num doc s)
    (hText : ∀ k < doc.count, doc.type k ≠ .comm → ∃ id, doc.ids env k = [id]) :
    countNodes s.nodeConfig s.nodeSlots =
      countNodes env.grid.nodeConfig (env.grid.maxNodeId.toNat + 1) + doc.numNodes := by
  -- the node of a section
  let idOf : Nat → Nat := fun k => (doc.ids env k).headD 0
  let own := (Finset.range doc.count).filter (doc.type · ≠ .comm)
  let grid := (Finset.range (env.grid.maxNodeId.toNat + 1)).filter
    fun id => (env.grid.nodeConfig id).isSome
  have hIds : ∀ k ∈ own, k < doc.count ∧ doc.ids env k = [idOf k] := by
    intro k hMem
    rcases Finset.mem_filter.mp hMem with ⟨hk, hType⟩
    rcases hText k (Finset.mem_range.mp hk) hType with ⟨id, hId⟩
    refine ⟨Finset.mem_range.mp hk, ?_⟩
    show doc.ids env k = [(doc.ids env k).headD 0]
    rw [hId]
    rfl
  have hConfig : ∀ k ∈ own, s.nodeConfig (idOf k) = some (.own (.struct k)) := by
    intro k hMem
    rcases hIds k hMem with ⟨hk, hId⟩
    exact (h.nodes.own _ _).mpr ⟨k, hk, rfl, by rw [hId]; exact mem_singleton_self _⟩
  have hInj : Set.InjOn idOf own := by
    intro k hk k' hk' hEq
    have hSame := hConfig k hk
    rw [hEq, hConfig k' hk'] at hSame
    cases hSame
    rfl
  have hDisjoint : Disjoint grid (own.image idOf) := by
    rw [Finset.disjoint_left]
    intro id hGrid hOwn
    rcases Finset.mem_filter.mp hGrid with ⟨hId, hSome⟩
    rcases isSome_iff_exists.mp hSome with ⟨conf, hConf⟩
    rcases Finset.mem_image.mp hOwn with ⟨k, hk, rfl⟩
    have hNode := (h.nodes.grid _ conf).mpr ⟨Nat.lt_succ_iff.mp (Finset.mem_range.mp hId), hConf⟩
    rw [hConfig k hk] at hNode
    cases hNode
  have hAll : (Finset.range s.nodeSlots).filter (fun id => (s.nodeConfig id).isSome) =
      grid ∪ own.image idOf := by
    ext id
    rw [Finset.mem_union, Finset.mem_filter, Finset.mem_filter, Finset.mem_image]
    constructor
    · rintro ⟨-, hSome⟩
      rcases isSome_iff_exists.mp hSome with ⟨node, hNode⟩
      cases node with
      | grid conf =>
        rcases (h.nodes.grid id conf).mp hNode with ⟨hId, hConf⟩
        refine .inl ⟨Finset.mem_range.mpr (Nat.lt_succ_of_le hId), ?_⟩
        rw [hConf]
        rfl
      | own ptr =>
        rcases (h.nodes.own id ptr).mp hNode with ⟨k, hk, rfl, hMem⟩
        have hType := (ids_bounds (h.structs.own_keys hk) hMem).1
        have hOwn : k ∈ own := Finset.mem_filter.mpr ⟨Finset.mem_range.mpr hk, hType⟩
        refine .inr ⟨k, hOwn, ?_⟩
        rw [(hIds k hOwn).2, mem_singleton] at hMem
        exact hMem.symm
    · rintro (⟨hId, hSome⟩ | ⟨k, hk, rfl⟩)
      · rcases isSome_iff_exists.mp hSome with ⟨conf, hConf⟩
        have hNode := (h.nodes.grid id conf).mpr
          ⟨Nat.lt_succ_iff.mp (Finset.mem_range.mp hId), hConf⟩
        have hSome : (s.nodeConfig id).isSome := by rw [hNode]; rfl
        exact ⟨Finset.mem_range.mpr (h.nodes.slots id hSome), hSome⟩
      · have hSome : (s.nodeConfig (idOf k)).isSome := by rw [hConfig k hk]; rfl
        exact ⟨Finset.mem_range.mpr (h.nodes.slots _ hSome), hSome⟩
  rw [ClusterReader.countNodes_eq, ClusterReader.countNodes_eq, hAll,
    Finset.card_union_of_disjoint hDisjoint, Finset.card_image_of_injOn hInj]
  unfold Doc.numNodes
  rw [Nat.count_eq_card_filter_range]

/-- Nodes with ids of eight bits are not more than 255. -/
theorem countNodes_le (h : ∀ id node, s.nodeConfig id = some node → 1 ≤ id ∧ id ≤ 255) :
    countNodes s.nodeConfig s.nodeSlots ≤ 255 := by
  rw [countNodes_eq]
  have hSub : (Finset.range s.nodeSlots).filter (fun id => (s.nodeConfig id).isSome) ⊆
      Finset.Icc 1 255 := by
    intro id hMem
    rcases isSome_iff_exists.mp (Finset.mem_filter.mp hMem).2 with ⟨node, hNode⟩
    exact Finset.mem_Icc.mpr (h id node hNode)
  exact (Finset.card_le_card hSub).trans (by simp)

/-- The counter is right exactly when the one of the grid is. -/
theorem DocInv.numNodes_iff (h : DocInv env (UInt32.ofNat doc.numNodes + env.grid.numNodes) doc s)
    (hText : ∀ k < doc.count, doc.type k ≠ .comm → ∃ id, doc.ids env k = [id])
    (hIds : ∀ id node, s.nodeConfig id = some node → 1 ≤ id ∧ id ≤ 255) :
    s.numNodes.toNat = countNodes s.nodeConfig s.nodeSlots ↔
      env.grid.numNodes.toNat = countNodes env.grid.nodeConfig (env.grid.maxNodeId.toNat + 1) := by
  have hCount := h.countNodes_eq hText
  have hSmall := countNodes_le hIds
  have hGrid := env.grid.numNodes.toNat_lt
  rw [h.numNodes, UInt32.toNat_add, UInt32.toNat_ofNat']
  omega

/-! ## Accepted configurations -/

/-- The kind of a section is the type of its node. -/
theorem configType_ofCode (hKind : t ∈ sectionNames.map (·.2)) (hType : t ≠ .comm) :
    ((NodeType.ofCode t.code).getD .notExist).configType = t := by
  cases t with
  | comm => exact absurd rfl hType
  | dataServer => rfl
  | client => rfl
  | sqlServer => rfl
  | repServer => rfl
  | fileServer => rfl
  | restore => rfl
  | _ => simp [sectionNames] at hKind

/-- The section of a node id, and the id in its struct. -/
theorem DocInv.own_node {id : Nat} {ptr : StructPtr} (h : DocInv env num doc s)
    (hNode : s.nodeConfig id = some (.own ptr)) : ∃ k < doc.count, doc.type k ≠ .comm ∧
      ptr = .struct k ∧ id ∈ doc.ids env k ∧ 1 ≤ id ∧ id ≤ 255 := by
  rcases (h.nodes.own id ptr).mp hNode with ⟨k, hk, hPtr, hMem⟩
  rcases ids_bounds (h.structs.own_keys hk) hMem with ⟨hType, hBounds⟩
  exact ⟨k, hk, hType, hPtr, hMem, hBounds⟩

/-- The struct of a section with one line for its node id has this id. -/
theorem StructsOk.nodeId_eq {id : Nat} (h : StructsOk env doc s) (hk : k < doc.count)
    (hId : doc.ids env k = [id]) : ((s.structs k).num "node_id").toNat = id := by
  have hNums : (s.structs k).num = doc.nums env (.struct k) := h.nums (.struct k) hk
  have hFilter : (doc.keysOf (.struct k)).filterMap (Key.nodeId env) =
      (doc.inherited k).filterMap (Key.nodeId env) ++ [id] := by
    rw [← hId]
    exact filterMap_append
  rw [hNums]
  unfold Doc.nums
  rw [nodeId_foldl (h.keys (.struct k) hk), hFilter]
  simp

/-- The nodes as they are when each section has one line for its node id. -/
theorem DocInv.nodeId_of_singleton (h : DocInv env num doc s) (hGrid : GridOk env.grid)
    (hText : ∀ k < doc.count, doc.type k ≠ .comm → ∃ id, doc.ids env k = [id]) (id : Nat)
    (node : NodePtr) (hNode : s.nodeConfig id = some node) :
    1 ≤ id ∧ id ≤ 255 ∧ ((s.node node).num "node_id").toNat = id := by
  cases node with
  | grid conf =>
    rcases (h.nodes.grid id conf).mp hNode with ⟨hId, hConf⟩
    exact hGrid.nodeId id hId conf hConf
  | own ptr =>
    rcases h.own_node hNode with ⟨k, hk, hType, rfl, hMem, hLow, hHigh⟩
    rcases hText k hk hType with ⟨id', hId⟩
    rw [hId, mem_singleton] at hMem
    subst hMem
    exact ⟨hLow, hHigh, h.structs.nodeId_eq hk hId⟩

/-- One node for a section is one id. -/
theorem DocInv.ids_of_defines (h : DocInv env num doc s) (hk : k < doc.count)
    (hOne : ∃! id, s.nodeConfig id = some (.own (.struct k))) : ∃ id, doc.ids env k = [id] := by
  have hMem : ∀ id, s.nodeConfig id = some (.own (.struct k)) ↔ id ∈ doc.ids env k := by
    intro id
    rw [h.nodes.own]
    constructor
    · rintro ⟨k', -, hEq, hId⟩
      cases hEq
      exact hId
    · exact fun hId => ⟨k, hk, rfl, hId⟩
  simp only [hMem] at hOne
  rcases hOne with ⟨id, hId, hUnique⟩
  have hNodup := h.nodes.nodup k hk
  generalize doc.ids env k = ids at hId hUnique hNodup
  cases ids with
  | nil => cases hId
  | cons a ids =>
    cases ids with
    | nil => exact ⟨a, rfl⟩
    | cons b ids =>
      have hEq : a = b := (hUnique a (by simp)).trans (hUnique b (by simp)).symm
      rw [hEq] at hNodup
      simp at hNodup

/-- A configuration that is accepted is well formed if and only if the one of the grid is, each
section of a node has its node id in one line of its own, and each data server has been given
data_server_checkpoint_path and long_message_memory. -/
theorem accepted_wellFormed_iff (env : Env) (file : ConfFile) (s : Load)
    (h : (configServerOps env).buildConfigData file.text {} = .ok () s) :
    WellFormed env file.sections s ↔ GridOk env.grid ∧ SectionsOk file.sections := by
  rcases returned_docInv h with ⟨hInv, hEnded⟩
  constructor
  · intro hWell
    have hText : ∀ k < file.sections.count, file.sections.type k ≠ .comm →
        ∃ id, file.sections.ids env k = [id] :=
      fun k hk hType => hInv.ids_of_defines hk (hWell.defines k hk hType)
    have hCounter := hInv.numNodes_iff hText fun id node hNode =>
      ⟨(hWell.nodeId id node hNode).1, (hWell.nodeId id node hNode).2.1⟩
    refine ⟨⟨fun id hId conf hConf => ?_, hCounter.mp hWell.numNodes⟩, ?_, ?_, ?_⟩
    · exact hWell.nodeId id (.grid conf) ((hWell.grid id conf).mpr ⟨hId, hConf⟩)
    · intro k hk hType
      rcases hText k hk hType with ⟨id, hIds⟩
      rw [← length_ids (hInv.structs.own_keys hk), hIds]
      rfl
    · intro k hk hType
      rcases path_row with ⟨e, hMem, hName, hBit⟩
      rw [← hName]
      refine hWell.mandatory k hk e hMem (by rwa [hType]) ?_
      unfold mandatoryBit
      rw [hName]
      decide
    · intro k hk hType
      rcases memory_row with ⟨e, hMem, hName, hNumber, hBit⟩
      have hValue := hWell.values k hk e hMem hNumber (by rwa [hType])
      rw [hName] at hValue
      exact hInv.structs.gives_memory hk hType hValue
  · rintro ⟨hGrid, hSections⟩
    have hText : ∀ k < file.sections.count, file.sections.type k ≠ .comm →
        ∃ id, file.sections.ids env k = [id] :=
      fun k hk hType => hInv.structs.ids_singleton hk (hSections.nodeId k hk hType)
    have hNodes := hInv.nodeId_of_singleton hGrid hText
    have hCounter := hInv.numNodes_iff hText fun id node hNode =>
      ⟨(hNodes id node hNode).1, (hNodes id node hNode).2.1⟩
    refine ⟨?_, ?_, hInv.nodes.grid, hNodes, ?_, hInv.nodes.gridTypes, hCounter.mpr hGrid.numNodes,
      ?_, ?_⟩
    · intro k hk hType
      rcases hText k hk hType with ⟨id, hIds⟩
      refine ⟨id, (hInv.nodes.own _ _).mpr ⟨k, hk, rfl, by rw [hIds]; simp⟩, fun id' hNode => ?_⟩
      rcases hInv.own_node hNode with ⟨k', -, -, hPtr, hMem, -⟩
      cases hPtr
      rw [hIds] at hMem
      exact List.mem_singleton.mp hMem
    · intro id ptr hNode
      rcases hInv.own_node hNode with ⟨k, hk, hType, hPtr, -⟩
      exact ⟨k, hk, hType, hPtr⟩
    · intro id k hNode
      rcases hInv.own_node hNode with ⟨k', hk, hType, hPtr, hMem, -⟩
      cases hPtr
      rw [hInv.nodes.types k hk id hMem]
      exact configType_ofCode (hInv.structs.kinds k hk) hType
    · exact fun k hk e hMem hNumber hBit =>
        hInv.structs.values_declared hk (hEnded k hk) hSections hMem hNumber hBit
    · exact fun k hk e hMem hBit hMandatory =>
        hInv.structs.gives_mandatory hk (hEnded k hk) hSections hMem hBit hMandatory

/-! ## Sections with their own ids, and one without -/

/-- The one node of a grid. -/
def serverConf : ConfObject :=
  (ConfObject.zero.setNum "node_id" 1).setStr "hostname" (some (CString.read (ascii "h1")))

/-- A grid with this node. -/
def serverGrid : Grid where
  maxNodeId := 1
  numNodes := 1
  nodeConfig := fun id => if id = 1 then some serverConf else none
  nodeTypes := fun id => if id = 1 then .clusterServer else .notExist
  nonempty := oneNodeGrid.nonempty
  typed := by
    intro id h
    by_cases hid : id = 1
    · simp [hid]
    · simp [hid] at h

def serverEnv : Env := { oneNodeEnv with grid := serverGrid }

/-- A cluster with two clients. -/
def clientFile : ConfFile :=
  ⟨ascii "[client]\nnode_id: 2\nhostname: h2\n[client]\nnode_id: 3\nhostname: h3\n",
    by decide +kernel⟩

/-- Its node id and its host come from a default section. -/
def defaultFile : ConfFile :=
  ⟨ascii "[client default]\nnode_id: 2\nhostname: h2\n[client]\n", by decide +kernel⟩

theorem mandatoryBits_client : mandatoryBits .client = 3 := by
  have hOf : mandatoryOf .client = [0, 1] := by decide +kernel
  unfold mandatoryBits
  rw [hOf]
  decide

theorem serverGrid_ok : GridOk serverGrid where
  nodeId id _ conf hConf := by
    change (if id = 1 then some serverConf else none) = some conf at hConf
    split_ifs at hConf with hId
    cases hConf
    subst hId
    decide
  numNodes := by decide

/-- What is read from the two texts, and what the sections of the first one are. -/
theorem samples_read :
    (((configServerOps serverEnv).buildConfigData clientFile.text {}).okWith
      fun _ => true) = true ∧
    (((configServerOps serverEnv).buildConfigData defaultFile.text {}).okWith
      fun s => s.numNodes.toNat ≠ countNodes s.nodeConfig s.nodeSlots) = true ∧
    clientFile.sections.count = 2 ∧ ∀ k < 2, clientFile.sections.type k = .client ∧
      ((clientFile.sections.own (.struct k)).filter (·.name = nodeIdStr)).length = 1 := by
  unfold configServerOps confServAddSection confServVerifyConf completeSection completeStruct
  simp only [mandatoryBits_client]
  refine ⟨?_, ?_, ?_⟩
  · decide +kernel
  · decide +kernel
  · decide +kernel

theorem clientFile_wellFormed : ∃ s,
    (configServerOps serverEnv).buildConfigData clientFile.text {} = .ok () s ∧
      WellFormed serverEnv clientFile.sections s := by
  rcases samples_read with ⟨hRead, -, hCount, hSections⟩
  rcases Outcome.exists_ok hRead with ⟨_, s, hOk, -⟩
  refine ⟨s, hOk,
    (accepted_wellFormed_iff serverEnv clientFile s hOk).mpr ⟨serverGrid_ok, ?_, ?_, ?_⟩⟩
  · intro k hk _
    rw [hCount] at hk
    exact (hSections k hk).2
  · intro k hk hServer
    rw [hCount] at hk
    rw [(hSections k hk).1] at hServer
    cases hServer
  · intro k hk hServer
    rw [hCount] at hk
    rw [(hSections k hk).1] at hServer
    cases hServer

/-- The client is counted, and its section is complete, but there is no node for it. -/
theorem default_nodeId_lost : ¬ ∀ s,
    (configServerOps serverEnv).buildConfigData defaultFile.text {} = .ok () s →
      WellFormed serverEnv defaultFile.sections s := by
  rcases samples_read with ⟨-, hRead, -⟩
  rcases Outcome.exists_ok hRead with ⟨_, s, hOk, hCount⟩
  intro h
  exact of_decide_eq_true hCount (h s hOk).numNodes

end IClaustron.Config.ClusterReader
