import IClaustron.Config.ClusterMemory

/-!
# Config.ClusterTwoPass — what the two readings ask of a line

* `addKey_ok`, `addSection_build` — what an operation has done when it goes through.
* `initBuild_ok` — what is done between the readings.
* `readings` — the two readings of a file, which begin with the same lines.
-/

namespace IClaustron.Config.ClusterReader

open Lib Lib.Attempt Protocol Option

variable {env : Env} {s s' : Load} {pass : Pass} {n : Nat} {name data : Bytes} {e : ConfigEntry}
  {t : ConfigType} {value : UInt64} {pre post items : List Item} {item : Item}

/-- A number that a parameter takes. -/
def ValueOk (e : ConfigEntry) (value : UInt64) : Prop :=
  (e.isBoolean = true → value ≤ 1) ∧ inBounds e value = true

/-! ## The parameters -/

/-- The numbers of the table have a type that can be assigned. -/
theorem assignNumber_isSome (h : searchConfHash name = some e) (hNumber : e.isStringType = false)
    (value : UInt64) (conf : ConfObject) : (assignNumber e value conf).isSome := by
  have hMem := List.mem_of_find?_eq_some h
  have hName := List.find?_some h
  have hTable : ∀ e ∈ initConfigParameters.map (·.entry), e.isStringType = false →
      e.configEntryName ≠ "" → e.dataType = .char ∨ e.dataType = .boolean ∨ e.dataType = .uint16 ∨
        e.dataType = .uint32 ∨ e.dataType = .uint64 := by
    decide +kernel
  have hNe : e.configEntryName ≠ "" := by
    intro hEmpty
    unfold namesOf at hName
    simp [hEmpty] at hName
  unfold assignNumber
  rcases hTable e hMem hNumber hNe with h | h | h | h | h <;> simp [h]

/-- A node id has 32 bits. -/
theorem searchConfHash_nodeId : (searchConfHash nodeIdStr).map (fun e => (e.isStringType, e.dataType)) =
    some (false, .uint32) := by
  decide +kernel

/-! ## Keys -/

/-- What a key goes through. -/
theorem addKey_ok (h : confServAddKey env pass n name data s = .ok () s') :
    s.currentNodeConfigType ≠ .noConfig ∧ ∃ e, searchConfHash name = some e ∧
      e.configTypes.testBit s.currentNodeConfigType.code = true ∧
      ∃ s₁, setMandatory pass e s = .ok () s₁ ∧
        (if e.isStringType then addString pass e data else addNumber env pass n name data e) s₁ =
          .ok () s' := by
  unfold confServAddKey at h
  split_ifs at h with hType
  cases hSearch : searchConfHash name with
  | none =>
    rw [hSearch] at h
    cases h
  | some e =>
    rw [hSearch] at h
    dsimp only at h
    by_cases hBit : e.configTypes.testBit s.currentNodeConfigType.code = false
    · rw [if_pos hBit] at h
      cases h
    · rw [if_neg hBit] at h
      rcases bind_eq_ok.mp h with ⟨_, s₁, hSet, hRest⟩
      exact ⟨hType, e, rfl, by simpa using hBit, s₁, hSet, hRest⟩

theorem checkBoolean_ok (h : checkBoolean e value s = .ok () s') :
    (e.isBoolean = true → value ≤ 1) ∧ s' = s := by
  unfold checkBoolean at h
  split_ifs at h with hBool
  · exact (throw_eq_ok.mp h).elim
  · exact ⟨fun hIs => UInt64.not_lt.mp fun hLt => hBool ⟨hIs, hLt⟩, (pure_eq_ok.mp h).2⟩

theorem checkBounds_ok (h : checkBounds e value s = .ok () s') :
    inBounds e value = true ∧ s' = s := by
  unfold checkBounds at h
  split_ifs at h with hBounds
  · exact ⟨hBounds, (pure_eq_ok.mp h).2⟩
  · exact (throw_eq_ok.mp h).elim

/-- What a number goes through. -/
theorem addNumber_ok (h : addNumber env pass n name data e s = .ok () s') :
    ∃ value, number env pass n data = some value ∧ ValueOk e value ∧
      ∃ s₁, addIfNodeId pass name value s = .ok () s₁ ∧
        assignCurrent pass e value s₁ = .ok () s' := by
  unfold addNumber at h
  cases hNumber : number env pass n data with
  | none =>
    rw [hNumber] at h
    exact (throw_eq_ok.mp h).elim
  | some value =>
    rw [hNumber] at h
    rcases bind_eq_ok.mp h with ⟨_, s₁, hFirst, hRest⟩
    rcases bind_eq_ok.mp hRest with ⟨_, s₂, hId, hRest'⟩
    rcases bind_eq_ok.mp hRest' with ⟨_, s₃, hCheck, hAssign⟩
    rcases checkBoolean_ok hFirst with ⟨hBool, rfl⟩
    rcases checkBounds_ok hCheck with ⟨hBounds, rfl⟩
    exact ⟨value, rfl, ⟨hBool, hBounds⟩, s₃, hId, hAssign⟩

/-! ## The first reading -/

theorem setMandatory_initial : setMandatory .initial e s = .ok () s := by
  unfold setMandatory
  cases mandatoryBit e <;> rfl

theorem completeSection_initial : completeSection env .initial s = .ok () s := by
  unfold completeSection
  simp

theorem addSection_initial : confServAddSection env .initial n name s =
    match sectionType name with
    | some t => .ok () (countSection t { s with defaultSection := false, currentNodeConfigType := t })
    | none =>
      match defaultSectionType name with
      | some t => .ok () { s with defaultSection := true, currentNodeConfig := some (.default t),
                                  currentNodeConfigType := t }
      | none => .error 7004 { s with defaultSection := true } := by
  unfold confServAddSection
  rw [bind_of_ok completeSection_initial]
  cases sectionType name with
  | some t => rfl
  | none => cases defaultSectionType name <;> rfl

theorem addNodeId_initial : addNodeId .initial value s =
    .ok () { s with maxNodeId := max value.toUInt32 s.maxNodeId } := by
  unfold addNodeId
  simp

/-- A key of the first reading is counted, and nothing else is done. -/
theorem addKey_initial (h : confServAddKey env .initial n name data s = .ok () s') :
    s'.numNodes = s.numNodes ∧ s'.numStructs = s.numStructs ∧ s'.nodeConfig = s.nodeConfig := by
  rcases addKey_ok h with ⟨-, e, -, -, s₁, hSet, hRest⟩
  rw [setMandatory_initial] at hSet
  cases hSet
  split_ifs at hRest
  · cases hRest
    exact ⟨rfl, rfl, rfl⟩
  · rcases addNumber_ok hRest with ⟨value, -, -, s₂, hId, hAssign⟩
    cases hAssign
    unfold addIfNodeId at hId
    split_ifs at hId
    · rw [addNodeId_initial] at hId
      cases hId
      exact ⟨rfl, rfl, rfl⟩
    · rw [(pure_eq_ok.mp hId).2]
      exact ⟨rfl, rfl, rfl⟩

/-! ## The second reading -/

/-- What a key leaves alone. -/
structure SameSection (s s' : Load) : Prop where
  type : s'.currentNodeConfigType = s.currentNodeConfigType
  current : s'.currentNodeConfig = s.currentNodeConfig
  isDefault : s'.defaultSection = s.defaultSection
  slots : s'.nodeSlots = s.nodeSlots

theorem SameSection.refl (s : Load) : SameSection s s := ⟨rfl, rfl, rfl, rfl⟩

theorem SameSection.trans {s₁ s₂ s₃ : Load} (h : SameSection s₁ s₂) (h' : SameSection s₂ s₃) :
    SameSection s₁ s₃ :=
  ⟨h'.type.trans h.type, h'.current.trans h.current, h'.isDefault.trans h.isDefault,
    h'.slots.trans h.slots⟩

theorem nodeConfig_assign (s : Load) (ptr : StructPtr) (conf : ConfObject) :
    (s.assign ptr conf).nodeConfig = s.nodeConfig := by
  cases ptr <;> rfl

variable {ptr : StructPtr}

theorem addNodeId_build (h : addNodeId .build value s = .ok () s') :
    (s.defaultSection = false → value.toNat < s.nodeSlots ∧ s.nodeConfig value.toNat = none) ∧
      s' = if s.defaultSection = false then
        { s with
          maxNodeId := max value.toUInt32 s.maxNodeId
          nodeConfig := Function.update s.nodeConfig value.toNat (s.currentNodeConfig.map .own)
          nodeTypes := Function.update s.nodeTypes value.toNat
            ((NodeType.ofCode s.currentNodeConfigType.code).getD .notExist) }
      else { s with maxNodeId := max value.toUInt32 s.maxNodeId } := by
  unfold addNodeId at h
  dsimp only at h
  by_cases hDefault : s.defaultSection = false
  · rw [if_pos ⟨hDefault, rfl⟩] at h
    rw [if_pos hDefault]
    split_ifs at h with hSlot hNode
    cases h
    exact ⟨fun _ => ⟨hSlot, by simpa using hNode⟩, rfl⟩
  · rw [if_neg (by simp [hDefault])] at h
    rw [if_neg hDefault]
    cases h
    exact ⟨fun h => absurd h hDefault, rfl⟩

theorem initNode_ok (h : initNode env t s = .ok () s') :
    s' = { s with
      currentNodeConfig := some (.struct s.numStructs)
      structMemory := { s.structMemory with used := s.structMemory.used + env.sizeOf t }
      structs := Function.update s.structs s.numStructs (s.defaults t)
      numStructs := s.numStructs + 1 } := by
  unfold initNode at h
  split_ifs at h
  cases h
  rfl

/-- The state at the start of a section. -/
def openSection (t : ConfigType) (isDefault : Bool) (s : Load) : Load :=
  { s with defaultSection := isDefault, currentNodeConfigType := t }

/-- A section of the second reading: the one in front of it is ended, and a struct is taken for it. -/
theorem addSection_build (h : confServAddSection env .build n name s = .ok () s') :
    ∃ s₁, completeSection env .build s = .ok () s₁ ∧
      ((∃ t, sectionType name = some t ∧ initNode env t (openSection t false s₁) = .ok () s') ∨
        (sectionType name = none ∧ ∃ t, defaultSectionType name = some t ∧
          s' = { openSection t true s₁ with currentNodeConfig := some (.default t) })) := by
  unfold confServAddSection at h
  rcases bind_eq_ok.mp h with ⟨_, s₁, hComplete, hOpen⟩
  refine ⟨s₁, hComplete, ?_⟩
  cases hType : sectionType name with
  | some t =>
    rw [hType] at hOpen
    exact .inl ⟨t, rfl, hOpen⟩
  | none =>
    rw [hType] at hOpen
    cases hDefault : defaultSectionType name with
    | some t =>
      rw [hDefault] at hOpen
      cases hOpen
      exact .inr ⟨rfl, t, rfl, rfl⟩
    | none =>
      rw [hDefault] at hOpen
      cases hOpen

/-! ## Both readings -/

theorem takeMemory_ok {use : MemoryUse} (h : takeMemory env use s = .ok () s') : s' = s := by
  unfold takeMemory at h
  split_ifs at h
  cases h
  rfl

/-- The state between the readings. -/
def built (env : Env) (s : Load) : Load :=
  copyGrid env (sizeMemory env { s with maxNodeId := max s.maxNodeId env.grid.maxNodeId })

theorem toNat_max (a b : UInt32) : (max a b).toNat = max a.toNat b.toNat := by
  show (if a ≤ b then b else a).toNat = _
  rw [max_def]
  simp only [UInt32.le_iff_toNat_le]
  split_ifs <;> rfl

theorem initBuild_ok (h : initBuild env s = .ok () s') : s' = built env s := by
  unfold initBuild at h
  rcases bind_eq_ok.mp h with ⟨_, s₁, hMax, h⟩
  cases hMax
  rcases bind_eq_ok.mp h with ⟨_, s₂, hCheck, h⟩
  unfold checkNodes at hCheck
  split_ifs at hCheck
  cases hCheck
  rcases bind_eq_ok.mp h with ⟨_, s₃, hSize, h⟩
  cases hSize
  rcases bind_eq_ok.mp h with ⟨_, s₄, h₁, h⟩
  rcases bind_eq_ok.mp h with ⟨_, s₅, h₂, h⟩
  rcases bind_eq_ok.mp h with ⟨_, s₆, h₃, h⟩
  rcases bind_eq_ok.mp h with ⟨_, s₇, h₄, h⟩
  rcases bind_eq_ok.mp h with ⟨_, s₈, h₅, h⟩
  cases takeMemory_ok h₁
  cases takeMemory_ok h₂
  cases takeMemory_ok h₃
  cases takeMemory_ok h₄
  cases takeMemory_ok h₅
  cases h
  rfl

/-- A configuration file; its length has 32 bits. -/
structure ConfFile where
  text : Bytes
  length_lt : text.length < 2 ^ 32

/-- The lines of a file. -/
def ConfFile.lines (file : ConfFile) : List (Except Nat Item) :=
  (readLines file.text.length file.text).1

/-- The state in which the first reading begins. -/
def started : Load := { created := true }

/-- A state that the first reading reaches behind the lines `pre`. -/
def FirstRun (env : Env) (pre : List Item) (s : Load) : Prop :=
  (configServerOps env).addLines .initial 1 (pre.map .ok) started = .ok () s

/-- What `ic_build_config_data` does after the first part of `conf_serv_init`. -/
def readings (env : Env) (file : ConfFile) : Attempt Load ConfigError Unit := do
  let second := readLines file.text.length (readLines file.text.length file.text).2
  (configServerOps env).addLines .initial 1 file.lines
  ((configServerOps env).configInit .build).mapError (⟨·, 1⟩)
  (configServerOps env).addLines .build 1 second.1
  ((configServerOps env).configVerify .build second.1.length).mapError (⟨·, second.1.length + 1⟩)

theorem second_lines {file : ConfFile} (h : file.lines = items.map .ok) :
    (readLines file.text.length (readLines file.text.length file.text).2).1 = items.map .ok := by
  rw [readLines_again le_rfl]
  · exact h
  · intro line hLine
    change line ∈ file.lines at hLine
    rw [h] at hLine
    rcases List.mem_map.mp hLine with ⟨item, -, rfl⟩
    exact ⟨item, rfl⟩

/-- What `ic_build_config_data` calls, one after the other. -/
theorem buildConfigData_eq {file : ConfFile} (hText : file.text ≠ []) :
    (configServerOps env).buildConfigData file.text =
      Attempt.onError ((initInitial env).mapError (⟨·, 1⟩) >>= fun _ => readings env file)
        confServEnd := by
  unfold ConfigOperations.buildConfigData
  rw [if_neg hText]
  rfl

/-- A grid with one node, a cluster server. -/
def oneNodeGrid : Grid where
  maxNodeId := 1
  numNodes := 1
  nodeConfig := fun id => if id = 1 then some .zero else none
  nodeTypes := fun id => if id = 1 then .clusterServer else .notExist
  nonempty := by decide
  typed := by
    intro id h
    by_cases hid : id = 1
    · simp [hid]
    · simp [hid] at h

/-- An environment with all memory that is asked for. -/
def oneNodeEnv : Env where
  grid := oneNodeGrid
  clusterName := CString.read (ascii "c1")
  sizeOf := fun _ => 1024
  memory := fun _ => true
  stale := fun _ _ => 0

end IClaustron.Config.ClusterReader
