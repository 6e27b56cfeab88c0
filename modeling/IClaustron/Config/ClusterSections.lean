import IClaustron.Config.ClusterTwoPass
import Mathlib.Data.Nat.Count

/-!
# Config.ClusterSections — the sections of a text, and the structs that are filled from them

The text of a cluster is a list of sections, each with the keys of the default sections in
front of it and with keys of its own. The second reading fills one struct for each of them.

* `Doc`, `sections` — the sections of a text, with nothing of the reader but its names.
* `DocInv` — behind these lines the structs, the nodes and the counters are the ones of the
  sections; `docInv_item` is its step, `returned_docInv` its run.
* `Doc.nums` — the numbers of a struct: its defaults, with the keys of its section put over them.
-/

namespace IClaustron.Config.ClusterReader

open Lib Lib.Attempt Protocol List Function

variable {env : Env} {s s' s₁ : Load} {n : Nat} {name data : Bytes} {e : ConfigEntry}
  {t : ConfigType} {ptr : StructPtr} {value : UInt64} {pre items : List Item}

/-! ## What a text says -/

/-- A key with the number of its line. -/
structure Key where
  line : Nat
  name : Bytes
  data : Bytes

/-- The sections of a text. Those with a struct are numbered; `inherited` are the keys that the
default sections in front of a section have given, `own` the keys of a section, or of all default
sections of one kind. -/
structure Doc where
  current : Option StructPtr := none
  count : Nat := 0
  type : Nat → ConfigType := fun _ => .noConfig
  inherited : Nat → List Key := fun _ => []
  own : StructPtr → List Key := fun _ => []

namespace Doc

variable (doc : Doc)

/-- A new section. -/
def openSection (t : ConfigType) : Doc where
  current := some (.struct doc.count)
  count := doc.count + 1
  type := update doc.type doc.count t
  inherited := update doc.inherited doc.count (doc.own (.default t))
  own := update doc.own (.struct doc.count) []

/-- A key belongs to the section that stands open. -/
def addKey (key : Key) : Doc :=
  match doc.current with
  | some ptr => { doc with own := update doc.own ptr (doc.own ptr ++ [key]) }
  | none => doc

/-- A line of the text. -/
def addItem (line : Nat) : Item → Doc
  | .section name =>
    match sectionType name with
    | some t => doc.openSection t
    | none =>
      match defaultSectionType name with
      | some t => { doc with current := some (.default t) }
      | none => doc
  | .key name data => doc.addKey ⟨line, name, data⟩
  | _ => doc

/-- The kind of a section. -/
def typeOf : StructPtr → ConfigType
  | .default t => t
  | .struct k => doc.type k

/-- The keys that go into a struct. -/
def keysOf : StructPtr → List Key
  | .default t => doc.own (.default t)
  | .struct k => doc.inherited k ++ doc.own (.struct k)

/-- The section is there. -/
def Valid : StructPtr → Prop
  | .default _ => True
  | .struct k => k < doc.count

end Doc

/-- The sections of a text. -/
def sections (items : List Item) : Doc :=
  (items.zipIdx 1).foldl (fun doc line => doc.addItem line.2 line.1) {}

theorem sections_concat (pre : List Item) (item : Item) :
    sections (pre ++ [item]) = (sections pre).addItem (pre.length + 1) item := by
  unfold sections
  rw [zipIdx_append, foldl_append, Nat.add_comm 1]
  rfl

/-- The node id that a key gives. -/
def Key.nodeId (env : Env) (key : Key) : Option Nat :=
  if key.name = nodeIdStr then (number env .build key.line key.data).map (·.toNat) else none

/-- The node ids of a section. -/
def Doc.ids (env : Env) (doc : Doc) (k : Nat) : List Nat :=
  (doc.own (.struct k)).filterMap (Key.nodeId env)

/-! ## The numbers of a struct -/

abbrev Nums := String → UInt64

def Nums.set (nums : Nums) (name : String) (value : UInt64) : Nums :=
  fun n => if n = name then value else nums n

/-- The mandatory bit of a parameter. -/
def Nums.setMandatory (nums : Nums) (e : ConfigEntry) : Nums :=
  match mandatoryBit e with
  | some bit => nums.set mandatoryBitsName (nums mandatoryBitsName ||| bitMask bit)
  | none => nums

/-- The number of a parameter. -/
def Nums.setValue (nums : Nums) (e : ConfigEntry) (value : Option UInt64) : Nums :=
  match value with
  | some value => nums.set e.configEntryName value
  | none => nums

/-- The value that a key gives its parameter. -/
def Key.given (env : Env) (e : ConfigEntry) (key : Key) : Option UInt64 :=
  if e.isStringType then none else number env .build key.line key.data

/-- What a key does to the numbers of its struct. -/
def applyKey (env : Env) (nums : Nums) (key : Key) : Nums :=
  match searchConfHash key.name with
  | some e => (nums.setMandatory e).setValue e (key.given env e)
  | none => nums

/-- The numbers of a struct, as the text has them. -/
def Doc.nums (env : Env) (doc : Doc) (ptr : StructPtr) : Nums :=
  (doc.keysOf ptr).foldl (applyKey env) (defaultObject (doc.typeOf ptr)).num

/-- The numbers of a struct, as they stand in memory. -/
def Load.nums (s : Load) (ptr : StructPtr) : Nums := (s.deref ptr).num

/-- A key with a parameter of its section and a value that this takes. -/
def KeyOk (env : Env) (t : ConfigType) (key : Key) : Prop :=
  ∃ e, searchConfHash key.name = some e ∧ e.configTypes.testBit t.code = true ∧
    (e.isStringType = false →
      ∃ value, number env .build key.line key.data = some value ∧ ValueOk e value)

theorem Load.deref_assign_of_ne {ptr' : StructPtr} (s : Load) (hPtr : ptr' ≠ ptr)
    (conf : ConfObject) : (s.assign ptr conf).deref ptr' = s.deref ptr' := by
  cases ptr with
  | default t =>
    cases ptr' with
    | default t' =>
      have hNe : t' ≠ t := fun h => hPtr (by rw [h])
      show update s.defaults t conf t' = s.defaults t'
      exact update_of_ne hNe conf s.defaults
    | struct k => rfl
  | struct k =>
    cases ptr' with
    | default t => rfl
    | struct k' =>
      have hNe : k' ≠ k := fun h => hPtr (by rw [h])
      show update s.structs k conf k' = s.structs k'
      exact update_of_ne hNe conf s.structs

theorem Load.nums_assign (s : Load) (ptr : StructPtr) (conf : ConfObject) :
    (s.assign ptr conf).nums = update s.nums ptr conf.num := by
  funext ptr'
  unfold Load.nums
  by_cases hPtr : ptr' = ptr
  · subst hPtr
    rw [update_self, Load.deref_assign]
  · rw [update_of_ne hPtr, Load.deref_assign_of_ne s hPtr]

theorem stable_nums (Q : (StructPtr → Nums) → Prop) : Stable fun s => Q s.nums where
  assign s ptr conf hNum hs := by
    show Q (s.assign ptr conf).nums
    have hSame : update s.nums ptr conf.num = s.nums := by
      rw [hNum]
      exact update_eq_self ptr s.nums
    rwa [Load.nums_assign, hSame]
  comm _ _ _ hs := hs

theorem nums_completeSection (h : completeSection env .build s = .ok () s') : s'.nums = s.nums := by
  have hKeeps : Keeps (fun s' : Load => s'.nums = s.nums) (completeSection env .build) :=
    keeps_completeSection (stable_nums (· = s.nums))
  have hAfter := hKeeps s rfl
  rw [h] at hAfter
  exact hAfter

/-! ## A key of the second reading -/

/-- A value that is within the type of its parameter is stored as it is. -/
theorem assignNumber_eq (hSearch : searchConfHash name = some e) (hNumber : e.isStringType = false)
    (hOk : ValueOk e value) (conf : ConfObject) :
    assignNumber e value conf = some (conf.setNum e.configEntryName value) := by
  have hType := assignNumber_isSome hSearch hNumber value conf
  have hBounds := (Bool.and_eq_true_iff.mp hOk.2).2
  unfold assignNumber at hType ⊢
  cases hData : e.dataType with
  | char =>
    have hLe : value.toNat ≤ 255 := by simpa [hData, UInt64.le_iff_toNat_le] using hBounds
    have hSame : value.toUInt8.toUInt64 = value := UInt64.toNat_inj.mp (by simp; omega)
    simp only [hSame]
  | boolean =>
    have hLe : value.toNat ≤ 1 := by simpa [hData, UInt64.le_iff_toNat_le] using hBounds
    have hSame : value.toUInt8.toUInt64 = value := UInt64.toNat_inj.mp (by simp; omega)
    simp only [hSame]
  | uint16 =>
    have hLe : value.toNat ≤ 65535 := by simpa [hData, UInt64.le_iff_toNat_le] using hBounds
    have hSame : value.toUInt16.toUInt64 = value := UInt64.toNat_inj.mp (by simp; omega)
    simp only [hSame]
  | uint32 =>
    have hLt : value < 2 ^ 32 := by simpa [hData] using hBounds
    have hLt : value.toNat < 2 ^ 32 := UInt64.lt_iff_toNat_lt.mp hLt
    have hSame : value.toUInt32.toUInt64 = value := UInt64.toNat_inj.mp (by simp; omega)
    simp only [hSame]
  | uint64 => rfl
  | _ => simp [hData] at hType

/-- What a key leaves alone, the counters with it. -/
structure SameRest (s s' : Load) : Prop extends SameSection s s' where
  numStructs : s'.numStructs = s.numStructs
  numNodes : s'.numNodes = s.numNodes

theorem SameRest.refl (s : Load) : SameRest s s := ⟨.refl s, rfl, rfl⟩

theorem SameRest.trans {s₂ : Load} (h : SameRest s s₁) (h' : SameRest s₁ s₂) : SameRest s s₂ :=
  ⟨h.toSameSection.trans h'.toSameSection, h'.numStructs.trans h.numStructs,
    h'.numNodes.trans h.numNodes⟩

theorem sameRest_assign (s : Load) (ptr : StructPtr) (conf : ConfObject) :
    SameRest s (s.assign ptr conf) := by
  cases ptr <;> exact ⟨⟨rfl, rfl, rfl, rfl⟩, rfl, rfl⟩

theorem nodeTypes_assign (s : Load) (ptr : StructPtr) (conf : ConfObject) :
    (s.assign ptr conf).nodeTypes = s.nodeTypes := by
  cases ptr <;> rfl

/-- What a key does to the nodes: an id in a section of its own registers the node of the section,
when there is none with this id. -/
def Registers (id : Option Nat) (s s' : Load) : Prop :=
  match id with
  | some id => id < s.nodeSlots ∧ s.nodeConfig id = none ∧
      s'.nodeConfig = update s.nodeConfig id (s.currentNodeConfig.map .own) ∧
      s'.nodeTypes = update s.nodeTypes id
        ((NodeType.ofCode s.currentNodeConfigType.code).getD .notExist)
  | none => s'.nodeConfig = s.nodeConfig ∧ s'.nodeTypes = s.nodeTypes

/-- The bits of the mandatory parameters are in the struct. -/
theorem setMandatory_step (hPtr : s.currentNodeConfig = some ptr)
    (h : setMandatory .build e s = .ok () s') :
    SameRest s s' ∧ s'.nodeConfig = s.nodeConfig ∧ s'.nodeTypes = s.nodeTypes ∧
      s'.nums = update s.nums ptr ((s.nums ptr).setMandatory e) := by
  unfold setMandatory at h
  unfold Nums.setMandatory
  cases hBit : mandatoryBit e with
  | none =>
    rw [hBit] at h
    cases h
    exact ⟨.refl s, rfl, rfl, (update_eq_self ptr s.nums).symm⟩
  | some bit =>
    rw [hBit] at h
    dsimp only at h
    rw [hPtr] at h
    cases h
    exact ⟨sameRest_assign .., nodeConfig_assign .., nodeTypes_assign .., Load.nums_assign ..⟩

/-- A string leaves the numbers alone. -/
theorem addString_step (hPtr : s.currentNodeConfig = some ptr)
    (h : addString .build e data s = .ok () s') :
    SameRest s s' ∧ s'.nodeConfig = s.nodeConfig ∧ s'.nodeTypes = s.nodeTypes ∧
      s'.nums = s.nums := by
  unfold addString at h
  dsimp only at h
  split_ifs at h
  rw [hPtr] at h
  cases h
  have hRest := sameRest_assign s ptr
    ((s.deref ptr).setStr e.configEntryName (some (CString.read data)))
  have hNums := Load.nums_assign s ptr
    ((s.deref ptr).setStr e.configEntryName (some (CString.read data)))
  refine ⟨⟨⟨hRest.type, hRest.current, hRest.isDefault, hRest.slots⟩, hRest.numStructs,
    hRest.numNodes⟩, nodeConfig_assign .., nodeTypes_assign .., ?_⟩
  exact hNums.trans (update_eq_self ptr s.nums)

theorem addIfNodeId_step (h : addIfNodeId .build name value s = .ok () s') :
    SameRest s s' ∧ s'.nums = s.nums ∧
      Registers (if name = nodeIdStr ∧ s.defaultSection = false then some value.toNat else none)
        s s' := by
  unfold addIfNodeId at h
  by_cases hName : name = nodeIdStr
  · rw [if_pos hName] at h
    have h := addNodeId_build h
    by_cases hDefault : s.defaultSection = false
    · rw [if_pos hDefault] at h
      rw [if_pos ⟨hName, hDefault⟩]
      rcases h with ⟨hFree, rfl⟩
      exact ⟨⟨⟨rfl, rfl, rfl, rfl⟩, rfl, rfl⟩, rfl, (hFree hDefault).1, (hFree hDefault).2, rfl,
        rfl⟩
    · rw [if_neg hDefault] at h
      rw [if_neg (fun h => hDefault h.2)]
      rcases h with ⟨-, rfl⟩
      exact ⟨⟨⟨rfl, rfl, rfl, rfl⟩, rfl, rfl⟩, rfl, rfl, rfl⟩
  · rw [if_neg hName] at h
    rw [if_neg (fun h => hName h.1), (pure_eq_ok.mp h).2]
    exact ⟨.refl s, rfl, rfl, rfl⟩

/-- A number is in the struct. -/
theorem assignCurrent_step (hPtr : s.currentNodeConfig = some ptr)
    (hSearch : searchConfHash name = some e) (hNumber : e.isStringType = false)
    (hOk : ValueOk e value) (h : assignCurrent .build e value s = .ok () s') :
    SameRest s s' ∧ s'.nodeConfig = s.nodeConfig ∧ s'.nodeTypes = s.nodeTypes ∧
      s'.nums = update s.nums ptr ((s.nums ptr).set e.configEntryName value) := by
  unfold assignCurrent at h
  dsimp only at h
  rw [hPtr] at h
  dsimp only at h
  rw [assignNumber_eq hSearch hNumber hOk] at h
  cases h
  exact ⟨sameRest_assign .., nodeConfig_assign .., nodeTypes_assign .., Load.nums_assign ..⟩

/-- The node id that a line with a key registers. -/
def registered (env : Env) (s : Load) (key : Key) : Option Nat :=
  if s.defaultSection = false then key.nodeId env else none

theorem name_ne_nodeId (hSearch : searchConfHash name = some e) (hString : e.isStringType = true) :
    name ≠ nodeIdStr := by
  rintro rfl
  have hId := searchConfHash_nodeId
  rw [hSearch] at hId
  simp [hString] at hId

theorem registered_of_ne {key : Key} (h : key.name ≠ nodeIdStr) : registered env s key = none := by
  unfold registered Key.nodeId
  rw [if_neg h, ite_self]

/-- A number goes to the nodes first, when it is a node id, and then to its struct. -/
theorem addNumber_step (hPtr : s.currentNodeConfig = some ptr)
    (hSearch : searchConfHash name = some e) (hNumber : e.isStringType = false)
    (h : addNumber env .build n name data e s = .ok () s') :
    (∃ value, number env .build n data = some value ∧ ValueOk e value) ∧ SameRest s s' ∧
      Registers (registered env s ⟨n, name, data⟩) s s' ∧
      s'.nums = update s.nums ptr
        ((s.nums ptr).setValue e (Key.given env e ⟨n, name, data⟩)) := by
  rcases addNumber_ok h with ⟨value, hValue, hOk, s₁, hId, hLast⟩
  rcases addIfNodeId_step hId with ⟨hRest₁, hNums₁, hReg⟩
  rcases assignCurrent_step (hRest₁.current.trans hPtr) hSearch hNumber hOk hLast with
    ⟨hRest₂, hNode₂, hTypes₂, hNums₂⟩
  have hRegistered : registered env s ⟨n, name, data⟩ =
      if name = nodeIdStr ∧ s.defaultSection = false then some value.toNat else none := by
    unfold registered Key.nodeId
    rw [hValue]
    by_cases hDefault : s.defaultSection = false <;> by_cases hName : name = nodeIdStr <;>
      simp [hDefault, hName]
  have hGiven : Key.given env e ⟨n, name, data⟩ = some value := by
    unfold Key.given
    rw [hNumber]
    exact hValue
  refine ⟨⟨value, hValue, hOk⟩, hRest₁.trans hRest₂, ?_, ?_⟩
  · rw [hRegistered]
    split_ifs at hReg ⊢
    · exact ⟨hReg.1, hReg.2.1, hNode₂.trans hReg.2.2.1, hTypes₂.trans hReg.2.2.2⟩
    · exact ⟨hNode₂.trans hReg.1, hTypes₂.trans hReg.2⟩
  · rw [hNums₂, hNums₁, hGiven]
    rfl

/-- The one thing that a key does to the structs, and the one thing that it does to the nodes. -/
theorem addKey_step (hPtr : s.currentNodeConfig = some ptr)
    (h : confServAddKey env .build n name data s = .ok () s') :
    KeyOk env s.currentNodeConfigType ⟨n, name, data⟩ ∧ SameRest s s' ∧
      Registers (registered env s ⟨n, name, data⟩) s s' ∧
      s'.nums = update s.nums ptr (applyKey env (s.nums ptr) ⟨n, name, data⟩) := by
  rcases addKey_ok h with ⟨-, e, hSearch, hBit, s₁, hSet, hRest⟩
  rcases setMandatory_step hPtr hSet with ⟨hRest₁, hNode₁, hTypes₁, hNums₁⟩
  have hApply : applyKey env (s.nums ptr) ⟨n, name, data⟩ =
      ((s.nums ptr).setMandatory e).setValue e (Key.given env e ⟨n, name, data⟩) := by
    unfold applyKey
    rw [hSearch]
  have hPtr₁ := hRest₁.current.trans hPtr
  by_cases hString : e.isStringType = true
  · rw [if_pos hString] at hRest
    rcases addString_step hPtr₁ hRest with ⟨hRest₂, hNode₂, hTypes₂, hNums₂⟩
    refine ⟨⟨e, hSearch, hBit, fun h => absurd hString (by simp [h])⟩, hRest₁.trans hRest₂, ?_, ?_⟩
    · rw [registered_of_ne (name_ne_nodeId hSearch hString)]
      exact ⟨hNode₂.trans hNode₁, hTypes₂.trans hTypes₁⟩
    · have hGiven : Key.given env e ⟨n, name, data⟩ = none := if_pos hString
      rw [hNums₂, hNums₁, hApply, hGiven]
      rfl
  · have hNumber : e.isStringType = false := by simpa using hString
    rw [if_neg hString] at hRest
    rcases addNumber_step hPtr₁ hSearch hNumber hRest with ⟨hOk, hRest₂, hReg, hNums₂⟩
    refine ⟨⟨e, hSearch, hBit, fun _ => hOk⟩, hRest₁.trans hRest₂, ?_, ?_⟩
    · have hSame : registered env s₁ ⟨n, name, data⟩ = registered env s ⟨n, name, data⟩ := by
        unfold registered
        rw [hRest₁.isDefault]
      rw [hSame] at hReg
      unfold Registers at hReg ⊢
      rw [hRest₁.slots, hNode₁, hTypes₁, hRest₁.current, hRest₁.type] at hReg
      exact hReg
    · rw [hNums₂, hNums₁, update_self, update_idem, hApply]

/-! ## Sections and their structs -/

namespace Doc

variable {doc : Doc} {ptr' : StructPtr} {key : Key}

theorem typeOf_openSection (ptr : StructPtr) (h : doc.Valid ptr) :
    (doc.openSection t).typeOf ptr = doc.typeOf ptr := by
  cases ptr with
  | default t => rfl
  | struct k => exact update_of_ne (Nat.ne_of_lt h) t doc.type

theorem typeOf_opened (doc : Doc) (t : ConfigType) :
    (doc.openSection t).typeOf (.struct doc.count) = t := by
  show update doc.type doc.count t doc.count = t
  rw [update_self]

theorem own_openSection (ptr : StructPtr) (h : doc.Valid ptr) :
    (doc.openSection t).own ptr = doc.own ptr := by
  show update doc.own (.struct doc.count) [] ptr = doc.own ptr
  rw [update_of_ne]
  rintro rfl
  exact Nat.lt_irrefl _ h

theorem keysOf_openSection (h : doc.Valid ptr) :
    (doc.openSection t).keysOf ptr = doc.keysOf ptr := by
  cases ptr with
  | default t => exact own_openSection _ h
  | struct k =>
    have hInherited : (doc.openSection t).inherited k = doc.inherited k :=
      update_of_ne (Nat.ne_of_lt h) _ doc.inherited
    unfold keysOf
    dsimp only
    rw [hInherited, own_openSection _ h]

theorem keysOf_opened (doc : Doc) (t : ConfigType) :
    (doc.openSection t).keysOf (.struct doc.count) = doc.own (.default t) := by
  unfold keysOf openSection
  simp

theorem valid_openSection (ptr : StructPtr) (h : (doc.openSection t).Valid ptr) :
    doc.Valid ptr ∨ ptr = .struct doc.count := by
  cases ptr with
  | default t => exact .inl trivial
  | struct k =>
    rcases Nat.lt_succ_iff_lt_or_eq.mp h with h | rfl
    · exact .inl h
    · exact .inr rfl

theorem addKey_of_current (key : Key) (h : doc.current = some ptr) :
    doc.addKey key = { doc with own := update doc.own ptr (doc.own ptr ++ [key]) } := by
  unfold addKey
  rw [h]

section

variable (h : doc.current = some ptr)

include h

theorem keysOf_addKey : (doc.addKey key).keysOf ptr = doc.keysOf ptr ++ [key] := by
  rw [addKey_of_current key h]
  unfold keysOf
  cases ptr <;> simp

theorem keysOf_addKey_of_ne (hNe : ptr' ≠ ptr) :
    (doc.addKey key).keysOf ptr' = doc.keysOf ptr' := by
  rw [addKey_of_current key h]
  unfold keysOf
  cases ptr' <;> simp [update_of_ne hNe]

theorem typeOf_addKey : (doc.addKey key).typeOf ptr' = doc.typeOf ptr' := by
  rw [addKey_of_current key h]
  rfl

theorem valid_addKey : (doc.addKey key).Valid ptr' ↔ doc.Valid ptr' := by
  rw [addKey_of_current key h]
  exact Iff.rfl

end

end Doc

/-- A struct with defaults. -/
def StructPtr.isDefault : StructPtr → Bool
  | .default _ => true
  | .struct _ => false

/-- The section that stands open, in the text and in memory. -/
structure OpenAt (doc : Doc) (s : Load) (ptr : StructPtr) : Prop where
  current : doc.current = some ptr
  pointer : s.currentNodeConfig = some ptr
  valid : doc.Valid ptr
  type : s.currentNodeConfigType = doc.typeOf ptr
  isDefault : s.defaultSection = ptr.isDefault

/-- A section that has been ended. -/
def Ended (doc : Doc) (s : Load) (k : Nat) : Prop :=
  s.nums (.struct k) mandatoryBitsName = endBits (doc.type k)

/-- Each section has its struct, with the numbers that the text gives it. -/
structure StructsOk (env : Env) (doc : Doc) (s : Load) : Prop where
  current : doc.current = none ∧ s.currentNodeConfigType = .noConfig ∨ ∃ ptr, OpenAt doc s ptr
  numStructs : s.numStructs = doc.count
  kinds : ∀ k < doc.count, doc.type k ∈ sectionNames.map (·.2)
  nums : ∀ ptr, doc.Valid ptr → s.nums ptr = doc.nums env ptr
  keys : ∀ ptr, doc.Valid ptr → ∀ key ∈ doc.keysOf ptr, KeyOk env (doc.typeOf ptr) key
  ended : ∀ k < doc.count, doc.current ≠ some (.struct k) → Ended doc s k

variable {doc : Doc} {key : Key}

theorem StructsOk.complete (h : StructsOk env doc s)
    (hComplete : completeSection env .build s = .ok () s') :
    StructsOk env doc s' ∧ ∀ k < doc.count, Ended doc s' k := by
  have hCore := core_completeSection hComplete
  have hType := congrArg Load.currentNodeConfigType hCore
  have hPtr := congrArg Load.currentNodeConfig hCore
  have hDefault := congrArg Load.defaultSection hCore
  have hCount := congrArg Load.numStructs hCore
  change s'.currentNodeConfigType = s.currentNodeConfigType at hType
  change s'.currentNodeConfig = s.currentNodeConfig at hPtr
  change s'.defaultSection = s.defaultSection at hDefault
  change s'.numStructs = s.numStructs at hCount
  have hNums := nums_completeSection hComplete
  have hAll : ∀ k < doc.count, Ended doc s' k := by
    intro k hk
    unfold Ended
    rw [hNums]
    by_cases hOpen : doc.current = some (.struct k)
    · rcases h.current with ⟨hNone, -⟩ | ⟨ptr, hAt⟩
      · rw [hOpen] at hNone
        cases hNone
      · -- the section that stands open is the one that has been ended
        have hEq : ptr = .struct k := Option.some.inj (hAt.current.symm.trans hOpen)
        subst hEq
        have hKind := h.kinds k hk
        have hAtType : s.currentNodeConfigType = doc.type k := hAt.type
        rw [← hAtType] at hKind ⊢
        exact bits_of_completeSection hAt.isDefault hKind hAt.pointer hComplete
    · exact h.ended k hk hOpen
  refine ⟨⟨?_, hCount.trans h.numStructs, h.kinds, ?_, h.keys, fun k hk _ => hAll k hk⟩, hAll⟩
  · rw [hType]
    rcases h.current with hNone | ⟨ptr, hAt⟩
    · exact .inl hNone
    · exact .inr ⟨ptr, hAt.current, hPtr.trans hAt.pointer, hAt.valid, hType.trans hAt.type,
        hDefault.trans hAt.isDefault⟩
  · rw [hNums]
    exact h.nums

theorem Doc.nums_openSection (h : doc.Valid ptr) :
    (doc.openSection t).nums env ptr = doc.nums env ptr := by
  unfold Doc.nums
  rw [Doc.typeOf_openSection ptr h, Doc.keysOf_openSection h]

theorem Doc.nums_opened (doc : Doc) (t : ConfigType) :
    (doc.openSection t).nums env (.struct doc.count) = doc.nums env (.default t) := by
  unfold Doc.nums
  rw [Doc.typeOf_opened, Doc.keysOf_opened]
  rfl

theorem Doc.nums_addKey (h : doc.current = some ptr) :
    (doc.addKey key).nums env = update (doc.nums env) ptr
      (applyKey env (doc.nums env ptr) key) := by
  funext ptr'
  unfold Doc.nums
  by_cases hPtr : ptr' = ptr
  · subst hPtr
    rw [Doc.keysOf_addKey h, Doc.typeOf_addKey h, foldl_concat, update_self]
  · rw [Doc.keysOf_addKey_of_ne h hPtr, Doc.typeOf_addKey h, update_of_ne hPtr]

/-- A section of its own: it begins with the numbers of the defaults of its kind. -/
theorem StructsOk.concat_section (h : StructsOk env doc s) (hEnded : ∀ k < doc.count, Ended doc s k)
    (hKind : t ∈ sectionNames.map (·.2))
    (hNode : initNode env t (openSection t false s) = .ok () s') :
    StructsOk env (doc.openSection t) s' := by
  have hState := initNode_ok hNode
  have hNums : s'.nums = update s.nums (.struct doc.count) (s.nums (.default t)) := by
    have hAssign := Load.nums_assign s (.struct s.numStructs) (s.defaults t)
    rw [h.numStructs] at hAssign
    rw [hState, ← show (s.defaults t).num = s.nums (.default t) from rfl, ← hAssign, ← h.numStructs]
    funext ptr
    cases ptr <;> rfl
  have hOld : ∀ ptr, doc.Valid ptr → s'.nums ptr = s.nums ptr := by
    intro ptr hValid
    rw [hNums, update_of_ne]
    rintro rfl
    exact Nat.lt_irrefl _ hValid
  refine ⟨.inr ⟨.struct doc.count, rfl, ?_, Nat.lt_succ_self _, ?_, ?_⟩, ?_, ?_, ?_, ?_, ?_⟩
  · rw [hState, ← h.numStructs]
    rfl
  · rw [hState, Doc.typeOf_opened]
    rfl
  · rw [hState]
    rfl
  · rw [hState]
    exact congrArg (· + 1) h.numStructs
  · intro k hk
    show (doc.openSection t).typeOf (.struct k) ∈ _
    rcases Doc.valid_openSection (.struct k) hk with hk | hk
    · rw [Doc.typeOf_openSection _ hk]
      exact h.kinds k hk
    · rw [hk, Doc.typeOf_opened]
      exact hKind
  · intro ptr hValid
    rcases Doc.valid_openSection ptr hValid with hValid | rfl
    · rw [hOld ptr hValid, Doc.nums_openSection hValid]
      exact h.nums ptr hValid
    · rw [hNums, update_self, Doc.nums_opened]
      exact h.nums (.default t) trivial
  · intro ptr hValid
    rcases Doc.valid_openSection ptr hValid with hValid | rfl
    · rw [Doc.keysOf_openSection hValid, Doc.typeOf_openSection ptr hValid]
      exact h.keys ptr hValid
    · rw [Doc.keysOf_opened, Doc.typeOf_opened]
      exact h.keys (.default t) trivial
  · intro k hk hOther
    rcases Doc.valid_openSection (.struct k) hk with hk | hk
    · have hType : (doc.openSection t).type k = doc.type k := Doc.typeOf_openSection _ hk
      unfold Ended
      rw [hOld _ hk, hType]
      exact hEnded k hk
    · rw [hk] at hOther
      exact absurd rfl hOther

/-- A section with defaults. -/
theorem StructsOk.concat_default (h : StructsOk env doc s)
    (hEnded : ∀ k < doc.count, Ended doc s k) :
    StructsOk env { doc with current := some (.default t) }
      { openSection t true s with currentNodeConfig := some (.default t) } where
  current := .inr ⟨.default t, rfl, rfl, trivial, rfl, rfl⟩
  numStructs := h.numStructs
  kinds := h.kinds
  nums := h.nums
  keys := h.keys
  ended k hk _ := hEnded k hk

/-- A key of the section that stands open. -/
theorem StructsOk.concat_key (h : StructsOk env doc s) (hAt : OpenAt doc s ptr)
    (hRest : SameRest s s') (hKey : KeyOk env s.currentNodeConfigType key)
    (hNums : s'.nums = update s.nums ptr (applyKey env (s.nums ptr) key)) :
    StructsOk env (doc.addKey key) s' := by
  have hSame := Doc.addKey_of_current key hAt.current
  refine ⟨.inr ⟨ptr, ?_, hRest.current.trans hAt.pointer, ?_, ?_,
    hRest.isDefault.trans hAt.isDefault⟩, ?_, ?_, ?_, ?_, ?_⟩
  · rw [hSame]
    exact hAt.current
  · rw [Doc.valid_addKey hAt.current]
    exact hAt.valid
  · rw [Doc.typeOf_addKey hAt.current]
    exact hRest.type.trans hAt.type
  · rw [hSame]
    exact hRest.numStructs.trans h.numStructs
  · rw [hSame]
    exact h.kinds
  · intro ptr' hValid
    rw [Doc.valid_addKey hAt.current] at hValid
    rw [hNums, Doc.nums_addKey hAt.current, h.nums ptr hAt.valid]
    by_cases hPtr : ptr' = ptr
    · subst hPtr
      rw [update_self, update_self]
    · rw [update_of_ne hPtr, update_of_ne hPtr]
      exact h.nums ptr' hValid
  · intro ptr' hValid key' hMem
    rw [Doc.valid_addKey hAt.current] at hValid
    rw [Doc.typeOf_addKey hAt.current]
    by_cases hPtr : ptr' = ptr
    · subst hPtr
      rw [Doc.keysOf_addKey hAt.current] at hMem
      rcases mem_append.mp hMem with hMem | hMem
      · exact h.keys ptr' hValid key' hMem
      · rw [mem_singleton.mp hMem, ← hAt.type]
        exact hKey
    · rw [Doc.keysOf_addKey_of_ne hAt.current hPtr] at hMem
      exact h.keys ptr' hValid key' hMem
  · rw [hSame]
    intro k hk hOther
    have hNe : StructPtr.struct k ≠ ptr := by
      rintro rfl
      exact hOther hAt.current
    unfold Ended
    rw [hNums, update_of_ne hNe]
    exact h.ended k hk hOther

/-! ## Node ids and their nodes -/

/-- The nodes are the ones of the grid and the ones that the sections have ids for. -/
structure NodesOk (env : Env) (doc : Doc) (s : Load) : Prop where
  own : ∀ id ptr, s.nodeConfig id = some (.own ptr) ↔
    ∃ k < doc.count, ptr = .struct k ∧ id ∈ doc.ids env k
  grid : ∀ id conf, s.nodeConfig id = some (.grid conf) ↔
    id ≤ env.grid.maxNodeId.toNat ∧ env.grid.nodeConfig id = some conf
  types : ∀ k < doc.count, ∀ id ∈ doc.ids env k,
    s.nodeTypes id = (NodeType.ofCode (doc.type k).code).getD .notExist
  gridTypes : ∀ id conf, s.nodeConfig id = some (.grid conf) →
    s.nodeTypes id = env.grid.nodeTypes id
  slots : ∀ id, (s.nodeConfig id).isSome → id < s.nodeSlots
  nodup : ∀ k < doc.count, (doc.ids env k).Nodup

theorem Doc.ids_openSection {k : Nat} (h : k < doc.count) :
    (doc.openSection t).ids env k = doc.ids env k := by
  unfold Doc.ids
  rw [Doc.own_openSection (.struct k) h]

theorem Doc.ids_opened (doc : Doc) (t : ConfigType) :
    (doc.openSection t).ids env doc.count = [] := by
  unfold Doc.ids openSection
  simp

/-- A key without an id that is registered leaves the ids alone. -/
theorem Doc.ids_addKey_none (hAt : OpenAt doc s ptr) (h : registered env s key = none) (k : Nat) :
    (doc.addKey key).ids env k = doc.ids env k := by
  rw [Doc.addKey_of_current key hAt.current]
  unfold Doc.ids
  by_cases hPtr : StructPtr.struct k = ptr
  · subst hPtr
    have hId : key.nodeId env = none := by
      have hOwn : s.defaultSection = false := hAt.isDefault
      unfold registered at h
      rwa [if_pos hOwn] at h
    simp [hId]
  · dsimp only
    rw [update_of_ne hPtr]

/-- An id that is registered goes to the section that stands open. -/
theorem Doc.ids_addKey_some {id : Nat} (hAt : OpenAt doc s ptr)
    (h : registered env s key = some id) : ∃ k, ptr = .struct k ∧
      (doc.addKey key).ids env k = doc.ids env k ++ [id] ∧
      ∀ k', k' ≠ k → (doc.addKey key).ids env k' = doc.ids env k' := by
  unfold registered at h
  rw [hAt.isDefault] at h
  cases ptr with
  | default t => simp [StructPtr.isDefault] at h
  | struct k =>
    have hId : key.nodeId env = some id := by simpa [StructPtr.isDefault] using h
    refine ⟨k, rfl, ?_, ?_⟩
    · rw [Doc.addKey_of_current key hAt.current]
      unfold Doc.ids
      simp [hId]
    · intro k' hk'
      rw [Doc.addKey_of_current key hAt.current]
      unfold Doc.ids
      dsimp only
      rw [update_of_ne]
      rintro h
      exact hk' (StructPtr.struct.inj h)

section

variable (h : NodesOk env doc s)

include h

/-- Another text with the same sections and ids, another state with the same nodes. -/
theorem NodesOk.congr {doc' : Doc} (hCount : doc'.count = doc.count) (hType : doc'.type = doc.type)
    (hIds : ∀ k, doc'.ids env k = doc.ids env k) (hConfig : s'.nodeConfig = s.nodeConfig)
    (hTypes : s'.nodeTypes = s.nodeTypes) (hSlots : s'.nodeSlots = s.nodeSlots) :
    NodesOk env doc' s' := by
  refine ⟨?_, ?_, ?_, ?_, ?_, ?_⟩
  · rw [hConfig, hCount]
    simp only [hIds]
    exact h.own
  · rw [hConfig]
    exact h.grid
  · rw [hTypes, hCount, hType]
    simp only [hIds]
    exact h.types
  · rw [hConfig, hTypes]
    exact h.gridTypes
  · rw [hConfig, hSlots]
    exact h.slots
  · rw [hCount]
    simp only [hIds]
    exact h.nodup

/-- A new section has no id yet. -/
theorem NodesOk.concat_section (hConfig : s'.nodeConfig = s.nodeConfig)
    (hTypes : s'.nodeTypes = s.nodeTypes) (hSlots : s'.nodeSlots = s.nodeSlots) :
    NodesOk env (doc.openSection t) s' := by
  have hSplit : ∀ k < (doc.openSection t).count, ∀ id ∈ (doc.openSection t).ids env k,
      k < doc.count ∧ id ∈ doc.ids env k := by
    intro k hk id hId
    rcases Nat.lt_succ_iff_lt_or_eq.mp hk with hk | rfl
    · rw [Doc.ids_openSection hk] at hId
      exact ⟨hk, hId⟩
    · rw [Doc.ids_opened] at hId
      cases hId
  refine ⟨?_, ?_, ?_, ?_, ?_, ?_⟩
  · intro id ptr
    rw [hConfig, h.own]
    constructor
    · rintro ⟨k, hk, hPtr, hId⟩
      rw [← Doc.ids_openSection (t := t) hk] at hId
      exact ⟨k, Nat.lt_succ_of_lt hk, hPtr, hId⟩
    · rintro ⟨k, hk, hPtr, hId⟩
      rcases hSplit k hk id hId with ⟨hk, hId⟩
      exact ⟨k, hk, hPtr, hId⟩
  · rw [hConfig]
    exact h.grid
  · intro k hk id hId
    rcases hSplit k hk id hId with ⟨hk, hId⟩
    have hType : (doc.openSection t).type k = doc.type k :=
      Doc.typeOf_openSection (.struct k) hk
    rw [hTypes, hType]
    exact h.types k hk id hId
  · rw [hConfig, hTypes]
    exact h.gridTypes
  · rw [hConfig, hSlots]
    exact h.slots
  · intro k hk
    rcases Nat.lt_succ_iff_lt_or_eq.mp hk with hk | rfl
    · rw [Doc.ids_openSection hk]
      exact h.nodup k hk
    · rw [Doc.ids_opened]
      exact nodup_nil

/-- A key with an id for a section of its own: the place of the node was free. -/
theorem NodesOk.concat_id {id : Nat} (hAt : OpenAt doc s ptr) (hId : registered env s key = some id)
    (hReg : Registers (some id) s s') (hSlots : s'.nodeSlots = s.nodeSlots) :
    NodesOk env (doc.addKey key) s' := by
  rcases Doc.ids_addKey_some hAt hId with ⟨k, rfl, hNew, hOld⟩
  rcases hReg with ⟨hFit, hFree, hConfig, hTypes⟩
  have hk : k < doc.count := hAt.valid
  have hDoc := Doc.addKey_of_current key hAt.current
  have hCount : (doc.addKey key).count = doc.count := by rw [hDoc]
  have hType : (doc.addKey key).type = doc.type := by rw [hDoc]
  have hNone : ∀ k' < doc.count, id ∉ doc.ids env k' := by
    intro k' hk' hMem
    have hSome := (h.own id (.struct k')).mpr ⟨k', hk', rfl, hMem⟩
    rw [hFree] at hSome
    cases hSome
  -- the ids of the sections are the ones from before, and the new one
  have hMem : ∀ k' id', id' ∈ (doc.addKey key).ids env k' ↔
      id' ∈ doc.ids env k' ∨ k' = k ∧ id' = id := by
    intro k' id'
    by_cases hEq : k' = k
    · subst hEq
      rw [hNew, mem_append, mem_singleton]
      simp
    · rw [hOld k' hEq]
      simp [hEq]
  refine ⟨?_, ?_, ?_, ?_, ?_, ?_⟩
  · intro id' ptr'
    rw [hConfig, hCount]
    simp only [hMem]
    by_cases hEq : id' = id
    · subst hEq
      rw [update_self, hAt.pointer]
      constructor
      · intro hSome
        cases hSome
        exact ⟨k, hk, rfl, .inr ⟨rfl, rfl⟩⟩
      · rintro ⟨k', hk', rfl, hId' | ⟨rfl, -⟩⟩
        · exact absurd hId' (hNone k' hk')
        · rfl
    · rw [update_of_ne hEq, h.own]
      simp [hEq]
  · intro id' conf
    rw [hConfig]
    by_cases hEq : id' = id
    · subst hEq
      rw [update_self, hAt.pointer, ← h.grid, hFree]
      simp
    · rw [update_of_ne hEq]
      exact h.grid id' conf
  · intro k' hk' id' hId'
    rw [hCount] at hk'
    rw [hTypes, hType]
    rcases (hMem k' id').mp hId' with hId' | ⟨rfl, rfl⟩
    · rw [update_of_ne]
      · exact h.types k' hk' id' hId'
      · rintro rfl
        exact hNone k' hk' hId'
    · rw [update_self, hAt.type]
      rfl
  · intro id' conf hGrid
    rw [hConfig] at hGrid
    rw [hTypes]
    by_cases hEq : id' = id
    · subst hEq
      rw [update_self, hAt.pointer] at hGrid
      cases hGrid
    · rw [update_of_ne hEq] at hGrid ⊢
      exact h.gridTypes id' conf hGrid
  · intro id' hSome
    rw [hConfig] at hSome
    rw [hSlots]
    by_cases hEq : id' = id
    · rw [hEq]
      exact hFit
    · rw [update_of_ne hEq] at hSome
      exact h.slots id' hSome
  · intro k' hk'
    rw [hCount] at hk'
    by_cases hEq : k' = k
    · subst hEq
      rw [hNew]
      refine List.Nodup.append (h.nodup k' hk') (nodup_singleton id) ?_
      rw [disjoint_singleton]
      exact hNone k' hk'
    · rw [hOld k' hEq]
      exact h.nodup k' hk'

theorem NodesOk.concat_key (hAt : OpenAt doc s ptr) (hRest : SameRest s s')
    (hReg : Registers (registered env s key) s s') : NodesOk env (doc.addKey key) s' := by
  cases hId : registered env s key with
  | some id =>
    rw [hId] at hReg
    exact h.concat_id hAt hId hReg hRest.slots
  | none =>
    rw [hId] at hReg
    have hDoc := Doc.addKey_of_current key hAt.current
    refine h.congr ?_ ?_ (Doc.ids_addKey_none hAt hId) hReg.1 hReg.2 hRest.slots
    · rw [hDoc]
    · rw [hDoc]

end

/-! ## The two readings -/

/-- How many sections are nodes. -/
def Doc.numNodes (doc : Doc) : Nat := Nat.count (doc.type · ≠ .comm) doc.count

theorem Doc.numNodes_openSection (doc : Doc) (t : ConfigType) :
    (doc.openSection t).numNodes = doc.numNodes + if t ≠ .comm then 1 else 0 := by
  have hNew : (doc.openSection t).type doc.count = t := Doc.typeOf_opened doc t
  have hOld : Nat.count ((doc.openSection t).type · ≠ .comm) doc.count = doc.numNodes := by
    unfold Doc.numNodes
    rw [Nat.count_eq_card_filter_range, Nat.count_eq_card_filter_range]
    congr 1
    refine Finset.filter_congr fun k hk => ?_
    have hType : (doc.openSection t).type k = doc.type k :=
      Doc.typeOf_openSection (.struct k) (Finset.mem_range.mp hk)
    rw [hType]
  show Nat.count _ (doc.count + 1) = _
  rw [Nat.count_succ, hOld, hNew]

theorem Doc.count_addKey (doc : Doc) (key : Key) :
    (doc.addKey key).count = doc.count ∧ (doc.addKey key).type = doc.type := by
  unfold Doc.addKey
  cases doc.current <;> exact ⟨rfl, rfl⟩

/-- What the first reading has counted: the nodes. No node is there yet. -/
structure Counted (doc : Doc) (s : Load) : Prop where
  numNodes : s.numNodes = UInt32.ofNat doc.numNodes
  numStructs : s.numStructs = 0
  nodeConfig : s.nodeConfig = fun _ => none

theorem counted_item {item : Item} (h : Counted doc s)
    (hItem : (configServerOps env).addItem .initial n item s = .ok () s') :
    Counted (doc.addItem n item) s' := by
  cases item with
  | empty =>
    cases hItem
    exact h
  | comment =>
    cases hItem
    exact ⟨h.numNodes, h.numStructs, h.nodeConfig⟩
  | key name data =>
    have hKey : confServAddKey env .initial n name data s = .ok () s' := hItem
    rcases addKey_initial hKey with ⟨hNumNodes, hStructs, hConfig⟩
    rcases doc.count_addKey ⟨n, name, data⟩ with ⟨hCount, hType⟩
    have hNodes : (doc.addKey ⟨n, name, data⟩).numNodes = doc.numNodes := by
      unfold Doc.numNodes
      rw [hCount, hType]
    refine ⟨?_, hStructs.trans h.numStructs, hConfig.trans h.nodeConfig⟩
    show _ = UInt32.ofNat (doc.addKey ⟨n, name, data⟩).numNodes
    rw [hNodes]
    exact hNumNodes.trans h.numNodes
  | «section» name =>
    have hSection : confServAddSection env .initial n name s = .ok () s' := hItem
    rw [addSection_initial] at hSection
    unfold Doc.addItem
    dsimp only
    cases hType : sectionType name with
    | some t =>
      rw [hType] at hSection
      cases hSection
      refine ⟨?_, h.numStructs, h.nodeConfig⟩
      dsimp only
      rw [Doc.numNodes_openSection, UInt32.ofNat_add, ← h.numNodes]
      unfold countSection
      by_cases hComm : t = .comm <;> simp [hComm]
    | none =>
      rw [hType] at hSection
      cases hDefault : defaultSectionType name with
      | some t =>
        rw [hDefault] at hSection
        cases hSection
        exact ⟨h.numNodes, h.numStructs, h.nodeConfig⟩
      | none =>
        rw [hDefault] at hSection
        cases hSection

/-- Where the second reading stands: `num` nodes have been counted. -/
structure DocInv (env : Env) (num : UInt32) (doc : Doc) (s : Load) : Prop where
  structs : StructsOk env doc s
  nodes : NodesOk env doc s
  numNodes : s.numNodes = num

/-- The second reading begins with the nodes of the grid. -/
theorem docInv_built {counted : Doc} (h : Counted counted s) :
    DocInv env (UInt32.ofNat counted.numNodes + env.grid.numNodes) {} (built env s) where
  structs :=
    { current := .inl ⟨rfl, rfl⟩
      numStructs := h.numStructs
      kinds := fun _ hk => absurd hk (Nat.not_lt_zero _)
      nums := by
        rintro (t | k) hValid
        · rfl
        · exact absurd hValid (Nat.not_lt_zero k)
      keys := by
        rintro (t | k) hValid key hKey
        · cases hKey
        · exact absurd hValid (Nat.not_lt_zero k)
      ended := fun _ hk => absurd hk (Nat.not_lt_zero _) }
  nodes := by
    have hConfig : ∀ id, (built env s).nodeConfig id =
        if id ≤ env.grid.maxNodeId.toNat then (env.grid.nodeConfig id).map .grid else none := by
      intro id
      show (if _ then _ else s.nodeConfig id) = _
      rw [h.nodeConfig]
    refine ⟨?_, ?_, ?_, ?_, ?_, ?_⟩
    · intro id ptr
      rw [hConfig]
      constructor
      · intro hSome
        split_ifs at hSome
        rcases Option.map_eq_some_iff.mp hSome with ⟨conf, -, hEq⟩
        cases hEq
      · rintro ⟨k, hk, -⟩
        exact absurd hk (Nat.not_lt_zero k)
    · intro id conf
      rw [hConfig]
      split_ifs with hId
      · simp [hId]
      · simp [hId]
    · exact fun k hk => absurd hk (Nat.not_lt_zero k)
    · intro id conf hGrid
      rw [hConfig] at hGrid
      split_ifs at hGrid with hId
      exact if_pos hId
    · intro id hSome
      rw [hConfig] at hSome
      split_ifs at hSome with hId
      · show id < (max s.maxNodeId env.grid.maxNodeId).toNat + 1
        rw [toNat_max]
        exact Nat.lt_succ_of_le (hId.trans (le_max_right _ _))
      · cases hSome
    · exact fun k hk => absurd hk (Nat.not_lt_zero k)
  numNodes := by
    show s.numNodes + env.grid.numNodes = _
    rw [h.numNodes]

variable {num : UInt32}

theorem DocInv.complete (h : DocInv env num doc s)
    (hComplete : completeSection env .build s = .ok () s') :
    DocInv env num doc s' ∧ ∀ k < doc.count, Ended doc s' k := by
  have hCore := core_completeSection hComplete
  have hConfig := congrArg Load.nodeConfig hCore
  have hTypes := congrArg Load.nodeTypes hCore
  have hSlots := congrArg Load.nodeSlots hCore
  have hNum := congrArg Load.numNodes hCore
  change s'.nodeConfig = s.nodeConfig at hConfig
  change s'.nodeTypes = s.nodeTypes at hTypes
  change s'.nodeSlots = s.nodeSlots at hSlots
  change s'.numNodes = s.numNodes at hNum
  have hStructs := h.structs.complete hComplete
  exact ⟨⟨hStructs.1, h.nodes.congr rfl rfl (fun _ => rfl) hConfig hTypes hSlots,
    hNum.trans h.numNodes⟩, hStructs.2⟩

/-- A line of the second reading. -/
theorem docInv_item {item : Item} (h : DocInv env num doc s)
    (hItem : (configServerOps env).addItem .build n item s = .ok () s') :
    DocInv env num (doc.addItem n item) s' := by
  cases item with
  | empty =>
    cases hItem
    exact h
  | comment =>
    cases hItem
    exact h
  | key name data =>
    have hKey : confServAddKey env .build n name data s = .ok () s' := hItem
    rcases h.structs.current with ⟨-, hNone⟩ | ⟨ptr, hAt⟩
    · exact absurd hNone (addKey_ok hKey).1
    · rcases addKey_step hAt.pointer hKey with ⟨hOk, hRest, hReg, hNums⟩
      exact ⟨h.structs.concat_key hAt hRest hOk hNums, h.nodes.concat_key hAt hRest hReg,
        hRest.numNodes.trans h.numNodes⟩
  | «section» name =>
    have hSection : confServAddSection env .build n name s = .ok () s' := hItem
    rcases addSection_build hSection with ⟨s₁, hComplete, hOpen⟩
    rcases h.complete hComplete with ⟨h₁, hEnded⟩
    unfold Doc.addItem
    dsimp only
    rcases hOpen with ⟨t, hType, hNode⟩ | ⟨hType, t, hDefault, rfl⟩
    · rw [hType]
      have hKind : t ∈ sectionNames.map (·.2) := by
        rcases lookup_eq_some_iff.mp hType with ⟨l₁, l₂, hNames, -⟩
        rw [hNames]
        simp
      refine ⟨h₁.structs.concat_section hEnded hKind hNode, ?_, ?_⟩
      · refine h₁.nodes.concat_section ?_ ?_ ?_ <;> rw [initNode_ok hNode] <;> rfl
      · rw [initNode_ok hNode]
        exact h₁.numNodes
    · rw [hType, hDefault]
      exact ⟨h₁.structs.concat_default hEnded,
        h₁.nodes.congr rfl rfl (fun _ => rfl) rfl rfl rfl, h₁.numNodes⟩

/-- What a file says. -/
def ConfFile.sections (file : ConfFile) : Doc :=
  ClusterReader.sections (file.lines.filterMap (·.toOption))

/-- A file that is accepted has been read twice, and the last section has been ended. -/
theorem run_of_accepted {file : ConfFile}
    (h : (configServerOps env).buildConfigData file.text {} = .ok () s) :
    ∃ items s₁ s₂, file.lines = items.map .ok ∧ FirstRun env items s₁ ∧
      (configServerOps env).addLines .build 1 (items.map .ok) (built env s₁) = .ok () s₂ ∧
      completeSection env .build s₂ = .ok () s := by
  by_cases hText : file.text = []
  · unfold ConfigOperations.buildConfigData at h
    rw [if_pos hText] at h
    cases h
  rw [buildConfigData_eq hText, onError_eq_ok, bind_eq_ok] at h
  rcases h with ⟨_, s₀, hInit, h⟩
  have hStarted : s₀ = started := by
    rcases bind_eq_ok.mp (mapError_eq_ok.mp hInit) with ⟨_, _, h₁, hInit⟩
    rcases bind_eq_ok.mp hInit with ⟨_, _, h₂, hInit⟩
    rcases bind_eq_ok.mp hInit with ⟨_, _, h₃, hInit⟩
    cases h₃
    exact takeMemory_ok hInit
  subst hStarted
  rcases bind_eq_ok.mp h with ⟨_, s₁, hFirst, h⟩
  rcases ConfigOperations.items_of_addLines hFirst with ⟨items, hLines⟩
  rw [hLines] at hFirst
  rcases bind_eq_ok.mp h with ⟨_, s', hBuild, h⟩
  cases initBuild_ok (mapError_eq_ok.mp hBuild)
  rcases bind_eq_ok.mp h with ⟨_, s₂, hSecond, h⟩
  rw [second_lines hLines] at hSecond
  rcases bind_eq_ok.mp (mapError_eq_ok.mp h) with ⟨_, s₃, hEnd, hPorts⟩
  refine ⟨items, s₁, s₂, hLines, hFirst, hSecond, ?_⟩
  have hSame : s = s₃ := by
    unfold checkHostPorts at hPorts
    cases hVerify : verifyHostnamePort s₃ with
    | none =>
      rw [hVerify] at hPorts
      cases hPorts
    | some unique =>
      rw [hVerify] at hPorts
      cases unique <;> cases hPorts
      rfl
  rw [hSame]
  exact hEnd

/-- A file that has been accepted: the structs and the nodes are the ones of its sections, and each
section has been ended. -/
theorem returned_docInv {file : ConfFile}
    (h : (configServerOps env).buildConfigData file.text {} = .ok () s) :
    DocInv env (UInt32.ofNat file.sections.numNodes + env.grid.numNodes) file.sections s ∧
      ∀ k < file.sections.count, Ended file.sections s k := by
  rcases run_of_accepted h with ⟨items, s₁, s₂, hLines, hFirst, hSecond, hEnd⟩
  have hSections : file.sections = sections items := by
    unfold ConfFile.sections
    rw [hLines, filterMap_map]
    simp [comp_def, Except.toOption]
  have hCounted : Counted (sections ([] ++ items)) s₁ := by
    let inv : List Item → Load → Prop := fun pre s => Counted (sections pre) s
    have hStart : inv [] started := ⟨rfl, rfl, rfl⟩
    refine ConfigOperations.addLines_induction hStart (fun mid item _ _ _ _ hInv hItem => ?_)
      hFirst
    show Counted (sections (mid ++ [item])) _
    rw [sections_concat]
    exact counted_item hInv hItem
  rw [hSections]
  have hInv : DocInv env (UInt32.ofNat (sections ([] ++ items)).numNodes + env.grid.numNodes)
      (sections ([] ++ items)) s₂ := by
    let inv : List Item → Load → Prop := fun pre s =>
      DocInv env (UInt32.ofNat (sections ([] ++ items)).numNodes + env.grid.numNodes)
        (sections pre) s
    have hStart : inv [] (built env s₁) := docInv_built hCounted
    refine ConfigOperations.addLines_induction hStart (fun mid item _ _ _ _ hInv hItem => ?_)
      hSecond
    show DocInv _ _ (sections (mid ++ [item])) _
    rw [sections_concat]
    exact docInv_item hInv hItem
  exact hInv.complete hEnd

end IClaustron.Config.ClusterReader
