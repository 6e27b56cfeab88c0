import IClaustron.Config.NetworkRoundTrip
import IClaustron.Lib.Fields

/-!
# Config.EncoderSections — the sections of an encoded configuration

The encoder ic_get_key_value_sections_config (api/ic_apic_run_cs.ic) counts the words of all
sections, and then it fills them. In the second round it also counts the sections, and
compares its count with the section numbers it has computed before. Each key has its type, the
number of its section and a configuration id in fields of one word, which analyse_key_value
(api/ic_apic_conf_read_transl.ic) takes apart again.

A section number has 14 bits in a key, and it is added to the key without a check.

* `mesh_inconsistent` — 181 nodes that are all connected have more sections than that.
-/

namespace IClaustron.Config.EncoderSections

open Lib Protocol List Result

/-! ## Encoder -/

section

variable {α : Type} (T : ConfigTable) (c : ClusterConfig) (versionNumber : UInt64)

/-- `ic_assert`. -/
def icAssert (cond : Prop) [Decidable cond] : Except EncodeError Unit :=
  if cond then .ok () else .error .abort

/-- The sections of a list of objects; `section_id` is counted up with each of them. -/
def fillCounted (fill : UInt32 → α → Except EncodeError (List UInt32)) :
    UInt32 → List α → Except EncodeError (List UInt32 × UInt32)
  | sectionId, [] => .ok ([], sectionId)
  | sectionId, x :: xs => do
    let ws ← fill sectionId x
    let rest ← fillCounted fill (sectionId + 1) xs
    return (ws ++ rest.1, rest.2)

/-- `data_server_start_section`. -/
def dataServerStartSection : UInt32 :=
  c.commMetaSection + (c.commPairs versionNumber).length.toUInt32 + 1

/-- The second round behind section 0, with the assertions on `section_id`. -/
def fillRest : Except EncodeError (List UInt32) := do
  let numComms := (c.commPairs versionNumber).length
  let apis ← fillCounted (fillNode T c versionNumber) 2 c.apiNodes
  icAssert (c.systemMetaSection = apis.2)
  let system ← fillKeyValueSection T .system c.sysConf versionNumber (apis.2 + 1)
  icAssert (c.commMetaSection = apis.2 + 1 + 1)
  let comms ← fillCounted (fillComm T c versionNumber) (apis.2 + 1 + 1 + 1)
    (c.commPairs versionNumber)
  icAssert (dataServerStartSection c versionNumber = comms.2)
  let dataServers ← fillCounted (fillNode T c versionNumber) comms.2 c.dataServers
  return nodeMetaSection c numComms ++ apis.1 ++ systemMeta c ++ system ++ commMeta c numComms ++
    comms.1 ++ dataServers.1

/-- `ic_get_key_value_sections_config`. -/
def getKeyValueSectionsConfig (callocOk : Bool) : Except EncodeError (List UInt32) := do
  let len ← keyValueLen T c versionNumber
  if c.commPairs versionNumber = [] then .error .abort
  else if !callocOk then .error .memAlloc
  else
    let rest ← fillRest T c versionNumber
    closeKeyValue len (wordsOfBytes verString ++ sectionZero c ++ rest)

end

/-! ## Keys -/

/-- A key: its type, its section, its configuration id and the words it takes with its value. -/
structure KeyInfo where
  type : Nat
  sect : Nat
  configId : Nat
  len : Nat
  deriving DecidableEq

/-- What the decoder reads from the first of these words, and their number. -/
def readKey (block : List UInt32) : KeyInfo where
  type := (keyTypeOf (block.headD 0)).toNat
  sect := (sectIdOf (block.headD 0)).toNat
  configId := (hashKeyOf (block.headD 0)).toNat
  len := block.length

/-- The type a parameter has in the protocol. -/
def wireType : DataType → Nat
  | .uint64 => 4
  | .charptr | .enum => 2
  | _ => 1

/-- The words that are counted for an entry. -/
def entryLen (conf : ConfObject) (e : ConfigEntry) : Nat :=
  match entryLength conf e with
  | .ok n => n
  | .error _ => 0

section

variable (T : ConfigTable) (c : ClusterConfig) (versionNumber : UInt64)

/-- The keys of a section. -/
def sectionInfo (configType : ConfigType) (conf : ConfObject) (sect : Nat) : List KeyInfo :=
  (sentEntries T configType versionNumber).map (fun i =>
    ⟨wireType (T.globConfEntry i).dataType, sect, T.mapInxToConfigId i,
      entryLen conf (T.globConfEntry i)⟩) ++
    [⟨1, sect, 999, 2⟩, ⟨1, sect, 16382, 2⟩]

def nodeInfo (sect i : Nat) : List KeyInfo :=
  sectionInfo T versionNumber (c.nodeTypes i).configType (c.nodeObject i) sect

/-- The object of a communication section; called for pairs that have one. -/
def commObject (p : Nat × Nat) : ConfObject :=
  match getCommSection c p.1 p.2 with
  | .ok conf => conf
  | .error _ => ConfObject.zero

def commInfo (sect : Nat) (p : Nat × Nat) : List KeyInfo :=
  sectionInfo T versionNumber .comm (commObject c p) sect

/-- The keys of sections one behind the other. -/
def sectionsInfo {α : Type} (info : Nat → α → List KeyInfo) : Nat → List α → List KeyInfo
  | _, [] => []
  | sect, x :: xs => info sect x ++ sectionsInfo info (sect + 1) xs

/-- The keys behind section 0. -/
def restInfo : List KeyInfo :=
  let apis := c.apiNodes.length
  let comms := (c.commPairs versionNumber).length
  (List.range c.numNodes).map (fun i => ⟨1, 1, i, 2⟩) ++
    sectionsInfo (nodeInfo T c versionNumber) 2 c.apiNodes ++
    [⟨1, 2 + apis, 0, 2⟩] ++
    sectionInfo T versionNumber .system c.sysConf (3 + apis) ++
    (List.range comms).map (fun i => ⟨1, 4 + apis, i, 2⟩) ++
    sectionsInfo (commInfo T c versionNumber) (5 + apis) (c.commPairs versionNumber) ++
    sectionsInfo (nodeInfo T c versionNumber) (5 + apis + comms) c.dataServers

/-- The keys of the array, as they are meant. -/
def intended : List KeyInfo :=
  [⟨3, 0, 1000, 2⟩, ⟨3, 0, 2000, 2⟩, ⟨3, 0, 3000, 2⟩] ++ restInfo T c versionNumber

/-- The number of sections. -/
def sectionCount : Nat := 5 + c.nodes.length + (c.commPairs versionNumber).length

/-- The section numbers go up from `a` to `b`, and none is left out. -/
def Steps (a : Nat) : List Nat → Nat → Prop
  | [], b => a = b
  | s :: ss, b => (s = a ∨ s = a + 1) ∧ Steps s ss b

/-- The array `ws` consists of the version, the blocks of the keys that are meant and the
checksum, and it has the length that was counted. -/
structure IsArray (ws : List UInt32) (blocks : List (List UInt32)) : Prop where
  words : ws = wordsOfBytes verString ++ blocks.flatten ++
    [checksum (wordsOfBytes verString ++ blocks.flatten)]
  counted : keyValueLen T c versionNumber = .ok ws.length
  checksum_eq : checksum ws = 0
  keys : blocks.map readKey = intended T c versionNumber

/-- The encoder gives an array with the keys that are meant, in sections without gaps. -/
structure Consistent : Prop where
  array : ∃ ws blocks, getKeyValueSectionsConfig T c versionNumber true = .ok ws ∧
    IsArray T c versionNumber ws blocks
  steps : Steps 0 ((intended T c versionNumber).map (·.sect)) (sectionCount c versionNumber - 1)

end

/-- A cluster with a data server and another node, whose communication sections are all there. -/
structure Encodable (c : ClusterConfig) (versionNumber : UInt64) : Prop where
  numNodes_eq : c.numNodes = c.nodes.length
  numNodes_le : c.numNodes ≤ 255
  comms : ∀ p ∈ c.commPairs versionNumber, ∃ conf, getCommSection c p.1 p.2 = .ok conf
  dataServer : c.dataServers ≠ []
  other : c.apiNodes ≠ []

/-! ## Blocks -/

variable {i s t : UInt32} {a : Nat} {ss : List Nat}

theorem toNat_keyWord (ht : t.toNat < 16) (hs : s.toNat < 2 ^ 14) (hi : i.toNat < 2 ^ 14) :
    (keyWord t s i).toNat = t.toNat * 2 ^ 28 + s.toNat * 2 ^ 14 + i.toNat := by
  have hType : (t <<< 28).toNat = t.toNat * 2 ^ 28 := by
    rw [toNat_shiftLeft_fits t 28 (n := 28) rfl (by decide) (by omega), Nat.shiftLeft_eq]
  have hSect : (s <<< 14).toNat = s.toNat * 2 ^ 14 := by
    rw [toNat_shiftLeft_fits s 14 (n := 14) rfl (by decide) (by omega), Nat.shiftLeft_eq]
  rw [keyWord, UInt32.toNat_add, UInt32.toNat_add, hType, hSect]
  omega

/-- The fields of a key are read back as long as they have room in the word. -/
theorem readKey_cons (ht : t.toNat < 16) (hs : s.toNat < 2 ^ 14) (hi : i.toNat < 2 ^ 14)
    (ws : List UInt32) :
    readKey (keyWord t s i :: ws) = ⟨t.toNat, s.toNat, i.toNat, ws.length + 1⟩ := by
  have hWord := toNat_keyWord ht hs hi
  have hType : (keyTypeOf (keyWord t s i)).toNat = t.toNat := by
    have hShift : (keyTypeOf (keyWord t s i)).toNat = (keyWord t s i).toNat / 2 ^ 28 := by
      rw [keyTypeOf, UInt32.toNat_shiftRight, Nat.shiftRight_eq_div_pow]
      rfl
    rw [hShift, hWord]
    omega
  have hSect : (sectIdOf (keyWord t s i)).toNat = s.toNat := by
    rw [sectIdOf, toNat_field _ 14 0x3FFF (n := 14) (m := 14) rfl (by decide) rfl, hWord]
    omega
  have hId : (hashKeyOf (keyWord t s i)).toNat = i.toNat := by
    rw [hashKeyOf, toNat_and_low _ 0x3FFF (m := 14) rfl, hWord]
    omega
  rw [readKey, headD_cons, hType, hSect, hId]
  rfl

/-- A section number that is read is always small. -/
theorem sect_readKey_lt (block : List UInt32) : (readKey block).sect < 2 ^ 14 := by
  have h : (readKey block).sect = (block.headD 0).toNat / 2 ^ 14 % 2 ^ 14 :=
    toNat_field _ 14 0x3FFF (n := 14) (m := 14) rfl (by decide) rfl
  rw [h]
  exact Nat.mod_lt _ (Nat.two_pow_pos 14)

/-- The words consist of blocks with these keys. -/
def HasKeys (ws : List UInt32) (keys : List KeyInfo) : Prop :=
  ∃ blocks : List (List UInt32), ws = blocks.flatten ∧ blocks.map readKey = keys

theorem HasKeys.nil : HasKeys [] [] := ⟨[], rfl, rfl⟩

theorem HasKeys.append {ws ws' : List UInt32} {keys keys' : List KeyInfo} (h : HasKeys ws keys)
    (h' : HasKeys ws' keys') : HasKeys (ws ++ ws') (keys ++ keys') := by
  rcases h with ⟨blocks, hWords, hKeys⟩
  rcases h' with ⟨blocks', hWords', hKeys'⟩
  refine ⟨blocks ++ blocks', ?_, ?_⟩
  · rw [hWords, hWords', flatten_append]
  · rw [map_append, hKeys, hKeys']

/-- A key with its value. -/
theorem hasKeys_key (ht : t.toNat < 16) (hs : s.toNat < 2 ^ 14) (hi : i.toNat < 2 ^ 14)
    (ws : List UInt32) :
    HasKeys (keyWord t s i :: ws) [⟨t.toNat, s.toNat, i.toNat, ws.length + 1⟩] := by
  refine ⟨[keyWord t s i :: ws], ?_, ?_⟩
  · rw [flatten_cons, flatten_nil, append_nil]
  · rw [map_cons, readKey_cons ht hs hi]
    rfl

theorem hasKeys_flatMap {α : Type} {f : α → List UInt32} {g : α → KeyInfo} (xs : List α)
    (h : ∀ x ∈ xs, HasKeys (f x) [g x]) : HasKeys (xs.flatMap f) (xs.map g) := by
  induction xs with
  | nil => exact HasKeys.nil
  | cons x xs ih =>
    have hRest := ih fun x' hx' => h x' (mem_cons_of_mem x hx')
    exact (h x mem_cons_self).append hRest

/-- Computations that give the blocks of one key each. -/
theorem hasKeys_mapM {α : Type} {f : α → Except EncodeError (List UInt32)} {g : α → KeyInfo}
    (xs : List α) (h : ∀ x ∈ xs, ∃ ws, f x = .ok ws ∧ HasKeys ws [g x]) :
    ∃ wss, xs.mapM f = .ok wss ∧ HasKeys wss.flatten (xs.map g) := by
  induction xs with
  | nil => exact ⟨[], rfl, HasKeys.nil⟩
  | cons x xs ih =>
    rcases h x mem_cons_self with ⟨ws, hFill, hKeys⟩
    rcases ih fun x' hx' => h x' (mem_cons_of_mem x hx') with ⟨wss, hFills, hAll⟩
    refine ⟨ws :: wss, ?_, ?_⟩
    · rw [mapM_cons, hFill, hFills]
      rfl
    · exact hKeys.append hAll

/-! ### Sections -/

/-- The configuration ids of the table have room in a key. -/
def TableFits (T : ConfigTable) : Prop := ∀ i, T.mapInxToConfigId i < 2 ^ 14

variable {T : ConfigTable} {c : ClusterConfig} {versionNumber : UInt64}

theorem toNat_toUInt32 {n : Nat} (h : n < 2 ^ 32) : n.toUInt32.toNat = n := by
  rw [Nat.toUInt32_eq, UInt32.toNat_ofNat']
  exact Nat.mod_eq_of_lt h

theorem hasKeys_fillEntry (hFits : TableFits T) {i : Nat}
    (hType : (T.globConfEntry i).dataType.Sendable) (conf : ConfObject) {sectId : UInt32}
    (hSect : sectId.toNat < 2 ^ 14) :
    ∃ ws, fillEntry T conf sectId i = .ok ws ∧
      HasKeys ws [⟨wireType (T.globConfEntry i).dataType, sectId.toNat, T.mapInxToConfigId i,
        entryLen conf (T.globConfEntry i)⟩] := by
  have hId : (T.mapInxToConfigId i).toUInt32.toNat = T.mapInxToConfigId i :=
    toNat_toUInt32 (Nat.lt_trans (hFits i) (by decide))
  have hIdLt : (T.mapInxToConfigId i).toUInt32.toNat < 2 ^ 14 := by
    rw [hId]
    exact hFits i
  unfold fillEntry entryLen entryLength
  dsimp only
  cases hData : (T.globConfEntry i).dataType with
  | boolean =>
    refine ⟨_, rfl, ?_⟩
    have h := hasKeys_key (t := int32Type) (by decide) hSect hIdLt
      [(conf.num (T.globConfEntry i).configEntryName).toUInt8.toUInt32]
    rwa [hId] at h
  | uint16 =>
    refine ⟨_, rfl, ?_⟩
    have h := hasKeys_key (t := int32Type) (by decide) hSect hIdLt
      [(conf.num (T.globConfEntry i).configEntryName).toUInt16.toUInt32]
    rwa [hId] at h
  | uint32 =>
    refine ⟨_, rfl, ?_⟩
    have h := hasKeys_key (t := int32Type) (by decide) hSect hIdLt
      [(conf.num (T.globConfEntry i).configEntryName).toUInt32]
    rwa [hId] at h
  | uint64 =>
    refine ⟨_, rfl, ?_⟩
    have h := hasKeys_key (t := int64Type) (by decide) hSect hIdLt
      [(conf.num (T.globConfEntry i).configEntryName >>> 32).toUInt32,
        (conf.num (T.globConfEntry i).configEntryName).toUInt32]
    rwa [hId] at h
  | charptr | enum =>
    refine ⟨_, rfl, ?_⟩
    have h := hasKeys_key (t := charType) (by decide) hSect hIdLt
      (((conf.strBytes (T.globConfEntry i).configEntryName).length + 1).toUInt32 ::
        strWords (conf.strBytes (T.globConfEntry i).configEntryName)
          (ndbMgmStrWordLen (conf.strBytes (T.globConfEntry i).configEntryName).length))
    rw [hId, length_cons, length_strWords] at h
    exact h
  | noSuchConfigDataType | sectionType | char | bitmask =>
    rw [hData] at hType
    exact hType.elim

/-- A section is filled, and its keys are those that are meant. -/
theorem hasKeys_section (hT : TableSendable T) (hFits : TableFits T) (versionNumber : UInt64)
    (configType : ConfigType) (conf : ConfObject) (sectId : UInt32)
    (hSect : sectId.toNat < 2 ^ 14) :
    ∃ ws, fillKeyValueSection T configType conf versionNumber sectId = .ok ws ∧
      HasKeys ws (sectionInfo T versionNumber configType conf sectId.toNat) := by
  rcases hasKeys_mapM (sentEntries T configType versionNumber)
    (fun i hi => hasKeys_fillEntry hFits (sendable_of_sent hT hi) conf hSect) with
    ⟨wss, hFill, hKeys⟩
  refine ⟨_, bind_of_ok hFill _, hKeys.append ?_⟩
  have hNodeType := hasKeys_key (t := int32Type) (i := icNodeType) (by decide) hSect (by decide)
    [nodeTypeValue configType versionNumber]
  have hParent := hasKeys_key (t := int32Type) (i := icParentId) (by decide) hSect (by decide) [0]
  exact hNodeType.append hParent

/-- Sections one behind the other. -/
theorem hasKeys_fillSections {α : Type} {fill : UInt32 → α → Except EncodeError (List UInt32)}
    {info : Nat → α → List KeyInfo} (xs : List α)
    (h : ∀ x ∈ xs, ∀ sectId : UInt32, sectId.toNat < 2 ^ 14 →
      ∃ ws, fill sectId x = .ok ws ∧ HasKeys ws (info sectId.toNat x)) :
    ∀ (sectId : UInt32) (n : Nat), sectId.toNat = n → n + xs.length ≤ 2 ^ 14 →
      ∃ ws, fillSections fill sectId xs = .ok ws ∧ HasKeys ws (sectionsInfo info n xs) := by
  induction xs with
  | nil =>
    intro sectId n _ _
    exact ⟨[], rfl, HasKeys.nil⟩
  | cons x xs ih =>
    intro sectId n hn hLen
    rw [length_cons] at hLen
    have hNext : (sectId + 1).toNat = n + 1 := by
      rw [UInt32.toNat_add, UInt32.toNat_one]
      omega
    rcases h x mem_cons_self sectId (by omega) with ⟨ws, hFill, hKeys⟩
    rcases ih (fun x' hx' => h x' (mem_cons_of_mem x hx')) (sectId + 1) (n + 1) hNext
      (by omega) with ⟨rest, hRest, hRestKeys⟩
    refine ⟨ws ++ rest, ?_, ?_⟩
    · rw [fillSections, bind_of_ok hFill, bind_of_ok hRest]
      rfl
    · rw [hn] at hKeys
      exact hKeys.append hRestKeys

/-- The count of the sections goes up by one with each of them. -/
theorem fillCounted_eq {α : Type} (fill : UInt32 → α → Except EncodeError (List UInt32))
    (xs : List α) : ∀ sectId, fillCounted fill sectId xs = (do
      let ws ← fillSections fill sectId xs
      return (ws, sectId + xs.length.toUInt32)) := by
  induction xs with
  | nil =>
    intro sectId
    exact congrArg (fun next => Except.ok ([], next)) (UInt32.add_zero sectId).symm
  | cons x xs ih =>
    intro sectId
    have hNext : sectId + 1 + xs.length.toUInt32 = sectId + (x :: xs).length.toUInt32 := by
      rw [length_cons, Nat.toUInt32_eq, Nat.toUInt32_eq, UInt32.ofNat_add]
      grind
    rw [fillCounted, fillSections]
    simp only [ih, bind_assoc, pure_bind, hNext]

/-- The assertions of the second round always hold, so it gives the same array without them. -/
theorem getKeyValueSectionsConfig_eq (callocOk : Bool) :
    getKeyValueSectionsConfig T c versionNumber callocOk =
      getKeyValueSections T c versionNumber callocOk := by
  have hSystem : c.systemMetaSection = 2 + c.apiNodes.length.toUInt32 := rfl
  have hComm : c.commMetaSection = 2 + c.apiNodes.length.toUInt32 + 1 + 1 := by
    rw [ClusterConfig.commMetaSection, hSystem]
    grind
  have hStart : dataServerStartSection c versionNumber =
      2 + c.apiNodes.length.toUInt32 + 1 + 1 + 1 +
        (c.commPairs versionNumber).length.toUInt32 := by
    rw [dataServerStartSection, hComm]
    grind
  have hRest : fillRest T c versionNumber = keyValueRest T c versionNumber := by
    unfold fillRest keyValueRest
    simp only [fillCounted_eq, bind_assoc, pure_bind, hStart, hComm, hSystem, icAssert, if_true]
    rfl
  unfold getKeyValueSectionsConfig getKeyValueSections
  rw [hRest]

/-! ### The array -/


theorem Encodable.complete (h : Encodable c versionNumber) : c.Complete versionNumber where
  numNodes_eq := h.numNodes_eq
  comms := h.comms
  connected := by
    rcases exists_mem_of_ne_nil _ h.dataServer with ⟨i, hi⟩
    rcases exists_mem_of_ne_nil _ h.other with ⟨j, hj⟩
    rcases mem_filter.mp hi with ⟨hiNode, hiType⟩
    rcases mem_filter.mp hj with ⟨hjNode, hjType⟩
    have hNe : i ≠ j := by
      intro hEq
      rw [← hEq, hiType] at hjType
      cases hjType
    -- the pair begins with the smaller node id
    rcases Nat.lt_or_gt_of_ne hNe with hLt | hGt
    · apply ne_nil_of_mem (a := (i, j))
      refine mem_flatMap.mpr ⟨i, hiNode, mem_map.mpr ⟨j, ?_, rfl⟩⟩
      exact mem_filter.mpr ⟨hjNode, by simp [hLt, hiType]⟩
    · apply ne_nil_of_mem (a := (j, i))
      refine mem_flatMap.mpr ⟨j, hjNode, mem_map.mpr ⟨i, ?_, rfl⟩⟩
      exact mem_filter.mpr ⟨hiNode, by simp [hGt, hiType]⟩

theorem length_apiNodes_add (c : ClusterConfig) :
    c.apiNodes.length + c.dataServers.length = c.nodes.length := by
  have h := length_eq_length_filter_add c.isDataServer (l := c.nodes)
  rw [Nat.add_comm] at h
  exact h.symm

theorem hasKeys_meta (sectId : UInt32) (hSect : sectId.toNat < 2 ^ 14) {n : Nat} (hn : n ≤ 2 ^ 14)
    (value : Nat → UInt32) :
    HasKeys ((List.range n).flatMap fun i => [keyWord int32Type sectId i.toUInt32, value i])
      ((List.range n).map fun i => ⟨1, sectId.toNat, i, 2⟩) := by
  apply hasKeys_flatMap
  intro i hi
  have hLt : i < 2 ^ 14 := Nat.lt_of_lt_of_le (mem_range.mp hi) hn
  have hId : i.toUInt32.toNat = i := toNat_toUInt32 (Nat.lt_trans hLt (by decide))
  have h := hasKeys_key (t := int32Type) (i := i.toUInt32) (by decide) hSect (by omega) [value i]
  rwa [hId] at h

/-- The words behind section 0, when all section numbers have room. -/
theorem hasKeys_keyValueRest (hT : TableSendable T) (hFits : TableFits T)
    (hc : Encodable c versionNumber) (hCount : sectionCount c versionNumber ≤ 2 ^ 14) :
    ∃ ws, keyValueRest T c versionNumber = .ok ws ∧ HasKeys ws (restInfo T c versionNumber) := by
  have hNodes := length_apiNodes_add c
  unfold sectionCount at hCount
  have hFillNode : ∀ i, ∀ sectId : UInt32, sectId.toNat < 2 ^ 14 →
      ∃ ws, fillNode T c versionNumber sectId i = .ok ws ∧
        HasKeys ws (nodeInfo T c versionNumber sectId.toNat i) :=
    fun i sectId hSect => hasKeys_section hT hFits _ _ _ _ hSect
  have hFillComm : ∀ p ∈ c.commPairs versionNumber, ∀ sectId : UInt32, sectId.toNat < 2 ^ 14 →
      ∃ ws, fillComm T c versionNumber sectId p = .ok ws ∧
        HasKeys ws (commInfo T c versionNumber sectId.toNat p) := by
    intro p hp sectId hSect
    rcases hc.comms p hp with ⟨conf, hConf⟩
    rcases hasKeys_section hT hFits versionNumber .comm conf sectId hSect with
      ⟨ws, hFill, hKeys⟩
    refine ⟨ws, ?_, ?_⟩
    · rw [fillComm, bind_of_ok hConf]
      exact hFill
    · rw [commInfo, commObject, hConf]
      exact hKeys
  have hApiLen : c.apiNodes.length.toUInt32.toNat = c.apiNodes.length :=
    toNat_toUInt32 (by omega)
  have hCommLen : (c.commPairs versionNumber).length.toUInt32.toNat =
      (c.commPairs versionNumber).length := toNat_toUInt32 (by omega)
  have hSystemMeta : c.systemMetaSection.toNat = 2 + c.apiNodes.length := by
    rw [ClusterConfig.systemMetaSection, UInt32.toNat_add, hApiLen]
    have hTwo : (2 : UInt32).toNat = 2 := rfl
    omega
  have hSystem : (c.systemMetaSection + 1).toNat = 3 + c.apiNodes.length := by
    rw [UInt32.toNat_add, hSystemMeta, UInt32.toNat_one]
    omega
  have hCommMeta : c.commMetaSection.toNat = 4 + c.apiNodes.length := by
    rw [ClusterConfig.commMetaSection, UInt32.toNat_add, hSystemMeta]
    have hTwo : (2 : UInt32).toNat = 2 := rfl
    omega
  have hComms : (c.commMetaSection + 1).toNat = 5 + c.apiNodes.length := by
    rw [UInt32.toNat_add, hCommMeta, UInt32.toNat_one]
    omega
  have hData : (c.commMetaSection + 1 + (c.commPairs versionNumber).length.toUInt32).toNat =
      5 + c.apiNodes.length + (c.commPairs versionNumber).length := by
    rw [UInt32.toNat_add, hComms, hCommLen]
    omega
  rcases hasKeys_fillSections c.apiNodes (fun i _ => hFillNode i) 2 2 rfl (by omega) with
    ⟨apis, hApis, hApisKeys⟩
  rcases hasKeys_section hT hFits versionNumber .system c.sysConf (c.systemMetaSection + 1)
    (by omega) with ⟨system, hFillSystem, hSystemKeys⟩
  rw [hSystem] at hSystemKeys
  rcases hasKeys_fillSections (c.commPairs versionNumber) hFillComm (c.commMetaSection + 1) _
    hComms (by omega) with ⟨comms, hFillComms, hCommsKeys⟩
  rcases hasKeys_fillSections c.dataServers (fun i _ => hFillNode i)
    (c.commMetaSection + 1 + (c.commPairs versionNumber).length.toUInt32) _ hData (by omega) with
    ⟨dataServers, hDataServers, hDataKeys⟩
  refine ⟨nodeMetaSection c (c.commPairs versionNumber).length ++ apis ++ systemMeta c ++ system ++
    commMeta c (c.commPairs versionNumber).length ++ comms ++ dataServers, ?_, ?_⟩
  · unfold keyValueRest
    simp only [bind_of_ok hApis, bind_of_ok hFillSystem,
      bind_of_ok hFillComms, bind_of_ok hDataServers]
    rfl
  · have hNumNodes : max c.apiNodes.length c.numNodes = c.numNodes := by
      rw [hc.numNodes_eq]
      exact Nat.max_eq_right (length_apiNodes_le c)
    have hNumNodesLe := hc.numNodes_le
    have hNodeMetaKeys : HasKeys (nodeMetaSection c (c.commPairs versionNumber).length)
        ((List.range c.numNodes).map fun i => ⟨1, 1, i, 2⟩) := by
      rw [nodeMetaSection, hNumNodes]
      exact hasKeys_meta 1 (by decide) (by omega) _
    have hSystemMetaKeys : HasKeys (systemMeta c) [⟨1, 2 + c.apiNodes.length, 0, 2⟩] := by
      have h := hasKeys_key (t := int32Type) (s := c.systemMetaSection) (i := 0) (by decide)
        (by omega) (by decide) [sectWord (c.systemMetaSection + 1)]
      rwa [hSystemMeta] at h
    have hCommMetaKeys : HasKeys (commMeta c (c.commPairs versionNumber).length)
        ((List.range (c.commPairs versionNumber).length).map
          fun i => ⟨1, 4 + c.apiNodes.length, i, 2⟩) := by
      have h := hasKeys_meta c.commMetaSection (by omega)
        (n := (c.commPairs versionNumber).length) (by omega)
        (fun i => sectWord (c.commMetaSection + i.toUInt32 + 1))
      rwa [hCommMeta] at h
    exact (((((hNodeMetaKeys.append hApisKeys).append hSystemMetaKeys).append
      hSystemKeys).append hCommMetaKeys).append hCommsKeys).append hDataKeys

theorem hasKeys_sectionZero (c : ClusterConfig) :
    HasKeys (sectionZero c) [⟨3, 0, 1000, 2⟩, ⟨3, 0, 2000, 2⟩, ⟨3, 0, 3000, 2⟩] := by
  have hSystem := hasKeys_key (t := sectType) (s := 0) (i := 1000) (by decide) (by decide)
    (by decide) [sectWord c.systemMetaSection]
  have hNodes := hasKeys_key (t := sectType) (s := 0) (i := 2000) (by decide) (by decide)
    (by decide) [sectWord 1]
  have hComms := hasKeys_key (t := sectType) (s := 0) (i := 3000) (by decide) (by decide)
    (by decide) [sectWord c.commMetaSection]
  exact hSystem.append (hNodes.append hComms)

/-- The checksum makes the exclusive or of all words zero. -/
theorem checksum_append_checksum (ws : List UInt32) : checksum (ws ++ [checksum ws]) = 0 := by
  rw [checksum, foldl_append]
  exact UInt32.xor_self

/-- The array, when all section numbers have room. -/
theorem exists_isArray (hT : TableSendable T) (hFits : TableFits T)
    (hc : Encodable c versionNumber) (hCount : sectionCount c versionNumber ≤ 2 ^ 14) :
    ∃ ws blocks, getKeyValueSectionsConfig T c versionNumber true = .ok ws ∧
      IsArray T c versionNumber ws blocks := by
  rcases getKeyValueSections_ok hT hc.complete with ⟨ws, hOk⟩
  rcases hasKeys_keyValueRest hT hFits hc hCount with ⟨rest, hRest, hRestKeys⟩
  rcases (hasKeys_sectionZero c).append hRestKeys with ⟨blocks, hBlocks, hKeys⟩
  have hConnected := hc.complete.connected
  have hSame : wordsOfBytes verString ++ sectionZero c ++ rest =
      wordsOfBytes verString ++ blocks.flatten := by
    rw [append_assoc, hBlocks]
  refine ⟨ws, blocks, ?_, ?_⟩
  · rw [getKeyValueSectionsConfig_eq]
    exact hOk
  · unfold getKeyValueSections at hOk
    rcases bind_eq_ok.mp hOk with ⟨len, hLen, hOk⟩
    simp only [if_neg hConnected, Bool.not_true, Bool.false_eq_true, if_false,
      bind_of_ok hRest, closeKeyValue, hSame] at hOk
    split at hOk
    · next hEq =>
      injection hOk with hWords
      constructor
      · exact hWords.symm
      · rw [hLen, ← hEq, hWords]
      · rw [← hWords]
        exact checksum_append_checksum _
      · exact hKeys
    · cases hOk

/-! ### The section numbers -/

theorem Steps.append {b d : Nat} {xs ys : List Nat} (h : Steps a xs b) (h' : Steps b ys d) :
    Steps a (xs ++ ys) d := by
  induction xs generalizing a with
  | nil =>
    have hEq : a = b := h
    rw [hEq]
    exact h'
  | cons x xs ih => exact ⟨h.1, ih h.2⟩

theorem steps_same (h : ∀ s ∈ ss, s = a) : Steps a ss a := by
  induction ss with
  | nil => exact rfl
  | cons s ss ih =>
    have hs := h s mem_cons_self
    refine ⟨.inl hs, ?_⟩
    rw [hs]
    exact ih fun s' hs' => h s' (mem_cons_of_mem s hs')

/-- A section begins with the next number. -/
theorem steps_next (hne : ss ≠ []) (h : ∀ s ∈ ss, s = a + 1) : Steps a ss (a + 1) := by
  cases ss with
  | nil => exact absurd rfl hne
  | cons s ss =>
    have hs := h s mem_cons_self
    refine ⟨.inr hs, ?_⟩
    rw [hs]
    exact steps_same fun s' hs' => h s' (mem_cons_of_mem s hs')

/-- The last number is the one before the list, or it is in the list. -/
theorem Steps.eq_or_mem {b : Nat} (h : Steps a ss b) : b = a ∨ b ∈ ss := by
  induction ss generalizing a with
  | nil => exact .inl (Eq.symm h)
  | cons s ss ih =>
    rcases ih h.2 with hEq | hMem
    · rw [hEq]
      exact .inr mem_cons_self
    · exact .inr (mem_cons_of_mem s hMem)

/-- The keys of a section are there, and they all have its number. -/
def InSection (sect : Nat) (keys : List KeyInfo) : Prop := keys ≠ [] ∧ ∀ k ∈ keys, k.sect = sect

theorem InSection.steps {keys : List KeyInfo} (h : InSection (a + 1) keys) :
    Steps a (keys.map (·.sect)) (a + 1) := by
  apply steps_next
  · intro hNil
    exact h.1 (map_eq_nil_iff.mp hNil)
  · intro s hs
    rcases mem_map.mp hs with ⟨k, hk, hEq⟩
    rw [← hEq]
    exact h.2 k hk

theorem inSection_sectionInfo (T : ConfigTable) (versionNumber : UInt64)
    (configType : ConfigType) (conf : ConfObject) (sect : Nat) :
    InSection sect (sectionInfo T versionNumber configType conf sect) := by
  constructor
  · intro hNil
    have h := (append_eq_nil_iff.mp hNil).2
    cases h
  · intro k hk
    rcases mem_append.mp hk with hEntry | hLast
    · rcases mem_map.mp hEntry with ⟨i, -, hEq⟩
      rw [← hEq]
    · rcases mem_cons.mp hLast with hEq | hLast
      · rw [hEq]
      · rw [mem_singleton.mp hLast]

theorem inSection_range {n : Nat} (sect : Nat) (hn : n ≠ 0) :
    InSection sect ((List.range n).map fun i => ⟨1, sect, i, 2⟩) := by
  constructor
  · intro hNil
    rw [map_eq_nil_iff, range_eq_nil] at hNil
    exact hn hNil
  · intro k hk
    rcases mem_map.mp hk with ⟨i, -, hEq⟩
    rw [← hEq]

/-- Sections one behind the other have numbers one behind the other. -/
theorem steps_sectionsInfo {α : Type} {info : Nat → α → List KeyInfo}
    (h : ∀ sect x, InSection sect (info sect x)) (xs : List α) :
    ∀ a, Steps a ((sectionsInfo info (a + 1) xs).map (·.sect)) (a + xs.length) := by
  induction xs with
  | nil =>
    intro a
    exact rfl
  | cons x xs ih =>
    intro a
    have hRest := ih (a + 1)
    rw [show a + 1 + xs.length = a + (x :: xs).length by rw [length_cons]; omega] at hRest
    rw [sectionsInfo, map_append]
    exact (h (a + 1) x).steps.append hRest

/-- The keys that are meant are in sections without gaps. -/
theorem steps_intended (T : ConfigTable) (hc : Encodable c versionNumber) :
    Steps 0 ((intended T c versionNumber).map (·.sect)) (sectionCount c versionNumber - 1) := by
  have hNodes := length_apiNodes_add c
  have hNumNodes : c.numNodes ≠ 0 := by
    have hLen := length_pos_of_ne_nil hc.dataServer
    rw [hc.numNodes_eq]
    omega
  have hComms : (c.commPairs versionNumber).length ≠ 0 := by
    have hLen := length_pos_of_ne_nil hc.complete.connected
    omega
  have hNode : ∀ sect i, InSection sect (nodeInfo T c versionNumber sect i) :=
    fun sect i => inSection_sectionInfo T versionNumber _ _ sect
  have hComm : ∀ sect p, InSection sect (commInfo T c versionNumber sect p) :=
    fun sect p => inSection_sectionInfo T versionNumber _ _ sect
  have hZero : Steps 0 [0, 0, 0] 0 := steps_same (by simp)
  have hNodeMeta := (inSection_range (0 + 1) hNumNodes).steps
  have hApis := steps_sectionsInfo hNode c.apiNodes 1
  have hSystemMeta : Steps (1 + c.apiNodes.length) [2 + c.apiNodes.length]
      (2 + c.apiNodes.length) := ⟨.inr (by omega), rfl⟩
  have hSystem := (inSection_sectionInfo T versionNumber .system c.sysConf
    (2 + c.apiNodes.length + 1)).steps
  have hCommMeta := (inSection_range (2 + c.apiNodes.length + 1 + 1) hComms).steps
  have hCommSections := steps_sectionsInfo hComm (c.commPairs versionNumber)
    (2 + c.apiNodes.length + 1 + 1)
  have hData := steps_sectionsInfo hNode c.dataServers
    (2 + c.apiNodes.length + 1 + 1 + (c.commPairs versionNumber).length)
  have hSystemSect : 3 + c.apiNodes.length = 2 + c.apiNodes.length + 1 := by omega
  have hCommMetaSect : 4 + c.apiNodes.length = 2 + c.apiNodes.length + 1 + 1 := by omega
  have hCommSect : 5 + c.apiNodes.length = 2 + c.apiNodes.length + 1 + 1 + 1 := by omega
  have hDataSect : 2 + c.apiNodes.length + 1 + 1 + 1 + (c.commPairs versionNumber).length =
      2 + c.apiNodes.length + 1 + 1 + (c.commPairs versionNumber).length + 1 := by omega
  have hLast : sectionCount c versionNumber - 1 = 2 + c.apiNodes.length + 1 + 1 +
      (c.commPairs versionNumber).length + c.dataServers.length := by
    unfold sectionCount
    omega
  unfold intended restInfo
  simp only [map_append, hSystemSect, hCommMetaSect, hCommSect, hDataSect, hLast]
  exact hZero.append ((((((hNodeMeta.append hApis).append hSystemMeta).append hSystem).append
    hCommMeta).append hCommSections).append hData)

/-! ## The result -/

theorem globTable_fits : TableFits globTable := by
  have hRows : ∀ p ∈ initConfigParameters, p.protocolId < 2 ^ 14 := by
    decide +kernel
  intro i
  simp only [globTable]
  cases hFind : initConfigParameters.find? (·.inx = i) with
  | none => exact Nat.two_pow_pos 14
  | some p => exact hRows p (mem_of_find?_eq_some hFind)

/-- A key has no room for the number of the last section when there are more than 2^14. -/
theorem Consistent.sectionCount_le (h : Consistent T c versionNumber) :
    sectionCount c versionNumber ≤ 2 ^ 14 := by
  rcases h.array with ⟨ws, blocks, -, hArray⟩
  rcases h.steps.eq_or_mem with hZero | hMem
  · omega
  · rcases mem_map.mp hMem with ⟨k, hk, hSect⟩
    rw [← hArray.keys] at hk
    rcases mem_map.mp hk with ⟨block, -, hRead⟩
    have hLt := sect_readKey_lt block
    rw [hRead, hSect] at hLt
    omega

/-- The array is the one that was counted, and its keys say what they should, exactly if the
sections can be numbered with 14 bits. -/
theorem consistent_iff (c : ClusterConfig) (versionNumber : UInt64)
    (hc : Encodable c versionNumber) :
    Consistent globTable c versionNumber ↔ sectionCount c versionNumber ≤ 2 ^ 14 := by
  constructor
  · exact Consistent.sectionCount_le
  · intro hCount
    constructor
    · exact exists_isArray globTable_sendable globTable_fits hc hCount
    · exact steps_intended globTable hc

/-- Three nodes have a consistent array. -/
theorem threeNodes_consistent :
    Encodable threeNodes iclaustronProtocolVersion ∧
      Consistent globTable threeNodes iclaustronProtocolVersion := by
  have hc : Encodable threeNodes iclaustronProtocolVersion := by
    constructor
    · exact threeNodes_complete.numNodes_eq
    · decide
    · exact threeNodes_complete.comms
    · decide
    · decide
  exact ⟨hc, (consistent_iff threeNodes iclaustronProtocolVersion hc).mpr (by decide)⟩

/-- A data server and 180 clients, all connected with each other. -/
def meshIds : List Nat := List.range' 1 181

def meshType (i : Nat) : NodeType := if i = 1 then .dataServer else .client

def mesh : ClusterConfig where
  numNodes := 181
  maxNodeId := 181
  nodeConfig i := some (nodeOf (meshType i) i.toUInt64 [97])
  nodeTypes := meshType
  commHash := meshIds.flatMap fun i => (meshIds.filter (decide <| i < ·)).map fun j =>
    commOf i.toUInt64 j.toUInt64 i.toUInt64 [97] [97]
  sysConf := initConfigObject globTable .system

theorem nodes_mesh : mesh.nodes = meshIds := by
  apply filter_eq_self.mpr
  intro i _
  rfl

theorem commPairs_mesh : mesh.commPairs iclaustronProtocolVersion =
    meshIds.flatMap fun i => (meshIds.filter (decide <| i < ·)).map fun j => (i, j) := by
  have hVersion : isIclaustronVersion iclaustronProtocolVersion = true := by decide
  unfold ClusterConfig.commPairs
  simp only [nodes_mesh, hVersion, Bool.or_true, Bool.and_true]

/-- A node is connected with all nodes that come after it. -/
theorem length_filter_lt_range' (n i : Nat) :
    ((List.range' 1 n).filter (decide <| i < ·)).length = n - i := by
  induction n with
  | zero => exact (Nat.zero_sub i).symm
  | succ n ih =>
    rw [range'_concat, filter_append, length_append, ih, filter_singleton,
      Nat.one_mul]
    rcases Nat.lt_or_ge i (1 + n) with hLt | hGe
    · rw [decide_eq_true hLt, cond_true, length_singleton]
      omega
    · rw [decide_eq_false (Nat.not_lt.mpr hGe), cond_false, length_nil]
      omega

theorem length_commPairs_mesh : (mesh.commPairs iclaustronProtocolVersion).length = 16290 := by
  rw [commPairs_mesh, length_flatMap]
  simp only [length_map, meshIds, length_filter_lt_range']
  decide +kernel

theorem mesh_encodable : Encodable mesh iclaustronProtocolVersion where
  numNodes_eq := by
    rw [nodes_mesh]
    rfl
  numNodes_le := by decide
  comms := by
    intro p hp
    rw [commPairs_mesh] at hp
    rcases mem_flatMap.mp hp with ⟨i, hi, hp⟩
    rcases mem_map.mp hp with ⟨j, hj, hEq⟩
    have hMem : commOf i.toUInt64 j.toUInt64 i.toUInt64 [97] [97] ∈ mesh.commHash :=
      mem_flatMap.mpr ⟨i, hi, mem_map.mpr ⟨j, hj, rfl⟩⟩
    rw [← hEq]
    apply getCommSection_of_mem hMem
    simp [commEqual, commOf_firstNodeId, commOf_secondNodeId]
  dataServer := by
    apply ne_nil_of_mem (a := 1)
    refine mem_filter.mpr ⟨?_, rfl⟩
    rw [nodes_mesh]
    decide
  other := by
    apply ne_nil_of_mem (a := 2)
    refine mem_filter.mpr ⟨?_, rfl⟩
    rw [nodes_mesh]
    decide

theorem sectionCount_mesh : sectionCount mesh iclaustronProtocolVersion = 16476 := by
  rw [sectionCount, nodes_mesh, length_commPairs_mesh, meshIds, length_range']

/-- The mesh has more sections than a key can tell apart. -/
theorem mesh_inconsistent :
    Encodable mesh iclaustronProtocolVersion ∧
      ¬Consistent globTable mesh iclaustronProtocolVersion := by
  constructor
  · exact mesh_encodable
  · intro h
    have hLe := h.sectionCount_le
    rw [sectionCount_mesh] at hLe
    exact absurd hLe (by decide)

end IClaustron.Config.EncoderSections
