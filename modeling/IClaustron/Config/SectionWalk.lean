import IClaustron.Config.KeyValue
import IClaustron.Config.Parameters
import IClaustron.Lib.Fields
import Mathlib.Data.List.Nodup

/-!
# Config.SectionWalk — the walks over a section of a version 2 configuration

Model of the walkers of api/ic_apic_cluster_config.ic: find_config_entry_uint32,
find_config_entry_uint64, find_config_entry_string, find_nodeid, find_comm_nodeid1,
find_comm_nodeid2 and check_section. A walk has an index into the array of words and the
number of entries that are left; every read of the array is checked here, and ic_require on
a type that is not known aborts.

The finders take the code of a string for the one of a 64-bit value and the other way
round, and check_section does not:

* `size_of_ram_memory_lost` — a section with one 64-bit value is not read back.

## Scope limits

Where a section starts is given by the caller; the chain of sections that
create_network_cluster_config follows is not modelled.
-/

namespace IClaustron.Config.SectionWalk

open Lib Protocol List Result

/-! ## Format -/

/-- The value of an entry. A string is stored with a NUL byte behind it. -/
inductive Value where
  | int32 (v : UInt32)
  | int64 (v : UInt64)
  | str (bytes : Bytes)
  deriving DecidableEq

structure Entry where
  key : UInt32
  value : Value
  deriving DecidableEq

/-- IC_CL_KEY_SHIFT and IC_CL_NEW_KEY_MASK. -/
def clKeyShift : UInt32 := 28
def clNewKeyMask : UInt32 := 0x0FFFFFFF

/-- The first word of an entry: the code of its type above the key. -/
def firstWord (type key : UInt32) : UInt32 := (type <<< clKeyShift) + key

/-- The words an entry is stored in. -/
def Entry.words (e : Entry) : List UInt32 :=
  match e.value with
  | .int32 v => [firstWord int32Type e.key, v]
  | .int64 v => [firstWord int64Type e.key, (v >>> 32).toUInt32, v.toUInt32]
  | .str bytes =>
    firstWord charType e.key :: (bytes.length + 1).toUInt32 ::
      strWords bytes (ndbMgmStrWordLen bytes.length)

/-- SYSTEM_SECTION_ADJUSTMENT is added to the keys of the section of the system. -/
def configKey (isSystemSection : Bool) (key : UInt32) : UInt32 :=
  if isSystemSection then key + 1000 else key

/-- A section with keys that are different and known. -/
structure Section where
  isSystemSection : Bool
  nodeType : UInt32
  entries : List Entry
  key_lt : ∀ e ∈ entries, e.key.toNat < 2 ^ 28
  known : ∀ e ∈ entries, (globTable.getConfEntry (configKey isSystemSection e.key).toNat).isSome
  distinct : (entries.map (·.key)).Nodup
  strings : ∀ e ∈ entries, ∀ bytes, e.value = .str bytes → bytes.length + 1 < 2 ^ 32

namespace Section

def body (S : Section) : List UInt32 := S.entries.flatMap Entry.words

/-- The number of words of the section. -/
def len (S : Section) : Nat := S.body.length + 3

def words (S : Section) : List UInt32 :=
  S.len.toUInt32 :: S.entries.length.toUInt32 :: S.nodeType :: S.body

/-- The values of the kind that `get` looks for, by their keys. -/
def lookup {α : Type} (S : Section) (get : Value → Option α) (key : UInt32) : Option α :=
  S.entries.findSome? fun e => if e.key = key then get e.value else none

end Section

def Value.int32? : Value → Option UInt32
  | int32 v => some v
  | _ => none

def Value.int64? : Value → Option UInt64
  | int64 v => some v
  | _ => none

def Value.str? : Value → Option Bytes
  | str bytes => some bytes
  | _ => none

/-- Whether the entry holds a 32-bit value. -/
def Entry.isInt32 (e : Entry) : Bool := e.value.int32?.isSome

/-- A section in an array of words; the number of words of an array is a `guint32`. -/
structure Stored where
  sect : Section
  before : List UInt32
  after : List UInt32
  fits : (before ++ sect.words ++ after).length < 2 ^ 32

namespace Stored

def keyValue (A : Stored) : List UInt32 := A.before ++ A.sect.words ++ A.after
def sectionStart (A : Stored) : UInt32 := A.before.length.toUInt32

end Stored

/-- The value is within the bounds of the parameter. -/
def InBounds (c : ConfigEntry) (v : UInt64) : Prop :=
  (∀ w, c.maxValue = some w → v ≤ w) ∧ (∀ w, c.minValue = some w → w ≤ v) ∧
    (c.isBoolean = true → v = 0 ∨ v = 1)

/-- The entry is within the bounds of its parameter; a string has none. -/
def Entry.InBounds (isSystemSection : Bool) (e : Entry) : Prop :=
  ∀ c, globTable.getConfEntry (configKey isSystemSection e.key).toNat = some c →
    match e.value with
    | .int32 v => SectionWalk.InBounds c v.toUInt64
    | .int64 v => SectionWalk.InBounds c v
    | .str _ => True

/-! ## Walks -/

inductive Fault where
  /-- A read behind the end of the array. -/
  | outOfArray
  /-- `ic_require` -/
  | abort
  deriving DecidableEq

variable (keyValue : List UInt32)

/-- `g_ntohl(key_value[i])`. -/
def readWord (i : UInt32) : Except Fault UInt32 :=
  match keyValue[i.toNat]? with
  | some w => .ok w
  | none => .error .outOfArray

def keyType (firstWord : UInt32) : UInt32 := firstWord >>> clKeyShift
def configId (firstWord : UInt32) : UInt32 := firstWord &&& clNewKeyMask

/-- Where the finders go on behind an entry. -/
def finderNext (i type : UInt32) : Except Fault UInt32 :=
  if type = 1 then .ok (i + 2)
  else if type = 2 then .ok (i + 3)
  else if type = 4 then do
    let strLen ← readWord keyValue (i + 1)
    let wordCount := (strLen + 3) / 4
    return i + (wordCount + 2)
  else .error .abort

/-- The loop of the finders. `hit` gets the type, the key and the index of an entry and the
index behind it, and says what is returned there. -/
def findLoop {α : Type} (hit : UInt32 → UInt32 → UInt32 → UInt32 → Except Fault (Option α)) :
    Nat → UInt32 → Except Fault (Option α)
  | 0, _ => .ok none
  | totalEntries + 1, i => do
    let word ← readWord keyValue i
    let next ← finderNext keyValue i (keyType word)
    match ← hit (keyType word) (configId word) i next with
    | some a => return some a
    | none => findLoop hit totalEntries next

/-- The loop on the entries of the section that starts at `sectionStart`. -/
def findInSection {α : Type} (hit : UInt32 → UInt32 → UInt32 → UInt32 → Except Fault (Option α))
    (sectionStart : UInt32) : Except Fault (Option α) := do
  let totalEntries ← readWord keyValue (sectionStart + 1)
  findLoop keyValue hit totalEntries.toNat (sectionStart + 3)

def hitUint32 (key type id i _next : UInt32) : Except Fault (Option UInt32) :=
  if type = 1 ∧ id = key then do
    let value ← readWord keyValue (i + 1)
    return some value
  else .ok none

def hitUint64 (key type id i _next : UInt32) : Except Fault (Option UInt64) :=
  if type = 2 ∧ id = key then do
    let valHigh ← readWord keyValue (i + 1)
    let valLow ← readWord keyValue (i + 2)
    return some (valLow.toUInt64 + (valHigh.toUInt64 <<< 32))
  else .ok none

/-- An `IC_STRING` that points into the array: the word it starts at and its length. -/
structure StringRef where
  start : UInt32
  len : UInt32
  deriving DecidableEq

/-- The bytes of the string. -/
def StringRef.bytes (s : StringRef) : Bytes :=
  ((bytesOfWords keyValue).drop (4 * s.start.toNat)).take s.len.toNat

/-- `loop_next_index` is behind the entry already when the string is made of it. -/
def hitString (key type id i next : UInt32) : Except Fault (Option StringRef) :=
  if type = 4 ∧ id = key then do
    let strLen ← readWord keyValue (i + 1)
    return some ⟨next + 2, strLen - 1⟩
  else .ok none

/-- `find_config_entry_uint32`; absence is the return code 1. -/
def findConfigEntryUint32 (sectionStart key : UInt32) : Except Fault (Option UInt32) :=
  findInSection keyValue (hitUint32 keyValue key) sectionStart

/-- `find_config_entry_uint64`; absence is the return code 1. -/
def findConfigEntryUint64 (sectionStart key : UInt32) : Except Fault (Option UInt64) :=
  findInSection keyValue (hitUint64 keyValue key) sectionStart

/-- `find_config_entry_string`; absence is IC_ERROR_NO_CONF_ENTRY_FOUND. -/
def findConfigEntryString (sectionStart key : UInt32) : Except Fault (Option StringRef) :=
  findInSection keyValue (hitString keyValue key) sectionStart

/-- SOCKET_FIRST_NODE_ID and SOCKET_SECOND_NODE_ID. -/
def socketFirstNodeId : UInt32 := 400
def socketSecondNodeId : UInt32 := 401

/-- What `find_nodeid` gives back: the return value, the node type and the node id, which is
set when the return value is not 0. -/
structure NodeId where
  nextIndex : UInt32
  nodeType : UInt32
  nodeId : Option UInt32
  deriving DecidableEq

/-- `find_nodeid`. -/
def findNodeid (nextIndex : UInt32) : Except Fault NodeId := do
  let nextLen ← readWord keyValue nextIndex
  let totalEntries ← readWord keyValue (nextIndex + 1)
  let nodeType ← readWord keyValue (nextIndex + 2)
  match ← findLoop keyValue (hitUint32 keyValue icNodeId) totalEntries.toNat (nextIndex + 3) with
  | some nodeId => return ⟨nextIndex + nextLen, nodeType, some nodeId⟩
  | none => return ⟨0, nodeType, none⟩

/-- `find_comm_nodeid1`; absence is the return code 1. -/
def findCommNodeid1 (nextIndex : UInt32) : Except Fault (Option UInt32) :=
  findInSection keyValue (hitUint32 keyValue socketFirstNodeId) nextIndex

/-- `find_comm_nodeid2`; absence is the return code 1. -/
def findCommNodeid2 (nextIndex : UInt32) : Except Fault (Option UInt32) :=
  findInSection keyValue (hitUint32 keyValue socketSecondNodeId) nextIndex

/-- The limits of a parameter in `check_section`. -/
def withinLimits (c : ConfigEntry) (val : UInt64) : Bool :=
  (match c.maxValue with
    | some w => !decide (w < val)
    | none => true) &&
  (match c.minValue with
    | some w => !decide (val < w)
    | none => true)

/-- What `check_section` does with an entry: the index behind it, or `none` when the
section is refused. -/
def checkEntry (c : ConfigEntry) (i type : UInt32) : Except Fault (Option UInt32) :=
  if type = 1 then do
    let val ← readWord keyValue (i + 1)
    if c.isDeprecated then return some (i + 2)
    if !withinLimits c val.toUInt64 then return none
    if c.isBoolean && (val != 1 && val != 0) then return none
    return some (i + 2)
  else if type = 4 then do
    let valHigh ← readWord keyValue (i + 1)
    let valLow ← readWord keyValue (i + 2)
    if c.isDeprecated then return some (i + 3)
    if !withinLimits c (valLow.toUInt64 + (valHigh.toUInt64 <<< 32)) then return none
    return some (i + 3)
  else if type = 2 then do
    let strLen ← readWord keyValue (i + 1)
    let wordCount := (strLen + 3) / 4
    return some (i + (wordCount + 2))
  else .error .abort

/-- The loop of `check_section`. -/
def checkLoop (isSystemSection : Bool) : Nat → UInt32 → Except Fault Bool
  | 0, _ => .ok true
  | totalEntries + 1, i => do
    let word ← readWord keyValue i
    match globTable.getConfEntry (configKey isSystemSection (configId word)).toNat with
    | none => return false
    | some c =>
      match ← checkEntry keyValue c i (keyType word) with
      | none => return false
      | some next => checkLoop isSystemSection totalEntries next

/-- `check_section`; the return code 0 is `true`. -/
def checkSection (sectionStart : UInt32) (isSystemSection : Bool) : Except Fault Bool := do
  let totalEntries ← readWord keyValue (sectionStart + 1)
  checkLoop keyValue isSystemSection totalEntries.toNat (sectionStart + 3)

/-! ## Entries one after the other -/

variable {key type : UInt32} {e : Entry} {after before : List Entry}

theorem toNat_firstWord (hType : type.toNat < 16) (hKey : key.toNat < 2 ^ 28) :
    (firstWord type key).toNat = type.toNat * 2 ^ 28 + key.toNat := by
  have hShift : (type <<< clKeyShift).toNat = type.toNat * 2 ^ 28 := by
    rw [toNat_shiftLeft_fits type clKeyShift (n := 28) rfl (by decide) (by omega), Nat.shiftLeft_eq]
  rw [firstWord, UInt32.toNat_add, hShift]
  omega

theorem keyType_firstWord (hType : type.toNat < 16) (hKey : key.toNat < 2 ^ 28) :
    keyType (firstWord type key) = type := by
  apply UInt32.toNat_inj.mp
  have hShift : (keyType (firstWord type key)).toNat = (firstWord type key).toNat / 2 ^ 28 := by
    rw [keyType, UInt32.toNat_shiftRight, Nat.shiftRight_eq_div_pow]
    rfl
  rw [hShift, toNat_firstWord hType hKey]
  omega

theorem configId_firstWord (hType : type.toNat < 16) (hKey : key.toNat < 2 ^ 28) :
    configId (firstWord type key) = key := by
  apply UInt32.toNat_inj.mp
  rw [configId, toNat_and_low _ clNewKeyMask (m := 28) rfl, toNat_firstWord hType hKey]
  omega

/-- The array has the words `ws` from the index `i` on. -/
structure At (i : UInt32) (ws : List UInt32) : Prop where
  isPrefix : ws <+: keyValue.drop i.toNat
  fits : keyValue.length < 2 ^ 32

variable {keyValue} {i : UInt32} {w : UInt32} {ws : List UInt32}

theorem At.getElem? (h : At keyValue i (w :: ws)) : keyValue[i.toNat]? = some w := by
  rcases h.isPrefix with ⟨rest, hRest⟩
  have hHead : (keyValue.drop i.toNat)[0]? = some w := by
    rw [← hRest]
    rfl
  rwa [getElem?_drop, Nat.add_zero] at hHead

theorem At.read (h : At keyValue i (w :: ws)) : readWord keyValue i = .ok w := by
  rw [readWord, h.getElem?]

theorem At.tail (h : At keyValue i (w :: ws)) : At keyValue (i + 1) ws := by
  have hLt : i.toNat < keyValue.length := (List.getElem?_eq_some_iff.mp h.getElem?).1
  have hNext : (i + 1).toNat = i.toNat + 1 := by
    have hFits := h.fits
    rw [UInt32.toNat_add, UInt32.toNat_one]
    omega
  refine ⟨?_, h.fits⟩
  rcases h.isPrefix with ⟨rest, hRest⟩
  refine ⟨rest, ?_⟩
  rw [hNext, ← List.drop_drop, ← hRest]
  rfl

theorem Entry.eq_int32 (h : e.isInt32 = true) : ∃ v, e.value = .int32 v := by
  rcases e with ⟨key, value⟩
  cases value with
  | int32 v => exact ⟨v, rfl⟩
  | int64 v => cases h
  | str bytes => cases h

/-- The words of a 32-bit entry, and what is stored behind them. -/
theorem At.first_int32 {e : Entry} {entries : List Entry}
    (h : At keyValue i ((e :: entries).flatMap Entry.words ++ ws)) (hInt : e.isInt32 = true) :
    ∃ key v, e = ⟨key, .int32 v⟩ ∧
      At keyValue i (firstWord int32Type key :: v :: (entries.flatMap Entry.words ++ ws)) ∧
      At keyValue (i + 2) (entries.flatMap Entry.words ++ ws) := by
  rcases e with ⟨key, value⟩
  rcases Entry.eq_int32 hInt with ⟨v, hValue⟩
  have hValue : value = .int32 v := hValue
  subst hValue
  have hHead : At keyValue i
      (firstWord int32Type key :: v :: (entries.flatMap Entry.words ++ ws)) := by
    simpa [Entry.words] using h
  have hTwo := hHead.tail.tail
  rw [UInt32.add_assoc] at hTwo
  exact ⟨key, v, rfl, hHead, hTwo⟩

section Find

variable {α : Type} (hit : UInt32 → UInt32 → UInt32 → UInt32 → Except Fault (Option α))
  (get : Entry → Option α)

/-- A walk over 32-bit entries ends at the first one that is a hit, or comes to what is
stored behind them. -/
theorem findLoop_int32 (hHit : ∀ key v i next ws,
      At keyValue i (firstWord int32Type key :: v :: ws) →
        hit 1 key i next = .ok (get ⟨key, .int32 v⟩)) :
    ∀ (entries : List Entry) (i : UInt32) (ws : List UInt32),
      (∀ e ∈ entries, e.isInt32 = true) → (∀ e ∈ entries, e.key.toNat < 2 ^ 28) →
      At keyValue i (entries.flatMap Entry.words ++ ws) →
      ∃ j, At keyValue j ws ∧ ∀ n, findLoop keyValue hit (entries.length + n) i =
        match entries.findSome? get with
        | some a => .ok (some a)
        | none => findLoop keyValue hit n j := by
  intro entries
  induction entries with
  | nil =>
    intro i ws _ _ h
    exact ⟨i, h, fun n => by simp⟩
  | cons e entries ih =>
    intro i ws hAll hKeys h
    rcases h.first_int32 (hAll e mem_cons_self) with ⟨key, v, rfl, hHead, hNext⟩
    have hKey : key.toNat < 2 ^ 28 := hKeys ⟨key, .int32 v⟩ (by simp)
    rcases ih (i + 2) ws (fun e he => hAll e (by simp [he])) (fun e he => hKeys e (by simp [he]))
      hNext with ⟨j, hj, hRest⟩
    refine ⟨j, hj, fun n => ?_⟩
    have hType : keyType (firstWord int32Type key) = 1 := keyType_firstWord (by decide) hKey
    have hId : configId (firstWord int32Type key) = key := configId_firstWord (by decide) hKey
    have hStep : findLoop keyValue hit ((⟨key, .int32 v⟩ :: entries : List Entry).length + n) i =
        match get ⟨key, .int32 v⟩ with
        | some a => .ok (some a)
        | none => findLoop keyValue hit (entries.length + n) (i + 2) := by
      have hLength : (⟨key, .int32 v⟩ :: entries : List Entry).length + n
          = entries.length + n + 1 := by
        rw [length_cons]
        omega
      rw [hLength, findLoop, bind_of_ok hHead.read, hType, hId]
      have hFinder : finderNext keyValue i 1 = .ok (i + 2) := rfl
      rw [bind_of_ok hFinder, bind_of_ok (hHit key v i (i + 2) _ hHead)]
      cases get ⟨key, .int32 v⟩ with
      | some a => rfl
      | none => rfl
    rw [hStep, findSome?_cons]
    cases get ⟨key, .int32 v⟩ with
    | some a => rfl
    | none => exact hRest n

end Find

/-! ## Checks -/

theorem withinLimits_iff (c : ConfigEntry) (val : UInt64) :
    withinLimits c val = true ↔
      (∀ w, c.maxValue = some w → val ≤ w) ∧ ∀ w, c.minValue = some w → w ≤ val := by
  rw [withinLimits, Bool.and_eq_true]
  constructor
  · rintro ⟨hMax, hMin⟩
    constructor
    · intro w hw
      simpa [hw] using hMax
    · intro w hw
      simpa [hw] using hMin
  · rintro ⟨hMax, hMin⟩
    constructor
    · cases hw : c.maxValue with
      | none => rfl
      | some w => simpa using hMax w hw
    · cases hw : c.minValue with
      | none => rfl
      | some w => simpa using hMin w hw

/-- No bounds are declared for a parameter that is deprecated. -/
theorem inBounds_of_deprecated {key : Nat} {c : ConfigEntry}
    (hKnown : globTable.getConfEntry key = some c) (hDeprecated : c.isDeprecated = true)
    (val : UInt64) : InBounds c val := by
  have hRows : ∀ p ∈ initConfigParameters, p.entry.isDeprecated = true →
      p.entry.maxValue = none ∧ p.entry.minValue = none ∧ p.entry.isBoolean = false := by
    decide +kernel
  have hNone : c.maxValue = none ∧ c.minValue = none ∧ c.isBoolean = false := by
    unfold ConfigTable.getConfEntry at hKnown
    dsimp only at hKnown
    split_ifs at hKnown
    have hEntry : globTable.globConfEntry (globTable.mapConfigIdToInx key) = c :=
      Option.some.inj hKnown
    rw [← hEntry] at hDeprecated ⊢
    simp only [globTable] at hDeprecated ⊢
    generalize ((initConfigParameters.find? (·.configId = key)).map (·.inx)).getD 0 = inx
      at hDeprecated ⊢
    cases hFind : initConfigParameters.find? (·.inx = inx) with
    | none =>
      rw [hFind] at hDeprecated
      cases hDeprecated
    | some p =>
      rw [hFind] at hDeprecated
      exact hRows p (mem_of_find?_eq_some hFind) hDeprecated
  rcases hNone with ⟨hMax, hMin, hBool⟩
  refine ⟨?_, ?_, ?_⟩
  · intro w hw
    rw [hMax] at hw
    cases hw
  · intro w hw
    rw [hMin] at hw
    cases hw
  · intro h
    rw [hBool] at h
    cases h

/-- A 32-bit value is passed exactly if it is within the bounds of its parameter. -/
theorem checkEntry_int32 {key : Nat} {c : ConfigEntry} {v : UInt32}
    (hKnown : globTable.getConfEntry key = some c) (h : At keyValue i (w :: v :: ws)) :
    (InBounds c v.toUInt64 → checkEntry keyValue c i 1 = .ok (some (i + 2))) ∧
      (¬ InBounds c v.toUInt64 → checkEntry keyValue c i 1 = .ok none) := by
  have hRead : readWord keyValue (i + 1) = .ok v := h.tail.read
  have hBool : (c.isBoolean && (v != 1 && v != 0)) = true ↔
      ¬ (c.isBoolean = true → v.toUInt64 = 0 ∨ v.toUInt64 = 1) := by
    have h0 : v.toUInt64 = 0 ↔ v = 0 := UInt32.toUInt64_inj (b := 0)
    have h1 : v.toUInt64 = 1 ↔ v = 1 := UInt32.toUInt64_inj (b := 1)
    rw [h0, h1]
    cases c.isBoolean with
    | false => simp
    | true => simp [and_comm]
  have hLimits := withinLimits_iff c v.toUInt64
  unfold checkEntry
  rw [if_pos rfl, bind_of_ok hRead]
  by_cases hDeprecated : c.isDeprecated = true
  · rw [if_pos hDeprecated]
    exact ⟨fun _ => rfl, fun hNot => absurd (inBounds_of_deprecated hKnown hDeprecated _) hNot⟩
  · rw [if_neg hDeprecated]
    by_cases hWithin : withinLimits c v.toUInt64 = true
    · have hBounds := hLimits.mp hWithin
      by_cases hb : (c.isBoolean && (v != 1 && v != 0)) = true
      · refine ⟨fun hIn => absurd hIn.2.2 (hBool.mp hb), fun _ => ?_⟩
        rw [hWithin, hb]
        rfl
      · refine ⟨fun _ => ?_, fun hNot => ?_⟩
        · rw [hWithin, Bool.eq_false_iff.mpr hb]
          rfl
        · exact absurd ⟨hBounds.1, hBounds.2, not_not.mp (fun h => hb (hBool.mpr h))⟩ hNot
    · refine ⟨fun hIn => absurd (hLimits.mpr ⟨hIn.1, hIn.2.1⟩) hWithin, fun _ => ?_⟩
      rw [Bool.eq_false_iff.mpr hWithin]
      rfl

/-- A walk of `check_section` over 32-bit entries. -/
theorem checkLoop_int32 {isSystemSection : Bool} :
    ∀ (entries : List Entry) (i : UInt32) (ws : List UInt32),
      (∀ e ∈ entries, e.isInt32 = true) → (∀ e ∈ entries, e.key.toNat < 2 ^ 28) →
      (∀ e ∈ entries, (globTable.getConfEntry (configKey isSystemSection e.key).toNat).isSome) →
      At keyValue i (entries.flatMap Entry.words ++ ws) →
      ∃ accepted, checkLoop keyValue isSystemSection entries.length i = .ok accepted ∧
        (accepted = true ↔ ∀ e ∈ entries, e.InBounds isSystemSection) := by
  intro entries
  induction entries with
  | nil =>
    intro i ws _ _ _ _
    exact ⟨true, rfl, by simp⟩
  | cons e entries ih =>
    intro i ws hAll hKeys hKnown h
    rcases h.first_int32 (hAll e mem_cons_self) with ⟨key, v, rfl, hHead, hNext⟩
    have hKey : key.toNat < 2 ^ 28 := hKeys ⟨key, .int32 v⟩ (by simp)
    have hType : keyType (firstWord int32Type key) = 1 := keyType_firstWord (by decide) hKey
    have hId : configId (firstWord int32Type key) = key := configId_firstWord (by decide) hKey
    rcases Option.isSome_iff_exists.mp (hKnown ⟨key, .int32 v⟩ (by simp)) with ⟨c, hc⟩
    have hc : globTable.getConfEntry (configKey isSystemSection key).toNat = some c := hc
    have hIn : Entry.InBounds isSystemSection ⟨key, .int32 v⟩ ↔ InBounds c v.toUInt64 := by
      constructor
      · intro h
        exact h c hc
      · intro h c' hc'
        have hEq : c' = c := Option.some.inj (hc'.symm.trans hc)
        rw [hEq]
        exact h
    rw [length_cons, checkLoop, bind_of_ok hHead.read, hType, hId, hc]
    have hCheck := checkEntry_int32 hc hHead
    by_cases hBounds : InBounds c v.toUInt64
    · rcases ih (i + 2) ws (fun e he => hAll e (by simp [he])) (fun e he => hKeys e (by simp [he]))
        (fun e he => hKnown e (by simp [he])) hNext with ⟨accepted, hLoop, hAccepted⟩
      refine ⟨accepted, ?_, ?_⟩
      · rw [← hLoop]
        exact bind_of_ok (hCheck.1 hBounds) _
      · rw [hAccepted, forall_mem_cons, hIn]
        exact ⟨fun h => ⟨hBounds, h⟩, fun h => h.2⟩
    · refine ⟨false, bind_of_ok (hCheck.2 hBounds) _, ?_⟩
      rw [forall_mem_cons, hIn]
      exact ⟨fun h => absurd h Bool.false_ne_true, fun h => absurd h.1 hBounds⟩

/-! ## A section that is read back -/

/-- The values of a section are found under their keys and nothing else is, the node ids too,
and the check accepts it exactly if its values are within their bounds. -/
structure Decodes (A : Stored) : Prop where
  uint32 : ∀ key, findConfigEntryUint32 A.keyValue A.sectionStart key =
    .ok (A.sect.lookup Value.int32? key)
  uint64 : ∀ key, findConfigEntryUint64 A.keyValue A.sectionStart key =
    .ok (A.sect.lookup Value.int64? key)
  string : ∀ key, ∃ s, findConfigEntryString A.keyValue A.sectionStart key = .ok s ∧
    s.map (StringRef.bytes A.keyValue) = A.sect.lookup Value.str? key
  nodeid : findNodeid A.keyValue A.sectionStart =
    match A.sect.lookup Value.int32? icNodeId with
    | some nodeId => .ok ⟨A.sectionStart + A.sect.len.toUInt32, A.sect.nodeType, some nodeId⟩
    | none => .ok ⟨0, A.sect.nodeType, none⟩
  commNodeid1 : findCommNodeid1 A.keyValue A.sectionStart =
    .ok (A.sect.lookup Value.int32? socketFirstNodeId)
  commNodeid2 : findCommNodeid2 A.keyValue A.sectionStart =
    .ok (A.sect.lookup Value.int32? socketSecondNodeId)
  check : ∃ accepted,
    checkSection A.keyValue A.sectionStart A.sect.isSystemSection = .ok accepted ∧
      (accepted = true ↔ ∀ e ∈ A.sect.entries, e.InBounds A.sect.isSystemSection)

namespace Stored

variable (A : Stored)

theorem at_words : At A.keyValue A.sectionStart (A.sect.words ++ A.after) := by
  have hLen : A.keyValue.length = A.before.length + (A.sect.words ++ A.after).length := by
    rw [keyValue, append_assoc, length_append]
  have hStart : A.sectionStart.toNat = A.before.length := by
    have hFits : A.keyValue.length < 2 ^ 32 := A.fits
    rw [sectionStart, Nat.toUInt32_eq, UInt32.toNat_ofNat']
    exact Nat.mod_eq_of_lt (by omega)
  refine ⟨⟨[], ?_⟩, A.fits⟩
  rw [hStart, keyValue, append_nil, append_assoc, drop_left]

theorem at_body : At A.keyValue (A.sectionStart + 3) (A.sect.body ++ A.after) := by
  have h := A.at_words.tail.tail.tail
  rwa [UInt32.add_assoc, UInt32.add_assoc] at h

theorem entries_le (entries : List Entry) :
    entries.length ≤ (entries.flatMap Entry.words).length := by
  induction entries with
  | nil => exact Nat.le_refl 0
  | cons e entries ih =>
    have hWords : 1 ≤ e.words.length := by
      unfold Entry.words
      cases e.value with
      | int32 v => simp
      | int64 v => simp
      | str bytes => simp
    rw [flatMap_cons, length_append, length_cons]
    omega

theorem toNat_totalEntries : A.sect.entries.length.toUInt32.toNat = A.sect.entries.length := by
  have hFits : (A.before ++ A.sect.words ++ A.after).length < 2 ^ 32 := A.fits
  have hLe : A.sect.entries.length ≤ A.sect.body.length := entries_le A.sect.entries
  rw [length_append, length_append] at hFits
  have hWords : A.sect.words.length = A.sect.body.length + 3 := rfl
  rw [Nat.toUInt32_eq, UInt32.toNat_ofNat']
  exact Nat.mod_eq_of_lt (by omega)

variable {α : Type} (hit : UInt32 → UInt32 → UInt32 → UInt32 → Except Fault (Option α))
  (get : Entry → Option α)

theorem findInSection_eq : findInSection A.keyValue hit A.sectionStart =
    findLoop A.keyValue hit A.sect.entries.length (A.sectionStart + 3) := by
  have hRead : readWord A.keyValue (A.sectionStart + 1) = .ok A.sect.entries.length.toUInt32 :=
    A.at_words.tail.read
  rw [findInSection, bind_of_ok hRead, A.toNat_totalEntries]

/-- A finder in a section of 32-bit entries. -/
theorem findInSection_int32 (hHit : ∀ key v i next ws,
      At A.keyValue i (firstWord int32Type key :: v :: ws) →
        hit 1 key i next = .ok (get ⟨key, .int32 v⟩))
    (hAll : ∀ e ∈ A.sect.entries, e.isInt32 = true) :
    findInSection A.keyValue hit A.sectionStart = .ok (A.sect.entries.findSome? get) := by
  rcases findLoop_int32 hit get hHit A.sect.entries (A.sectionStart + 3) A.after hAll A.sect.key_lt
    A.at_body with ⟨j, -, hLoop⟩
  have h := hLoop 0
  rw [Nat.add_zero] at h
  rw [A.findInSection_eq, h]
  cases A.sect.entries.findSome? get with
  | some a => rfl
  | none => rfl

theorem hitUint32_int32 (key : UInt32) : ∀ id v i next ws,
    At A.keyValue i (firstWord int32Type id :: v :: ws) →
      hitUint32 A.keyValue key 1 id i next =
        .ok ((fun e : Entry => if e.key = key then e.value.int32? else none) ⟨id, .int32 v⟩) := by
  intro id v i next ws h
  have hRead : readWord A.keyValue (i + 1) = .ok v := h.tail.read
  unfold hitUint32
  by_cases hKey : id = key
  · rw [if_pos ⟨rfl, hKey⟩, bind_of_ok hRead]
    simp only [if_pos hKey]
    rfl
  · rw [if_neg fun hBoth => hKey hBoth.2]
    simp only [if_neg hKey]

theorem findUint32_int32 (hAll : ∀ e ∈ A.sect.entries, e.isInt32 = true) (key : UInt32) :
    findInSection A.keyValue (hitUint32 A.keyValue key) A.sectionStart =
      .ok (A.sect.lookup Value.int32? key) :=
  A.findInSection_int32 _ _ (A.hitUint32_int32 key) hAll

/-- Nothing is found by a key of another kind. -/
theorem lookup_none (get : Value → Option α) (hGet : ∀ v, get (.int32 v) = none)
    (hAll : ∀ e ∈ A.sect.entries, e.isInt32 = true) (key : UInt32) :
    A.sect.lookup get key = none := by
  apply findSome?_eq_none_iff.mpr
  intro e he
  rcases Entry.eq_int32 (hAll e he) with ⟨v, hv⟩
  rw [hv, hGet, ite_self]

theorem decodes_of_int32 (hAll : ∀ e ∈ A.sect.entries, e.isInt32 = true) : Decodes A where
  uint32 := A.findUint32_int32 hAll
  uint64 key := by
    have h := A.findInSection_int32 (hitUint64 A.keyValue key) (fun _ => none)
      (fun _ _ _ _ _ _ => rfl) hAll
    rw [A.lookup_none Value.int64? (fun _ => rfl) hAll, findConfigEntryUint64, h]
    exact congrArg _ (findSome?_eq_none_iff.mpr fun _ _ => rfl)
  string key := by
    have h := A.findInSection_int32 (hitString A.keyValue key) (fun _ => none)
      (fun _ _ _ _ _ _ => rfl) hAll
    refine ⟨none, ?_, ?_⟩
    · rw [findConfigEntryString, h]
      exact congrArg _ (findSome?_eq_none_iff.mpr fun _ _ => rfl)
    · rw [A.lookup_none Value.str? (fun _ => rfl) hAll]
      rfl
  nodeid := by
    have hFind := A.findUint32_int32 hAll icNodeId
    have hLen : readWord A.keyValue A.sectionStart = .ok A.sect.len.toUInt32 := A.at_words.read
    have hEntries : readWord A.keyValue (A.sectionStart + 1) =
      .ok A.sect.entries.length.toUInt32 := A.at_words.tail.read
    have hType : readWord A.keyValue (A.sectionStart + 2) = .ok A.sect.nodeType := by
      have h := A.at_words.tail.tail.read
      rwa [UInt32.add_assoc] at h
    rw [A.findInSection_eq] at hFind
    rw [findNodeid, bind_of_ok hLen, bind_of_ok hEntries, bind_of_ok hType,
      A.toNat_totalEntries, bind_of_ok hFind]
    cases A.sect.lookup Value.int32? icNodeId with
    | some nodeId => rfl
    | none => rfl
  commNodeid1 := A.findUint32_int32 hAll socketFirstNodeId
  commNodeid2 := A.findUint32_int32 hAll socketSecondNodeId
  check := by
    have hEntries : readWord A.keyValue (A.sectionStart + 1) =
      .ok A.sect.entries.length.toUInt32 := A.at_words.tail.read
    rw [checkSection, bind_of_ok hEntries, A.toNat_totalEntries]
    exact checkLoop_int32 A.sect.entries (A.sectionStart + 3) A.after hAll A.sect.key_lt
      A.sect.known A.at_body

/-! ### The first entry of another kind -/

/-- A finder that passes over 32-bit entries comes to the first other one. -/
theorem exists_first (hEntries : A.sect.entries = before ++ e :: after)
    (hBefore : ∀ e ∈ before, e.isInt32 = true) (hHit : ∀ key i next, hit 1 key i next = .ok none) :
    ∃ j ws, At A.keyValue j (e.words ++ ws) ∧
      findInSection A.keyValue hit A.sectionStart =
        findLoop A.keyValue hit (after.length + 1) j := by
  have hBody : A.sect.body ++ A.after =
      before.flatMap Entry.words ++ (e.words ++ (after.flatMap Entry.words ++ A.after)) := by
    rw [Section.body, hEntries, flatMap_append, flatMap_cons, append_assoc,
      append_assoc]
  have hAt := A.at_body
  rw [hBody] at hAt
  have hKeys : ∀ e ∈ before, e.key.toNat < 2 ^ 28 := by
    intro e he
    apply A.sect.key_lt
    rw [hEntries]
    exact mem_append_left _ he
  rcases findLoop_int32 hit (fun _ => none) (fun key _ i next _ _ => hHit key i next)
    before _ _ hBefore hKeys hAt with ⟨j, hj, hLoop⟩
  refine ⟨j, _, hj, ?_⟩
  have hLength : A.sect.entries.length = before.length + (after.length + 1) := by
    rw [hEntries, length_append, length_cons]
  rw [A.findInSection_eq, hLength, hLoop]
  have hNone : before.findSome? (fun _ => (none : Option α)) = none :=
    findSome?_eq_none_iff.mpr fun _ _ => rfl
  rw [hNone]

/-- A key whose entry is of another kind is not found. -/
theorem lookup_of_mem (he : e ∈ A.sect.entries) (get : Value → Option α) (hGet : get e.value = none)
    : A.sect.lookup get e.key = none := by
  apply findSome?_eq_none_iff.mpr
  intro e' he'
  by_cases hKey : e'.key = e.key
  · have hEq : e' = e := inj_on_of_nodup_map A.sect.distinct he' he hKey
    rw [hEq, hGet, ite_self]
  · rw [if_neg hKey]

/-- A string is taken for a 64-bit value. -/
theorem uint64_found {bytes : Bytes}
    (hEntries : A.sect.entries = before ++ ⟨key, .str bytes⟩ :: after)
    (hBefore : ∀ e ∈ before, e.isInt32 = true) :
    ∃ v, findConfigEntryUint64 A.keyValue A.sectionStart key = .ok (some v) := by
  have hMem : (⟨key, .str bytes⟩ : Entry) ∈ A.sect.entries := by
    rw [hEntries]
    exact mem_append_right _ mem_cons_self
  have hKey : key.toNat < 2 ^ 28 := A.sect.key_lt _ hMem
  rcases A.exists_first (hitUint64 A.keyValue key) hEntries hBefore (fun _ _ _ => rfl) with
    ⟨j, ws, hAt, hFind⟩
  rcases hWords : strWords bytes (ndbMgmStrWordLen bytes.length) with _ | ⟨w, rest⟩
  · have hLength := congrArg List.length hWords
    rw [length_strWords, ndbMgmStrWordLen, length_nil] at hLength
    omega
  · have hAt : At A.keyValue j
        (firstWord charType key :: (bytes.length + 1).toUInt32 :: w :: (rest ++ ws)) := by
      simpa [Entry.words, hWords] using hAt
    have hType : keyType (firstWord charType key) = 2 := keyType_firstWord (by decide) hKey
    have hId : configId (firstWord charType key) = key := configId_firstWord (by decide) hKey
    have hHigh := hAt.tail.read
    have hLow := hAt.tail.tail.read
    rw [UInt32.add_assoc] at hLow
    refine ⟨w.toUInt64 + ((bytes.length + 1).toUInt32.toUInt64 <<< 32), ?_⟩
    rw [findConfigEntryUint64, hFind, findLoop, bind_of_ok hAt.read, hType, hId]
    have hNext : finderNext A.keyValue j 2 = .ok (j + 3) := rfl
    have hHit : hitUint64 A.keyValue key 2 key j (j + 3) =
        .ok (some (w.toUInt64 + ((bytes.length + 1).toUInt32.toUInt64 <<< 32))) := by
      rw [hitUint64, if_pos ⟨rfl, rfl⟩, bind_of_ok hHigh]
      exact bind_of_ok hLow _
    rw [bind_of_ok hNext, bind_of_ok hHit]
    rfl

/-- A 64-bit value is taken for a string. -/
theorem string_found {v : UInt64} (hEntries : A.sect.entries = before ++ ⟨key, .int64 v⟩ :: after)
    (hBefore : ∀ e ∈ before, e.isInt32 = true) :
    ∃ s, findConfigEntryString A.keyValue A.sectionStart key = .ok (some s) := by
  have hMem : (⟨key, .int64 v⟩ : Entry) ∈ A.sect.entries := by
    rw [hEntries]
    exact mem_append_right _ mem_cons_self
  have hKey : key.toNat < 2 ^ 28 := A.sect.key_lt _ hMem
  rcases A.exists_first (hitString A.keyValue key) hEntries hBefore (fun _ _ _ => rfl) with
    ⟨j, ws, hAt, hFind⟩
  have hAt : At A.keyValue j
      (firstWord int64Type key :: (v >>> 32).toUInt32 :: v.toUInt32 :: ws) := hAt
  have hType : keyType (firstWord int64Type key) = 4 := keyType_firstWord (by decide) hKey
  have hId : configId (firstWord int64Type key) = key := configId_firstWord (by decide) hKey
  have hLen := hAt.tail.read
  have hNext : ∃ next, finderNext A.keyValue j 4 = .ok next :=
    ⟨_, bind_of_ok hLen _⟩
  rcases hNext with ⟨next, hNext⟩
  have hHit : hitString A.keyValue key 4 key j next =
      .ok (some ⟨next + 2, (v >>> 32).toUInt32 - 1⟩) := by
    rw [hitString, if_pos ⟨rfl, rfl⟩]
    exact bind_of_ok hLen _
  refine ⟨⟨next + 2, (v >>> 32).toUInt32 - 1⟩, ?_⟩
  rw [findConfigEntryString, hFind, findLoop, bind_of_ok hAt.read, hType, hId,
    bind_of_ok hNext, bind_of_ok hHit]
  rfl

end Stored

/-- A section is read back and checked as it was written exactly if all its entries are 32-bit
ones: the first other entry is found by a finder of another kind. -/
theorem decodes_iff (A : Stored) : Decodes A ↔ ∀ e ∈ A.sect.entries, e.isInt32 = true := by
  constructor
  · intro h
    rcases hFirst : A.sect.entries.find? (fun e => !e.isInt32) with _ | e
    · intro e he
      simpa using List.find?_eq_none.mp hFirst e he
    · rcases List.find?_eq_some_iff_append.mp hFirst with ⟨hOther, before, after, hEntries, hBefore⟩
      have hMem : e ∈ A.sect.entries := List.mem_of_find?_eq_some hFirst
      have hBefore : ∀ e ∈ before, e.isInt32 = true := fun e he => by simpa using hBefore e he
      rcases e with ⟨key, value⟩
      cases value with
      | int32 v => cases hOther
      | int64 v =>
        rcases A.string_found hEntries hBefore with ⟨s, hFound⟩
        rcases h.string key with ⟨s', hFound', hBytes⟩
        have hAbsent := A.lookup_of_mem hMem Value.str? rfl
        rw [hFound] at hFound'
        rw [← Except.ok.inj hFound', hAbsent] at hBytes
        cases hBytes
      | str bytes =>
        rcases A.uint64_found hEntries hBefore with ⟨v, hFound⟩
        have hAbsent := A.lookup_of_mem hMem Value.int64? rfl
        have hNone := h.uint64 key
        rw [hFound, hAbsent] at hNone
        cases hNone
  · exact A.decodes_of_int32

/-! ## A section with a 64-bit value -/

/-- `size_of_ram_memory` with its default value. -/
def sizeOfRamMemory : Stored where
  sect :=
    { isSystemSection := false
      nodeType := 1
      entries := [⟨112, .int64 268435456⟩]
      key_lt := by simp
      known := by decide +kernel
      distinct := by simp
      strings := by simp }
  before := []
  after := []
  fits := by decide +kernel

/-- The value is stored under its key and is not found there. -/
theorem size_of_ram_memory_lost : ¬ Decodes sizeOfRamMemory := by
  intro h
  have hFind := h.uint64 112
  have hAbsent : findConfigEntryUint64 sizeOfRamMemory.keyValue sizeOfRamMemory.sectionStart 112 =
      .error .outOfArray ∨
    findConfigEntryUint64 sizeOfRamMemory.keyValue sizeOfRamMemory.sectionStart 112 = .ok none := by
    decide +kernel
  have hStored : sizeOfRamMemory.sect.lookup Value.int64? 112 = some 268435456 := by decide +kernel
  rw [hStored] at hFind
  rw [hFind] at hAbsent
  rcases hAbsent with hError | hNone
  · cases hError
  · cases hNone

end IClaustron.Config.SectionWalk
