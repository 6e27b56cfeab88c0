import IClaustron.Config.Numbers
import Mathlib.Data.List.Induction

/-!
# Config.GridReader — the file with the clusters of a grid

Model of api/ic_apic_grid_conf_reader.ic. Each section of the file is a cluster. What a
section gives is gathered in `current`; it goes over to the array when the next section
begins, and at the very end in `initEnd`. The first reading counts the sections and the
bytes of all values, the second one writes the names and the passwords into the memory that
has been taken for them.

* `grid_array_iff` — the array is the one of the file exactly if the identities can be read.
* `large_id_accepted` — an identity of more than 32 bits is found as another one.

Scope limits: the memory container, of which is only asked whether it has memory at each
place where some is taken; the texts that are printed.
-/

namespace IClaustron.Config.Grid

open Lib Protocol List UInt32

/-! ## State -/

/-- `IC_STRING`; `str` is where it begins in `string_memory`. -/
structure IcString where
  str : Option Nat := none
  len : UInt32 := 0
  isNullTerminated : Bool := false
  deriving DecidableEq

/-- `IC_CLUSTER_CONNECT_INFO`. -/
structure ConnectInfo where
  clusterName : IcString := {}
  password : IcString := {}
  clusterId : UInt32 := 0
  deriving DecidableEq

/-- IC_MAX_UINT32, the identity of a cluster to which none is given. -/
def undefinedId : UInt32 := 0xFFFFFFFF

/-- IC_MAX_CLUSTER_ID. -/
def maxClusterId : UInt32 := 255

/-- The places where memory is taken. -/
inductive MemoryUse where
  | temp | clusters | stringMemory
  | cluster (i : Nat)
  deriving DecidableEq

/-- What the reading depends on besides the text. `stale` is what stands at the place of the local
variable `value` when the line is looked at. -/
structure Env where
  memory : MemoryUse → Bool
  stale : Pass → Nat → UInt64

/-- `IC_CLUSTER_CONFIG_TEMP`; `current` are its members `cluster_name`, `password` and `cluster_id`.
`memory` has been taken with `memorySize` bytes, and `written` is the end of what has been written
to it. -/
structure ClusterConf where
  cluInfo : List (Option ConnectInfo) := []
  current : ConnectInfo := {}
  numClusters : UInt32 := 0
  initState : Bool := false
  sizeStringMemory : UInt32 := 0
  stringMemory : Nat := 0
  memory : Nat → UInt8 := fun _ => 0
  memorySize : Nat := 0
  written : Nat := 0

/-- `memcpy` to a place in the memory. -/
def copyTo (memory : Nat → UInt8) (place : Nat) (bytes : Bytes) : Nat → UInt8 := fun i =>
  if place ≤ i then (bytes[i - place]?).getD (memory i) else memory i

namespace ClusterConf

variable (s : ClusterConf)

/-- Bytes are written into the string memory. -/
def write (place : Nat) (bytes : Bytes) : ClusterConf :=
  { s with
    memory := copyTo s.memory place bytes
    written := max s.written (place + bytes.length) }

/-- `init_cluster_params`. -/
def initClusterParams : ClusterConf := { s with current := { clusterId := undefinedId } }

/-- `set_cluster_config_string`: the string that `dest_str` becomes, and what is done to the
memory. -/
def setClusterConfigString (inStr : Bytes) : IcString × ClusterConf :=
  (⟨some s.stringMemory, ofNat inStr.length, true⟩,
    { s.write (s.stringMemory + inStr.length) [0] with
      stringMemory := s.stringMemory + (inStr.length + 1) })

end ClusterConf

/-- `set_cluster_config` on an entry of `clu_info`. -/
def setClusterConfig (i : Nat) : Attempt ClusterConf Nat Unit := fun s =>
  match s.cluInfo[i]? with
  | some (some _) => .ok () { s with cluInfo := s.cluInfo.set i (some s.current) }
  | _ => .abort

/-! ## The operations -/

def clusterStr : Bytes := ascii "cluster"
def clusterNameStr : Bytes := ascii "cluster_name"
def clusterPasswordStr : Bytes := ascii "password"
def clusterIdString : Bytes := ascii "cluster_id"

section Operations

variable (env : Env)

def takeMemory (use : MemoryUse) : Attempt ClusterConf Nat Unit := fun s =>
  if env.memory use then .ok () s else .error errorMemAlloc s

/-- The loop that takes the entries. -/
def takeClusters : Nat → Nat → Attempt ClusterConf Nat Unit
  | 0, _ => pure ()
  | left + 1, i => do
    takeMemory env (.cluster i)
    Attempt.modify fun s => { s with cluInfo := s.cluInfo.set i (some {}) }
    takeClusters left (i + 1)

/-- `cluster_config_init`. -/
def clusterConfigInit (pass : Pass) : Attempt ClusterConf Nat Unit := do
  (if pass = .initial then do
    takeMemory env .temp
    Attempt.modify fun s => { s with stringMemory := 0 }
  else do
    takeMemory env .clusters
    Attempt.modify fun s => { s with cluInfo := List.replicate (s.numClusters + 1).toNat none }
    fun s => takeClusters env s.numClusters.toNat 0 s
    takeMemory env .stringMemory
    Attempt.modify fun s =>
      { s with
        stringMemory := 0
        memory := fun _ => 0
        memorySize := s.sizeStringMemory.toNat
        written := 0
        cluInfo := s.cluInfo.set s.numClusters.toNat none })
  Attempt.modify fun s =>
    ClusterConf.initClusterParams
      { s with numClusters := 0, initState := true, sizeStringMemory := 0 }

/-- The first part of `cluster_config_add_section`, for the section in front. -/
def completeCluster (pass : Pass) : Attempt ClusterConf Nat Unit := fun s =>
  if pass ≠ .initial ∧ s.initState = false then setClusterConfig (s.numClusters - 1).toNat s
  else .ok () s

/-- `cluster_config_add_section`. -/
def clusterConfigAddSection (pass : Pass) (sectionName : Bytes) : Attempt ClusterConf Nat Unit := do
  if sectionName = clusterStr then
    completeCluster pass
    Attempt.modify fun s =>
      { s.initClusterParams with numClusters := s.numClusters + 1, initState := false }
  else
    -- IC_ERROR_CONFIG_NO_SUCH_SECTION
    Attempt.throw 7004

/-- The branch of `cluster_config_add_key` for the identity. -/
def setClusterId (lineNumber : Nat) (data : Bytes) : Attempt ClusterConf Nat Unit := fun s =>
  match convConfigStrToInt data with
  -- IC_ERROR_WRONG_CONFIG_NUMBER
  | none => .error 7011 s
  | some value =>
    let clusterId := (value.getD (env.stale .build lineNumber)).toUInt32
    let s := { s with current := { s.current with clusterId := clusterId } }
    -- IC_ERROR_CONFIG_VALUE_OUT_OF_BOUNDS
    if clusterId > maxClusterId then .error 7013 s else .ok () s

/-- What `cluster_config_add_key` does with the value before it looks at the name. -/
def ClusterConf.countOrCopy (s : ClusterConf) (pass : Pass) (data : Bytes) : ClusterConf :=
  if pass = .initial then
    { s with sizeStringMemory := s.sizeStringMemory + ofNat (data.length + 1) }
  else s.write s.stringMemory data

/-- `cluster_config_add_key`. -/
def clusterConfigAddKey (pass : Pass) (lineNumber : Nat) (keyName data : Bytes) :
    Attempt ClusterConf Nat Unit := fun s =>
  -- IC_ERROR_NO_SECTION_DEFINED_YET
  if s.initState then .error 7006 s
  else
    let s := s.countOrCopy pass data
    if keyName = clusterNameStr then
      if pass ≠ .initial then
        let (str, s) := s.setClusterConfigString data
        .ok () { s with current := { s.current with clusterName := str } }
      else .ok () s
    else if keyName = clusterPasswordStr then
      if pass ≠ .initial then
        let (str, s) := s.setClusterConfigString data
        .ok () { s with current := { s.current with password := str } }
      else .ok () s
    else if keyName = clusterIdString then
      if pass ≠ .initial then setClusterId env lineNumber data s else .ok () s
    else
      -- IC_ERROR_NO_SUCH_CONFIG_KEY
      .error 7007 s

/-- `cluster_config_ops`. -/
def clusterConfigOps : ConfigOperations ClusterConf where
  configInit := clusterConfigInit env
  addSection pass _ name := clusterConfigAddSection pass name
  addKey pass lineNumber name data := clusterConfigAddKey env pass lineNumber name data
  addComment _ _ := pure ()
  configVerify _ _ := pure ()
  configEnd := pure ()

end Operations

/-- `cluster_config_init_end`, which `ic_load_cluster_config_from_file` calls when the file has been
accepted. -/
def clusterConfigInitEnd : Attempt ClusterConf Nat Unit := fun s =>
  if s.numClusters > 0 then setClusterConfig (s.numClusters - 1).toNat s else .ok () s

/-! ## What a file says -/

/-- A key with the number of its line. -/
structure Key where
  line : Nat
  name : Bytes
  data : Bytes
  deriving DecidableEq

/-- The sections so far, with one more line: a key belongs to the last section. -/
def addToSections (sections : List (List Key)) : Item × Nat → List (List Key)
  | (.section _, _) => sections ++ [[]]
  | (.key name data, line) =>
    sections.dropLast ++ (sections.getLast?.map (· ++ [⟨line, name, data⟩])).toList
  | _ => sections

/-- The sections of some lines, each with its keys in their order. -/
def sections (items : List Item) : List (List Key) := (items.zipIdx 1).foldl addToSections []

/-- The last key with a name. -/
def lastKey (name : Bytes) (keys : List Key) : Option Key :=
  (keys.filter fun key => key.name = name).getLast?

/-- The sections of a text. -/
def gridSections (text : Bytes) : List (List Key) :=
  sections ((readLines text.length text).1.filterMap (·.toOption))

/-- These bytes stand at a place in the memory. -/
def Holds (memory : Nat → UInt8) (place : Nat) (bytes : Bytes) : Prop :=
  ∀ i (h : i < bytes.length), memory (place + i) = bytes[i]

/-- A string is the value of a key with the zero behind it, in front of `bound`; without a key it is
empty. -/
def HoldsValue (memory : Nat → UInt8) (bound : Nat) (str : IcString) : Option Key → Prop
  | none => str = {}
  | some key => ∃ place, str = ⟨some place, ofNat key.data.length, true⟩ ∧
      place + key.data.length + 1 ≤ bound ∧ Holds memory place (key.data ++ [0])

/-- An identity is the one that a key gives; without a key it is undefined. -/
def GivesId (id : UInt32) : Option Key → Prop
  | none => id = undefinedId
  | some key => Written key.data id.toNat ∨ key.data = falseStr ∧ id = 0 ∨ key.data = trueStr ∧ id = 1

/-- The entry of a cluster holds what its section gives last. -/
structure EntryOf (s : ClusterConf) (keys : List Key) (info : ConnectInfo) : Prop where
  clusterName : HoldsValue s.memory s.memorySize info.clusterName (lastKey clusterNameStr keys)
  password : HoldsValue s.memory s.memorySize info.password (lastKey clusterPasswordStr keys)
  clusterId : GivesId info.clusterId (lastKey clusterIdString keys)

/-- The array of a text: an entry for each section in their order, and NULL behind them. No more has
been written to the string memory than what was counted for it. -/
structure ArrayOf (text : Bytes) (s : ClusterConf) : Prop where
  length : s.cluInfo.length = (gridSections text).length + 1
  terminated : s.cluInfo.getLast? = some none
  entries : ∀ (i : Nat) (keys : List Key), (gridSections text)[i]? = some keys →
    ∃ info, s.cluInfo[i]? = some (some info) ∧ EntryOf s keys info
  strings : s.written ≤ s.memorySize

/-- The conversion finds the identity of a key: a number of 32 bits, or a word for which the value was
right before. -/
def IdReadable (env : Env) (key : Key) : Prop :=
  (∃ n, Written key.data n ∧ n < 2 ^ 32) ∨
    key.data = falseStr ∧ (env.stale .build key.line).toUInt32 = 0 ∨
    key.data = trueStr ∧ (env.stale .build key.line).toUInt32 = 1

/-! ## Sections -/

open Lib.Attempt

variable {env : Env} {s s' : ClusterConf} {items pre : List Item} {item : Item}

theorem sections_concat (items : List Item) (item : Item) :
    sections (items ++ [item]) = addToSections (sections items) (item, items.length + 1) := by
  unfold sections
  rw [zipIdx_append, foldl_append, Nat.add_comm 1]
  rfl

/-- With a key behind the other ones, the last key of its name is this one. -/
theorem lastKey_concat (name : Bytes) (keys : List Key) (key : Key) :
    lastKey name (keys ++ [key]) = if key.name = name then some key else lastKey name keys := by
  unfold lastKey
  rw [filter_append]
  split_ifs with h
  · rw [filter_singleton, decide_eq_true h, cond_true, getLast?_append]
    rfl
  · rw [filter_singleton, decide_eq_false h, cond_false, append_nil]

/-- A line begins a section or none. -/
theorem length_addToSections (secs : List (List Key)) (line : Item × Nat) :
    secs.length ≤ (addToSections secs line).length ∧
      2 * (addToSections secs line).length ≤ 2 * secs.length + line.1.sectionBytes := by
  rcases line with ⟨item, n⟩
  cases item with
  | empty => exact ⟨le_rfl, le_rfl⟩
  | comment => exact ⟨le_rfl, le_rfl⟩
  | «section» name =>
    show _ ≤ (secs ++ [[]]).length ∧ 2 * (secs ++ [[]]).length ≤ 2 * secs.length + (name.length + 2)
    rw [length_append, length_singleton]
    omega
  | key name data =>
    rcases eq_nil_or_concat secs with rfl | ⟨secs, keys, rfl⟩
    · exact ⟨Nat.zero_le _, Nat.zero_le _⟩
    · simp [addToSections]

theorem length_foldl_addToSections (lines : List (Item × Nat)) (secs : List (List Key)) :
    secs.length ≤ (lines.foldl addToSections secs).length := by
  induction lines generalizing secs with
  | nil => exact le_rfl
  | cons line lines ih => exact (length_addToSections secs line).1.trans (ih _)

/-- A section takes two characters at least. -/
theorem length_sections_le (items : List Item) :
    2 * (sections items).length ≤ (items.map Item.sectionBytes).sum := by
  induction items using List.reverseRec with
  | nil => exact le_rfl
  | append_singleton items item ih =>
    have hLine : 2 * (addToSections (sections items) (item, items.length + 1)).length ≤
        2 * (sections items).length + item.sectionBytes := (length_addToSections _ _).2
    rw [sections_concat, map_append, sum_append, map_singleton, sum_singleton]
    omega

theorem length_sections_prefix (pre rest : List Item) :
    (sections pre).length ≤ (sections (pre ++ rest)).length := by
  unfold sections
  rw [zipIdx_append, foldl_append]
  exact length_foldl_addToSections _ _

/-! ## The string memory -/

theorem copyTo_before {memory : Nat → UInt8} {place i : Nat} {bytes : Bytes} (h : i < place) :
    copyTo memory place bytes i = memory i := if_neg (Nat.not_le.mpr h)

theorem holds_copyTo (memory : Nat → UInt8) (place : Nat) (bytes : Bytes) :
    Holds (copyTo memory place bytes) place bytes := by
  intro i h
  unfold copyTo
  rw [if_pos (Nat.le_add_right place i), Nat.add_sub_cancel_left, getElem?_eq_getElem h]
  rfl

theorem Holds.congr {memory memory' : Nat → UInt8} {place : Nat} {bytes : Bytes}
    (h : Holds memory place bytes) (hSame : ∀ i < place + bytes.length, memory' i = memory i) :
    Holds memory' place bytes := by
  intro i hi
  rw [hSame _ (Nat.add_lt_add_left hi place)]
  exact h i hi

theorem Holds.append {memory : Nat → UInt8} {place : Nat} {bytes rest : Bytes}
    (h : Holds memory place bytes) (hRest : Holds memory (place + bytes.length) rest) :
    Holds memory place (bytes ++ rest) := by
  intro i hi
  by_cases hIn : i < bytes.length
  · rw [getElem_append_left hIn]
    exact h i hIn
  · have hi' : i - bytes.length < rest.length := by
      rw [length_append] at hi
      omega
    rw [getElem_append_right (Nat.not_lt.mp hIn), ← hRest _ hi']
    congr 1
    omega

/-- What has been given stays there, as long as nothing in front of its end is written. -/
theorem HoldsValue.mono {memory memory' : Nat → UInt8} {bound bound' : Nat} {str : IcString}
    {given : Option Key} (h : HoldsValue memory bound str given) (hBound : bound ≤ bound')
    (hSame : ∀ i < bound, memory' i = memory i) : HoldsValue memory' bound' str given := by
  cases given with
  | none => exact h
  | some key =>
    rcases h with ⟨place, hStr, hFits, hHolds⟩
    refine ⟨place, hStr, hFits.trans hBound, hHolds.congr fun i hi => hSame i ?_⟩
    rw [length_append, length_singleton] at hi
    omega

/-! ## The operations, when they return -/

theorem takeMemory_eq_ok {use : MemoryUse} :
    takeMemory env use s = .ok () s' ↔ env.memory use = true ∧ s' = s := by
  unfold takeMemory
  split_ifs with h
  · rw [Outcome.ok.injEq]
    exact ⟨fun h' => ⟨h, h'.2.symm⟩, fun h' => ⟨rfl, h'.2.symm⟩⟩
  · exact ⟨nofun, fun h' => absurd h'.1 h⟩

theorem addSection_eq_ok {pass : Pass} {name : Bytes} :
    clusterConfigAddSection pass name s = .ok () s' ↔ name = clusterStr ∧
      ∃ s₁, completeCluster pass s = .ok () s₁ ∧
        s' = { s₁.initClusterParams with numClusters := s₁.numClusters + 1, initState := false } := by
  unfold clusterConfigAddSection
  split_ifs with hName
  · constructor
    · intro h
      rcases bind_eq_ok.mp h with ⟨_, s₁, hEnd, h⟩
      cases h
      exact ⟨hName, s₁, hEnd, rfl⟩
    · rintro ⟨-, s₁, hEnd, rfl⟩
      exact bind_eq_ok.mpr ⟨(), s₁, hEnd, rfl⟩
  · exact ⟨nofun, fun h => absurd h.1 hName⟩

/-- The first reading counts the bytes of a key. -/
theorem addKey_initial {line : Nat} {name data : Bytes}
    (h : clusterConfigAddKey env .initial line name data s = .ok () s') :
    s.initState = false ∧
      s' = { s with sizeStringMemory := s.sizeStringMemory + ofNat (data.length + 1) } := by
  unfold clusterConfigAddKey at h
  simp only [ne_eq, not_true_eq_false, ↓reduceIte] at h
  split_ifs at h with hInit hName hPassword hId
  all_goals
    cases h
    exact ⟨Bool.eq_false_iff.mpr hInit, rfl⟩

/-- What the second reading makes of a string. -/
def ClusterConf.taken (s : ClusterConf) (data : Bytes) : ClusterConf :=
  ((s.write s.stringMemory data).setClusterConfigString data).2

/-- The string itself. -/
def ClusterConf.nextString (s : ClusterConf) (data : Bytes) : IcString :=
  ⟨some s.stringMemory, ofNat data.length, true⟩

/-- The second reading puts a string into its place, or an identity. -/
theorem addKey_build {line : Nat} {name data : Bytes}
    (h : clusterConfigAddKey env .build line name data s = .ok () s') :
    s.initState = false ∧
      (name = clusterNameStr ∧
          s' = { s.taken data with current := { s.current with clusterName := s.nextString data } } ∨
        name = clusterPasswordStr ∧
          s' = { s.taken data with current := { s.current with password := s.nextString data } } ∨
        name = clusterIdString ∧ ∃ value, convConfigStrToInt data = some value ∧
          s' = { s.write s.stringMemory data with
            current := { s.current with
              clusterId := (value.getD (env.stale .build line)).toUInt32 } }) := by
  unfold clusterConfigAddKey at h
  simp only [ne_eq, reduceCtorEq, not_false_eq_true, ↓reduceIte] at h
  split_ifs at h with hInit hName hPassword hId
  · cases h
    exact ⟨Bool.eq_false_iff.mpr hInit, .inl ⟨hName, rfl⟩⟩
  · cases h
    exact ⟨Bool.eq_false_iff.mpr hInit, .inr (.inl ⟨hPassword, rfl⟩)⟩
  · refine ⟨Bool.eq_false_iff.mpr hInit, .inr (.inr ⟨hId, ?_⟩)⟩
    unfold setClusterId at h
    cases hConv : convConfigStrToInt data with
    | none =>
      rw [hConv] at h
      cases h
    | some value =>
      rw [hConv] at h
      dsimp only at h
      split_ifs at h
      cases h
      exact ⟨value, rfl, rfl⟩

/-! ## The first reading -/

/-- The bytes of the values of some lines. -/
def dataSum (items : List Item) : Nat := (items.map Item.dataBytes).sum

theorem dataSum_concat (items : List Item) (item : Item) :
    dataSum (items ++ [item]) = dataSum items + item.dataBytes := by
  unfold dataSum
  rw [map_append, sum_append, map_singleton, sum_singleton]

/-- What the first reading has counted behind some lines. -/
structure Counted (pre : List Item) (s : ClusterConf) : Prop where
  numClusters : s.numClusters = ofNat (sections pre).length
  initState : s.initState = true ↔ sections pre = []
  size : s.sizeStringMemory = ofNat (dataSum pre)

/-- Where a key is accepted there is a section that it belongs to. -/
theorem exists_last (hInit : s.initState = true ↔ sections pre = []) (h : s.initState = false) :
    ∃ secs keys, sections pre = secs ++ [keys] := by
  rcases eq_nil_or_concat (sections pre) with hNil | ⟨secs, keys, hSecs⟩
  · rw [hInit.mpr hNil] at h
    cases h
  · exact ⟨secs, keys, hSecs.trans concat_eq_append⟩

theorem sections_key {name data : Bytes} {secs : List (List Key)} {keys : List Key}
    (h : sections pre = secs ++ [keys]) : sections (pre ++ [.key name data]) =
      secs ++ [keys ++ [⟨pre.length + 1, name, data⟩]] := by
  rw [sections_concat, h]
  simp [addToSections]

theorem counted_item (h : Counted pre s)
    (hRun : (clusterConfigOps env).addItem .initial (pre.length + 1) item s = .ok () s') :
    Counted (pre ++ [item]) s' := by
  cases item with
  | empty | comment =>
    cases hRun
    exact ⟨by rw [sections_concat]; exact h.numClusters, by rw [sections_concat]; exact h.initState,
      by rw [dataSum_concat]; exact h.size⟩
  | «section» name =>
    rcases addSection_eq_ok.mp hRun with ⟨-, s₁, hEnd, rfl⟩
    have hSame : s₁ = s := by
      unfold completeCluster at hEnd
      rw [if_neg (fun h => h.1 rfl)] at hEnd
      cases hEnd
      rfl
    have hSections : sections (pre ++ [.section name]) = sections pre ++ [[]] := sections_concat _ _
    rw [hSame]
    refine ⟨?_, ?_, ?_⟩
    · show s.numClusters + 1 = _
      rw [hSections, length_append, ofNat_add, h.numClusters]
      rfl
    · rw [hSections]
      exact ⟨nofun, fun h => absurd h (by simp)⟩
    · rw [dataSum_concat]
      exact h.size
  | key name data =>
    rcases addKey_initial hRun with ⟨hInit, rfl⟩
    rcases exists_last h.initState hInit with ⟨secs, keys, hSecs⟩
    have hSections := @sections_key _ name data _ _ hSecs
    refine ⟨?_, ?_, ?_⟩
    · rw [hSections, length_append, length_singleton, ← length_singleton (a := keys),
        ← length_append, ← hSecs]
      exact h.numClusters
    · rw [hSections]
      show s.initState = true ↔ _
      rw [hInit]
      exact ⟨nofun, fun h => absurd h (by simp)⟩
    · show s.sizeStringMemory + ofNat (data.length + 1) = _
      rw [dataSum_concat, h.size, ← ofNat_add]
      rfl

/-! ## The second reading -/

/-- An identity is what the conversion makes of a key. -/
def ConvertedId (env : Env) (id : UInt32) : Option Key → Prop
  | none => id = undefinedId
  | some key => ∃ value, convConfigStrToInt key.data = some value ∧
      id = (value.getD (env.stale .build key.line)).toUInt32

/-- An entry, or `current`, holds what a section gives. -/
structure Gives (env : Env) (s : ClusterConf) (keys : List Key) (info : ConnectInfo) : Prop where
  clusterName : HoldsValue s.memory s.stringMemory info.clusterName (lastKey clusterNameStr keys)
  password : HoldsValue s.memory s.stringMemory info.password (lastKey clusterPasswordStr keys)
  clusterId : ConvertedId env info.clusterId (lastKey clusterIdString keys)

/-- `s'` has come from `s` by writing behind what was used. -/
structure Extends (s s' : ClusterConf) : Prop where
  stringMemory : s.stringMemory ≤ s'.stringMemory
  memory : ∀ i < s.stringMemory, s'.memory i = s.memory i

theorem Gives.mono {keys : List Key} {info : ConnectInfo} (h : Gives env s keys info)
    (hExt : Extends s s') : Gives env s' keys info :=
  ⟨h.clusterName.mono hExt.stringMemory hExt.memory, h.password.mono hExt.stringMemory hExt.memory,
    h.clusterId⟩

theorem extends_write (s : ClusterConf) (data : Bytes) : Extends s (s.write s.stringMemory data) :=
  ⟨le_rfl, fun _ => copyTo_before⟩

theorem extends_taken (s : ClusterConf) (data : Bytes) : Extends s (s.taken data) where
  stringMemory := Nat.le_add_right _ _
  memory _ hi := (copyTo_before (Nat.lt_add_right _ hi)).trans (copyTo_before hi)

/-- The string that has been taken is the value of the key. -/
theorem holds_taken (s : ClusterConf) (key : Key) : HoldsValue (s.taken key.data).memory
    (s.taken key.data).stringMemory (s.nextString key.data) (some key) := by
  refine ⟨s.stringMemory, rfl, le_rfl, Holds.append ?_ (holds_copyTo _ _ _)⟩
  refine (holds_copyTo s.memory s.stringMemory key.data).congr fun i hi => ?_
  exact copyTo_before hi

/-- What the second reading of a text with `total` sections has done behind some lines. -/
structure Gathered (env : Env) (total size : Nat) (pre : List Item) (s : ClusterConf) : Prop where
  numClusters : s.numClusters = ofNat (sections pre).length
  initState : s.initState = true ↔ sections pre = []
  length : s.cluInfo.length = total + 1
  entries : ∀ i < total, ∃ info, s.cluInfo[i]? = some (some info)
  terminated : s.cluInfo[total]? = some none
  done : ∀ (i : Nat) keys, (sections pre).dropLast[i]? = some keys →
    ∃ info, s.cluInfo[i]? = some (some info) ∧ Gives env s keys info
  current : ∀ keys, (sections pre).getLast? = some keys → Gives env s keys s.current
  memorySize : s.memorySize = size
  used : s.stringMemory ≤ dataSum pre
  written : s.written ≤ dataSum pre

theorem setClusterConfig_eq_ok {i : Nat} : setClusterConfig i s = .ok () s' ↔
    (∃ info, s.cluInfo[i]? = some (some info)) ∧
      s' = { s with cluInfo := s.cluInfo.set i (some s.current) } := by
  unfold setClusterConfig
  constructor
  · intro h
    split at h
    · rename_i info hInfo
      cases h
      exact ⟨⟨info, hInfo⟩, rfl⟩
    · cases h
  · rintro ⟨⟨info, hInfo⟩, rfl⟩
    rw [hInfo]

theorem index_of_length {n : Nat} (hn : 0 < n) (h : n < 2 ^ 32) :
    (UInt32.ofNat n - 1).toNat = n - 1 := by
  have hToNat : (UInt32.ofNat n).toNat = n := UInt32.toNat_ofNat_of_lt h
  have hLe : (1 : UInt32) ≤ UInt32.ofNat n := by
    rw [UInt32.le_iff_toNat_le, hToNat]
    exact hn
  rw [UInt32.toNat_sub_of_le _ _ hLe, hToNat]
  rfl

/-- The last section goes over to its entry. -/
theorem Gathered.commit {total size : Nat} {secs : List (List Key)} {keys : List Key}
    (h : Gathered env total size pre s) (hSecs : sections pre = secs ++ [keys])
    (hTotal : secs.length < total) (i : Nat) (keys' : List Key)
    (hKeys : (sections pre)[i]? = some keys') :
    ∃ info, (s.cluInfo.set secs.length (some s.current))[i]? = some (some info) ∧
      Gives env s keys' info := by
  have hLength := h.length
  by_cases hLast : i = secs.length
  · rw [hLast, hSecs, List.getElem?_concat_length] at hKeys
    rw [hLast, List.getElem?_set_self (by omega)]
    refine ⟨s.current, rfl, h.current keys' ?_⟩
    rw [hSecs, List.getLast?_concat]
    exact hKeys
  · have hLt : i < secs.length := by
      have := (List.getElem?_eq_some_iff.mp hKeys).1
      rw [hSecs, List.length_append, List.length_singleton] at this
      omega
    rw [List.getElem?_set_ne (Ne.symm hLast)]
    refine h.done i keys' ?_
    rw [hSecs, List.getElem?_append_left hLt] at hKeys
    rwa [hSecs, List.dropLast_concat]

/-- Nothing is written or taken, and the sections stay as they are. -/
theorem Gathered.skip {total size : Nat} (h : Gathered env total size pre s)
    (hSections : sections (pre ++ [item]) = sections pre) :
    Gathered env total size (pre ++ [item]) s := by
  have hSum : dataSum pre ≤ dataSum (pre ++ [item]) := by
    rw [dataSum_concat]
    exact Nat.le_add_right _ _
  constructor
  · rw [hSections]
    exact h.numClusters
  · rw [hSections]
    exact h.initState
  · exact h.length
  · exact h.entries
  · exact h.terminated
  · rw [hSections]
    exact h.done
  · rw [hSections]
    exact h.current
  · exact h.memorySize
  · exact h.used.trans hSum
  · exact h.written.trans hSum

theorem gives_init (s : ClusterConf) : Gives env s [] { clusterId := undefinedId } :=
  ⟨rfl, rfl, rfl⟩

theorem Gathered.section {total size : Nat} {name : Bytes} (h : Gathered env total size pre s)
    (hTotal : (sections (pre ++ [.section name])).length ≤ total) (hSmall : total < 2 ^ 32)
    (hRun : clusterConfigAddSection .build name s = .ok () s') :
    Gathered env total size (pre ++ [.section name]) s' := by
  rcases addSection_eq_ok.mp hRun with ⟨-, s₁, hEnd, rfl⟩
  have hSections : sections (pre ++ [.section name]) = sections pre ++ [[]] := sections_concat _ _
  have hSum : dataSum (pre ++ [.section name]) = dataSum pre := dataSum_concat _ _
  rw [hSections, length_append, length_singleton] at hTotal
  have hCount : s.numClusters + 1 = ofNat (sections (pre ++ [.section name])).length := by
    rw [hSections, length_append, ofNat_add, h.numClusters]
    rfl
  have hInit : (false = true ↔ sections (pre ++ [.section name]) = []) := by
    rw [hSections]
    exact ⟨nofun, fun h => absurd h (by simp)⟩
  have hCurrent : ∀ (s : ClusterConf) keys, (sections (pre ++ [.section name])).getLast? = some keys →
      Gives env s keys { clusterId := undefinedId } := by
    intro s keys hKeys
    rw [hSections, getLast?_concat] at hKeys
    cases hKeys
    exact gives_init s
  unfold completeCluster at hEnd
  rcases eq_nil_or_concat (sections pre) with hNil | ⟨secs, keys, hSecs⟩
  · -- the first section of the text
    rw [if_neg (by simp [h.initState.mpr hNil])] at hEnd
    cases hEnd
    refine ⟨hCount, hInit, h.length, h.entries, h.terminated, ?_, hCurrent _, h.memorySize,
      hSum ▸ h.used, hSum ▸ h.written⟩
    rw [hSections, dropLast_concat, hNil]
    nofun
  · rw [concat_eq_append] at hSecs
    have hNotInit : s.initState = false := by
      rw [← Bool.not_eq_true, h.initState, hSecs]
      simp
    have hIndex : (s.numClusters - 1).toNat = secs.length := by
      rw [hSecs, length_append, length_singleton] at hTotal
      rw [h.numClusters, index_of_length (by simp [hSecs]) (by simp [hSecs]; omega), hSecs]
      simp
    have hLt : secs.length < total := by
      rw [hSecs, length_append, length_singleton] at hTotal
      omega
    rw [if_pos ⟨nofun, hNotInit⟩, hIndex] at hEnd
    rcases setClusterConfig_eq_ok.mp hEnd with ⟨-, rfl⟩
    refine ⟨hCount, hInit, ?_, ?_, ?_, ?_, hCurrent _, h.memorySize, hSum ▸ h.used,
      hSum ▸ h.written⟩
    · exact length_set.trans h.length
    · intro i hi
      by_cases hLast : i = secs.length
      · refine ⟨s.current, ?_⟩
        rw [hLast]
        exact getElem?_set_self (by rw [h.length]; omega)
      · rcases h.entries i hi with ⟨info, hInfo⟩
        exact ⟨info, (getElem?_set_ne (Ne.symm hLast)).trans hInfo⟩
    · exact (getElem?_set_ne (Nat.ne_of_lt hLt)).trans h.terminated
    · rw [hSections, dropLast_concat]
      intro i keys' hKeys
      rcases h.commit hSecs hLt i keys' hKeys with ⟨info, hInfo, hGives⟩
      exact ⟨info, hInfo, hGives.mono ⟨le_rfl, fun _ _ => rfl⟩⟩

/-- The entries stay while a key is added to the last section. -/
theorem Gathered.addKey {total size : Nat} {name data : Bytes} {secs : List (List Key)}
    {keys : List Key} (h : Gathered env total size pre s) (hSecs : sections pre = secs ++ [keys])
    (hExt : Extends s s') (hNum : s'.numClusters = s.numClusters) (hInit : s'.initState = s.initState)
    (hInfo : s'.cluInfo = s.cluInfo) (hSize : s'.memorySize = s.memorySize)
    (hUsed : s'.stringMemory ≤ dataSum pre + (data.length + 1))
    (hWritten : s'.written ≤ dataSum pre + (data.length + 1))
    (hCurrent : Gives env s' (keys ++ [⟨pre.length + 1, name, data⟩]) s'.current) :
    Gathered env total size (pre ++ [.key name data]) s' := by
  have hSections := @sections_key _ name data _ _ hSecs
  have hSum : dataSum (pre ++ [.key name data]) = dataSum pre + (data.length + 1) :=
    dataSum_concat _ _
  constructor
  · rw [hNum, h.numClusters, hSections, hSecs, length_append, length_append]
    rfl
  · rw [hInit, h.initState, hSections, hSecs]
    simp
  · rw [hInfo]
    exact h.length
  · rw [hInfo]
    exact h.entries
  · rw [hInfo]
    exact h.terminated
  · intro i keys' hKeys
    rw [hSections, dropLast_concat] at hKeys
    rcases h.done i keys' (by rwa [hSecs, dropLast_concat]) with ⟨info, hEntry, hOld⟩
    exact ⟨info, hInfo ▸ hEntry, hOld.mono hExt⟩
  · intro keys' hKeys
    rw [hSections, getLast?_concat] at hKeys
    cases hKeys
    exact hCurrent
  · rw [hSize]
    exact h.memorySize
  · exact hSum ▸ hUsed
  · exact hSum ▸ hWritten

theorem name_ne_password : clusterNameStr ≠ clusterPasswordStr := by decide

theorem name_ne_id : clusterNameStr ≠ clusterIdString := by decide

theorem password_ne_id : clusterPasswordStr ≠ clusterIdString := by decide

theorem Gathered.key {total size : Nat} {name data : Bytes} (h : Gathered env total size pre s)
    (hRun : clusterConfigAddKey env .build (pre.length + 1) name data s = .ok () s') :
    Gathered env total size (pre ++ [.key name data]) s' := by
  rcases addKey_build hRun with ⟨hNotInit, hKey⟩
  rcases exists_last h.initState hNotInit with ⟨secs, keys, hSecs⟩
  have hGives := h.current keys (by rw [hSecs, getLast?_concat])
  have hUsed := h.used
  have hWritten := h.written
  have hPlace : (s.taken data).stringMemory ≤ dataSum pre + (data.length + 1) := by
    show s.stringMemory + (data.length + 1) ≤ _
    omega
  have hEnd : (s.taken data).written ≤ dataSum pre + (data.length + 1) := by
    show max (max s.written (s.stringMemory + data.length)) (s.stringMemory + data.length + 1) ≤ _
    omega
  have hTaken := extends_taken s data
  have hOld := hGives.mono hTaken
  rcases hKey with ⟨rfl, rfl⟩ | ⟨rfl, rfl⟩ | ⟨rfl, value, hConv, rfl⟩
  · refine h.addKey hSecs ⟨hTaken.1, hTaken.2⟩ rfl rfl rfl rfl hPlace hEnd ⟨?_, ?_, ?_⟩
    · rw [lastKey_concat, if_pos rfl]
      exact holds_taken s ⟨pre.length + 1, clusterNameStr, data⟩
    · rw [lastKey_concat, if_neg name_ne_password]
      exact hOld.password
    · rw [lastKey_concat, if_neg name_ne_id]
      exact hOld.clusterId
  · refine h.addKey hSecs ⟨hTaken.1, hTaken.2⟩ rfl rfl rfl rfl hPlace hEnd ⟨?_, ?_, ?_⟩
    · rw [lastKey_concat, if_neg name_ne_password.symm]
      exact hOld.clusterName
    · rw [lastKey_concat, if_pos rfl]
      exact holds_taken s ⟨pre.length + 1, clusterPasswordStr, data⟩
    · rw [lastKey_concat, if_neg password_ne_id]
      exact hOld.clusterId
  · -- the bytes of an identity are written as well, and the next value is written over them
    have hSame := hGives.mono (extends_write s data)
    refine h.addKey hSecs ⟨le_rfl, fun _ => copyTo_before⟩ rfl rfl rfl rfl ?_ ?_ ⟨?_, ?_, ?_⟩
    · show s.stringMemory ≤ _
      omega
    · show max s.written (s.stringMemory + data.length) ≤ _
      omega
    · rw [lastKey_concat, if_neg name_ne_id.symm]
      exact hSame.clusterName
    · rw [lastKey_concat, if_neg password_ne_id.symm]
      exact hSame.password
    · rw [lastKey_concat, if_pos rfl]
      exact ⟨value, hConv, rfl⟩

theorem gathered_item {total size : Nat} (h : Gathered env total size pre s)
    (hTotal : (sections (pre ++ [item])).length ≤ total) (hSmall : total < 2 ^ 32)
    (hRun : (clusterConfigOps env).addItem .build (pre.length + 1) item s = .ok () s') :
    Gathered env total size (pre ++ [item]) s' := by
  cases item with
  | empty =>
    cases hRun
    exact h.skip (sections_concat _ _)
  | comment =>
    cases hRun
    exact h.skip (sections_concat _ _)
  | «section» name => exact h.section hTotal hSmall hRun
  | key name data => exact h.key hRun

/-! ## Between the readings -/

theorem takeClusters_spec {left i : Nat} (h : takeClusters env left i s = .ok () s')
    (hLen : i + left ≤ s.cluInfo.length) :
    ∃ cluInfo : List (Option ConnectInfo), s' = { s with cluInfo := cluInfo } ∧
      cluInfo.length = s.cluInfo.length ∧
      (∀ j < i, cluInfo[j]? = s.cluInfo[j]?) ∧
      ∀ j, i ≤ j → j < i + left → cluInfo[j]? = some (some {}) := by
  induction left generalizing i s with
  | zero =>
    cases h
    exact ⟨s'.cluInfo, rfl, rfl, fun _ _ => rfl, fun j hi hj => absurd hj (by omega)⟩
  | succ left ih =>
    rcases bind_eq_ok.mp h with ⟨_, s₁, hTake, hLoop⟩
    rcases takeMemory_eq_ok.mp hTake with ⟨-, rfl⟩
    rcases bind_eq_ok.mp hLoop with ⟨_, s₂, hSet, hRest⟩
    cases hSet
    rcases ih hRest (by rw [length_set]; omega) with ⟨cluInfo, rfl, hLength, hBefore, hTaken⟩
    refine ⟨cluInfo, rfl, hLength.trans length_set, fun j hj => ?_, fun j hi hj => ?_⟩
    · rw [hBefore j (Nat.lt_succ_of_lt hj)]
      exact getElem?_set_ne (Nat.ne_of_gt hj)
    · by_cases hFirst : j = i
      · rw [hFirst, hBefore i (Nat.lt_succ_self i)]
        exact getElem?_set_self (by omega)
      · exact hTaken j (by omega) (by omega)

/-- The second reading begins with an entry for each section, and with NULL behind them. -/
theorem gathered_init {n : Nat} (hNum : s.numClusters = ofNat n) (hSmall : n + 1 < 2 ^ 32)
    (h : clusterConfigInit env .build s = .ok () s') :
    Gathered env n s.sizeStringMemory.toNat [] s' := by
  have hToNat : s.numClusters.toNat = n := by
    rw [hNum]
    exact toNat_ofNat_of_lt (Nat.lt_of_succ_lt hSmall)
  have hPlaces : (s.numClusters + 1).toNat = n + 1 := by
    rw [hNum]
    exact (congrArg toNat (ofNat_add n 1)).symm.trans
      (toNat_ofNat_of_lt hSmall)
  unfold clusterConfigInit at h
  rw [if_neg (by decide)] at h
  rcases bind_eq_ok.mp h with ⟨_, s₁, hAll, hReset⟩
  cases hReset
  rcases bind_eq_ok.mp hAll with ⟨_, s₂, hTake, hBehind⟩
  rcases takeMemory_eq_ok.mp hTake with ⟨-, rfl⟩
  rcases bind_eq_ok.mp hBehind with ⟨_, s₃, hArray, hEntries⟩
  cases hArray
  rcases bind_eq_ok.mp hEntries with ⟨_, s₄, hClusters, hStrings⟩
  rcases takeClusters_spec hClusters (by
    rw [Nat.zero_add, length_replicate, hToNat, hPlaces]
    exact Nat.le_succ n) with ⟨cluInfo, rfl, hLength, -, hTaken⟩
  rcases bind_eq_ok.mp hStrings with ⟨_, s₅, hTake', hLast⟩
  rcases takeMemory_eq_ok.mp hTake' with ⟨-, rfl⟩
  cases hLast
  rw [length_replicate, hPlaces] at hLength
  rw [hToNat] at hTaken
  refine ⟨rfl, ⟨fun _ => rfl, fun _ => rfl⟩, ?_, ?_, ?_, nofun, nofun, rfl, le_rfl, le_rfl⟩
  · exact length_set.trans hLength
  · intro i hi
    refine ⟨{}, ?_⟩
    show (cluInfo.set s₂.numClusters.toNat none)[i]? = _
    rw [hToNat, getElem?_set_ne (Nat.ne_of_gt hi)]
    exact hTaken i (Nat.zero_le i) (by omega)
  · show (cluInfo.set s₂.numClusters.toNat none)[n]? = _
    rw [hToNat]
    exact getElem?_set_self (by omega)

theorem counted_init (h : clusterConfigInit env .initial s = .ok () s') : Counted [] s' := by
  unfold clusterConfigInit at h
  rw [if_pos rfl] at h
  rcases bind_eq_ok.mp h with ⟨_, s₁, -, h⟩
  cases h
  exact ⟨rfl, ⟨fun _ => rfl, fun _ => rfl⟩, rfl⟩

/-! ## Accepted files -/

/-- What has been gathered behind the last line of an accepted text. -/
theorem gathered_of_accepted {text : Bytes} (hText : text.length < 2 ^ 32)
    (h : (clusterConfigOps env).buildConfigData text {} = .ok () s) :
    ∃ items, gridSections text = sections items ∧ (sections items).length < 2 ^ 32 ∧
      Gathered env (sections items).length (dataSum items) items s := by
  rcases ConfigOperations.runs_of_accepted h with
    ⟨items, s₀, s₁, s₂, s₃, hLines, hInit, hFirst, hBuild, hSecond, hVerify⟩
  cases hVerify
  have hCount : Counted ([] ++ items) s₁ :=
    ConfigOperations.addLines_induction (counted_init hInit)
      (fun _ _ _ _ _ _ hInv hItem => counted_item hInv hItem) hFirst
  have hFits : (sections items).length + 1 < 2 ^ 32 := by
    have hCount := length_sections_le items
    have hBytes := sum_le_length sectionBytes_readConfigLine hLines
    omega
  have hSize : s₁.sizeStringMemory.toNat = dataSum items := by
    rw [hCount.size]
    exact toNat_ofNat_of_lt ((dataBytes_le hLines).trans_lt hText)
  have hStart := gathered_init hCount.numClusters hFits hBuild
  rw [hSize] at hStart
  refine ⟨items, ?_, Nat.lt_of_succ_lt hFits, ?_⟩
  · unfold gridSections
    rw [hLines, filterMap_map]
    simp [Function.comp_def, Except.toOption]
  · have hStep : ∀ mid item rest s s', [] ++ items = mid ++ item :: rest →
        Gathered env (sections items).length (dataSum items) mid s →
        (clusterConfigOps env).addItem .build (mid.length + 1) item s = .ok () s' →
        Gathered env (sections items).length (dataSum items) (mid ++ [item]) s' := by
      intro mid item rest s s' hAll hInv hItem
      refine gathered_item hInv ?_ (Nat.lt_of_succ_lt hFits) hItem
      have hPrefix := length_sections_prefix (mid ++ [item]) rest
      rwa [append_assoc, singleton_append, ← hAll, nil_append] at hPrefix
    exact ConfigOperations.addLines_induction hStart hStep hSecond

/-- At the end of the file the last section goes over as well; then there is an entry for each
section. -/
theorem Gathered.end {n size : Nat} (h : Gathered env n size items s) (hn : n = (sections items).length)
    (hSmall : n < 2 ^ 32) :
    ∃ s', clusterConfigInitEnd s = .ok () s' ∧ s'.cluInfo.length = n + 1 ∧
      s'.cluInfo.getLast? = some none ∧ s'.written = s.written ∧ s'.memorySize = s.memorySize ∧
      s'.memory = s.memory ∧ s'.stringMemory = s.stringMemory ∧
      ∀ (i : Nat) keys, (sections items)[i]? = some keys →
        ∃ info, s'.cluInfo[i]? = some (some info) ∧ Gives env s keys info := by
  have hLast : ∀ (cluInfo : List (Option ConnectInfo)), cluInfo.length = n + 1 →
      cluInfo[n]? = some none → cluInfo.getLast? = some none := by
    intro cluInfo hLength hNull
    rwa [getLast?_eq_getElem?, hLength]
  unfold clusterConfigInitEnd
  rcases eq_nil_or_concat (sections items) with hNil | ⟨secs, keys, hSecs⟩
  · have hZero : ¬ s.numClusters > 0 := by
      rw [h.numClusters, hNil]
      decide
    refine ⟨s, if_neg hZero, h.length, hLast _ h.length h.terminated, rfl, rfl, rfl, rfl, ?_⟩
    rw [hNil]
    nofun
  · rw [concat_eq_append] at hSecs
    have hCount : n = secs.length + 1 := by
      rw [hn, hSecs, length_append]
      rfl
    have hIndex : (s.numClusters - 1).toNat = secs.length := by
      rw [h.numClusters, ← hn, index_of_length (by omega) hSmall, hCount]
      rfl
    have hPos : s.numClusters > 0 := by
      show 0 < s.numClusters
      have hToNat : (ofNat n).toNat = n := toNat_ofNat_of_lt hSmall
      rw [lt_iff_toNat_lt, h.numClusters, ← hn, hToNat, hCount]
      exact Nat.succ_pos _
    have hLt : secs.length < n := by omega
    have hEntry := h.entries secs.length hLt
    refine ⟨{ s with cluInfo := s.cluInfo.set secs.length (some s.current) }, ?_, ?_, ?_, rfl, rfl,
      rfl, rfl, h.commit hSecs hLt⟩
    · rw [if_pos hPos, hIndex]
      exact setClusterConfig_eq_ok.mpr ⟨hEntry, rfl⟩
    · exact length_set.trans h.length
    · refine hLast _ (length_set.trans h.length) ?_
      exact (getElem?_set_ne (Nat.ne_of_lt hLt)).trans h.terminated

/-! ## Identities -/

/-- The identity that has been converted is the one that the key gives exactly if it is readable. -/
theorem givesId_iff {id : UInt32} {given : Option Key} (h : ConvertedId env id given) :
    GivesId id given ↔ ∀ key, given = some key → IdReadable env key := by
  cases given with
  | none => exact ⟨nofun, fun _ => h⟩
  | some key =>
    rcases h with ⟨value, hConv, rfl⟩
    have hWord : key.data = falseStr ∨ key.data = trueStr → value = none := by
      intro hWord
      rw [convConfigStrToInt_word hWord] at hConv
      exact (Option.some.inj hConv).symm
    constructor
    · rintro hGives _ ⟨⟩
      rcases hGives with hWritten | ⟨hFalse, hZero⟩ | ⟨hTrue, hOne⟩
      · exact .inl ⟨_, hWritten, toNat_lt _⟩
      · rw [hWord (.inl hFalse)] at hZero
        exact .inr (.inl ⟨hFalse, hZero⟩)
      · rw [hWord (.inr hTrue)] at hOne
        exact .inr (.inr ⟨hTrue, hOne⟩)
    · intro hReadable
      rcases hReadable key rfl with ⟨n, hWritten, hSmall⟩ | ⟨hFalse, hZero⟩ | ⟨hTrue, hOne⟩
      · rw [convConfigStrToInt_written hWritten] at hConv
        cases hConv
        have hWide : (UInt64.ofNat n).toNat = n :=
          UInt64.toNat_ofNat_of_lt (hSmall.trans (by decide))
        have hToNat : (UInt64.ofNat n).toUInt32.toNat = n := by
          rw [UInt64.toNat_toUInt32, hWide, Nat.mod_eq_of_lt hSmall]
        refine .inl ?_
        rw [Option.getD_some, hToNat]
        exact hWritten
      · rw [hWord (.inl hFalse)]
        exact .inr (.inl ⟨hFalse, hZero⟩)
      · rw [hWord (.inr hTrue)]
        exact .inr (.inr ⟨hTrue, hOne⟩)

theorem entryOf_iff {keys : List Key} {info : ConnectInfo} (h : Gives env s keys info)
    (hMemory : s'.memory = s.memory) (hFits : s.stringMemory ≤ s'.memorySize) :
    EntryOf s' keys info ↔ ∀ key, lastKey clusterIdString keys = some key → IdReadable env key := by
  have hSame : ∀ i < s.stringMemory, s'.memory i = s.memory i := fun i _ => by rw [hMemory]
  rw [← givesId_iff h.clusterId]
  exact ⟨EntryOf.clusterId, fun hId => ⟨h.clusterName.mono hFits hSame, h.password.mono hFits hSame, hId⟩⟩

/-- An array that is the one of an accepted text has the identities of its sections. -/
theorem readable_of_arrayOf {text : Bytes} (hText : text.length < 2 ^ 32)
    (h : (clusterConfigOps env).buildConfigData text {} = .ok () s)
    (hEnd' : clusterConfigInitEnd s = .ok () s') (hArray : ArrayOf text s') :
    ∀ keys ∈ gridSections text, ∀ key, lastKey clusterIdString keys = some key →
      IdReadable env key := by
  rcases gathered_of_accepted hText h with ⟨items, hSections, hFits, hInv⟩
  rcases hInv.end rfl hFits with ⟨s₁, hEnd, -, -, -, hSize, hMemory, -, hEntries⟩
  cases hEnd.symm.trans hEnd'
  intro keys hKeys
  rcases mem_iff_getElem?.mp hKeys with ⟨i, hi⟩
  rcases hArray.entries i keys hi with ⟨info, hInfo, hEntry⟩
  rcases hEntries i keys (hSections ▸ hi) with ⟨info', hInfo', hGives⟩
  cases hInfo.symm.trans hInfo'
  exact (entryOf_iff hGives hMemory (hSize ▸ hInv.memorySize ▸ hInv.used)).mp hEntry

/-- For a text that is accepted the array holds, for each section in their order, what the section
gives last, and the strings fit into their memory, exactly if the identity that each section gives
last can be read. -/
theorem grid_array_iff (env : Env) (text : Bytes) (s : ClusterConf) (hText : text.length < 2 ^ 32)
    (h : (clusterConfigOps env).buildConfigData text {} = .ok () s) :
    (∃ s', clusterConfigInitEnd s = .ok () s' ∧ ArrayOf text s') ↔
      ∀ keys ∈ gridSections text, ∀ key, lastKey clusterIdString keys = some key →
        IdReadable env key := by
  constructor
  · rintro ⟨s', hEnd, hArray⟩
    exact readable_of_arrayOf hText h hEnd hArray
  · intro hIds
    rcases gathered_of_accepted hText h with ⟨items, hSections, hFits, hInv⟩
    rcases hInv.end rfl hFits with
      ⟨s', hEnd, hLength, hLast, hWritten, hSize, hMemory, hUsed, hEntries⟩
    refine ⟨s', hEnd, hSections ▸ hLength, hLast, ?_, ?_⟩
    · intro i keys hKeys
      rcases hEntries i keys (hSections ▸ hKeys) with ⟨info, hInfo, hGives⟩
      refine ⟨info, hInfo, (entryOf_iff hGives hMemory ?_).mpr ?_⟩
      · exact hSize ▸ hInv.memorySize ▸ hInv.used
      · exact hIds keys (mem_of_getElem? hKeys)
    · rw [hWritten, hSize, hInv.memorySize]
      exact hInv.written

/-- There is memory, and the local variable happens to be 0. -/
def sampleEnv : Env where
  memory _ := true
  stale _ _ := 0

/-- Two clusters, the second one without a password. -/
def twoClusters : Bytes :=
  ascii "[cluster]\ncluster_name=alpha\npassword=xyz\ncluster_id=7\n[Cluster]\ncluster_name=beta\n"

/-- Both clusters are found. -/
theorem two_clusters_read : ∃ s, (clusterConfigOps sampleEnv).buildConfigData twoClusters {} =
    .ok () s ∧ ((∃ s', clusterConfigInitEnd s = .ok () s' ∧ ArrayOf twoClusters s') ↔
      ∀ keys ∈ gridSections twoClusters, ∀ key, lastKey clusterIdString keys = some key →
        IdReadable sampleEnv key) := by
  have hOk : ((clusterConfigOps sampleEnv).buildConfigData twoClusters {}).okWith
      (fun _ => true) = true := by decide +kernel
  rcases Outcome.exists_ok hOk with ⟨⟨⟩, s, hRun, -⟩
  exact ⟨s, hRun, grid_array_iff sampleEnv twoClusters s (by decide +kernel) hRun⟩

/-- 2 ^ 32 + 1. -/
def largeId : Bytes := ascii "[cluster]\ncluster_id=4294967297\n"

/-- The file is accepted, and the cluster has the identity 1. -/
theorem large_id_accepted : ∃ s, (clusterConfigOps sampleEnv).buildConfigData largeId {} = .ok () s ∧
    s.current.clusterId = 1 ∧
      ¬ ∃ s', clusterConfigInitEnd s = .ok () s' ∧ ArrayOf largeId s' := by
  have hOk : ((clusterConfigOps sampleEnv).buildConfigData largeId {}).okWith
      (fun s => s.current.clusterId = 1) = true := by decide +kernel
  rcases Outcome.exists_ok hOk with ⟨⟨⟩, s, hRun, hId⟩
  refine ⟨s, hRun, of_decide_eq_true hId, ?_⟩
  rintro ⟨s', hEnd, hArray⟩
  have hSections : gridSections largeId =
      [[⟨2, clusterIdString, ascii "4294967297"⟩]] := by decide +kernel
  have hReadable := readable_of_arrayOf (by decide +kernel) hRun hEnd hArray
    [⟨2, clusterIdString, ascii "4294967297"⟩] (by rw [hSections]; exact List.mem_singleton_self _)
    ⟨2, clusterIdString, ascii "4294967297"⟩ (by decide +kernel)
  rcases hReadable with ⟨n, hWritten, hSmall⟩ | ⟨hFalse, -⟩ | ⟨hTrue, -⟩
  · have hDigits : Written (ascii "4294967297") 4294967297 :=
      written_of_digits (by decide +kernel) (by decide +kernel)
    have := hWritten.unique hDigits
    omega
  · exact absurd hFalse (by decide +kernel)
  · exact absurd hTrue (by decide +kernel)

end IClaustron.Config.Grid
