import IClaustron.Protocol.Messages

/-!
# Lex.Keywords — keywords in a hash table without collisions

Model of util/ic_lex_support.c. ic_find_hash_function searches for a hash function that
gives the keywords different slots, and ic_found_identifier takes an identifier for the
keyword in its slot; the comparison with the keyword is only there under DEBUG.

* `db28_is_servers` — the host name db28 in a command of the bootstrap program.

Scope limits: memory for the copy of an identifier is there.
-/

namespace IClaustron.Lex.Keywords

open Protocol

/-! ## Model -/

/-- `(guint32)` of a `gchar`, which has a sign. -/
def ofGchar (c : UInt8) : UInt32 := if c < 128 then c.toUInt32 else c.toUInt32 + 0xFFFFFF00

/-- SIZE_MAP_SYMBOL. -/
def sizeMapSymbol : UInt32 := 4096

/-- `lex_hash`. The multiplier and the divider are not negative. -/
def lexHash (str : Bytes) (hashMultiplier hashDivider : UInt32) : UInt32 :=
  let hashVal := str.foldl (fun hashVal c =>
    let hashVal := hashVal + ofGchar c
    let hashVal := hashVal + hashVal * hashMultiplier
    hashVal ^^^ (hashVal / hashDivider)) 0
  let hashVal := hashVal + hashVal * 8
  let hashVal := hashVal ^^^ (hashVal / 2048)
  let hashVal := hashVal + hashVal * 32
  hashVal &&& (sizeMapSymbol - 1)

/-- IC_PARSE_SYMBOLS. -/
structure ParseSymbol where
  symbolStr : Bytes
  symbolId : UInt32
  deriving DecidableEq

/-- `islower`, in the C locale. -/
def islower (c : UInt8) : Bool := 97 ≤ c && c ≤ 122

/-- `ic_convert_to_uppercase`. -/
def icConvertToUppercase (inStr : Bytes) : Bytes :=
  inStr.map fun c => if islower c then c - 32 else c

/-- The slots of the hash table, with symbol ids; 0 is an empty slot. -/
abbrev SymbolMap := UInt32 → UInt16

def SymbolMap.set (map : SymbolMap) (i : UInt32) (id : UInt16) : SymbolMap :=
  fun j => if j = i then id else map j

/-- The inner loop of `ic_find_hash_function`, with the map and `failed`. It goes on after a
collision. -/
def fillMap (hashMultiplier hashDivider : UInt32) :
    List ParseSymbol → SymbolMap × Bool → SymbolMap × Bool
  | [], s => s
  | symbol :: symbols, (map, failed) =>
    let id := lexHash symbol.symbolStr hashMultiplier hashDivider
    if map id = 0 then
      fillMap hashMultiplier hashDivider symbols (map.set id symbol.symbolId.toUInt16, failed)
    else fillMap hashMultiplier hashDivider symbols (map, true)

/-- The results of `ic_find_hash_function`. -/
structure HashFunction where
  symbolMap : SymbolMap
  hashMultiplier : UInt32
  hashDivider : UInt32
  failed : Bool

/-- The outer loop, with `left` rounds to go behind the round `loopCount`. -/
def findLoop (symbols : List ParseSymbol) : Nat → Nat → HashFunction → HashFunction
  | 0, _, h => h
  | left + 1, loopCount, h =>
    if h.failed then
      let loopCount := loopCount + 1
      let hashMultiplier :=
        if loopCount % 3 = 0 then h.hashMultiplier + 2 else h.hashMultiplier
      let hashDivider := if loopCount % 3 = 1 then h.hashDivider + 2 else h.hashDivider
      let hashMultiplier := if loopCount % 3 = 2 then hashMultiplier + 2 else hashMultiplier
      let (symbolMap, failed) := fillMap hashMultiplier hashDivider symbols (fun _ => 0, false)
      findLoop symbols left loopCount ⟨symbolMap, hashMultiplier, hashDivider, failed⟩
    else h

/-- `ic_find_hash_function` on a map that has nothing yet. -/
def icFindHashFunction (symbols : List ParseSymbol) : HashFunction :=
  findLoop symbols 10000 0 ⟨fun _ => 0, 1024, 64, true⟩

/-- What `ic_found_identifier` gives back: `*symbol_value`, and the copy of the identifier when
that is 0. -/
structure Found where
  symbolValue : UInt32
  icStr : Option Bytes
  deriving DecidableEq

/-- The bytes of `symbol_buf`. -/
def symbolBufSize : Nat := 1024

/-- `ic_found_identifier`; `none` is a write behind the end of `symbol_buf`. -/
def icFoundIdentifier (h : HashFunction) (str : Bytes) : Option Found :=
  if str.length ≤ symbolBufSize then
    let symbolBuf := icConvertToUppercase str
    let i := lexHash symbolBuf h.hashMultiplier h.hashDivider
    let symbolId := h.symbolMap i
    if symbolId ≠ 0 then some ⟨symbolId.toUInt32, none⟩ else some ⟨0, some str⟩
  else none

/-! ## Slots -/

/-- A table of upper-case keywords with the token numbers of a parser. -/
structure SymbolTable where
  symbols : List ParseSymbol
  upper : ∀ k ∈ symbols, icConvertToUppercase k.symbolStr = k.symbolStr
  ids : ∀ k ∈ symbols, 0 < k.symbolId.toNat ∧ k.symbolId.toNat < 2 ^ 16

section Fill

variable {hashMultiplier hashDivider : UInt32}

theorem fillMap_failed (symbols : List ParseSymbol) (map : SymbolMap) :
    (fillMap hashMultiplier hashDivider symbols (map, true)).2 = true := by
  induction symbols generalizing map with
  | nil => rfl
  | cons symbol symbols ih =>
    rw [fillMap]
    split
    · exact ih _
    · exact ih _

/-- Without a collision every keyword has its slot, and the other slots are as before. -/
theorem fillMap_spec (symbols : List ParseSymbol)
    (hIds : ∀ k ∈ symbols, k.symbolId.toUInt16 ≠ 0) (map : SymbolMap)
    (hOk : (fillMap hashMultiplier hashDivider symbols (map, false)).2 = false) :
    let map' := (fillMap hashMultiplier hashDivider symbols (map, false)).1
    (∀ k ∈ symbols, map (lexHash k.symbolStr hashMultiplier hashDivider) = 0 ∧
        map' (lexHash k.symbolStr hashMultiplier hashDivider) = k.symbolId.toUInt16) ∧
      ∀ i, (∀ k ∈ symbols, lexHash k.symbolStr hashMultiplier hashDivider ≠ i) →
        map' i = map i := by
  induction symbols generalizing map with
  | nil => exact ⟨by simp, fun _ _ => rfl⟩
  | cons symbol symbols ih =>
    rw [fillMap] at hOk ⊢
    dsimp only at hOk ⊢
    by_cases hFree : map (lexHash symbol.symbolStr hashMultiplier hashDivider) = 0
    · rw [if_pos hFree] at hOk ⊢
      rcases ih (fun k hk => hIds k (List.mem_cons_of_mem _ hk)) _ hOk with ⟨hSlots, hOther⟩
      -- the slot that was taken is not free for the keywords behind
      have hApart : ∀ k ∈ symbols, lexHash k.symbolStr hashMultiplier hashDivider ≠
          lexHash symbol.symbolStr hashMultiplier hashDivider := by
        intro k hk hSame
        have hZero := (hSlots k hk).1
        rw [hSame, SymbolMap.set, if_pos rfl] at hZero
        exact hIds symbol List.mem_cons_self hZero
      refine ⟨?_, ?_⟩
      · intro k hk
        rcases List.mem_cons.mp hk with rfl | hk
        · refine ⟨hFree, ?_⟩
          rw [hOther _ hApart, SymbolMap.set, if_pos rfl]
        · refine ⟨?_, (hSlots k hk).2⟩
          have hZero := (hSlots k hk).1
          rwa [SymbolMap.set, if_neg (hApart k hk)] at hZero
      · intro i hi
        rw [hOther i fun k hk => hi k (List.mem_cons_of_mem _ hk), SymbolMap.set,
          if_neg (hi symbol List.mem_cons_self).symm]
    · rw [if_neg hFree, fillMap_failed] at hOk
      cases hOk

end Fill

/-- The map of a search that succeeded is the one that its last round has filled. -/
theorem findLoop_filled (symbols : List ParseSymbol) (left loopCount : Nat) (h : HashFunction)
    (hFailed : h.failed = true) (hOk : (findLoop symbols left loopCount h).failed = false) :
    let h' := findLoop symbols left loopCount h
    fillMap h'.hashMultiplier h'.hashDivider symbols (fun _ => 0, false) =
      (h'.symbolMap, false) := by
  induction left generalizing loopCount h with
  | zero =>
    rw [findLoop, hFailed] at hOk
    cases hOk
  | succ left ih =>
    rw [findLoop, if_pos hFailed] at hOk ⊢
    dsimp only at hOk ⊢
    generalize (if (loopCount + 1) % 3 = 2 then _ else _ : UInt32) = hashMultiplier at hOk ⊢
    generalize (if (loopCount + 1) % 3 = 1 then _ else _ : UInt32) = hashDivider at hOk ⊢
    cases hFill : fillMap hashMultiplier hashDivider symbols (fun _ => 0, false) with
    | mk symbolMap failed =>
      rw [hFill] at hOk
      cases failed with
      | true => exact ih (loopCount + 1) _ rfl hOk
      | false =>
        cases left with
        | zero => exact hFill
        | succ left => exact hFill

variable {k : ParseSymbol}

namespace SymbolTable

variable (T : SymbolTable)

theorem toUInt16_ne_zero (hk : k ∈ T.symbols) : k.symbolId.toUInt16 ≠ 0 := by
  intro h
  have hNat : k.symbolId.toNat % 2 ^ 16 = 0 := by
    rw [← UInt32.toNat_toUInt16, h]
    rfl
  have hIds := T.ids k hk
  omega

theorem toUInt32_toUInt16 (hk : k ∈ T.symbols) : k.symbolId.toUInt16.toUInt32 = k.symbolId := by
  apply UInt32.toNat_inj.mp
  rw [UInt16.toNat_toUInt32, UInt32.toNat_toUInt16]
  exact Nat.mod_eq_of_lt (T.ids k hk).2

/-- The hash value of a string in the table. -/
def slot (str : Bytes) : UInt32 :=
  lexHash str (icFindHashFunction T.symbols).hashMultiplier
    (icFindHashFunction T.symbols).hashDivider

variable {T} (hFound : (icFindHashFunction T.symbols).failed = false)

include hFound

theorem symbolMap_slot (hk : k ∈ T.symbols) :
    (icFindHashFunction T.symbols).symbolMap (T.slot k.symbolStr) = k.symbolId.toUInt16 := by
  have hFilled := findLoop_filled T.symbols 10000 0 _ rfl hFound
  have hSpec := fillMap_spec T.symbols (fun k hk => T.toUInt16_ne_zero hk) (fun _ => 0)
    (congrArg Prod.snd hFilled)
  have hSlot := (hSpec.1 k hk).2
  rwa [show (fillMap _ _ T.symbols (fun _ => 0, false)).1 = _ from congrArg Prod.fst hFilled]
    at hSlot

theorem symbolMap_empty {i : UInt32} (hi : ∀ k ∈ T.symbols, T.slot k.symbolStr ≠ i) :
    (icFindHashFunction T.symbols).symbolMap i = 0 := by
  have hFilled := findLoop_filled T.symbols 10000 0 _ rfl hFound
  have hSpec := fillMap_spec T.symbols (fun k hk => T.toUInt16_ne_zero hk) (fun _ => 0)
    (congrArg Prod.snd hFilled)
  have hOther := hSpec.2 i hi
  rwa [show (fillMap _ _ T.symbols (fun _ => 0, false)).1 = _ from congrArg Prod.fst hFilled]
    at hOther

end SymbolTable

/-! ## Identifiers -/

/-- The identifier is read right: the symbol id of a keyword exactly for that keyword, and a copy
of the identifier if it is not one. -/
structure Recognises (symbols : List ParseSymbol) (str : Bytes) (found : Found) : Prop where
  keyword : ∀ id, id ≠ 0 → (found.symbolValue = id ↔
    ∃ k ∈ symbols, k.symbolId = id ∧ icConvertToUppercase str = k.symbolStr)
  identifier : (∀ k ∈ symbols, icConvertToUppercase str ≠ k.symbolStr) →
    found = ⟨0, some str⟩

namespace SymbolTable

variable (T : SymbolTable)

section

variable (hFound : (icFindHashFunction T.symbols).failed = false)

include hFound

theorem found_of_keyword {str : Bytes} (hLen : str.length ≤ symbolBufSize) (hk : k ∈ T.symbols)
    (hSlot : T.slot (icConvertToUppercase str) = T.slot k.symbolStr) :
    icFoundIdentifier (icFindHashFunction T.symbols) str = some ⟨k.symbolId, none⟩ := by
  have hMap := symbolMap_slot hFound hk
  rw [← hSlot, slot] at hMap
  rw [icFoundIdentifier, if_pos hLen]
  dsimp only
  rw [hMap, if_pos (T.toUInt16_ne_zero hk), T.toUInt32_toUInt16 hk]

theorem found_of_empty {str : Bytes} (hLen : str.length ≤ symbolBufSize)
    (hSlot : ∀ k ∈ T.symbols, T.slot k.symbolStr ≠ T.slot (icConvertToUppercase str)) :
    icFoundIdentifier (icFindHashFunction T.symbols) str = some ⟨0, some str⟩ := by
  have hMap := symbolMap_empty hFound hSlot
  rw [slot] at hMap
  rw [icFoundIdentifier, if_pos hLen]
  dsimp only
  rw [hMap, if_neg (not_not.mpr rfl)]

/-- Keywords with one slot are one keyword. -/
theorem id_of_slot {k' : ParseSymbol} (hk : k ∈ T.symbols) (hk' : k' ∈ T.symbols)
    (hSlot : T.slot k.symbolStr = T.slot k'.symbolStr) : k.symbolId = k'.symbolId := by
  have hMap := symbolMap_slot hFound hk
  rw [hSlot, symbolMap_slot hFound hk'] at hMap
  rw [← T.toUInt32_toUInt16 hk, ← T.toUInt32_toUInt16 hk', hMap]

end

end SymbolTable

/-- An identifier is read right exactly if it is a keyword or has a slot of its own. -/
theorem recognises_iff (T : SymbolTable) (hFound : (icFindHashFunction T.symbols).failed = false)
    (str : Bytes) (hLen : str.length ≤ symbolBufSize) :
    (∃ found, icFoundIdentifier (icFindHashFunction T.symbols) str = some found ∧
        Recognises T.symbols str found) ↔
      (∃ k ∈ T.symbols, icConvertToUppercase str = k.symbolStr) ∨
        ∀ k ∈ T.symbols, T.slot k.symbolStr ≠ T.slot (icConvertToUppercase str) := by
  by_cases hKeyword : ∃ k ∈ T.symbols, icConvertToUppercase str = k.symbolStr
  · rcases hKeyword with ⟨k, hk, hStr⟩
    refine iff_of_true ⟨_, T.found_of_keyword hFound hLen hk (congrArg T.slot hStr), ?_⟩
      (.inl ⟨k, hk, hStr⟩)
    constructor
    · intro id _
      constructor
      · intro hId
        exact ⟨k, hk, hId, hStr⟩
      · rintro ⟨k', hk', hId, hStr'⟩
        rw [← hId]
        exact T.id_of_slot hFound hk hk' (congrArg T.slot (hStr.symm.trans hStr'))
    · intro hNone
      exact absurd hStr (hNone k hk)
  · have hNone : ∀ k ∈ T.symbols, icConvertToUppercase str ≠ k.symbolStr :=
      fun k hk hStr => hKeyword ⟨k, hk, hStr⟩
    rw [or_iff_right hKeyword]
    constructor
    · rintro ⟨found, hRun, hRight⟩ k hk hSlot
      rw [hRight.identifier hNone] at hRun
      rw [T.found_of_keyword hFound hLen hk hSlot.symm] at hRun
      have hCopy := congrArg Found.icStr (Option.some.inj hRun)
      cases hCopy
    · intro hSlot
      refine ⟨_, T.found_of_empty hFound hLen hSlot, ?_, fun _ => rfl⟩
      intro id hId
      constructor
      · intro hZero
        exact absurd hZero.symm hId
      · rintro ⟨k, hk, -, hStr⟩
        exact absurd hStr (hNone k hk)

/-! ## The bootstrap program -/

/-- `parse_symbols` of bootstrap/ic_boot_lex.c, with the token numbers in the order of the
declarations of the grammar. -/
def bootSymbols : SymbolTable where
  symbols := [
    ⟨ascii "CLUSTER", 258⟩, ⟨ascii "CLUSTER_ID", 259⟩, ⟨ascii "DATA", 260⟩, ⟨ascii "=", 261⟩,
    ⟨ascii "EXIT", 262⟩, ⟨ascii "FILE", 263⟩, ⟨ascii "FILES", 264⟩, ⟨ascii "HOST", 265⟩,
    ⟨ascii "MANAGER", 266⟩, ⟨ascii "MANAGERS", 267⟩, ⟨ascii "NODE_ID", 268⟩,
    ⟨ascii "PCNTRL_HOST", 269⟩, ⟨ascii "PCNTRL_PORT", 270⟩, ⟨ascii "PREPARE", 271⟩,
    ⟨ascii "REPLICATION", 272⟩, ⟨ascii "QUIT", 273⟩, ⟨ascii "SEND", 274⟩, ⟨ascii "SERVER", 275⟩,
    ⟨ascii "SERVERS", 276⟩, ⟨ascii "SQL", 277⟩, ⟨ascii "START", 278⟩]
  upper := by decide +kernel
  ids := by decide +kernel

theorem bootSymbols_found : (icFindHashFunction bootSymbols.symbols).failed = false := by
  decide +kernel

/-- `localhost` has no keyword in its slot. -/
theorem recognises_localhost :
    (∃ found, icFoundIdentifier (icFindHashFunction bootSymbols.symbols) (ascii "localhost") =
        some found ∧ Recognises bootSymbols.symbols (ascii "localhost") found) ↔
      (∃ k ∈ bootSymbols.symbols, icConvertToUppercase (ascii "localhost") = k.symbolStr) ∨
        ∀ k ∈ bootSymbols.symbols,
          bootSymbols.slot k.symbolStr ≠ bootSymbols.slot (icConvertToUppercase (ascii "localhost")) :=
  recognises_iff bootSymbols bootSymbols_found (ascii "localhost") (by decide)

/-- The host name `db28` is taken for SERVERS. -/
theorem db28_is_servers :
    (icFindHashFunction bootSymbols.symbols).failed = false ∧
      ¬ ∃ found, icFoundIdentifier (icFindHashFunction bootSymbols.symbols) (ascii "db28") =
        some found ∧ Recognises bootSymbols.symbols (ascii "db28") found := by
  refine ⟨bootSymbols_found, ?_⟩
  rintro ⟨found, hRun, hRight⟩
  have hServers : icFoundIdentifier (icFindHashFunction bootSymbols.symbols) (ascii "db28") =
      some ⟨276, none⟩ := by decide +kernel
  have hCopy := hRight.identifier (by decide +kernel)
  rw [hServers, hCopy] at hRun
  cases hRun

end IClaustron.Lex.Keywords
