import IClaustron.DynArray.PtrArray
import IClaustron.Lib.Assoc
import IClaustron.Lib.Result

/-!
# Pcntrl.Table — the process table of the process controller

Model of the data of pcntrl/ic_pcntrl.c: the IC_PC_START objects, the hash table
`glob_pc_hash` and the pointer array `glob_pc_array` that both hold them, and
the operations on the table that run under `pc_hash_mutex`.

The hash table is the list of its entries. Which bucket an entry lies in decides
only the order in which the check thread meets the entries, and that order is a
choice of the run. The pointer array is the one of `DynArray.PtrArray`.

`Stop` is the end of the program: an `ic_require` or `ic_assert` that fails, or a
step whose behaviour is undefined.
-/

namespace IClaustron.Pcntrl

open Lib DynArray

/-- A C string without its terminating NUL. -/
abbrev Str := List Byte

/-- IC_PC_KEY. -/
structure Key where
  gridName : Str
  clusterName : Str
  nodeName : Str
deriving DecidableEq

/-- IC_PC_START: what the start message gives, and what the process controller
adds. The object is the first one in its memory container, and the container is
freed as a whole. -/
structure PcStart where
  key : Key
  programName : Str
  versionString : Str
  parameters : List Str
  autorestart : Bool
  pid : Nat
  startId : Nat
  dynTransIndex : Nat
  checkTime : Nat
  checkOngoing : Bool
  killOngoing : Bool
deriving DecidableEq

/-- The fields of a start message. -/
structure StartMessage where
  key : Key
  programName : Str
  versionString : Str
  parameters : List Str
  autorestart : Bool
deriving DecidableEq

/-- The object that `rec_start_message` builds; the container is calloc'ed. -/
def StartMessage.toPcStart (m : StartMessage) : PcStart where
  key := m.key
  programName := m.programName
  versionString := m.versionString
  parameters := m.parameters
  autorestart := m.autorestart
  pid := 0
  startId := 0
  dynTransIndex := 0
  checkTime := 0
  checkOngoing := false
  killOngoing := false

/-- A process that was spawned for an entry. The process controller has no such
list: it is the part of the operating system that the entries stand for. -/
structure Proc where
  entry : Ptr
  key : Key
  pid : Nat
  alive : Bool
  killed : Bool
deriving DecidableEq

/-- The global data. -/
structure World where
  pcs : Heap PcStart
  hash : List (Key × Ptr)
  array : DynamicArray
  globStartId : Nat
  procs : List Proc

/-- Why the program stops. -/
inductive Stop where
  /-- freed memory is used or freed again -/
  | freed
  /-- an `ic_require` fails -/
  | require
  /-- the pointer array calls `abort` or follows NULL -/
  | array
  /-- the hash table follows a word that is no pointer -/
  | wild
deriving DecidableEq

/-- Follow a pointer to an IC_PC_START. -/
def follow (w : World) (p : Ptr) : Except Stop PcStart :=
  match w.pcs.cells p with
  | some c => .ok c
  | none => .error .freed

/-- Write an IC_PC_START. -/
def store (w : World) (p : Ptr) (c : PcStart) : World := { w with pcs := w.pcs.set p c }

/-- `ic_mc_free` of the container of an IC_PC_START. -/
def release (w : World) (p : Ptr) : Except Stop World :=
  match w.pcs.cells p with
  | some _ => .ok { w with pcs := w.pcs.free p }
  | none => .error .freed

/-- `ic_hashtable_search` on `glob_pc_hash`. -/
def hashSearch (w : World) (key : Key) : Option Ptr := Assoc.search w.hash key

/-- The outcome of `ic_hashtable_insert`. -/
inductive HashInsert where
  | ok
  /-- no memory for the entry -/
  | noMemory
  /-- The table has to grow and only `realloc` gives memory for it.
  `ic_hashtable_expand` then clears the new buckets through `newtable[..]`, a word
  that was never written, in place of its address. -/
  | realloc
deriving DecidableEq

/-- `remove_pc_entry`. -/
def removePcEntry (w : World) (p : Ptr) : Except Stop World := do
  let c ← follow w p
  if hashSearch w c.key = some p then
    match removePtr w.array c.dynTransIndex p with
    | none => throw .array
    | some (a, _) => pure { w with hash := Assoc.remove w.hash c.key, array := a }
  else throw .require

/-- `insert_pc_entry`: the return code. `failAt` is the allocation of `insert_ptr`
that fails, if any. -/
def insertPcEntry (w : World) (p : Ptr) (failAt : Option Nat) (hash : HashInsert) :
    Except Stop (World × Nat) := do
  let c ← follow w p
  match insertPtr (allocOk failAt w.array.mem.fresh) w.array p with
  | none => throw .array
  | some (a, ret, index) =>
    let w := { w with array := a }
    if ret ≠ 0 then pure (w, ret)
    else
      let w := store w p { c with dynTransIndex := index }
      match hash with
      | .ok => pure ({ w with hash := (c.key, p) :: w.hash }, 0)
      | .realloc => throw .wild
      | .noMemory =>
        match removePtr w.array index p with
        | none => throw .array
        | some (a, _) => pure ({ w with array := a }, errorMemAlloc)

/-! ## What a success says -/

variable {w w' : World} {p : Ptr} {c : PcStart}

theorem follow_eq_ok : follow w p = .ok c ↔ w.pcs.cells p = some c := by
  unfold follow
  cases w.pcs.cells p with
  | none => simp
  | some d => simp

theorem follow_of_cell (h : w.pcs.cells p = some c) : follow w p = .ok c := follow_eq_ok.mpr h

theorem release_eq_ok (h : release w p = .ok w') :
    (∃ c, w.pcs.cells p = some c) ∧ w' = { w with pcs := w.pcs.free p } := by
  unfold release at h
  split at h
  · rename_i c hc
    cases h
    exact ⟨⟨c, hc⟩, rfl⟩
  · cases h

theorem removePcEntry_eq_ok (h : removePcEntry w p = .ok w') :
    ∃ c a, w.pcs.cells p = some c ∧ hashSearch w c.key = some p ∧
      w' = { w with hash := Assoc.remove w.hash c.key, array := a } := by
  unfold removePcEntry at h
  obtain ⟨c, hc, h⟩ := Result.bind_eq_ok.mp h
  split_ifs at h with hs
  split at h
  · cases h
  · rename_i a ret _
    cases h
    exact ⟨c, a, follow_eq_ok.mp hc, hs, rfl⟩

theorem insertPcEntry_eq_ok {failAt : Option Nat} {hash : HashInsert} {ret : Nat}
    (h : insertPcEntry w p failAt hash = .ok (w', ret)) :
    ∃ c i a, w.pcs.cells p = some c ∧
      w' = { w with
        pcs := w.pcs.set p { c with dynTransIndex := i }
        hash := if ret = 0 then (c.key, p) :: w.hash else w.hash
        array := a } := by
  unfold insertPcEntry at h
  obtain ⟨c, hc, h⟩ := Result.bind_eq_ok.mp h
  rw [follow_eq_ok] at hc
  split at h
  · cases h
  · rename_i a ret' index _
    dsimp only at h
    split_ifs at h with hret
    · -- no room in the array
      cases h
      refine ⟨c, c.dynTransIndex, a, hc, ?_⟩
      rw [Heap.set_same hc, if_neg hret]
    · cases hash with
      | ok =>
        cases h
        exact ⟨c, index, a, hc, rfl⟩
      | realloc => cases h
      | noMemory =>
        dsimp only at h
        split at h
        · cases h
        · rename_i a' _ _
          cases h
          exact ⟨c, index, a', hc, rfl⟩

end IClaustron.Pcntrl
