import IClaustron.Lib.Heap
import IClaustron.Lib.Overwrite
import Mathlib.Algebra.Ring.Nat

/-!
# DynArray.Array — simple and ordered dynamic arrays

Model of util/ic_dyn_array.c. The bytes of an array lie in a linked list of
buffers of 1024 bytes; an ordered array keeps a tree of index nodes with 128
children over the list, and grows a new root when the rightmost path is full.

A pointer variable is an `Option Ptr` (`none` is NULL). `none` as the result of
a function means that the program stops: NULL or a freed object is followed, an
array is indexed out of bounds or an assertion fails. Allocation outcomes are
the parameter `ok`, see `Lib.Heap`. Sizes are unbounded: memory runs out long
before `total_size_in_bytes` could wrap or the tree reach nine levels.
-/

namespace IClaustron.DynArray

open Lib

/-- SIMPLE_DYNAMIC_ARRAY_BUF_SIZE. -/
def bufSize : Nat := 1024

/-- LOG_SIMPLE_DYNAMIC_ARRAY_BUF_SIZE. -/
def logBufSize : Nat := 10

/-- ORDERED_DYNAMIC_INDEX_SIZE. -/
def indexSize : Nat := 128

/-- LOG_ORDERED_DYNAMIC_INDEX_SIZE. -/
def logIndexSize : Nat := 7

/-- IC_ERROR_MEM_ALLOC. -/
def errorMemAlloc : Nat := 7005

abbrev Byte := UInt8

/-- IC_SIMPLE_DYNAMIC_BUF. -/
structure DynBuf where
  nextDynBuf : Option Ptr
  buf : List Byte
deriving DecidableEq

/-- IC_DYNAMIC_ARRAY_INDEX. -/
structure DynIndex where
  nextDynIndex : Option Ptr
  parentDynIndex : Option Ptr
  nextIndexToInsert : Nat
  oldNextIndexToInsert : Nat
  childPtrs : Nat → Option Ptr

/-- The two kinds of objects that the arrays allocate. -/
inductive Cell where
  | buf (b : DynBuf)
  | index (n : DynIndex)

abbrev Mem := Heap Cell

/-- Follow a pointer to a buffer. -/
def buf? (m : Mem) (p : Ptr) : Option DynBuf :=
  match m.cells p with
  | some (.buf b) => some b
  | _ => none

/-- Follow a pointer to an index node. -/
def index? (m : Mem) (p : Ptr) : Option DynIndex :=
  match m.cells p with
  | some (.index n) => some n
  | _ => none

/-- What `ic_calloc` leaves in a buffer. -/
def zeroBuf : DynBuf := ⟨none, List.replicate bufSize 0⟩

/-- What `ic_calloc` leaves in an index node. -/
def zeroIndex : DynIndex := ⟨none, none, 0, 0, fun _ => none⟩

/-- IC_SIMPLE_DYNAMIC_ARRAY. -/
structure SdArray where
  firstDynBuf : Option Ptr
  lastDynBuf : Option Ptr
  bytesUsed : Nat
deriving DecidableEq

/-- IC_ORDERED_DYNAMIC_ARRAY. -/
structure OrdArray where
  topDynIndex : Option Ptr
  firstDynIndex : Option Ptr
  lastDynIndex : Option Ptr
  indexLevels : Nat
deriving DecidableEq

/-- IC_DYNAMIC_ARRAY_INT with the memory it lives in. -/
structure DynamicArray where
  mem : Mem
  sdArray : SdArray
  ordArray : OrdArray
  totalSizeInBytes : Nat

/-! ## Simple dynamic arrays -/

/-- `release_dyn_buf`. -/
def releaseDynBuf : Nat → Mem → Option Ptr → Option Mem
  | _, m, none => some m
  | 0, _, some _ => none
  | fuel + 1, m, some p => do
    let b ← buf? m p
    releaseDynBuf fuel (m.free p) b.nextDynBuf

/-- `release_dyn_index`. -/
def releaseDynIndex : Nat → Mem → Option Ptr → Option Mem
  | _, m, none => some m
  | 0, _, some _ => none
  | fuel + 1, m, some p => do
    let n ← index? m p
    releaseDynIndex fuel (m.free p) n.nextDynIndex

/-- The copy loop of `insert_simple_dynamic_array`: fill the current buffer
from `start` on, and go on in a new buffer while data is left. Returns the new
`bytes_used`, or nothing when a buffer could not be allocated. -/
def copyLoop (ok : Nat → Bool) : Nat → DynamicArray → Ptr → Nat → List Byte →
    Option (DynamicArray × Option Nat)
  | 0, _, _, _, _ => none
  | fuel + 1, a, curr, start, data => do
    let b ← buf? a.mem curr
    let sizeInBuffer := bufSize - start
    if data.length > sizeInBuffer then
      let b := { b with buf := overwrite b.buf start (data.take sizeInBuffer) }
      match (a.mem.set curr (.buf b)).calloc ok (.buf zeroBuf) with
      | (mem, none) => some ({ a with mem }, none)
      | (mem, some new) =>
        copyLoop ok fuel
          { a with
            mem := mem.set curr (.buf { b with nextDynBuf := some new })
            sdArray := { a.sdArray with lastDynBuf := some new } }
          new 0 (data.drop sizeInBuffer)
    else
      let b := { b with buf := overwrite b.buf start data }
      some ({ a with mem := a.mem.set curr (.buf b) }, some (start + data.length))

/-- `insert_simple_dynamic_array`: the array and the return code. -/
def insertSimple (ok : Nat → Bool) (a : DynamicArray) (data : List Byte) :
    Option (DynamicArray × Nat) := do
  let curr ← a.sdArray.lastDynBuf
  let (a', bytesUsed) ← copyLoop ok (data.length + 2) a curr a.sdArray.bytesUsed data
  match bytesUsed with
  | none =>
    -- Deallocate the buffers allocated so far.
    let b ← buf? a'.mem curr
    let mem ← releaseDynBuf (a'.mem.fresh + 1) a'.mem b.nextDynBuf
    some ({ a' with
      mem := mem.set curr (.buf { b with nextDynBuf := none })
      sdArray := { a'.sdArray with
        lastDynBuf := some curr, bytesUsed := a.sdArray.bytesUsed } }, errorMemAlloc)
  | some used =>
    some ({ a' with
      sdArray := { a'.sdArray with bytesUsed := used }
      totalSizeInBytes := a'.totalSizeInBytes + data.length }, 0)

/-- The scan of `find_pos_simple_dyn_array`; `pos` is relative to `scan_pos`.
A position behind the last buffer gives return code 1. -/
def scanPos : Nat → Mem → Option Ptr → Nat → Option (Nat × Option Ptr × Nat)
  | _, _, none, _ => some (1, none, 0)
  | 0, _, some _, _ => none
  | fuel + 1, m, some p, pos =>
    if pos ≥ bufSize then do
      let b ← buf? m p
      scanPos fuel m b.nextDynBuf (pos - bufSize)
    else some (0, some p, pos)

/-- `find_pos_simple_dyn_array`: return code, buffer and position in it. -/
def findPosSimple (a : DynamicArray) (pos : Nat) : Option (Nat × Option Ptr × Nat) :=
  scanPos (pos / bufSize + 1) a.mem a.sdArray.firstDynBuf pos

/-- The loop of `read_pos_simple_dynamic_array`: return code and bytes read. -/
def readLoop : Nat → Mem → Option Ptr → Nat → Nat → Option (Nat × List Byte)
  | 0, _, _, _, _ => none
  | _ + 1, _, none, _, _ => some (1, [])
  | fuel + 1, m, some p, bufPos, size => do
    let b ← buf? m p
    let readSize := min size (bufSize - bufPos)
    let part := (b.buf.drop bufPos).take readSize
    if readSize < size then do
      let (ret, rest) ← readLoop fuel m b.nextDynBuf 0 (size - readSize)
      some (ret, part ++ rest)
    else some (0, part)

/-- `read_pos_simple_dynamic_array`. -/
def readPos (m : Mem) (dynBuf : Option Ptr) (bufPos size : Nat) : Option (Nat × List Byte) :=
  readLoop (size + 1) m dynBuf bufPos size

/-- The loop of `write_pos_simple_dynamic_array`. -/
def writeLoop : Nat → Mem → Option Ptr → Nat → List Byte → Option (Mem × Nat)
  | 0, _, _, _, _ => none
  | _ + 1, m, none, _, _ => some (m, 1)
  | fuel + 1, m, some p, bufPos, data => do
    let b ← buf? m p
    let writeSize := min data.length (bufSize - bufPos)
    let m := m.set p (.buf { b with buf := overwrite b.buf bufPos (data.take writeSize) })
    if writeSize < data.length then writeLoop fuel m b.nextDynBuf 0 (data.drop writeSize)
    else some (m, 0)

/-- `write_pos_simple_dynamic_array`. -/
def writePos (m : Mem) (dynBuf : Option Ptr) (bufPos : Nat) (data : List Byte) :
    Option (Mem × Nat) :=
  writeLoop (data.length + 1) m dynBuf bufPos data

/-- The common body of the two write functions, which differ in how the
position is looked up. -/
def writeWith (findPos : DynamicArray → Nat → Option (Nat × Option Ptr × Nat)) (a : DynamicArray)
    (position : Nat) (data : List Byte) : Option (DynamicArray × Nat) := do
  let (ret, dynBuf, bufPos) ← findPos a position
  if ret ≠ 0 then some (a, ret)
  else
    let (mem, ret) ← writePos a.mem dynBuf bufPos data
    some ({ a with mem }, ret)

/-- The common body of the two read functions. The sum of position and size is
a 64-bit one. -/
def readWith (findPos : DynamicArray → Nat → Option (Nat × Option Ptr × Nat)) (a : DynamicArray)
    (position size : Nat) : Option (Nat × List Byte) := do
  if (position + size) % 2 ^ 64 > a.totalSizeInBytes then some (1, [])
  else
    let (ret, dynBuf, bufPos) ← findPos a position
    if ret ≠ 0 then some (ret, [])
    else readPos a.mem dynBuf bufPos size

/-- `write_simple_dynamic_array`. -/
def writeSimple := writeWith findPosSimple

/-- `read_simple_dynamic_array`. -/
def readSimple := readWith findPosSimple

/-- `ic_create_simple_dynamic_array`. -/
def createSimple (ok : Nat → Bool) (m : Mem) : Option DynamicArray :=
  match m.calloc ok (.buf zeroBuf) with
  | (_, none) => none
  | (mem, some dynBuf) =>
    some
      { mem
        sdArray := ⟨some dynBuf, some dynBuf, 0⟩
        ordArray := ⟨none, none, none, 0⟩
        totalSizeInBytes := 0 }

/-! ## Ordered dynamic arrays -/

/-- `insert_dyn_index_list`. -/
def insertDynIndexList (a : DynamicArray) (dynIndex : Ptr) : Option DynamicArray := do
  let prev ← a.ordArray.lastDynIndex
  let n ← index? a.mem prev
  some { a with
    mem := a.mem.set prev (.index { n with nextDynIndex := some dynIndex })
    ordArray := { a.ordArray with lastDynIndex := some dynIndex } }

/-- `dyn_index->parent_dyn_index= parent`. -/
def setParent (a : DynamicArray) (dynIndex : Ptr) (parent : Option Ptr) : Option DynamicArray := do
  let n ← index? a.mem dynIndex
  some { a with mem := a.mem.set dynIndex (.index { n with parentDynIndex := parent }) }

/-- `dyn_index->child_ptrs[i]= child; dyn_index->next_index_to_insert= i + 1`. -/
def putChild (a : DynamicArray) (dynIndex : Ptr) (i : Nat) (child : Ptr) : Option DynamicArray := do
  let n ← index? a.mem dynIndex
  if i < indexSize then
    some { a with
      mem := a.mem.set dynIndex (.index { n with
        childPtrs := Function.update n.childPtrs i (some child)
        nextIndexToInsert := i + 1 }) }
  else none

/-- The end of `insert_buf_in_ordered_dynamic_index` for a new node that is not
below a new top node: the recursive call has entered it in `new_parent`, or in
the parent of the full node when there is no `new_parent`. -/
def finishNewIndex (a : DynamicArray) (dynIndex newDynIndex : Ptr) (newParent : Option Ptr)
    (childPtr : Ptr) : Option DynamicArray := do
  let a ← insertDynIndexList a newDynIndex
  let n ← index? a.mem dynIndex
  let a ← setParent a newDynIndex (newParent.or n.parentDynIndex)
  putChild a newDynIndex 0 childPtr

/-- The end of `insert_buf_in_ordered_dynamic_index` for a full top node: the
new top node gets the full and the new node. -/
def finishNewTop (a : DynamicArray) (dynIndex newDynIndex newTop childPtr : Ptr) :
    Option DynamicArray := do
  let a ← insertDynIndexList a newTop
  let a ← insertDynIndexList a newDynIndex
  let a ← setParent a dynIndex (some newTop)
  let a ← setParent a newDynIndex (some newTop)
  let a ← putChild a newTop 0 dynIndex
  let a ← putChild a newTop 1 newDynIndex
  let a := { a with
    ordArray := { a.ordArray with
      indexLevels := a.ordArray.indexLevels + 1, topDynIndex := some newTop } }
  putChild a newDynIndex 0 childPtr

/-- `insert_buf_in_ordered_dynamic_index`: the array, `*new_parent` and the
return code. The bound on the recursion is the number of levels. -/
def insertBufInIndex (ok : Nat → Bool) : Nat → DynamicArray → Ptr → Ptr →
    Option (DynamicArray × Option Ptr × Nat)
  | 0, _, _, _ => none
  | fuel + 1, a, dynIndex, childPtr => do
    let n ← index? a.mem dynIndex
    if n.nextIndexToInsert = indexSize then
      match a.mem.calloc ok (.index zeroIndex) with
      | (mem, none) => some ({ a with mem }, none, errorMemAlloc)
      | (mem, some newDynIndex) =>
        match n.parentDynIndex with
        | some parent =>
          -- Not the top node: the parent gets the new node as a child.
          let (a, newParent, ret) ← insertBufInIndex ok fuel { a with mem } parent newDynIndex
          if ret ≠ 0 then some ({ a with mem := a.mem.free newDynIndex }, some newDynIndex, ret)
          else
            let a ← finishNewIndex a dynIndex newDynIndex newParent childPtr
            some (a, some newDynIndex, 0)
        | none =>
          match mem.calloc ok (.index zeroIndex) with
          | (mem, none) =>
            some ({ a with mem := mem.free newDynIndex }, some newDynIndex, errorMemAlloc)
          | (mem, some newTop) =>
            let a ← finishNewTop { a with mem } dynIndex newDynIndex newTop childPtr
            some (a, some newDynIndex, 0)
    else
      let a ← putChild a dynIndex n.nextIndexToInsert childPtr
      some (a, none, 0)

/-- Visit a node and its ancestors; `f` gives the new node. -/
def walkParents (f : DynIndex → DynIndex) : Nat → Mem → Option Ptr → Option Mem
  | _, m, none => some m
  | 0, _, some _ => none
  | fuel + 1, m, some p => do
    let n ← index? m p
    walkParents f fuel (m.set p (.index (f n))) n.parentDynIndex

/-- Remember `next_index_to_insert` to make a restore possible. -/
def saveIndex (n : DynIndex) : DynIndex := { n with oldNextIndexToInsert := n.nextIndexToInsert }

/-- Go back to the remembered `next_index_to_insert`. -/
def restoreIndex (n : DynIndex) : DynIndex := { n with nextIndexToInsert := n.oldNextIndexToInsert }

/-- The error path of `insert_ordered_dynamic_array`; `old` is the array before
the call. -/
def undoInsertOrdered (old a : DynamicArray) : Option DynamicArray := do
  let oldDynBuf ← old.sdArray.lastDynBuf
  let b ← buf? a.mem oldDynBuf
  let mem ← releaseDynBuf (a.mem.fresh + 1) a.mem b.nextDynBuf
  let mem := mem.set oldDynBuf (.buf { b with nextDynBuf := none })
  let mem ← walkParents restoreIndex (mem.fresh + 1) mem old.ordArray.lastDynIndex
  let oldLast ← old.ordArray.lastDynIndex
  let n ← index? mem oldLast
  let mem ← releaseDynIndex (mem.fresh + 1) mem n.nextDynIndex
  let n ← index? mem oldLast
  let mem := mem.set oldLast (.index { n with nextDynIndex := none })
  let oldTop ← old.ordArray.topDynIndex
  let n ← index? mem oldTop
  some { a with
    mem := mem.set oldTop (.index { n with parentDynIndex := none })
    sdArray := { a.sdArray with
      lastDynBuf := some oldDynBuf, bytesUsed := old.sdArray.bytesUsed }
    ordArray := { a.ordArray with
      lastDynIndex := old.ordArray.lastDynIndex
      topDynIndex := old.ordArray.topDynIndex
      indexLevels := old.ordArray.indexLevels } }

/-- The loop of `insert_ordered_dynamic_array` that enters the new buffers in
the index. -/
def indexLoop (ok : Nat → Bool) (old : DynamicArray) (size : Nat) :
    Nat → DynamicArray → Ptr → Nat → Option (DynamicArray × Nat)
  | 0, _, _, _ => none
  | fuel + 1, a, loopDynBuf, indexed => do
    if a.sdArray.lastDynBuf = some loopDynBuf then some (a, 0)
    else
      let b ← buf? a.mem loopDynBuf
      let next ← b.nextDynBuf
      let indexed := indexed + bufSize
      -- ic_assert(size + (SIMPLE_DYNAMIC_ARRAY_BUF_SIZE - 1) >= buf_size)
      if size + (bufSize - 1) < indexed then none
      else
        let last ← a.ordArray.lastDynIndex
        let (a, _, ret) ← insertBufInIndex ok (a.ordArray.indexLevels + 1) a last next
        if ret ≠ 0 then do
          let a ← undoInsertOrdered old a
          some (a, ret)
        else indexLoop ok old size fuel a next indexed

/-- `insert_ordered_dynamic_array`. -/
def insertOrdered (ok : Nat → Bool) (a : DynamicArray) (data : List Byte) :
    Option (DynamicArray × Nat) := do
  let mem ← walkParents saveIndex (a.ordArray.indexLevels + 1) a.mem a.ordArray.lastDynIndex
  let oldDynBuf ← a.sdArray.lastDynBuf
  let (a', ret) ← insertSimple ok { a with mem } data
  if ret ≠ 0 then some (a', ret)
  else indexLoop ok a data.length (data.length + 2) a' oldDynBuf 0

/-- The descent of `find_pos_ordered_dyn_array` over the given number of
levels. -/
def descend : Nat → Mem → Option Ptr → Nat → Option (Nat × Option Ptr × Nat)
  | 0, _, dynIndex, newPos => some (0, dynIndex, newPos)
  | level + 1, m, dynIndex, newPos => do
    let logIndex := logBufSize + logIndexSize * level
    let index := newPos >>> logIndex
    let newPos := newPos - (index <<< logIndex)
    if index ≥ indexSize then some (1, none, 0)
    else
      let p ← dynIndex
      let n ← index? m p
      descend level m (n.childPtrs index) newPos

/-- `find_pos_ordered_dyn_array`. -/
def findPosOrdered (a : DynamicArray) (pos : Nat) : Option (Nat × Option Ptr × Nat) :=
  descend a.ordArray.indexLevels a.mem a.ordArray.topDynIndex pos

/-- `write_ordered_dynamic_array`. -/
def writeOrdered := writeWith findPosOrdered

/-- `read_ordered_dynamic_array`. -/
def readOrdered := readWith findPosOrdered

/-- `ic_create_ordered_dynamic_array`. -/
def createOrdered (ok : Nat → Bool) (m : Mem) : Option DynamicArray :=
  match m.calloc ok (.index zeroIndex) with
  | (_, none) => none
  | (mem, some dynIndex) => do
    let a ← createSimple ok mem
    let first ← a.sdArray.firstDynBuf
    putChild { a with ordArray := ⟨some dynIndex, some dynIndex, some dynIndex, 1⟩ } dynIndex 0 first

end IClaustron.DynArray
