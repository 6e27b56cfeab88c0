import IClaustron.DynArray.Array
import IClaustron.Lib.Records

/-!
# DynArray.PtrArray — the dynamic pointer array

The end of util/ic_dyn_array.c. A pointer array is an ordered dynamic array of
8-byte entries. An entry is a union: the object pointer of a live entry, or a
position in the free list, marked by the highest bit. Entry 0 is the head of
the free list.

`none` is again a stop of the program; the source calls `abort` explicitly where
an entry is not what it should be.
-/

namespace IClaustron.DynArray

open Lib

/-- sizeof(IC_PTR_ARRAY_ENTRY). -/
def entrySize : Nat := 8

/-- HIGHEST_BIT_SET. -/
def highestBitSet : Nat := 2 ^ 63

/-- IC_ERROR_PTR_ARRAY_INDEX_OUT_OF_BOUND. -/
def errorIndexOutOfBound : Nat := 7054

/-- IC_ERROR_PTR_ARRAY_INDEX_ERROR. -/
def errorIndexError : Nat := 7055

/-- IC_ERROR_INDEX_ZERO_NOT_ALLOWED. -/
def errorIndexZero : Nat := 7053

/-- `read_dynamic_ptr_array`. The entry is copied out of one buffer without a
look at its end. -/
def readPtrArray (a : DynamicArray) (position size : Nat) : Option (Nat × List Byte) := do
  let (ret, dynBuf, bufPos) ← findPosOrdered a position
  if ret ≠ 0 then some (ret, [])
  else
    let p ← dynBuf
    let b ← buf? a.mem p
    if bufPos + size ≤ bufSize then some (0, (b.buf.drop bufPos).take size) else none

/-- `write_dynamic_ptr_array`. -/
def writePtrArray (a : DynamicArray) (position : Nat) (data : List Byte) :
    Option (DynamicArray × Nat) := do
  let (ret, dynBuf, bufPos) ← findPosOrdered a position
  if ret ≠ 0 then some (a, ret)
  else
    let p ← dynBuf
    let b ← buf? a.mem p
    if bufPos + data.length ≤ bufSize then
      some ({ a with mem := a.mem.set p (.buf { b with buf := overwrite b.buf bufPos data }) }, 0)
    else none

/-- Read an entry, and abort when that fails. -/
def readEntry (a : DynamicArray) (position : Nat) : Option Nat := do
  let (ret, bytes) ← readPtrArray a position entrySize
  if ret ≠ 0 then none else some (ofBytes bytes)

/-- Write an entry, and abort when that fails. -/
def writeEntry (a : DynamicArray) (position value : Nat) : Option DynamicArray := do
  let (a, ret) ← writePtrArray a position (toBytes entrySize value)
  if ret ≠ 0 then none else some a

/-- The outcome of the allocations of one call, when the one with number `failAt`
fails. -/
def allocOk (failAt : Option Nat) (fresh n : Nat) : Bool := failAt ≠ some (n - fresh)

/-- `insert_ptr`: the array, the return code and the index handed out. -/
def insertPtr (ok : Nat → Bool) (a : DynamicArray) (object : Nat) :
    Option (DynamicArray × Nat × Nat) := do
  let posFirstFree ← readEntry a 0
  if posFirstFree = 0 then
    -- All entries are used: extend the array.
    let posFirstFree := a.totalSizeInBytes
    let (a, ret) ← insertOrdered ok a (toBytes entrySize object)
    if ret ≠ 0 then some (a, errorMemAlloc, 0) else some (a, 0, posFirstFree / entrySize)
  else
    let position ← readEntry a posFirstFree
    if position < highestBitSet then none
    else
      let a ← writeEntry a 0 (position - highestBitSet)
      let a ← writeEntry a posFirstFree object
      some (a, 0, posFirstFree / entrySize)

/-- `get_ptr`: return code and object. -/
def getPtr (a : DynamicArray) (index : Nat) : Option (Nat × Nat) := do
  let position := index * entrySize % 2 ^ 64
  let (ret, bytes) ← readPtrArray a position entrySize
  if ret ≠ 0 then some (errorIndexOutOfBound, 0)
  else if ofBytes bytes ≥ highestBitSet then some (errorIndexError, 0)
  else some (0, ofBytes bytes)

/-- `remove_ptr`. The head of the free list is written back as it was read: the
position that was meant for it stays in `ptr_entry`. -/
def removePtr (a : DynamicArray) (index object : Nat) : Option (DynamicArray × Nat) := do
  let position := index * entrySize % 2 ^ 64
  if index = 0 then some (a, errorIndexZero)
  else
    let entry ← readEntry a position
    if entry ≠ object then none
    else
      let firstPosPtrEntry ← readEntry a 0
      let a ← writeEntry a position ((firstPosPtrEntry + highestBitSet) % 2 ^ 64)
      let a ← writeEntry a 0 firstPosPtrEntry
      some (a, 0)

/-- `get_max_index`. -/
def getMaxIndex (a : DynamicArray) : Nat := a.totalSizeInBytes / entrySize

/-- `ic_create_dynamic_ptr_array`: an array with the list head as its only
entry. -/
def createPtrArray (ok : Nat → Bool) (m : Mem) : Option DynamicArray := do
  let a ← createOrdered ok m
  let (a, ret) ← insertOrdered ok a (toBytes entrySize 0)
  if ret ≠ 0 then none else some a

end IClaustron.DynArray
