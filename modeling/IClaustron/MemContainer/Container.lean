import Mathlib.Algebra.Ring.Nat
import Mathlib.Data.List.Basic

/-!
# MemContainer.Container — memory containers

Model of util/ic_mc.c. A container hands out pieces of its buffers and releases all of
them together. The buffers are numbered in the order in which they are allocated; `lens`
has their lengths, and `freed` those that were released, in that order. Whether an
allocation succeeds is part of the call.

A write behind the end of the buffer array, or the release of something that is not a
buffer in use, is an error of the program: the functions give `none` then. The contents
of the memory are not modelled, so mc_calloc is mc_alloc here: what it clears is what it
returns.
-/

namespace IClaustron.MemContainer

/-- MC_MIN_BASE_SIZE. -/
def minBaseSize : Nat := 128

/-- `ic_align`, on a value that is small enough for the type. -/
def icAlign (a b : Nat) : Nat := (a + (b - 1)) / b * b

/-- IC_INT_MEMORY_CONTAINER. `currentBuf` is a buffer and a position in it;
`buf_array_size` is the length of `bufArray`. -/
structure Mc where
  currentBuf : Nat × Nat
  bufArray : List (Option Nat)
  totalSize : Nat
  maxSize : Nat
  baseSize : Nat
  currentBufInx : Nat
  currentFreeLen : Nat
  firstBufInx : Nat
deriving DecidableEq

/-- The bytes that a call has returned. -/
structure Region where
  buf : Nat
  off : Nat
  len : Nat
deriving DecidableEq

/-- A container with the memory it uses. -/
structure Memory where
  mc : Mc
  lens : List Nat
  freed : List Nat
deriving DecidableEq

/-- The buffer is in use. -/
def Memory.Owned (m : Memory) (buf : Nat) : Prop := buf < m.lens.length ∧ buf ∉ m.freed

instance (m : Memory) (buf : Nat) : Decidable (m.Owned buf) := inferInstanceAs (Decidable (_ ∧ _))

/-- `mc_get_base_buf_size`. -/
def mcGetBaseBufSize (maxSize baseSize : Nat) : Nat :=
  if maxSize = 0 then 8 else (maxSize + baseSize - 1) / baseSize

/-- `mc_realloc_buf_array`, when the new array can be allocated. -/
def mcReallocBufArray (bufArray : List (Option Nat)) (newSize : Nat) : List (Option Nat) :=
  bufArray.take newSize ++ List.replicate (newSize - bufArray.length) none

/-- Write to the buffer array. -/
def writeSlot (bufArray : List (Option Nat)) (i : Nat) (p : Option Nat) :
    Option (List (Option Nat)) :=
  if i < bufArray.length then some (bufArray.set i p) else none

/-! ## mc_alloc -/

/-- The array has a slot `bufInx`, after it was made longer if need be; `none` if that
fails. Its length is a guint32. -/
def growBufArray (bufArray : List (Option Nat)) (bufInx : Nat) (arrayOk : Bool) :
    Option (List (Option Nat)) :=
  if bufArray.length ≤ bufInx then
    if arrayOk then some (mcReallocBufArray bufArray ((bufArray.length + 16) % 2 ^ 32)) else none
  else some bufArray

/-- The last part of `mc_alloc`: a new buffer of `allocSize` bytes is put into slot
`bufInx`, or below it if the call uses it up. -/
def useNewBuffer (m : Memory) (size allocSize bufInx newTotalSize : Nat) :
    Option (Memory × Option Region) :=
  let newBuf := m.lens.length
  let mc := { m.mc with currentBufInx := bufInx, totalSize := newTotalSize }
  let lens := m.lens ++ [allocSize]
  if size = allocSize then do
    -- the current buffer stays the current one, in the last slot
    let old ← mc.bufArray[bufInx - 1]?
    let bufArray ← writeSlot mc.bufArray bufInx old
    let bufArray ← writeSlot bufArray (bufInx - 1) (some newBuf)
    let firstBufInx := if mc.firstBufInx = bufInx - 1 then bufInx else mc.firstBufInx
    some (⟨{ mc with bufArray := bufArray, firstBufInx := firstBufInx }, lens, m.freed⟩,
      some ⟨newBuf, 0, size⟩)
  else do
    let bufArray ← writeSlot mc.bufArray bufInx (some newBuf)
    some (⟨{ mc with
        bufArray := bufArray
        currentBuf := (newBuf, size)
        currentFreeLen := allocSize - size }, lens, m.freed⟩,
      some ⟨newBuf, 0, size⟩)

/-- `mc_alloc`. -/
def mcAlloc (m : Memory) (size : Nat) (arrayOk bufOk : Bool) : Option (Memory × Option Region) :=
  let mc := m.mc
  let size := icAlign size 8
  let newTotalSize := (mc.totalSize + size) % 2 ^ 64
  if 0 < mc.maxSize ∧ mc.maxSize < newTotalSize then some (m, none)
  else if size ≤ mc.currentFreeLen then
    some ({ m with mc := { mc with
        currentBuf := (mc.currentBuf.1, mc.currentBuf.2 + size)
        currentFreeLen := mc.currentFreeLen - size
        totalSize := newTotalSize } },
      some ⟨mc.currentBuf.1, mc.currentBuf.2, size⟩)
  else
    let allocSize := if mc.baseSize < size then size else mc.baseSize
    let bufInx := (mc.currentBufInx + 1) % 2 ^ 32
    match growBufArray mc.bufArray bufInx arrayOk with
    | none => some (m, none)
    | some bufArray =>
      let m := { m with mc := { mc with bufArray := bufArray } }
      if bufOk then useNewBuffer m size allocSize bufInx newTotalSize else some (m, none)

/-- `mc_calloc`. -/
def mcCalloc (m : Memory) (size : Nat) (arrayOk bufOk : Bool) : Option (Memory × Option Region) :=
  mcAlloc m size arrayOk bufOk

/-! ## mc_reset and mc_free -/

/-- `ic_free_mc` for these slots of the array, in their order. -/
def freeSlots (m : Memory) : List (Option Nat) → Option Memory
  | [] => some m
  | none :: _ => none
  | some buf :: slots =>
    if m.Owned buf then freeSlots { m with freed := m.freed ++ [buf] } slots else none

/-- `mc_reset`. A smaller array is used if it can be allocated. -/
def mcReset (m : Memory) (arrayOk : Bool) : Option Memory := do
  let mc := m.mc
  let first ← mc.bufArray[mc.firstBufInx]?
  let slot ← mc.bufArray[0]?
  let bufArray := (mc.bufArray.set mc.firstBufInx slot).set 0 first
  if bufArray.length ≤ mc.currentBufInx then none
  else
    let m ← freeSlots m ((bufArray.drop 1).take mc.currentBufInx)
    let origArrSize := mcGetBaseBufSize mc.maxSize mc.baseSize
    let bufArray :=
      if origArrSize < bufArray.length ∧ arrayOk then mcReallocBufArray bufArray origArrSize
      else bufArray
    match bufArray with
    | some buf :: rest =>
      some { m with mc := { mc with
        bufArray := some buf :: rest.map fun _ => none
        currentBuf := (buf, 0)
        totalSize := 0
        currentBufInx := 0
        currentFreeLen := mc.baseSize
        firstBufInx := 0 } }
    | _ => none

/-- `mc_free`. -/
def mcFree (m : Memory) : Option Memory :=
  if m.mc.bufArray.length ≤ m.mc.currentBufInx then none
  else freeSlots m (m.mc.bufArray.take (m.mc.currentBufInx + 1))

/-- `ic_create_memory_container`, when its allocations succeed. -/
def createMemoryContainer (baseSize maxSize : Nat) : Memory :=
  let baseSize := icAlign (if baseSize < minBaseSize then minBaseSize else baseSize) 8
  let maxSize := icAlign maxSize 8
  let maxSize := if 0 < maxSize ∧ maxSize < baseSize then baseSize else maxSize
  let bufSize := mcGetBaseBufSize maxSize baseSize
  { mc := ⟨(0, 0), some 0 :: List.replicate (bufSize - 1) none, 0, maxSize, baseSize, 0, baseSize, 0⟩
    lens := [baseSize]
    freed := [] }

/-! ## A container in use -/

inductive Phase where
  | live
  /-- after `mc_free` -/
  | freed
  /-- after an error of the program -/
  | corrupt
deriving DecidableEq

/-- A container with the regions returned since the last reset. -/
structure Use where
  memory : Memory
  regions : List Region
  phase : Phase
deriving DecidableEq

/-- A size is below 2 ^ 32 - 8. -/
abbrev Size := Fin (2 ^ 32 - 8)

inductive Label where
  /-- `arrayOk`, `bufOk`: a longer array, or a new buffer, can be allocated -/
  | alloc (size : Size) (arrayOk bufOk : Bool)
  | calloc (size : Size) (arrayOk bufOk : Bool)
  | reset (arrayOk : Bool)
  | free

/-- The state after `mc_alloc`. -/
def Use.afterAlloc (u : Use) : Option (Memory × Option Region) → Use
  | none => { u with phase := .corrupt }
  | some (m, none) => { u with memory := m }
  | some (m, some r) => { u with memory := m, regions := r :: u.regions }

def step (u : Use) (l : Label) : Option Use :=
  if u.phase ≠ .live then none
  else
    match l with
    | .alloc size arrayOk bufOk => some (u.afterAlloc (mcAlloc u.memory size arrayOk bufOk))
    | .calloc size arrayOk bufOk => some (u.afterAlloc (mcCalloc u.memory size arrayOk bufOk))
    | .reset arrayOk =>
      match mcReset u.memory arrayOk with
      | none => some { u with phase := .corrupt }
      | some m => some { u with memory := m, regions := [] }
    | .free =>
      match mcFree u.memory with
      | none => some { u with phase := .corrupt }
      | some m => some { u with memory := m, phase := .freed }

/-- A new container. -/
def start (baseSize maxSize : Nat) : Use := ⟨createMemoryContainer baseSize maxSize, [], .live⟩

/-! ## What the users rely on -/

/-- The two regions have no byte in common. -/
def Region.Disjoint (r r' : Region) : Prop :=
  r.buf ≠ r'.buf ∨ r.off + r.len ≤ r'.off ∨ r'.off + r'.len ≤ r.off

/-- The rules for a container in use. -/
structure LiveOk (u : Use) : Prop where
  disjoint : u.regions.Pairwise Region.Disjoint
  inside : ∀ r ∈ u.regions, u.memory.Owned r.buf ∧
    ∃ len, u.memory.lens[r.buf]? = some len ∧ r.off + r.len ≤ len
  slots : ∀ i ≤ u.memory.mc.currentBufInx,
    ∃ buf, u.memory.mc.bufArray[i]? = some (some buf) ∧ u.memory.Owned buf
  distinct : ∀ i j buf, i ≤ u.memory.mc.currentBufInx → j ≤ u.memory.mc.currentBufInx →
    u.memory.mc.bufArray[i]? = some (some buf) → u.memory.mc.bufArray[j]? = some (some buf) → i = j
  current : u.memory.mc.bufArray[u.memory.mc.currentBufInx]? =
    some (some u.memory.mc.currentBuf.1)
  tail : u.memory.lens[u.memory.mc.currentBuf.1]? =
    some (u.memory.mc.currentBuf.2 + u.memory.mc.currentFreeLen)
  unused : ∀ r ∈ u.regions, r.buf = u.memory.mc.currentBuf.1 →
    r.off + r.len ≤ u.memory.mc.currentBuf.2
  total : u.memory.mc.maxSize ≠ 0 → u.memory.mc.totalSize ≤ u.memory.mc.maxSize

/-- Every buffer was released exactly once. -/
def AllFreed (m : Memory) : Prop := m.freed.Perm (List.range m.lens.length)

def McOk (u : Use) : Prop :=
  match u.phase with
  | .live => LiveOk u
  | .freed => AllFreed u.memory
  | .corrupt => False

/-! ## The condition -/

/-- The call needs a new buffer, and a longer array for it. -/
def NeedsArray (m : Memory) (size : Nat) : Prop :=
  ¬ (0 < m.mc.maxSize ∧ m.mc.maxSize < (m.mc.totalSize + icAlign size 8) % 2 ^ 64) ∧
    m.mc.currentFreeLen < icAlign size 8 ∧ m.mc.bufArray.length ≤ m.mc.currentBufInx + 1

/-- The length of a longer array fits into its guint32. -/
def ArrayFits (u : Use) : Label → Prop
  | .alloc size arrayOk _ | .calloc size arrayOk _ =>
    NeedsArray u.memory size → arrayOk = true → u.memory.mc.bufArray.length + 16 < 2 ^ 32
  | _ => True

end IClaustron.MemContainer
