import IClaustron.DynArray.AllocFail
import IClaustron.DynArray.PtrArray
import IClaustron.Lib.Run

/-!
# DynArray.Slots — the pointer array as a list of slots

A pointer array stores the 64-bit entries `slots`. Entry 0, the head of the free
list, is 0 for ever: `remove_ptr` writes back the head it has read. So an insert
always appends, and a removed entry is never used again.

* `insertPtr_spec`, `removePtr_spec`, `getPtr_spec` — the three calls on slots;
* `ptr_array_ok_iff` — the runs in which it holds.
-/

namespace IClaustron.DynArray

open Lib List Option

variable {a : DynamicArray} {bytes : List Byte}

/-! ## One entry -/

variable {i o object pos v : Nat} {a' : DynamicArray} {failAt : Option Nat}

/-- An entry that lies in one buffer is read as the ordered array reads it. -/
theorem readPtrArray_spec (h : OrdInv a bytes) {size : Nat} (hsize : 0 < size)
    (hin : pos + size ≤ bytes.length) (hone : pos % bufSize + size ≤ bufSize) :
    readPtrArray a pos size = some (0, (bytes.drop pos).take size) := by
  obtain ⟨bufs, seq, levels, top, place, hs, hix⟩ := h
  have hle := hs.length_le
  have hpos : pos < bufSize * bufs.length := by omega
  obtain ⟨pre, p, c, rest, -, -, hp, -, hseg⟩ := hs.seg_at hpos
  have hread := readWith_spec hs hix.looksUp hsize hin
  have hmod : ¬ (pos + size) % 2 ^ 64 > a.totalSizeInBytes := by
    rw [hs.total]
    have hmle := Nat.mod_le (pos + size) (2 ^ 64)
    omega
  have hmin : min size (bufSize - pos % bufSize) = size := by omega
  simp only [readWith, bind_eq_bind, if_neg hmod, hix.looksUp pos hpos, bind_some, hp,
    readPos, readLoop, hseg.1, hmin, Nat.lt_irrefl, if_false, ne_eq, not_true_eq_false] at hread
  simp only [readPtrArray, hix.looksUp pos hpos, hp, hseg.1, bind_eq_bind, bind_some,
    ne_eq, not_true_eq_false, if_false, if_pos hone]
  exact hread

theorem writePtrArray_spec (h : OrdInv a bytes) {data : List Byte} (hdata : data ≠ [])
    (hin : pos + data.length ≤ bytes.length) (hone : pos % bufSize + data.length ≤ bufSize) :
    ∃ a', writePtrArray a pos data = some (a', 0) ∧ OrdInv a' (overwrite bytes pos data) ∧
      a'.totalSizeInBytes = a.totalSizeInBytes := by
  obtain ⟨bufs, seq, levels, top, place, hs, hix⟩ := h
  have hle := hs.length_le
  have hdpos := length_pos_of_ne_nil hdata
  have hpos : pos < bufSize * bufs.length := by omega
  obtain ⟨pre, p, c, rest, -, -, hp, -, hseg⟩ := hs.seg_at hpos
  obtain ⟨a', bufs', hrun, hs', hptrs, hord, hidx, hfresh⟩ := writeWith_spec hs hix.looksUp hpos hin
  have hmin : min data.length (bufSize - pos % bufSize) = data.length := by omega
  refine ⟨a', ?_, ⟨bufs', seq, levels, top, place, hs', ?_⟩, ?_⟩
  · simp only [writeWith, bind_eq_bind, hix.looksUp pos hpos, bind_some, hp, writePos,
      writeLoop, hseg.1, hmin, Nat.lt_irrefl, if_false, take_length, ne_eq,
      not_true_eq_false] at hrun
    simp only [writePtrArray, hix.looksUp pos hpos, hp, hseg.1, bind_eq_bind, bind_some,
      ne_eq, not_true_eq_false, if_false, if_pos hone]
    exact hrun
  · rw [hptrs]
    exact hix.of_simple hidx hfresh.ge hord
  · rw [hs'.total, hs.total, length_overwrite hin]

/-- The array stores these entries. -/
def Slots (a : DynamicArray) (slots : List Nat) : Prop := OrdInv a (encodeAll entrySize slots)

variable {slots : List Nat}

theorem Slots.total (h : Slots a slots) : a.totalSizeInBytes = entrySize * slots.length := by
  rw [OrdInv.total h, length_encodeAll]

theorem slot_append_iff (slots : List Nat) (object i v : Nat) :
    (slots ++ [object])[i]? = some v ↔ slots[i]? = some v ∨ (i = slots.length ∧ v = object) := by
  rcases Nat.lt_trichotomy i slots.length with hi | hi | hi
  · rw [getElem?_append_left hi]
    exact ⟨.inl, fun h => h.resolve_right (by omega)⟩
  · subst hi
    simp [eq_comm]
  · rw [getElem?_eq_none (by simp; omega), getElem?_eq_none (by omega)]
    simp
    omega

theorem slot_set_iff (hi : i < slots.length) (x j v : Nat) :
    (slots.set i x)[j]? = some v ↔ (j = i ∧ v = x) ∨ (j ≠ i ∧ slots[j]? = some v) := by
  by_cases hj : j = i
  · subst hj
    simp [hi, eq_comm]
  · rw [getElem?_set_ne (Ne.symm hj)]
    simp [hj]

/-- No entry crosses from one buffer into the next. -/
theorem entry_in_buf (i : Nat) : entrySize * i % bufSize + entrySize ≤ bufSize := by
  simp only [entrySize, bufSize]
  omega

theorem readPtrArray_slot (h : Slots a slots) (hv : slots[i]? = some v) :
    readPtrArray a (entrySize * i) entrySize = some (0, toBytes entrySize v) := by
  have hi : i < slots.length := (List.getElem?_eq_some_iff.mp hv).1
  rw [readPtrArray_spec h (by decide) _ (entry_in_buf i), take_drop_encodeAll hv]
  rw [length_encodeAll, ← Nat.mul_succ]
  exact Nat.mul_le_mul_left _ hi

theorem ofBytes_entry (hv : v < 2 ^ 64) : ofBytes (toBytes entrySize v) = v := by
  rw [ofBytes_toBytes]
  exact Nat.mod_eq_of_lt hv

section

variable (h : Slots a slots)

include h

theorem readEntry_spec (hv : slots[i]? = some v) (hlt : v < 2 ^ 64) :
    readEntry a (entrySize * i) = some v := by
  simp [readEntry, readPtrArray_slot h hv, ofBytes_entry hlt]

theorem writeEntry_spec (hi : i < slots.length) (v : Nat) :
    ∃ a', writeEntry a (entrySize * i) v = some a' ∧ Slots a' (slots.set i v) := by
  have hne : toBytes entrySize v ≠ [] := by simp [toBytes, entrySize]
  have hlen : (toBytes entrySize v).length = entrySize := length_toBytes _ _
  have hin : entrySize * i + (toBytes entrySize v).length ≤ (encodeAll entrySize slots).length := by
    rw [hlen, length_encodeAll, ← Nat.mul_succ]
    exact Nat.mul_le_mul_left _ hi
  have hone : entrySize * i % bufSize + (toBytes entrySize v).length ≤ bufSize := by
    rw [hlen]
    exact entry_in_buf i
  obtain ⟨a', hrun, h', -⟩ := writePtrArray_spec h hne hin hone
  rw [overwrite_encodeAll hi] at h'
  exact ⟨a', by simp [writeEntry, hrun], h'⟩

/-! ## The calls -/

theorem getPtr_spec (hv : slots[i]? = some v) (hlt : v < 2 ^ 64)
    (hfit : entrySize * slots.length ≤ 2 ^ 64) :
    getPtr a i = some (if v ≥ highestBitSet then (errorIndexError, 0) else (0, v)) := by
  have hi : i < slots.length := (List.getElem?_eq_some_iff.mp hv).1
  have hpos : i * entrySize % 2 ^ 64 = entrySize * i := by
    rw [Nat.mul_comm]
    refine Nat.mod_eq_of_lt (lt_of_lt_of_le ?_ hfit)
    exact Nat.mul_lt_mul_of_pos_left hi (by decide)
  simp only [getPtr, hpos, readPtrArray_slot h hv, bind_eq_bind, bind_some, ne_eq,
    not_true_eq_false, if_false, ofBytes_entry hlt]
  split_ifs <;> rfl

/-- The head of the free list is 0, so the entry is marked free and the head
stays 0. -/
theorem removePtr_spec (hhead : slots[0]? = some 0) (hi : 0 < i) (ho : slots[i]? = some o)
    (hlt : o < 2 ^ 64) (hfit : entrySize * slots.length ≤ 2 ^ 64) :
    ∃ a', removePtr a i o = some (a', 0) ∧ Slots a' (slots.set i highestBitSet) := by
  have hil : i < slots.length := (List.getElem?_eq_some_iff.mp ho).1
  have hpos : i * entrySize % 2 ^ 64 = entrySize * i := by
    rw [Nat.mul_comm]
    refine Nat.mod_eq_of_lt (lt_of_lt_of_le ?_ hfit)
    exact Nat.mul_lt_mul_of_pos_left hil (by decide)
  obtain ⟨a₁, hw₁, h₁⟩ := writeEntry_spec h hil highestBitSet
  have hzero : 0 < (slots.set i highestBitSet).length := by
    rw [List.length_set]
    omega
  obtain ⟨a₂, hw₂, h₂⟩ := writeEntry_spec h₁ hzero 0
  have hread₀ : readEntry a 0 = some 0 := readEntry_spec h hhead (by decide)
  have hmark : (0 + highestBitSet) % 2 ^ 64 = highestBitSet := by decide
  have hset : (slots.set i highestBitSet).set 0 0 = slots.set i highestBitSet := by
    obtain ⟨xs, rfl⟩ : ∃ xs, slots = 0 :: xs := by
      cases slots with
      | nil => simp at hhead
      | cons x xs =>
        cases hhead
        exact ⟨xs, rfl⟩
    obtain ⟨k, rfl⟩ : ∃ k, i = k + 1 := ⟨i - 1, by omega⟩
    rfl
  rw [hset] at h₂
  rw [Nat.mul_zero] at hw₂
  refine ⟨a₂, ?_, h₂⟩
  simp only [removePtr, hpos, if_neg (by omega : ¬ i = 0), readEntry_spec h ho hlt, hread₀,
    bind_eq_bind, bind_some, ne_eq, not_true_eq_false, if_false, hmark, hw₁, hw₂]

/-- With the head at 0, an insert appends. -/
theorem insertPtr_eq (hhead : slots[0]? = some 0) (ok : Nat → Bool) (object : Nat) :
    insertPtr ok a object = (insertOrdered ok a (toBytes entrySize object)).map fun r =>
      if r.2 ≠ 0 then (r.1, errorMemAlloc, 0) else (r.1, 0, slots.length) := by
  have hread₀ : readEntry a 0 = some 0 := readEntry_spec h hhead (by decide)
  have hidx : a.totalSizeInBytes / entrySize = slots.length := by
    rw [h.total]
    exact Nat.mul_div_cancel_left _ (by decide)
  simp only [insertPtr, hread₀, bind_eq_bind, bind_some, if_true, hidx]
  cases insertOrdered ok a (toBytes entrySize object) with
  | none => rfl
  | some r =>
    simp only [bind_some, map_some]
    split_ifs <;> rfl

theorem insertOrdered_slot (object : Nat) :
    ∃ a', insertOrdered (fun _ => true) a (toBytes entrySize object) = some (a', 0) ∧
      Slots a' (slots ++ [object]) := by
  obtain ⟨a', hrun, h'⟩ := insertOrdered_spec h (toBytes entrySize object)
  refine ⟨a', hrun, ?_⟩
  rw [Slots, encodeAll_append]
  simpa using h'

end

/-- The next entry starts a new buffer. -/
def NeedsBuf (a : DynamicArray) : Prop := a.totalSizeInBytes % bufSize = 0

theorem Slots.needsBuf_iff (h : Slots a slots) (hne : slots ≠ []) (object : Nat) :
    bufSize - a.sdArray.bytesUsed < (toBytes entrySize object).length ↔ NeedsBuf a := by
  have htotal := h.total
  obtain ⟨bufs, -, -, -, -, hs, -⟩ := h
  have hsize := hs.size
  have hused := hs.used_le
  have hpos := hs.used_pos
  have hlen := length_pos_of_ne_nil hs.nonempty
  have hslots := length_pos_of_ne_nil hne
  rw [← hs.total] at hsize
  simp only [NeedsBuf, length_toBytes, entrySize, bufSize] at *
  omega

theorem Slots.full_of_needsBuf (h : Slots a slots) (hne : slots ≠ []) (hneed : NeedsBuf a) :
    a.sdArray.bytesUsed = bufSize := by
  have hroom := (h.needsBuf_iff hne 0).mpr hneed
  have htotal := h.total
  obtain ⟨bufs, -, -, -, -, hs, -⟩ := h
  have hsize := hs.size
  have hused := hs.used_le
  rw [← hs.total] at hsize
  simp only [NeedsBuf, length_toBytes, entrySize, bufSize] at *
  omega

/-- The allocation `failAt` is one of an index node, after that of the buffer. -/
def FailsIndex (a : DynamicArray) (failAt : Option Nat) : Prop :=
  NeedsBuf a ∧ ∃ j, j < indexNodesNeeded a ∧ failAt = some (j + 1)

/-- Index nodes and size are those of another array. -/
structure SameIndex (a a' : DynamicArray) : Prop where
  index : ∀ q, index? a'.mem q = index? a.mem q
  ord : a'.ordArray = a.ordArray
  total : a'.totalSizeInBytes = a.totalSizeInBytes

theorem SameIndex.trans {a a'' : DynamicArray} (h : SameIndex a a') (h' : SameIndex a' a'') :
    SameIndex a a'' :=
  ⟨fun q => (h'.index q).trans (h.index q), h'.ord.trans h.ord, h'.total.trans h.total⟩

theorem SameIndex.failsIndex {a : DynamicArray} (h : SameIndex a a') :
    FailsIndex a' failAt ↔ FailsIndex a failAt := by
  have hnodes : indexNodesNeeded a' = indexNodesNeeded a := by
    unfold indexNodesNeeded
    rw [h.ord]
    cases a.ordArray.lastDynIndex with
    | none => rfl
    | some p => exact nodesNeeded_congr (fun q => by simp only [node?, h.index]) _ _
  unfold FailsIndex NeedsBuf
  rw [hnodes, h.total]

/-- A write to the entries does not reach the index. -/
theorem writeEntry_sameIndex {a : DynamicArray} (h : writeEntry a pos v = some a') :
    SameIndex a a' := by
  unfold writeEntry writePtrArray at h
  obtain ⟨⟨a₁, ret⟩, hw, h⟩ := bind_eq_some_iff.mp h
  obtain ⟨⟨ret', dynBuf, bufPos⟩, -, hw⟩ := bind_eq_some_iff.mp hw
  dsimp only at h hw
  split_ifs at h
  cases h
  by_cases hret : ret' ≠ 0
  · rw [if_pos hret] at hw
    cases hw
    exact ⟨fun _ => rfl, rfl, rfl⟩
  · rw [if_neg hret] at hw
    obtain ⟨p, -, hw⟩ := bind_eq_some_iff.mp hw
    obtain ⟨b, hb, hw⟩ := bind_eq_some_iff.mp hw
    split_ifs at hw
    cases hw
    refine ⟨fun q => ?_, rfl, rfl⟩
    by_cases hq : q = p
    · subst hq
      rw [index?_of_buf? hb, index?_of_buf? (buf?_set_self _ _ _)]
    · exact index?_congr (Heap.set_of_ne _ _ hq)

theorem removePtr_sameIndex {a : DynamicArray} {ret : Nat}
    (h : removePtr a i object = some (a', ret)) :
    SameIndex a a' := by
  unfold removePtr at h
  split_ifs at h
  · cases h
    exact ⟨fun _ => rfl, rfl, rfl⟩
  · obtain ⟨entry, -, h⟩ := bind_eq_some_iff.mp h
    split_ifs at h
    obtain ⟨first, -, h⟩ := bind_eq_some_iff.mp h
    obtain ⟨a₁, hw₁, h⟩ := bind_eq_some_iff.mp h
    obtain ⟨a₂, hw₂, h⟩ := bind_eq_some_iff.mp h
    cases h
    exact (writeEntry_sameIndex hw₁).trans (writeEntry_sameIndex hw₂)

section

variable (h : Slots a slots)

include h

/-- The insert of an entry when every allocation it makes succeeds. -/
theorem insertOrdered_slot_of_ok (hne : slots ≠ []) (object : Nat)
    (hbuf : ¬ (NeedsBuf a ∧ failAt = some 0)) (hidx : ¬ FailsIndex a failAt) :
    ∃ a', insertOrdered (allocOk failAt a.mem.fresh) a (toBytes entrySize object) = some (a', 0) ∧
      Slots a' (slots ++ [object]) := by
  obtain ⟨a', hrun, h'⟩ := insertOrdered_slot h object
  refine ⟨a', ?_, h'⟩
  have hneed := h.needsBuf_iff hne object
  rw [← hrun]
  refine insertOrdered_of_ok h (by rw [length_toBytes]; decide) ?_ fun hfull j hj => ?_
  · by_cases hn : NeedsBuf a
    · right
      simp only [allocOk, Nat.sub_self, decide_eq_true_eq]
      exact fun hf => hbuf ⟨hn, hf⟩
    · left
      rw [← hneed] at hn
      omega
  · simp only [allocOk, decide_eq_true_eq]
    intro hf
    refine hidx ⟨hneed.mp hfull, j, hj, ?_⟩
    rw [hf]
    congr 1
    omega

/-- Without its buffer an insert leaves the entries as they were. -/
theorem insertOrdered_slot_noBuf (hne : slots ≠ []) (object : Nat) (hneed : NeedsBuf a) :
    ∃ a', insertOrdered (allocOk (some 0) a.mem.fresh) a (toBytes entrySize object) =
        some (a', errorMemAlloc) ∧ Slots a' slots := by
  have hbytes : toBytes entrySize object ≠ [] := by simp [toBytes, entrySize]
  have hfail : allocOk (some 0) a.mem.fresh a.mem.fresh = false := by simp [allocOk]
  exact insertOrdered_bufferFails h (h.full_of_needsBuf hne hneed) hfail hbytes

/-- The new buffer cannot be allocated: the array stays as it was. -/
theorem insertPtr_noBuf (hhead : slots[0]? = some 0) (object : Nat) (hneed : NeedsBuf a) :
    ∃ a', insertPtr (allocOk (some 0) a.mem.fresh) a object = some (a', errorMemAlloc, 0) ∧
      Slots a' slots := by
  have hne : slots ≠ [] := by
    rintro rfl
    simp at hhead
  obtain ⟨a', hrun, h'⟩ := insertOrdered_slot_noBuf h hne object hneed
  refine ⟨a', ?_, h'⟩
  rw [insertPtr_eq h hhead, hrun]
  rfl

theorem insertPtr_of_ok (hhead : slots[0]? = some 0) (object : Nat)
    (hbuf : ¬ (NeedsBuf a ∧ failAt = some 0)) (hidx : ¬ FailsIndex a failAt) :
    ∃ a', insertPtr (allocOk failAt a.mem.fresh) a object = some (a', 0, slots.length) ∧
      Slots a' (slots ++ [object]) := by
  have hne : slots ≠ [] := by
    rintro rfl
    simp at hhead
  obtain ⟨a', hrun, h'⟩ := insertOrdered_slot_of_ok h hne object hbuf hidx
  refine ⟨a', ?_, h'⟩
  rw [insertPtr_eq h hhead, hrun]
  rfl

/-- An insert appends the object or returns an error, unless an index node cannot
be allocated. -/
theorem insertPtr_spec (hhead : slots[0]? = some 0) (object : Nat) (hidx : ¬ FailsIndex a failAt) :
    (∃ a', insertPtr (allocOk failAt a.mem.fresh) a object = some (a', 0, slots.length) ∧
      Slots a' (slots ++ [object])) ∨
    (∃ a', insertPtr (allocOk failAt a.mem.fresh) a object = some (a', errorMemAlloc, 0) ∧
      Slots a' slots) := by
  by_cases hbuf : NeedsBuf a ∧ failAt = some 0
  · obtain ⟨hneed, rfl⟩ := hbuf
    exact .inr (insertPtr_noBuf h hhead object hneed)
  · exact .inl (insertPtr_of_ok h hhead object hbuf hidx)

end

/-! ## Users -/

/-- A pointer array with what its users know: the live entries with their
objects, the entries that were removed and not handed out again, and the largest
number of entries that were live at the same time. -/
structure PtrWorld where
  array : DynamicArray
  live : List (Nat × Nat)
  removed : List Nat
  maxLive : Nat

/-- The calls that change a pointer array. `failAt` is the allocation of the
call that fails. -/
inductive PtrOp where
  | insert (object : Nat) (failAt : Option Nat)
  | remove (index object : Nat)
deriving DecidableEq

/-- Object pointers are not NULL and are user space addresses, so their highest
bit is clear; the entries lie in memory, so their size fits in 64 bits. -/
def ptrStep (w : PtrWorld) : PtrOp → Option PtrWorld
  | .insert object failAt =>
    if 0 < object ∧ object < highestBitSet ∧ w.array.totalSizeInBytes + entrySize ≤ 2 ^ 64 then do
      let (a, ret, i) ← insertPtr (allocOk failAt w.array.mem.fresh) w.array object
      if ret ≠ 0 then some { w with array := a }
      else
        some
          { array := a
            live := (i, object) :: w.live
            removed := w.removed.filter (· ≠ i)
            maxLive := max w.maxLive (w.live.length + 1) }
    else none
  | .remove index object =>
    if (index, object) ∈ w.live then do
      let (a, ret) ← removePtr w.array index object
      if ret ≠ 0 then some { w with array := a }
      else
        some { w with
          array := a
          live := w.live.erase (index, object)
          removed := index :: w.removed }
    else none

def startPtr (a : DynamicArray) : PtrWorld := ⟨a, [], [], 0⟩

/-- What the users rely on. -/
structure PtrOk (w : PtrWorld) : Prop where
  get_live : ∀ i o, (i, o) ∈ w.live → getPtr w.array i = some (0, o)
  get_removed : ∀ i ∈ w.removed, ∃ e o, getPtr w.array i = some (e, o) ∧ e ≠ 0
  insert_new : ∀ ok object a i, insertPtr ok w.array object = some (a, 0, i) →
    i ≠ 0 ∧ ∀ o, (i, o) ∉ w.live
  insert_returns : ∀ object, ∃ a i, insertPtr (fun _ => true) w.array object = some (a, 0, i)
  remove_returns : ∀ i o, (i, o) ∈ w.live → ∃ a, removePtr w.array i o = some (a, 0)
  slots_bound : getMaxIndex w.array ≤ w.maxLive + 1

/-- Every entry but the head is live or removed, and no entry was ever handed
out twice. -/
structure PtrInv (w : PtrWorld) (slots : List Nat) : Prop where
  stored : Slots w.array slots
  head : slots[0]? = some 0
  fits : entrySize * slots.length ≤ 2 ^ 64
  live_iff : ∀ i o, (i, o) ∈ w.live ↔ 0 < i ∧ slots[i]? = some o ∧ o < highestBitSet
  removed_iff : ∀ i, i ∈ w.removed ↔ 0 < i ∧ slots[i]? = some highestBitSet
  live_nodup : w.live.Nodup
  count : w.live.length + w.removed.length + 1 = slots.length
  max_eq : w.maxLive + 1 = slots.length

variable {w : PtrWorld}

theorem highestBitSet_lt : highestBitSet < 2 ^ 64 := by decide

theorem PtrInv.ne_nil (h : PtrInv w slots) : slots ≠ [] := by
  rintro rfl
  simpa using h.head

theorem PtrInv.ok (h : PtrInv w slots) : PtrOk w where
  get_live i o hio := by
    obtain ⟨-, hv, hlt⟩ := (h.live_iff i o).mp hio
    rw [getPtr_spec h.stored hv (hlt.trans highestBitSet_lt) h.fits, if_neg (by omega)]
  get_removed i hi := by
    obtain ⟨-, hv⟩ := (h.removed_iff i).mp hi
    refine ⟨errorIndexError, 0, ?_, by decide⟩
    rw [getPtr_spec h.stored hv highestBitSet_lt h.fits, if_pos le_rfl]
  insert_new ok object a i hins := by
    rw [insertPtr_eq h.stored h.head, map_eq_some_iff] at hins
    obtain ⟨r, -, hr⟩ := hins
    have hlen : i = slots.length := by
      split_ifs at hr with hret
      · cases hr
      · cases hr
        rfl
    have hpos := List.length_pos_of_ne_nil h.ne_nil
    refine ⟨by omega, fun o hio => ?_⟩
    obtain ⟨-, hv, -⟩ := (h.live_iff i o).mp hio
    have hlt := (List.getElem?_eq_some_iff.mp hv).1
    omega
  insert_returns object := by
    obtain ⟨a, hrun, -⟩ := insertOrdered_slot h.stored object
    exact ⟨a, slots.length, by simp [insertPtr_eq h.stored h.head, hrun]⟩
  remove_returns i o hio := by
    obtain ⟨hi, hv, hlt⟩ := (h.live_iff i o).mp hio
    obtain ⟨a, hrun, -⟩ :=
      removePtr_spec h.stored h.head hi hv (hlt.trans highestBitSet_lt) h.fits
    exact ⟨a, hrun⟩
  slots_bound := by
    rw [getMaxIndex, h.stored.total, Nat.mul_div_cancel_left _ (by decide), h.max_eq]

/-- An insert that finds no removed entry and is not stopped by a missing index
node, or one that is stopped by a missing buffer. -/
def SafeOp (w : PtrWorld) : PtrOp → Prop
  | .insert _ failAt =>
    (NeedsBuf w.array ∧ failAt = some 0) ∨
      (w.removed = [] ∧
        ¬ (NeedsBuf w.array ∧ ∃ j, j < indexNodesNeeded w.array ∧ failAt = some (j + 1)))
  | .remove _ _ => True

section

variable (h : PtrInv w slots)

include h

/-- A call as the users see it: the insert that returns an error changes nothing
but the array. -/
theorem ptrStep_insert {w' : PtrWorld} (hstep : ptrStep w (.insert object failAt) = some w') :
    0 < object ∧ object < highestBitSet ∧ w.array.totalSizeInBytes + entrySize ≤ 2 ^ 64 ∧
      ∃ r, insertOrdered (allocOk failAt w.array.mem.fresh) w.array (toBytes entrySize object) =
          some r ∧
        w' = if r.2 ≠ 0 then { w with array := r.1 }
          else
            { array := r.1
              live := (slots.length, object) :: w.live
              removed := w.removed.filter (· ≠ slots.length)
              maxLive := max w.maxLive (w.live.length + 1) } := by
  simp only [ptrStep] at hstep
  split_ifs at hstep with hlegal
  rw [insertPtr_eq h.stored h.head] at hstep
  obtain ⟨r', hr', hw⟩ := bind_eq_some_iff.mp hstep
  obtain ⟨r, hrun, rfl⟩ := map_eq_some_iff.mp hr'
  refine ⟨hlegal.1, hlegal.2.1, hlegal.2.2, r, hrun, ?_⟩
  by_cases hret : r.2 = 0
  · simp only [hret, ne_eq, not_true_eq_false, if_false, Option.some.injEq] at hw ⊢
    exact hw.symm
  · simp only [hret, ne_eq, not_false_eq_true, if_true, errorMemAlloc] at hw ⊢
    simpa using hw.symm

/-- Appending an entry keeps the invariant when nothing was removed. -/
theorem PtrInv.append (hrem : w.removed = []) (hpos : 0 < object) (hlt : object < highestBitSet)
    (hfit : w.array.totalSizeInBytes + entrySize ≤ 2 ^ 64) (h' : Slots a' (slots ++ [object])) :
    PtrInv
      { array := a'
        live := (slots.length, object) :: w.live
        removed := w.removed.filter (· ≠ slots.length)
        maxLive := max w.maxLive (w.live.length + 1) } (slots ++ [object]) := by
  have hslots := List.length_pos_of_ne_nil h.ne_nil
  have hcount := h.count
  have hmax := h.max_eq
  rw [hrem, List.length_nil] at hcount
  have hget := slot_append_iff slots object
  refine ⟨h', ?_, ?_, ?_, ?_, ?_, ?_, ?_⟩
  · rw [hget]
    exact .inl h.head
  · rw [h.stored.total] at hfit
    rw [List.length_append, List.length_singleton, Nat.mul_succ]
    exact hfit
  · intro i o
    rw [List.mem_cons, h.live_iff, hget, Prod.mk.injEq]
    constructor
    · rintro (⟨rfl, rfl⟩ | ⟨hi, hv, ho⟩)
      · exact ⟨hslots, .inr ⟨rfl, rfl⟩, hlt⟩
      · exact ⟨hi, .inl hv, ho⟩
    · rintro ⟨hi, hv | ⟨rfl, rfl⟩, ho⟩
      · exact .inr ⟨hi, hv, ho⟩
      · exact .inl ⟨rfl, rfl⟩
  · intro i
    have hno := h.removed_iff i
    rw [hrem] at hno ⊢
    rw [hget]
    constructor
    · intro hi
      cases hi
    · rintro ⟨hi, hv | ⟨-, hv⟩⟩
      · exact absurd (hno.mpr ⟨hi, hv⟩) (by simp)
      · omega
  · rw [List.nodup_cons]
    refine ⟨fun hmem => ?_, h.live_nodup⟩
    obtain ⟨-, hv, -⟩ := (h.live_iff _ _).mp hmem
    have := (List.getElem?_eq_some_iff.mp hv).1
    omega
  · simp only [hrem, List.filter_nil, List.length_nil, List.length_cons, List.length_append]
    omega
  · change max w.maxLive (w.live.length + 1) + 1 = _
    rw [List.length_append, List.length_singleton]
    omega

/-- Marking an entry free keeps the invariant. -/
theorem PtrInv.mark (hio : (i, o) ∈ w.live) (h' : Slots a' (slots.set i highestBitSet)) :
    PtrInv { w with array := a', live := w.live.erase (i, o), removed := i :: w.removed }
      (slots.set i highestBitSet) := by
  obtain ⟨hi, hv, hlt⟩ := (h.live_iff i o).mp hio
  have hil : i < slots.length := (List.getElem?_eq_some_iff.mp hv).1
  have hget := slot_set_iff hil highestBitSet
  have hcount := h.count
  have hlen := List.length_erase_of_mem hio
  have hpos := List.length_pos_of_mem hio
  refine ⟨h', ?_, ?_, ?_, ?_, h.live_nodup.erase _, ?_, ?_⟩
  · rw [hget]
    exact .inr ⟨by omega, h.head⟩
  · rw [List.length_set]
    exact h.fits
  · intro j v
    change (j, v) ∈ w.live.erase (i, o) ↔ _
    rw [h.live_nodup.mem_erase_iff, h.live_iff, hget]
    constructor
    · rintro ⟨hne, hj, hjv, hvlt⟩
      refine ⟨hj, .inr ⟨?_, hjv⟩, hvlt⟩
      rintro rfl
      rw [hv] at hjv
      cases hjv
      exact hne rfl
    · rintro ⟨hj, ⟨-, hvm⟩ | ⟨hne, hjv⟩, hvlt⟩
      · omega
      · exact ⟨by simp [hne], hj, hjv, hvlt⟩
  · intro j
    rw [List.mem_cons, h.removed_iff, hget]
    constructor
    · rintro (rfl | ⟨hj, hjv⟩)
      · exact ⟨hi, .inl ⟨rfl, rfl⟩⟩
      · refine ⟨hj, ?_⟩
        by_cases hne : j = i
        · exact .inl ⟨hne, rfl⟩
        · exact .inr ⟨hne, hjv⟩
    · rintro ⟨hj, ⟨rfl, -⟩ | ⟨-, hjv⟩⟩
      · exact .inl rfl
      · exact .inr ⟨hj, hjv⟩
  · change (w.live.erase (i, o)).length + (i :: w.removed).length + 1 = _
    rw [hlen, List.length_cons, List.length_set]
    omega
  · rw [List.length_set]
    exact h.max_eq

/-- An insert without a failing allocation returns. -/
theorem ptrStep_insert_ok (hpos : 0 < o) (hlt : o < highestBitSet)
    (hfit : w.array.totalSizeInBytes + entrySize ≤ 2 ^ 64) :
    ∃ w', ptrStep w (.insert o none) = some w' ∧ w'.live = (slots.length, o) :: w.live ∧
      w'.removed = w.removed.filter (· ≠ slots.length) := by
  have hbuf : ¬ (NeedsBuf w.array ∧ (none : Option Nat) = some 0) := by simp
  have hidx : ¬ (NeedsBuf w.array ∧
      ∃ j, j < indexNodesNeeded w.array ∧ (none : Option Nat) = some (j + 1)) := by simp
  obtain ⟨a', hrun, -⟩ := insertOrdered_slot_of_ok h.stored h.ne_nil o hbuf hidx
  refine ⟨⟨a', (slots.length, o) :: w.live, w.removed.filter (· ≠ slots.length),
    max w.maxLive (w.live.length + 1)⟩, ?_, rfl, rfl⟩
  simp only [ptrStep, if_pos (And.intro hpos (And.intro hlt hfit)), insertPtr_eq h.stored h.head, hrun,
    map_some, bind_eq_bind, bind_some, ne_eq, not_true_eq_false, if_false]

theorem ptrStep_remove_ok (hio : (i, o) ∈ w.live) :
    ∃ w', ptrStep w (.remove i o) = some w' ∧ w'.live = w.live.erase (i, o) ∧
      w'.removed = i :: w.removed := by
  obtain ⟨hi, hv, hlt⟩ := (h.live_iff i o).mp hio
  obtain ⟨a', hrun, -⟩ := removePtr_spec h.stored h.head hi hv (hlt.trans highestBitSet_lt) h.fits
  refine ⟨{ w with array := a', live := w.live.erase (i, o), removed := i :: w.removed }, ?_, rfl, rfl⟩
  simp only [ptrStep, if_pos hio, hrun, bind_eq_bind, bind_some, ne_eq,
    not_true_eq_false, if_false]

end

theorem ptrStep_inv (w : PtrWorld) (op : PtrOp) (w' : PtrWorld) (hok : SafeOp w op)
    (hstep : ptrStep w op = some w') (h : ∃ slots, PtrInv w slots) : ∃ slots, PtrInv w' slots := by
  obtain ⟨slots, h⟩ := h
  cases op with
  | insert object failAt =>
    obtain ⟨hpos, hlt, hfit, r, hrun, rfl⟩ := ptrStep_insert h hstep
    by_cases hbuf : NeedsBuf w.array ∧ failAt = some 0
    · -- the buffer is missing: the entries are as they were
      obtain ⟨hneed, rfl⟩ := hbuf
      obtain ⟨a', hrun', h'⟩ := insertOrdered_slot_noBuf h.stored h.ne_nil object hneed
      rw [hrun] at hrun'
      cases hrun'
      exact ⟨slots, { h with stored := h' }⟩
    · obtain ⟨hrem, hidx⟩ := hok.resolve_left hbuf
      obtain ⟨a', hrun', h'⟩ := insertOrdered_slot_of_ok h.stored h.ne_nil object hbuf hidx
      rw [hrun] at hrun'
      cases hrun'
      exact ⟨_, h.append hrem hpos hlt hfit h'⟩
  | remove i o =>
    simp only [ptrStep] at hstep
    split_ifs at hstep with hio
    obtain ⟨hi, hv, hlt⟩ := (h.live_iff i o).mp hio
    obtain ⟨a', hrun, h'⟩ := removePtr_spec h.stored h.head hi hv (hlt.trans highestBitSet_lt) h.fits
    rw [hrun] at hstep
    cases hstep
    exact ⟨_, h.mark hio h'⟩

/-- An insert after a remove, or one without its index node, leaves more entries
than were ever live. -/
theorem ptrStep_break (w : PtrWorld) (op : PtrOp) (w' : PtrWorld) (hok : ¬ SafeOp w op)
    (hstep : ptrStep w op = some w') (h : ∃ slots, PtrInv w slots) : ¬ PtrOk w' := by
  obtain ⟨slots, h⟩ := h
  cases op with
  | remove i o => exact absurd trivial hok
  | insert object failAt =>
    obtain ⟨-, -, -, r, hrun, rfl⟩ := ptrStep_insert h hstep
    have hmax := h.max_eq
    have hcount := h.count
    simp only [SafeOp, not_or] at hok
    obtain ⟨hbuf, hidx⟩ := hok
    intro hw
    have hbound := hw.slots_bound
    by_cases hfail : NeedsBuf w.array ∧ ∃ j, j < indexNodesNeeded w.array ∧ failAt = some (j + 1)
    · obtain ⟨hneed, j, hj, rfl⟩ := hfail
      have hlen : (toBytes entrySize object).length ≤ bufSize := by
        rw [length_toBytes]
        decide
      have hfresh : allocOk (some (j + 1)) w.array.mem.fresh w.array.mem.fresh = true := by
        simp [allocOk]
      have hj' : allocOk (some (j + 1)) w.array.mem.fresh (w.array.mem.fresh + 1 + j) = false := by
        simp only [allocOk, decide_eq_false_iff_not, not_not]
        congr 1
        omega
      obtain ⟨hret, htotal⟩ := insertOrdered_indexFails h.stored hlen
        ((h.stored.needsBuf_iff h.ne_nil object).mpr hneed) hfresh hj hj' hrun
      rw [if_pos hret] at hbound
      change r.1.totalSizeInBytes / entrySize ≤ w.maxLive + 1 at hbound
      rw [htotal, h.stored.total, length_toBytes, ← Nat.mul_succ,
        Nat.mul_div_cancel_left _ (by decide)] at hbound
      omega
    · have hrem : w.removed ≠ [] := fun hrem => hidx ⟨hrem, hfail⟩
      have hrpos := length_pos_of_ne_nil hrem
      obtain ⟨a', hrun', h'⟩ := insertOrdered_slot_of_ok h.stored h.ne_nil object hbuf hfail
      rw [hrun] at hrun'
      cases hrun'
      rw [if_neg (by simp)] at hbound
      change a'.totalSizeInBytes / entrySize ≤ max w.maxLive (w.live.length + 1) + 1 at hbound
      rw [h'.total, Nat.mul_div_cancel_left _ (by decide), length_append,
        length_singleton] at hbound
      omega

theorem createPtrArray_spec :
    ∃ a, createPtrArray (fun _ => true) Heap.empty = some a ∧ PtrInv (startPtr a) [0] := by
  obtain ⟨a₀, hcreate, h₀⟩ := createOrdered_spec
  have hnil : Slots a₀ [] := h₀
  obtain ⟨a, hrun, h⟩ := insertOrdered_slot hnil 0
  have hnone : ∀ i v, 0 < i → [0][i]? ≠ some v := by
    intro i v hi hv
    rw [getElem?_eq_none (show [0].length ≤ i from hi)] at hv
    cases hv
  refine ⟨a, by simp [createPtrArray, hcreate, hrun], h, rfl, by decide, ?_, ?_, by simp [startPtr], rfl,
    rfl⟩
  · intro i o
    simp only [startPtr, not_mem_nil, false_iff, not_and]
    exact fun hi hv => absurd hv (hnone i o hi)
  · intro i
    simp only [startPtr, not_mem_nil, false_iff, not_and]
    exact fun hi hv => absurd hv (hnone i _ hi)

/-- In every run of a new pointer array, all states are as the users expect if
and only if no insert comes after a remove, or is stopped because an index node
cannot be allocated; inserts stopped by a missing buffer do no harm. -/
theorem ptr_array_ok_iff {a : DynamicArray}
    (ha : createPtrArray (fun _ => true) Heap.empty = some a)
    (ops : List PtrOp) :
    Run.Always ptrStep PtrOk (startPtr a) ops ↔ Run.Along ptrStep SafeOp (startPtr a) ops := by
  obtain ⟨a', ha', h⟩ := createPtrArray_spec
  rw [ha] at ha'
  cases ha'
  exact Run.always_iff_along ptrStep SafeOp (fun w => ∃ slots, PtrInv w slots) PtrOk
    (fun _ ⟨_, h⟩ => h.ok) ptrStep_inv ptrStep_break ops ⟨[0], h⟩

theorem ptr_array_ok_insert_remove :
    ∃ a, createPtrArray (fun _ => true) Heap.empty = some a ∧
      Run.Always ptrStep PtrOk (startPtr a) [.insert 4096 none, .remove 1 4096] := by
  obtain ⟨a, ha, -⟩ := createPtrArray_spec
  refine ⟨a, ha, (ptr_array_ok_iff ha _).mpr fun w₁ _ => ⟨Or.inr ⟨rfl, ?_⟩, fun w₂ _ => ⟨trivial, trivial⟩⟩⟩
  rintro ⟨-, j, -, hfail⟩
  cases hfail

/-- The entry released by a remove is not used by the next insert. -/
theorem ptr_array_not_reused :
    ∃ a, createPtrArray (fun _ => true) Heap.empty = some a ∧
      ¬ Run.Always ptrStep PtrOk (startPtr a)
        [.insert 4096 none, .remove 1 4096, .insert 8192 none] := by
  obtain ⟨a, ha, h₀⟩ := createPtrArray_spec
  refine ⟨a, ha, fun hall => ?_⟩
  have hfit₀ : (startPtr a).array.totalSizeInBytes + entrySize ≤ 2 ^ 64 := by
    rw [h₀.stored.total]
    decide
  obtain ⟨w₁, hw₁, hlive₁, hrem₁⟩ :=
    ptrStep_insert_ok h₀ (show 0 < 4096 by decide) (by decide) hfit₀
  have hsafe : SafeOp (startPtr a) (.insert 4096 none) := Or.inr ⟨rfl, by simp⟩
  obtain ⟨slots₁, h₁⟩ := ptrStep_inv _ _ w₁ hsafe hw₁ ⟨_, h₀⟩
  obtain ⟨w₂, hw₂, hlive₂, hrem₂⟩ := ptrStep_remove_ok h₁ (hlive₁ ▸ List.mem_cons_self)
  obtain ⟨slots₂, h₂⟩ := ptrStep_inv w₁ (.remove 1 4096) w₂ trivial hw₂ ⟨_, h₁⟩
  -- two entries, of which one is removed
  have hcount := h₂.count
  rw [hlive₂, hrem₂, hlive₁, hrem₁] at hcount
  have hlen : slots₂.length = 2 := hcount.symm
  have hfit₂ : w₂.array.totalSizeInBytes + entrySize ≤ 2 ^ 64 := by
    rw [h₂.stored.total, hlen]
    decide
  obtain ⟨w₃, hw₃, -⟩ := ptrStep_insert_ok h₂ (show 0 < 8192 by decide) (by decide) hfit₂
  have hunsafe : ¬ SafeOp w₂ (.insert 8192 none) := by
    simp [SafeOp, hrem₂]
  refine ptrStep_break w₂ _ w₃ hunsafe hw₃ ⟨_, h₂⟩ (hall _ w₃ (List.prefix_refl _) ?_)
  have hw₂' : ptrStep w₁ (.remove 1 4096) = some w₂ := hw₂
  simp [hw₁, hw₂', hw₃]

end IClaustron.DynArray
