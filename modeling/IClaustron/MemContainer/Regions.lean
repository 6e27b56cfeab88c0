import IClaustron.Lib.Run
import IClaustron.MemContainer.Container
import Mathlib.Data.List.Nodup
import Mathlib.Data.List.Perm.Basic
import Mathlib.Data.List.Range

/-!
# MemContainer.Regions — what a container hands out

The buffer array is the list of the buffers in use, the current one last, followed by
free slots. Together with the released buffers they are all buffers there ever were,
each once (`Inv.perm`). A private buffer is put in below the current one, another one
becomes the current one, and a reset keeps the first.

* `step_keeps` — the invariant, for every call whose array fits;
* `step_breaks` — an array that does not fit is shorter than what it has to hold;
* `mc_ok_iff` — a run keeps the rules exactly if its arrays fit.
-/

namespace IClaustron.MemContainer

open Lib List Option

/-- The buffers in use are `init` and the current one, `cur`; `k` slots are free. -/
structure Inv (u : Use) (init : List Nat) (cur k : Nat) : Prop where
  live : u.phase = .live
  array : u.memory.mc.bufArray = (init ++ [cur]).map some ++ List.replicate k none
  count : u.memory.mc.currentBufInx = init.length
  bound : u.memory.mc.bufArray.length < 2 ^ 32
  perm : (init ++ [cur] ++ u.memory.freed).Perm (List.range u.memory.lens.length)
  first : ∃ buf, (init ++ [cur])[u.memory.mc.firstBufInx]? = some buf ∧
    u.memory.lens[buf]? = some u.memory.mc.baseSize
  current : u.memory.mc.currentBuf.1 = cur
  tail : u.memory.lens[cur]? = some (u.memory.mc.currentBuf.2 + u.memory.mc.currentFreeLen)
  disjoint : u.regions.Pairwise Region.Disjoint
  inside : ∀ r ∈ u.regions, r.buf ∈ init ++ [cur] ∧
    ∃ len, u.memory.lens[r.buf]? = some len ∧ r.off + r.len ≤ len
  unused : ∀ r ∈ u.regions, r.buf = cur → r.off + r.len ≤ u.memory.mc.currentBuf.2
  total : u.memory.mc.maxSize ≠ 0 → u.memory.mc.totalSize ≤ u.memory.mc.maxSize
  base_pos : 0 < u.memory.mc.baseSize
  base_le : u.memory.mc.maxSize ≠ 0 → u.memory.mc.baseSize ≤ u.memory.mc.maxSize

section Buffers

variable {u : Use} {init : List Nat} {cur k : Nat}

section

variable (h : Inv u init cur k)

include h

theorem Inv.nodup : (init ++ [cur] ++ u.memory.freed).Nodup :=
  h.perm.nodup_iff.mpr nodup_range

theorem Inv.owned {buf : Nat} (hbuf : buf ∈ init ++ [cur]) : u.memory.Owned buf := by
  constructor
  · exact mem_range.mp (h.perm.mem_iff.mp (mem_append_left _ hbuf))
  · intro hfreed
    exact disjoint_of_nodup_append h.nodup hbuf hfreed

theorem Inv.length : u.memory.mc.bufArray.length = init.length + 1 + k := by
  rw [h.array, length_append, length_map, length_append, length_replicate,
    length_singleton]

/-- The slots up to the current one. -/
theorem Inv.slot {i : Nat} (hi : i ≤ init.length) :
    u.memory.mc.bufArray[i]? = ((init ++ [cur])[i]?).map some := by
  rw [h.array, getElem?_append_left, getElem?_map]
  rw [length_map, length_append, length_singleton]
  omega

theorem Inv.liveOk : LiveOk u := by
  have hcur : (init ++ [cur])[init.length]? = some cur := by simp
  refine ⟨h.disjoint, ?_, ?_, ?_, ?_, ?_, ?_, h.total⟩
  · intro r hr
    exact ⟨h.owned (h.inside r hr).1, (h.inside r hr).2⟩
  · intro i hi
    rw [h.count] at hi
    have hlt : i < (init ++ [cur]).length := by
      rw [List.length_append, List.length_singleton]
      omega
    refine ⟨(init ++ [cur])[i], ?_, h.owned (List.getElem_mem hlt)⟩
    rw [h.slot hi, List.getElem?_eq_getElem hlt]
    rfl
  · intro i j buf hi hj hbi hbj
    rw [h.count] at hi hj
    rw [h.slot hi] at hbi
    rw [h.slot hj] at hbj
    rcases map_eq_some_iff.mp hbi with ⟨b, hb, heq⟩
    rcases map_eq_some_iff.mp hbj with ⟨b', hb', heq'⟩
    cases heq
    cases heq'
    have hnodup : (init ++ [cur]).Nodup := List.Nodup.of_append_left h.nodup
    rcases List.getElem?_eq_some_iff.mp hb with ⟨hlt, hget⟩
    rcases List.getElem?_eq_some_iff.mp hb' with ⟨hlt', hget'⟩
    exact (List.Nodup.getElem_inj_iff hnodup).mp (hget.trans hget'.symm)
  · rw [h.count, h.slot (Nat.le_refl _), hcur, h.current]
    rfl
  · rw [h.current]
    exact h.tail
  · intro r hr hbuf
    exact h.unused r hr (hbuf.trans h.current)

end

end Buffers

/-! ## mc_alloc -/

section Alloc

variable {u : Use} {init : List Nat} {cur k size : Nat}

/-- There is room in the current buffer. -/
theorem Inv.allocHere (h : Inv u init cur k) (hroom : size ≤ u.memory.mc.currentFreeLen)
    {newTotal : Nat} (htotal : u.memory.mc.maxSize ≠ 0 → newTotal ≤ u.memory.mc.maxSize) :
    Inv { u with
      memory := { u.memory with mc := { u.memory.mc with
        currentBuf := (u.memory.mc.currentBuf.1, u.memory.mc.currentBuf.2 + size)
        currentFreeLen := u.memory.mc.currentFreeLen - size
        totalSize := newTotal } }
      regions := ⟨u.memory.mc.currentBuf.1, u.memory.mc.currentBuf.2, size⟩ :: u.regions }
      init cur k where
  live := h.live
  array := h.array
  count := h.count
  bound := h.bound
  perm := h.perm
  first := h.first
  current := h.current
  tail := by
    change u.memory.lens[cur]? =
      some (u.memory.mc.currentBuf.2 + size + (u.memory.mc.currentFreeLen - size))
    rw [h.tail, Nat.add_assoc, Nat.add_sub_cancel' hroom]
  disjoint := by
    refine pairwise_cons.mpr ⟨fun r hr => ?_, h.disjoint⟩
    by_cases hbuf : r.buf = cur
    · exact .inr (.inr (h.unused r hr hbuf))
    · refine .inl fun heq => hbuf ?_
      rw [← heq, h.current]
  inside := by
    intro r hr
    rcases mem_cons.mp hr with rfl | hold
    · refine ⟨?_, u.memory.mc.currentBuf.2 + u.memory.mc.currentFreeLen, ?_, ?_⟩
      · rw [h.current]
        exact mem_append_right _ mem_cons_self
      · rw [h.current]
        exact h.tail
      · exact Nat.add_le_add_left hroom _
    · exact h.inside r hold
  unused := by
    intro r hr hbuf
    rcases mem_cons.mp hr with rfl | hold
    · exact Nat.le_refl _
    · exact Nat.le_trans (h.unused r hold hbuf) (Nat.le_add_right _ _)
  total := htotal
  base_pos := h.base_pos
  base_le := h.base_le

/-- A longer array, as long as its length fits. -/
theorem Inv.grow (h : Inv u init cur k) {newSize : Nat}
    (hle : u.memory.mc.bufArray.length ≤ newSize) (hlt : newSize < 2 ^ 32) :
    Inv { u with memory := { u.memory with mc := { u.memory.mc with
      bufArray := mcReallocBufArray u.memory.mc.bufArray newSize } } }
      init cur (k + (newSize - u.memory.mc.bufArray.length)) where
  live := h.live
  array := by
    unfold mcReallocBufArray
    dsimp only
    rw [take_of_length_le hle, ← replicate_append_replicate, ← append_assoc,
      ← h.array]
  count := h.count
  bound := by
    unfold mcReallocBufArray
    dsimp only
    rw [take_of_length_le hle, length_append, length_replicate]
    omega
  perm := h.perm
  first := h.first
  current := h.current
  tail := h.tail
  disjoint := h.disjoint
  inside := h.inside
  unused := h.unused
  total := h.total
  base_pos := h.base_pos
  base_le := h.base_le

/-- A new buffer is different from all others. -/
theorem Inv.fresh (h : Inv u init cur k) {buf : Nat} (hbuf : buf ∈ init ++ [cur]) :
    buf ≠ u.memory.lens.length := Nat.ne_of_lt (h.owned hbuf).1

/-- The lengths of the old buffers. -/
theorem lens_append {lens : List Nat} {buf len new : Nat} (h : lens[buf]? = some len) :
    (lens ++ [new])[buf]? = some len := by
  rw [List.getElem?_append_left (List.getElem?_eq_some_iff.mp h).1]
  exact h

theorem lens_new {lens : List Nat} {new : Nat} : (lens ++ [new])[lens.length]? = some new := by
  simp

/-- All buffers, with a new one. -/
theorem Inv.perm_new (h : Inv u init cur k) {l : List Nat}
    (hl : l.Perm (u.memory.lens.length :: (init ++ [cur]))) {new : Nat} :
    (l ++ u.memory.freed).Perm (List.range (u.memory.lens ++ [new]).length) := by
  rw [length_append, length_singleton, range_succ]
  have hall : (u.memory.lens.length :: (init ++ [cur]) ++ u.memory.freed).Perm
      (u.memory.lens.length :: List.range u.memory.lens.length) := h.perm.cons _
  exact ((hl.append_right _).trans hall).trans (perm_append_singleton _ _).symm

/-- The regions in the old buffers, and one at the beginning of the new buffer. -/
theorem Inv.inside_new (h : Inv u init cur k) {l : List Nat}
    (hl : l.Perm (u.memory.lens.length :: (init ++ [cur]))) {new : Nat} (hsize : size ≤ new) :
    ∀ r ∈ (⟨u.memory.lens.length, 0, size⟩ : Region) :: u.regions, r.buf ∈ l ∧
      ∃ len, (u.memory.lens ++ [new])[r.buf]? = some len ∧ r.off + r.len ≤ len := by
  intro r hr
  rcases mem_cons.mp hr with rfl | hold
  · refine ⟨hl.mem_iff.mpr mem_cons_self, new, lens_new, ?_⟩
    change 0 + size ≤ new
    omega
  · rcases h.inside r hold with ⟨hmem, len, hlen, hle⟩
    exact ⟨hl.mem_iff.mpr (mem_cons_of_mem _ hmem), len, lens_append hlen, hle⟩

theorem Inv.disjoint_new (h : Inv u init cur k) :
    ((⟨u.memory.lens.length, 0, size⟩ : Region) :: u.regions).Pairwise Region.Disjoint := by
  refine pairwise_cons.mpr ⟨fun r hr => ?_, h.disjoint⟩
  exact .inl (Ne.symm (h.fresh (h.inside r hr).1))

/-- The array, with a free slot behind the current buffer. -/
theorem Inv.array_eq (h : Inv u init cur (k + 1)) :
    u.memory.mc.bufArray = init.map some ++ some cur :: none :: List.replicate k none := by
  rw [h.array, map_append, append_assoc, replicate_succ]
  rfl

/-- The call uses up a buffer of its own, which comes below the current one. -/
theorem Inv.allocPrivate (h : Inv u init cur (k + 1)) {newTotal : Nat}
    (htotal : u.memory.mc.maxSize ≠ 0 → newTotal ≤ u.memory.mc.maxSize) :
    ∃ m, useNewBuffer u.memory size size (init.length + 1) newTotal =
        some (m, some ⟨u.memory.lens.length, 0, size⟩) ∧
      Inv { u with memory := m, regions := ⟨u.memory.lens.length, 0, size⟩ :: u.regions }
        (init ++ [u.memory.lens.length]) cur k ∧
      m.mc.currentFreeLen = u.memory.mc.currentFreeLen ∧ m.mc.baseSize = u.memory.mc.baseSize ∧
      m.mc.maxSize = u.memory.mc.maxSize := by
  have hold : u.memory.mc.bufArray[init.length + 1 - 1]? = some (some cur) := by
    rw [h.array_eq, Nat.add_sub_cancel, List.getElem?_append_right (by simp)]
    simp
  have hlen : u.memory.mc.bufArray.length = init.length + 2 + k := by
    rw [h.length]
    omega
  have hw : writeSlot u.memory.mc.bufArray (init.length + 1) (some cur) =
      some (init.map some ++ some cur :: some cur :: List.replicate k none) := by
    unfold writeSlot
    rw [if_pos (by omega), h.array_eq]
    simp
  have hw' : writeSlot (init.map some ++ some cur :: some cur :: List.replicate k none)
      (init.length + 1 - 1) (some u.memory.lens.length) =
      some (init.map some ++ some u.memory.lens.length :: some cur :: List.replicate k none) := by
    unfold writeSlot
    rw [if_pos (by simp)]
    simp
  have hmove : (init ++ [u.memory.lens.length] ++ [cur]).Perm
      (u.memory.lens.length :: (init ++ [cur])) := by
    rw [List.append_assoc]
    exact List.perm_middle
  unfold useNewBuffer
  dsimp only
  rw [if_pos rfl, hold]
  simp only [bind_eq_bind, bind_some, hw, hw']
  refine ⟨_, rfl, ?_, rfl, rfl, rfl⟩
  constructor
  case live => exact h.live
  case array => simp
  case count => simp
  case bound =>
    have hbound := h.bound
    rw [hlen] at hbound
    simp only [List.length_append, List.length_map, List.length_cons, List.length_replicate]
    omega
  case perm => exact h.perm_new hmove
  case first =>
    rcases h.first with ⟨buf, hbuf, hbase⟩
    have hlt := (List.getElem?_eq_some_iff.mp hbuf).1
    rw [List.length_append, List.length_singleton] at hlt
    refine ⟨buf, ?_, lens_append hbase⟩
    dsimp only
    rw [Nat.add_sub_cancel]
    by_cases hfirst : u.memory.mc.firstBufInx = init.length
    · -- the first buffer is the current one, and moves up with it
      rw [if_pos hfirst]
      rw [hfirst] at hbuf
      simpa using hbuf
    · rw [if_neg hfirst, List.append_assoc, List.getElem?_append_left (by omega)]
      rw [List.getElem?_append_left (by omega)] at hbuf
      exact hbuf
  case current => exact h.current
  case tail => exact lens_append h.tail
  case disjoint => exact h.disjoint_new
  case inside => exact h.inside_new hmove (Nat.le_refl _)
  case unused =>
    intro r hr hbuf
    rcases List.mem_cons.mp hr with rfl | hold'
    · exact absurd hbuf.symm (h.fresh (List.mem_append_right _ List.mem_cons_self))
    · exact h.unused r hold' hbuf
  case total => exact htotal
  case base_pos => exact h.base_pos
  case base_le => exact h.base_le

/-- The new buffer becomes the current one. -/
theorem Inv.allocCurrent (h : Inv u init cur (k + 1)) {allocSize newTotal : Nat}
    (hsize : size < allocSize)
    (htotal : u.memory.mc.maxSize ≠ 0 → newTotal ≤ u.memory.mc.maxSize) :
    ∃ m, useNewBuffer u.memory size allocSize (init.length + 1) newTotal =
        some (m, some ⟨u.memory.lens.length, 0, size⟩) ∧
      Inv { u with memory := m, regions := ⟨u.memory.lens.length, 0, size⟩ :: u.regions }
        (init ++ [cur]) u.memory.lens.length k := by
  have hlen : u.memory.mc.bufArray.length = init.length + 2 + k := by
    rw [h.length]
    omega
  have hw : writeSlot u.memory.mc.bufArray (init.length + 1) (some u.memory.lens.length) =
      some (init.map some ++ some cur :: some u.memory.lens.length :: List.replicate k none) := by
    unfold writeSlot
    rw [if_pos (by omega), h.array_eq]
    simp
  have hmove : (init ++ [cur] ++ [u.memory.lens.length]).Perm
      (u.memory.lens.length :: (init ++ [cur])) := List.perm_append_singleton _ _
  unfold useNewBuffer
  dsimp only
  rw [if_neg (Nat.ne_of_lt hsize), hw, bind_eq_bind, bind_some]
  refine ⟨_, rfl, ?_⟩
  constructor
  case live => exact h.live
  case array => simp
  case count => simp
  case bound =>
    have hbound := h.bound
    rw [hlen] at hbound
    simp only [List.length_append, List.length_map, List.length_cons, List.length_replicate]
    omega
  case perm => exact h.perm_new hmove
  case first =>
    rcases h.first with ⟨buf, hbuf, hbase⟩
    refine ⟨buf, ?_, lens_append hbase⟩
    rw [List.getElem?_append_left (List.getElem?_eq_some_iff.mp hbuf).1]
    exact hbuf
  case current => rfl
  case tail =>
    dsimp only
    rw [lens_new, Nat.add_sub_cancel' (Nat.le_of_lt hsize)]
  case disjoint => exact h.disjoint_new
  case inside => exact h.inside_new hmove (Nat.le_of_lt hsize)
  case unused =>
    intro r hr hbuf
    rcases List.mem_cons.mp hr with rfl | hold'
    · exact Nat.le_of_eq (Nat.zero_add _)
    · exact absurd hbuf (h.fresh (h.inside r hold').1)
  case total => exact htotal
  case base_pos => exact h.base_pos
  case base_le => exact h.base_le

/-- What `mc_alloc` does when it needs a new buffer. -/
theorem mcAlloc_new {m : Memory} {size : Nat} {arrayOk bufOk : Bool}
    (hmax : ¬ (0 < m.mc.maxSize ∧ m.mc.maxSize < (m.mc.totalSize + icAlign size 8) % 2 ^ 64))
    (hroom : ¬ icAlign size 8 ≤ m.mc.currentFreeLen) {bufInx : Nat}
    (hinx : (m.mc.currentBufInx + 1) % 2 ^ 32 = bufInx) :
    mcAlloc m size arrayOk bufOk =
      match growBufArray m.mc.bufArray bufInx arrayOk with
      | none => some (m, none)
      | some bufArray =>
        if bufOk then
          useNewBuffer { m with mc := { m.mc with bufArray := bufArray } } (icAlign size 8)
            (if m.mc.baseSize < icAlign size 8 then icAlign size 8 else m.mc.baseSize) bufInx
            ((m.mc.totalSize + icAlign size 8) % 2 ^ 64)
        else some ({ m with mc := { m.mc with bufArray := bufArray } }, none) := by
  unfold mcAlloc
  dsimp only
  rw [if_neg hmax, if_neg hroom]
  subst hinx
  rfl

/-- The new buffer is used up by the call, or becomes the current one. -/
theorem Inv.allocNew (h : Inv u init cur (k + 1)) {newTotal : Nat}
    (htotal : u.memory.mc.maxSize ≠ 0 → newTotal ≤ u.memory.mc.maxSize) :
    ∃ m r init' cur' k', useNewBuffer u.memory size
        (if u.memory.mc.baseSize < size then size else u.memory.mc.baseSize)
        (init.length + 1) newTotal = some (m, some r) ∧
      Inv { u with memory := m, regions := r :: u.regions } init' cur' k' := by
  rcases Nat.lt_or_ge size u.memory.mc.baseSize with hlt | hge
  · rw [if_neg (Nat.not_lt_of_lt hlt)]
    rcases h.allocCurrent hlt htotal with ⟨m, hm, hinv⟩
    exact ⟨m, _, _, _, _, hm, hinv⟩
  · have halloc : (if u.memory.mc.baseSize < size then size else u.memory.mc.baseSize) = size := by
      split_ifs
      · rfl
      · omega
    rw [halloc]
    rcases h.allocPrivate htotal with ⟨m, hm, hinv, -⟩
    exact ⟨m, _, _, _, _, hm, hinv⟩

theorem Inv.alloc (h : Inv u init cur k) (arrayOk bufOk : Bool)
    (hfits : NeedsArray u.memory size → arrayOk = true →
      u.memory.mc.bufArray.length + 16 < 2 ^ 32) :
    ∃ init' cur' k', Inv (u.afterAlloc (mcAlloc u.memory size arrayOk bufOk)) init' cur' k' := by
  by_cases hmax : 0 < u.memory.mc.maxSize ∧
      u.memory.mc.maxSize < (u.memory.mc.totalSize + icAlign size 8) % 2 ^ 64
  · unfold mcAlloc
    dsimp only
    rw [if_pos hmax]
    exact ⟨init, cur, k, h⟩
  have htotal : u.memory.mc.maxSize ≠ 0 →
      (u.memory.mc.totalSize + icAlign size 8) % 2 ^ 64 ≤ u.memory.mc.maxSize := by
    intro hne
    exact Nat.le_of_not_lt fun hlt => hmax ⟨Nat.pos_of_ne_zero hne, hlt⟩
  by_cases hroom : icAlign size 8 ≤ u.memory.mc.currentFreeLen
  · unfold mcAlloc
    dsimp only
    rw [if_neg hmax, if_pos hroom]
    exact ⟨init, cur, k, h.allocHere hroom htotal⟩
  have hlen := h.length
  have hbound := h.bound
  have hinx : (u.memory.mc.currentBufInx + 1) % 2 ^ 32 = init.length + 1 := by
    rw [h.count]
    omega
  rw [mcAlloc_new hmax hroom hinx]
  unfold growBufArray
  cases k with
  | zero =>
    rw [if_pos (Nat.le_of_eq hlen)]
    cases arrayOk with
    | false => exact ⟨init, cur, 0, h⟩
    | true =>
      have hlt := hfits ⟨hmax, by omega, by rw [h.count]; omega⟩ rfl
      have hgrow := h.grow (Nat.le_add_right _ 16) hlt
      rw [Nat.add_sub_cancel_left] at hgrow
      rw [if_pos rfl, Nat.mod_eq_of_lt hlt]
      cases bufOk with
      | false => exact ⟨init, cur, _, hgrow⟩
      | true =>
        rcases Inv.allocNew (k := 15) hgrow htotal with ⟨m, r, init', cur', k', hm, hinv⟩
        have hafter : Inv (u.afterAlloc (some (m, some r))) init' cur' k' := hinv
        rw [← hm] at hafter
        exact ⟨init', cur', k', hafter⟩
  | succ k =>
    rw [if_neg (by omega)]
    cases bufOk with
    | false => exact ⟨init, cur, k + 1, h⟩
    | true =>
      rcases h.allocNew htotal with ⟨m, r, init', cur', k', hm, hinv⟩
      have hafter : Inv (u.afterAlloc (some (m, some r))) init' cur' k' := hinv
      rw [← hm] at hafter
      exact ⟨init', cur', k', hafter⟩

end Alloc

/-! ## mc_reset and mc_free -/

/-- Buffers in use can be released, in any order and each once. -/
theorem freeSlots_map (m : Memory) (l : List Nat) (hnodup : l.Nodup) (howned : ∀ buf ∈ l, m.Owned buf) :
    freeSlots m (l.map some) = some { m with freed := m.freed ++ l } := by
  induction l generalizing m with
  | nil =>
    rw [append_nil]
    rfl
  | cons buf l ih =>
    rcases nodup_cons.mp hnodup with ⟨hnot, hnodup'⟩
    change (if m.Owned buf then freeSlots { m with freed := m.freed ++ [buf] } (l.map some)
      else none) = _
    rw [if_pos (howned buf mem_cons_self), ih _ hnodup']
    · simp
    · intro buf' hbuf'
      rcases howned buf' (mem_cons_of_mem _ hbuf') with ⟨hlt, hfreed⟩
      refine ⟨hlt, fun hmem => ?_⟩
      rcases mem_append.mp hmem with hold | hnew
      · exact hfreed hold
      · rw [mem_singleton] at hnew
        rw [hnew] at hbuf'
        exact hnot hbuf'

section Release

variable {u : Use} {init : List Nat} {cur k : Nat}

theorem Inv.free (h : Inv u init cur k) :
    ∃ m, mcFree u.memory = some m ∧ AllFreed m := by
  have hslots : u.memory.mc.bufArray.take (u.memory.mc.currentBufInx + 1) =
      (init ++ [cur]).map some := by
    rw [h.array, h.count, take_left' (by simp)]
  have hlen := h.length
  have hfree := freeSlots_map u.memory (init ++ [cur]) (List.Nodup.of_append_left h.nodup)
    fun _ hbuf => h.owned hbuf
  refine ⟨{ u.memory with freed := u.memory.freed ++ (init ++ [cur]) }, ?_, ?_⟩
  · unfold mcFree
    rw [if_neg (by rw [h.count]; omega), hslots]
    exact hfree
  · exact (perm_append_comm).trans h.perm

/-- In `mc_reset` the first buffer changes places with the one in slot 0. -/
theorem Inv.swapFirst (h : Inv u init cur k) :
    ∃ buf rest slot, u.memory.lens[buf]? = some u.memory.mc.baseSize ∧
      (buf :: rest).Perm (init ++ [cur]) ∧
      u.memory.mc.bufArray[u.memory.mc.firstBufInx]? = some (some buf) ∧
      u.memory.mc.bufArray[0]? = some slot ∧
      (u.memory.mc.bufArray.set u.memory.mc.firstBufInx slot).set 0 (some buf) =
        some buf :: (rest.map some ++ List.replicate k none) := by
  rcases h.first with ⟨buf, hbuf, hbase⟩
  rcases List.getElem?_eq_some_iff.mp hbuf with ⟨hlt, hget⟩
  have hpos : 0 < (init ++ [cur]).length := by simp
  have hperm : (((init ++ [cur]).set u.memory.mc.firstBufInx (init ++ [cur])[0]).set 0
      (init ++ [cur])[u.memory.mc.firstBufInx]).Perm (init ++ [cur]) := List.set_set_perm hlt hpos
  rw [hget] at hperm
  obtain ⟨rest, hswap⟩ : ∃ rest,
      ((init ++ [cur]).set u.memory.mc.firstBufInx (init ++ [cur])[0]).set 0 buf = buf :: rest := by
    cases hl : (init ++ [cur]).set u.memory.mc.firstBufInx (init ++ [cur])[0] with
    | nil => simp at hl
    | cons b rest => exact ⟨rest, rfl⟩
  have hle : u.memory.mc.firstBufInx ≤ init.length := by
    rw [List.length_append, List.length_singleton] at hlt
    omega
  refine ⟨buf, rest, some (init ++ [cur])[0], hbase, hswap ▸ hperm, ?_, ?_, ?_⟩
  · rw [h.slot hle, hbuf]
    rfl
  · rw [h.slot (Nat.zero_le _), List.getElem?_eq_getElem hpos]
    rfl
  · rw [h.array, List.set_append_left _ _ (by simpa using hlt), List.set_append_left _ _ (by simp),
      ← List.map_set, ← List.map_set, hswap]
    rfl

/-- The array after `mc_reset`: the first buffer, and free slots. -/
theorem resetArray_eq (buf : Nat) (slots : List (Option Nat)) {origArrSize : Nat} (arrayOk : Bool)
    (horig : 0 < origArrSize) :
    ∃ rest, (if origArrSize < (some buf :: slots).length ∧ arrayOk = true then
        mcReallocBufArray (some buf :: slots) origArrSize else some buf :: slots) =
        some buf :: rest ∧ rest.length ≤ slots.length := by
  split_ifs with hshrink
  · unfold mcReallocBufArray
    rw [Nat.sub_eq_zero_of_le (Nat.le_of_lt hshrink.1), replicate_zero, append_nil]
    obtain ⟨n, rfl⟩ : ∃ n, origArrSize = n + 1 := ⟨origArrSize - 1, by omega⟩
    exact ⟨slots.take n, rfl, length_take_le' _ _⟩
  · exact ⟨slots, rfl, Nat.le_refl _⟩

theorem Inv.origArrSize_pos (h : Inv u init cur k) :
    0 < mcGetBaseBufSize u.memory.mc.maxSize u.memory.mc.baseSize := by
  unfold mcGetBaseBufSize
  split_ifs with hzero
  · decide
  · apply Nat.div_pos
    · have hle := h.base_le hzero
      omega
    · exact h.base_pos

/-- `mc_reset` keeps the first buffer and releases the others. -/
theorem Inv.reset (h : Inv u init cur k) (arrayOk : Bool) :
    ∃ m buf k', mcReset u.memory arrayOk = some m ∧
      Inv { u with memory := m, regions := [] } [] buf k' := by
  rcases h.swapFirst with ⟨buf, rest, slot, hbase, hperm, hfirst, hslot, harray⟩
  have hlen := h.length
  have hcount : rest.length = init.length := by
    have hlen' := hperm.length_eq
    simp only [length_cons, length_append, length_nil] at hlen'
    omega
  have hall : (buf :: rest ++ u.memory.freed).Perm (List.range u.memory.lens.length) :=
    (hperm.append_right _).trans h.perm
  have hnodup : (buf :: rest).Nodup :=
    List.Nodup.of_append_left (hall.nodup_iff.mpr nodup_range)
  have hfree := freeSlots_map u.memory rest (nodup_cons.mp hnodup).2
    fun b hb => h.owned (hperm.mem_iff.mp (mem_cons_of_mem _ hb))
  rcases resetArray_eq buf (rest.map some ++ List.replicate k none) arrayOk h.origArrSize_pos with
    ⟨rest', hreset, hle⟩
  have hslots : ((some buf :: (rest.map some ++ List.replicate k none)).drop 1).take
      u.memory.mc.currentBufInx = rest.map some := by
    rw [drop_one, tail_cons, h.count, take_left' (by simpa using hcount)]
  have hroom : ¬ (some buf :: (rest.map some ++ List.replicate k none)).length ≤
      u.memory.mc.currentBufInx := by
    rw [h.count]
    simp only [length_cons, length_append, length_map]
    omega
  refine ⟨{ u.memory with
      freed := u.memory.freed ++ rest
      mc := { u.memory.mc with
        bufArray := some buf :: rest'.map fun _ => none
        currentBuf := (buf, 0)
        totalSize := 0
        currentBufInx := 0
        currentFreeLen := u.memory.mc.baseSize
        firstBufInx := 0 } }, buf, rest'.length, ?_, ?_⟩
  · unfold mcReset
    dsimp only
    rw [hfirst, hslot]
    simp only [bind_eq_bind, bind_some, harray]
    rw [if_neg hroom, hslots, hfree]
    simp only [bind_some, hreset]
  · constructor
    case live => exact h.live
    case array => simp [map_const']
    case count => rfl
    case bound =>
      have hbound := h.bound
      simp only [length_cons, length_map, length_append, length_replicate]
        at hle ⊢
      omega
    case perm =>
      change (buf :: (u.memory.freed ++ rest)).Perm _
      exact ((perm_append_comm).cons buf).trans hall
    case first => exact ⟨buf, rfl, hbase⟩
    case current => rfl
    case tail =>
      change u.memory.lens[buf]? = some (0 + u.memory.mc.baseSize)
      rw [Nat.zero_add]
      exact hbase
    case disjoint => exact List.Pairwise.nil
    case inside => exact fun r hr => absurd hr not_mem_nil
    case unused => exact fun r hr => absurd hr not_mem_nil
    case total => exact fun _ => Nat.zero_le _
    case base_pos => exact h.base_pos
    case base_le => exact h.base_le

end Release

/-! ## Whole runs -/

/-- The container is in use and in order, or it was released. -/
def Good (u : Use) : Prop :=
  (∃ init cur k, Inv u init cur k) ∨ (u.phase = .freed ∧ AllFreed u.memory)

theorem Good.mcOk {u : Use} (h : Good u) : McOk u := by
  unfold McOk
  rcases h with ⟨init, cur, k, hinv⟩ | ⟨hphase, hfreed⟩
  · rw [hinv.live]
    exact hinv.liveOk
  · rw [hphase]
    exact hfreed

theorem McOk.liveOk {u : Use} (h : McOk u) (hlive : u.phase = .live) : LiveOk u := by
  unfold McOk at h
  rw [hlive] at h
  exact h

/-- A container that takes a step is in use. -/
theorem Good.inv_of_step {u u' : Use} {l : Label} (h : Good u) (hstep : step u l = some u') :
    u.phase = .live ∧ ∃ init cur k, Inv u init cur k := by
  rcases h with ⟨init, cur, k, hinv⟩ | ⟨hphase, -⟩
  · exact ⟨hinv.live, init, cur, k, hinv⟩
  · unfold step at hstep
    rw [if_pos (by rw [hphase]; exact Phase.noConfusion)] at hstep
    cases hstep

theorem step_keeps (u : Use) (l : Label) (u' : Use) (hfits : ArrayFits u l)
    (hstep : step u l = some u') (hgood : Good u) : Good u' := by
  rcases hgood.inv_of_step hstep with ⟨hlive, init, cur, k, hinv⟩
  unfold step at hstep
  rw [if_neg (not_not.mpr hlive)] at hstep
  cases l with
  | alloc size arrayOk bufOk | calloc size arrayOk bufOk =>
    cases hstep
    exact .inl (hinv.alloc arrayOk bufOk hfits)
  | reset arrayOk =>
    rcases hinv.reset arrayOk with ⟨m, buf, k', hm, hinv'⟩
    dsimp only at hstep
    rw [hm] at hstep
    cases hstep
    exact .inl ⟨[], buf, k', hinv'⟩
  | free =>
    rcases hinv.free with ⟨m, hm, hfreed⟩
    dsimp only at hstep
    rw [hm] at hstep
    cases hstep
    exact .inr ⟨rfl, hfreed⟩

/-- The new array is shorter than the old one: either a slot behind its end is written,
or the buffers in use are no longer in it. -/
theorem alloc_breaks {u : Use} {init : List Nat} {cur k size : Nat} (h : Inv u init cur k)
    (bufOk : Bool) (hneeds : NeedsArray u.memory size)
    (hwraps : 2 ^ 32 ≤ u.memory.mc.bufArray.length + 16) :
    ¬ McOk (u.afterAlloc (mcAlloc u.memory size true bufOk)) := by
  rcases hneeds with ⟨hmax, hroom, hfull⟩
  have hlen := h.length
  have hbound := h.bound
  rw [h.count] at hfull
  have hinx : (u.memory.mc.currentBufInx + 1) % 2 ^ 32 = init.length + 1 := by
    rw [h.count]
    omega
  rw [mcAlloc_new hmax (Nat.not_le_of_lt hroom) hinx]
  unfold growBufArray
  rw [if_pos hfull, if_pos rfl]
  generalize harray : mcReallocBufArray u.memory.mc.bufArray
    ((u.memory.mc.bufArray.length + 16) % 2 ^ 32) = bufArray
  have hshort : bufArray.length ≤ init.length := by
    rw [← harray]
    unfold mcReallocBufArray
    rw [length_append, length_take, length_replicate]
    omega
  cases bufOk with
  | false =>
    -- the buffer in the last slot is lost
    intro hok
    have hcur := (McOk.liveOk hok h.live).current
    change bufArray[u.memory.mc.currentBufInx]? = _ at hcur
    rw [h.count, getElem?_eq_none hshort] at hcur
    cases hcur
  | true =>
    have hwrite : ∀ p, writeSlot bufArray (init.length + 1) p = none := by
      intro p
      unfold writeSlot
      rw [if_neg (by omega)]
    have hnone : ∀ allocSize newTotal, useNewBuffer
        { u.memory with mc := { u.memory.mc with bufArray := bufArray } } (icAlign size 8) allocSize
        (init.length + 1) newTotal = none := by
      intro allocSize newTotal
      unfold useNewBuffer
      dsimp only
      by_cases hprivate : icAlign size 8 = allocSize
      · rw [if_pos hprivate, Nat.add_sub_cancel, getElem?_eq_none hshort]
        rfl
      · rw [if_neg hprivate, hwrite]
        rfl
    dsimp only
    rw [if_pos rfl, hnone]
    exact id

theorem step_breaks (u : Use) (l : Label) (u' : Use) (hno : ¬ ArrayFits u l)
    (hstep : step u l = some u') (hgood : Good u) : ¬ McOk u' := by
  rcases hgood.inv_of_step hstep with ⟨hlive, init, cur, k, hinv⟩
  unfold step at hstep
  rw [if_neg (not_not.mpr hlive)] at hstep
  cases l with
  | alloc size arrayOk bufOk | calloc size arrayOk bufOk =>
    cases hstep
    unfold ArrayFits at hno
    push Not at hno
    rcases hno with ⟨hneeds, rfl, hwraps⟩
    exact alloc_breaks hinv bufOk hneeds hwraps
  | _ => exact absurd trivial hno

theorem start_good (baseSize maxSize : Fin (2 ^ 31 + 1)) : Good (start baseSize maxSize) := by
  have hbase := baseSize.isLt
  have hmax := maxSize.isLt
  unfold start createMemoryContainer
  dsimp only
  generalize hb : icAlign (if baseSize.val < minBaseSize then minBaseSize else baseSize) 8 = base
  generalize hm : (if 0 < icAlign maxSize 8 ∧ icAlign maxSize 8 < base then base
    else icAlign maxSize 8) = max
  have hbase' : 0 < base ∧ base ≤ 2 ^ 31 := by
    rw [← hb]
    unfold icAlign minBaseSize
    split_ifs <;> omega
  have hmax' : max ≤ 2 ^ 31 ∧ (max ≠ 0 → base ≤ max) := by
    rw [← hm]
    unfold icAlign
    split_ifs <;> omega
  refine .inl ⟨[], 0, mcGetBaseBufSize max base - 1, ?_⟩
  constructor
  case live => rfl
  case array => rfl
  case count => rfl
  case bound =>
    have hdiv := Nat.div_le_self (max + base - 1) base
    unfold mcGetBaseBufSize
    rw [length_cons, length_replicate]
    split_ifs <;> omega
  case perm => exact List.Perm.refl _
  case first => exact ⟨0, rfl, rfl⟩
  case current => rfl
  case tail => exact congrArg some (Nat.zero_add base).symm
  case disjoint => exact List.Pairwise.nil
  case inside => exact fun r hr => absurd hr not_mem_nil
  case unused => exact fun r hr => absurd hr not_mem_nil
  case total => exact fun _ => Nat.zero_le _
  case base_pos => exact hbase'.1
  case base_le => exact hmax'.2

/-- For every container and every sequence of calls, with any allocations failing: the
rules hold in every state exactly if the length of the buffer array never has to go
beyond its guint32. -/
theorem mc_ok_iff (baseSize maxSize : Fin (2 ^ 31 + 1)) (labels : List Label) :
    Run.Always step McOk (start baseSize maxSize) labels ↔
      Run.Along step ArrayFits (start baseSize maxSize) labels :=
  Run.always_iff_along step ArrayFits Good McOk (fun _ h => h.mcOk) step_keeps step_breaks labels
    (start_good baseSize maxSize)

/-! ## A run that does not fit -/

/-- A container without a limit and of base size 128 after `n + 1` calls for 128 bytes:
each call but the first has used up a buffer. -/
structure Filled (u : Use) (n : Nat) : Prop where
  inv : ∃ init cur k, Inv u init cur k ∧ init.length = n
  full : u.memory.mc.currentFreeLen = 0
  base : u.memory.mc.baseSize = 128
  unlimited : u.memory.mc.maxSize = 0
  length : u.memory.mc.bufArray.length % 16 = 8

/-- The call that fills the first buffer, and one more. -/
def fill : Label := .alloc ⟨128, by decide⟩ true true

theorem start_filled : ∃ u, step (start 128 0) fill = some u ∧ Filled u 0 := by
  obtain ⟨init, cur, k, hinv⟩ | ⟨hphase, -⟩ := start_good 128 0
  · have hcount : init.length = 0 := hinv.count.symm
    refine ⟨_, rfl, ⟨init, cur, k, ?_, hcount⟩, rfl, rfl, rfl, rfl⟩
    exact hinv.allocHere (by decide) (fun hno => absurd rfl hno)
  · cases hphase

/-- One more buffer, when there is a slot for it. -/
theorem fill_private {u : Use} {init : List Nat} {cur k : Nat} (h : Inv u init cur (k + 1))
    (hfull : u.memory.mc.currentFreeLen = 0) (hbase : u.memory.mc.baseSize = 128)
    (hmax : u.memory.mc.maxSize = 0) (hlen : u.memory.mc.bufArray.length % 16 = 8) (newTotal : Nat) :
    ∃ m r, useNewBuffer u.memory (icAlign 128 8)
        (if u.memory.mc.baseSize < icAlign 128 8 then icAlign 128 8 else u.memory.mc.baseSize)
        (init.length + 1) newTotal = some (m, some r) ∧
      Filled { u with memory := m, regions := r :: u.regions } (init.length + 1) := by
  have hsame : (if u.memory.mc.baseSize < icAlign 128 8 then icAlign 128 8
      else u.memory.mc.baseSize) = icAlign 128 8 := by
    rw [hbase]
    rfl
  rcases @Inv.allocPrivate u init cur k (icAlign 128 8) h newTotal
    (fun hno => absurd hmax hno) with ⟨m, hm, hinv, hfull', hbase', hmax'⟩
  refine ⟨m, _, by rw [hsame, hm], ⟨_, cur, k, hinv, by simp⟩, ?_, ?_, ?_, ?_⟩
  · exact hfull'.trans hfull
  · exact hbase'.trans hbase
  · exact hmax'.trans hmax
  · rw [hinv.length, length_append, length_singleton]
    rw [h.length] at hlen
    omega

theorem fill_again {u : Use} {n : Nat} (h : Filled u n) (hn : n + 1 < 2 ^ 32 - 8) :
    ∃ u', step u fill = some u' ∧ Filled u' (n + 1) := by
  rcases h.inv with ⟨init, cur, k, hinv, rfl⟩
  have hmax : ¬ (0 < u.memory.mc.maxSize ∧
      u.memory.mc.maxSize < (u.memory.mc.totalSize + icAlign 128 8) % 2 ^ 64) := by
    rw [h.unlimited]
    exact fun hno => Nat.lt_irrefl 0 hno.1
  have hroom : ¬ icAlign 128 8 ≤ u.memory.mc.currentFreeLen := by
    rw [h.full]
    decide
  have hlen := hinv.length
  have hmod := h.length
  have hinx : (u.memory.mc.currentBufInx + 1) % 2 ^ 32 = init.length + 1 := by
    rw [hinv.count]
    omega
  have hstep : step u fill = some (u.afterAlloc (mcAlloc u.memory 128 true true)) := by
    unfold step
    rw [if_neg (not_not.mpr hinv.live)]
    rfl
  rw [hstep, mcAlloc_new hmax hroom hinx]
  unfold growBufArray
  cases k with
  | zero =>
    have hlt : u.memory.mc.bufArray.length + 16 < 2 ^ 32 := by omega
    have hgrow := hinv.grow (Nat.le_add_right _ 16) hlt
    rw [Nat.add_sub_cancel_left] at hgrow
    have hlen' := hgrow.length
    rw [if_pos (Nat.le_of_eq hlen), if_pos rfl, Nat.mod_eq_of_lt hlt]
    rcases fill_private (k := 15) hgrow h.full h.base h.unlimited (by rw [hlen']; omega)
      ((u.memory.mc.totalSize + icAlign 128 8) % 2 ^ 64) with ⟨m, r, hm, hfilled⟩
    dsimp only
    rw [if_pos rfl]
    exact ⟨_, congrArg (fun x => some (u.afterAlloc x)) hm, hfilled⟩
  | succ k =>
    rw [if_neg (by omega)]
    rcases fill_private hinv h.full h.base h.unlimited hmod
      ((u.memory.mc.totalSize + icAlign 128 8) % 2 ^ 64) with ⟨m, r, hm, hfilled⟩
    dsimp only
    rw [if_pos rfl]
    exact ⟨_, congrArg (fun x => some (u.afterAlloc x)) hm, hfilled⟩

theorem exec_fill (n : Nat) (hn : n < 2 ^ 32 - 8) :
    ∃ u, Run.exec step (start 128 0) (List.replicate (n + 1) fill) = some u ∧ Filled u n := by
  induction n with
  | zero =>
    rcases start_filled with ⟨u, hu, hfilled⟩
    exact ⟨u, by rw [replicate_one, Run.exec_cons, hu]; rfl, hfilled⟩
  | succ n ih =>
    rcases ih (by omega) with ⟨u, hu, hfilled⟩
    rcases fill_again hfilled hn with ⟨u', hu', hfilled'⟩
    refine ⟨u', ?_, hfilled'⟩
    rw [replicate_succ', Run.exec_append, hu, bind_some, Run.exec_cons, hu']
    rfl

/-- 2 ^ 32 - 7 calls for 128 bytes, all of them successful: the last one finds the array
full with 2 ^ 32 - 8 slots, and makes it 8 slots long. -/
theorem array_length_wraps :
    ¬ Run.Always step McOk (start 128 0) (List.replicate (2 ^ 32 - 7) fill) := by
  intro hall
  rcases exec_fill (2 ^ 32 - 9) (by omega) with ⟨u, hu, hfilled⟩
  rcases hfilled.inv with ⟨init, cur, k, hinv, hcount⟩
  have hlen := hinv.length
  have hbound := hinv.bound
  have hmod := hfilled.length
  have hneeds : NeedsArray u.memory 128 := by
    refine ⟨?_, ?_, ?_⟩
    · rw [hfilled.unlimited]
      exact fun hno => Nat.lt_irrefl 0 hno.1
    · rw [hfilled.full]
      decide
    · rw [hinv.count]
      omega
  have hbreaks := alloc_breaks hinv true hneeds (by omega)
  apply hbreaks
  apply hall (List.replicate (2 ^ 32 - 9 + 1) fill ++ [fill])
  · rw [← List.replicate_succ']
    exact List.prefix_refl _
  · rw [Run.exec_append, hu, Option.bind_some, Run.exec_cons]
    unfold step
    rw [if_neg (not_not.mpr hinv.live)]
    rfl

end IClaustron.MemContainer
