import IClaustron.DynArray.Ordered

/-!
# DynArray.AllocFail — inserts when memory is short

An insert first allocates its buffers and then the index nodes. Only the
allocations that are really made matter: with these succeeding the insert does
what it does when memory never runs out (`insertSimple_of_ok`,
`insertBufInIndex_of_ok`). For an insert of at most one new buffer:

* `insertOrdered_bufferFails` — a missing buffer leaves the array as it was;
* `insertOrdered_indexFails` — a missing index node leaves the size of the array
  larger than its data.
-/

namespace IClaustron.DynArray

open Lib List Option

variable {a : DynamicArray} {bytes : List Byte} {ok : Nat → Bool}

/-- The number of index nodes that an insertion below `dynIndex` allocates: one
for every full node on the way up, and a new top node when all are full. -/
def nodesNeeded : Nat → Mem → Ptr → Nat
  | 0, _, _ => 0
  | fuel + 1, m, dynIndex =>
    match index? m dynIndex with
    | none => 0
    | some n =>
      if n.nextIndexToInsert = indexSize then
        match n.parentDynIndex with
        | none => 2
        | some parent => nodesNeeded fuel m parent + 1
      else 0

theorem nodesNeeded_congr {m m' : Mem} (h : ∀ p, node? m' p = node? m p) (fuel : Nat) (p : Ptr) :
    nodesNeeded fuel m' p = nodesNeeded fuel m p := by
  induction fuel generalizing p with
  | zero => rfl
  | succ fuel ih =>
    have hp := h p
    simp only [node?] at hp
    cases hn : index? m p with
    | none =>
      rw [hn, map_none, map_eq_none_iff] at hp
      simp [nodesNeeded, hn, hp]
    | some n =>
      rw [hn, map_some, map_eq_some_iff] at hp
      obtain ⟨n', hn', hnode⟩ := hp
      have hused : n'.nextIndexToInsert = n.nextIndexToInsert := congrArg Node.used hnode
      have hpar : n'.parentDynIndex = n.parentDynIndex := congrArg Node.parent hnode
      simp only [nodesNeeded, hn, hn', hused, hpar]
      cases n.parentDynIndex <;> simp [ih]

/-- A node allocated meanwhile is empty, so it needs no further ones. -/
theorem nodesNeeded_withNode {m : Mem} (hb : m.Bounded) (fuel : Nat) (p : Ptr) :
    nodesNeeded fuel (withNode m) p = nodesNeeded fuel m p := by
  induction fuel generalizing p with
  | zero => rfl
  | succ fuel ih =>
    by_cases hp : p = m.fresh
    · subst hp
      have hnew : index? (withNode m) m.fresh = some zeroIndex := by
        simp [index?, withNode]
      have hold : index? m m.fresh = none := by
        cases hc : index? m m.fresh with
        | none => rfl
        | some n => exact absurd (hb _ _ (index?_eq_some.mp hc)) (Nat.lt_irrefl _)
      simp [nodesNeeded, hnew, hold, zeroIndex, indexSize]
    · have hsame : index? (withNode m) p = index? m p := index?_congr (Heap.set_of_ne m _ hp)
      simp only [nodesNeeded, hsame, ih]

variable {fuel : Nat} {a' : DynamicArray} {c p : Ptr} {data : List Byte}

/-- Only the allocations that are made matter. -/
theorem insertBufInIndex_of_ok {dynIndex child : Ptr} (hb : a.mem.Bounded)
    (hok : ∀ j, j < nodesNeeded fuel a.mem dynIndex → ok (a.mem.fresh + j)) :
    insertBufInIndex ok fuel a dynIndex child =
      insertBufInIndex (fun _ => true) fuel a dynIndex child := by
  induction fuel generalizing a dynIndex child with
  | zero => rfl
  | succ fuel ih =>
    cases hn : index? a.mem dynIndex with
    | none => simp [insertBufInIndex, hn]
    | some n =>
      by_cases hfull : n.nextIndexToInsert = indexSize
      · simp only [nodesNeeded, hn, hfull, if_true] at hok
        cases hpar : n.parentDynIndex with
        | none =>
          rw [hpar] at hok
          have h₀ : ok a.mem.fresh = true := hok 0 Nat.zero_lt_two
          have h₁ : ok (a.mem.fresh + 1) = true := hok 1 Nat.one_lt_two
          simp [insertBufInIndex, hn, hfull, hpar, Heap.calloc, h₀, h₁]
        | some parent =>
          rw [hpar] at hok
          have h₀ : ok a.mem.fresh = true := hok 0 (Nat.succ_pos _)
          have hok' : ∀ j, j < nodesNeeded fuel (withNode a.mem) parent →
              ok (a.mem.fresh + 1 + j) = true := by
            intro j hj
            rw [nodesNeeded_withNode hb] at hj
            have hnext := hok (j + 1) (Nat.succ_lt_succ hj)
            rwa [show a.mem.fresh + (j + 1) = a.mem.fresh + 1 + j by omega] at hnext
          have hrec : insertBufInIndex ok fuel { a with mem := withNode a.mem } parent a.mem.fresh = _ :=
            ih (hb.calloc _) hok'
          simp only [withNode] at hrec
          simp [insertBufInIndex, hn, hfull, hpar, Heap.calloc, h₀, hrec]
      · simp [insertBufInIndex, hn, hfull]

/-- A node that cannot be allocated makes the insertion fail. -/
theorem insertBufInIndex_fails {dynIndex child : Ptr} (hb : a.mem.Bounded) {j : Nat}
    (hj : j < nodesNeeded fuel a.mem dynIndex) (hok : ok (a.mem.fresh + j) = false)
    {r : DynamicArray × Option Ptr × Nat}
    (hr : insertBufInIndex ok fuel a dynIndex child = some r) :
    r.2.2 ≠ 0 := by
  induction fuel generalizing a dynIndex child j r with
  | zero => simp [nodesNeeded] at hj
  | succ fuel ih =>
    cases hn : index? a.mem dynIndex with
    | none => simp [nodesNeeded, hn] at hj
    | some n =>
      simp only [nodesNeeded, hn] at hj
      by_cases hfull : n.nextIndexToInsert = indexSize
      · rw [if_pos hfull] at hj
        simp only [insertBufInIndex, hn, hfull, bind_eq_bind, bind_some, if_true] at hr
        cases h₀ : ok a.mem.fresh with
        | false =>
          simp only [Heap.calloc, h₀] at hr
          cases hr
          exact (by decide : errorMemAlloc ≠ 0)
        | true =>
          cases hpar : n.parentDynIndex with
          | none =>
            rw [hpar] at hj hr
            have hj1 : j = 1 := by
              rcases j with - | j
              · rw [Nat.add_zero, h₀] at hok
                cases hok
              · simp only at hj
                omega
            subst hj1
            simp only [Heap.calloc, h₀, if_true, hok] at hr
            cases hr
            exact (by decide : errorMemAlloc ≠ 0)
          | some parent =>
            rw [hpar] at hj hr
            obtain ⟨j, rfl⟩ : ∃ i, j = i + 1 := by
              rcases j with - | j
              · rw [Nat.add_zero, h₀] at hok
                cases hok
              · exact ⟨j, rfl⟩
            simp only [Heap.calloc, h₀, if_true] at hr
            obtain ⟨r₁, hrec, hr⟩ := bind_eq_some_iff.mp hr
            have hj' : j < nodesNeeded fuel (withNode a.mem) parent := by
              rw [nodesNeeded_withNode hb]
              exact Nat.lt_of_succ_lt_succ hj
            have hok' : ok ((withNode a.mem).fresh + j) = false := by
              rw [show (withNode a.mem).fresh + j = a.mem.fresh + (j + 1) from Nat.succ_add_eq_add_succ _ _]
              exact hok
            have hne := ih (a := { a with mem := withNode a.mem }) (hb.calloc _) hj' hok' hrec
            rw [if_pos hne] at hr
            cases hr
            exact hne
      · rw [if_neg hfull] at hj
        exact absurd hj (Nat.not_lt_zero j)

/-! ## The size of the array -/

/-- The index operations leave the description of the data alone. -/
def SameData (a a' : DynamicArray) : Prop :=
  a'.sdArray = a.sdArray ∧ a'.totalSizeInBytes = a.totalSizeInBytes

theorem SameData.trans {a₁ a₂ : DynamicArray} (h₁ : SameData a a₁) (h₂ : SameData a₁ a₂) :
    SameData a a₂ :=
  ⟨h₂.1.trans h₁.1, h₂.2.trans h₁.2⟩

theorem setParent_same {q : Option Ptr} (h : setParent a p q = some a') : SameData a a' := by
  obtain ⟨n, -, h⟩ := bind_eq_some_iff.mp h
  cases h
  exact ⟨rfl, rfl⟩

theorem putChild_same {i : Nat} (h : putChild a p i c = some a') : SameData a a' := by
  obtain ⟨n, -, h⟩ := bind_eq_some_iff.mp h
  split_ifs at h
  cases h
  exact ⟨rfl, rfl⟩

theorem insertDynIndexList_same (h : insertDynIndexList a p = some a') : SameData a a' := by
  obtain ⟨prev, -, h⟩ := bind_eq_some_iff.mp h
  obtain ⟨n, -, h⟩ := bind_eq_some_iff.mp h
  cases h
  exact ⟨rfl, rfl⟩

theorem finishNewIndex_same {d new : Ptr} {q : Option Ptr}
    (h : finishNewIndex a d new q c = some a') : SameData a a' := by
  obtain ⟨a₁, h₁, h⟩ := bind_eq_some_iff.mp h
  obtain ⟨n, -, h⟩ := bind_eq_some_iff.mp h
  obtain ⟨a₂, h₂, h⟩ := bind_eq_some_iff.mp h
  exact (insertDynIndexList_same h₁).trans ((setParent_same h₂).trans (putChild_same h))

theorem finishNewTop_same {d new top : Ptr} (h : finishNewTop a d new top c = some a') :
    SameData a a' := by
  obtain ⟨a₁, h₁, h⟩ := bind_eq_some_iff.mp h
  obtain ⟨a₂, h₂, h⟩ := bind_eq_some_iff.mp h
  obtain ⟨a₃, h₃, h⟩ := bind_eq_some_iff.mp h
  obtain ⟨a₄, h₄, h⟩ := bind_eq_some_iff.mp h
  obtain ⟨a₅, h₅, h⟩ := bind_eq_some_iff.mp h
  obtain ⟨a₆, h₆, h⟩ := bind_eq_some_iff.mp h
  have hlinked : SameData a a₄ := (insertDynIndexList_same h₁).trans
    ((insertDynIndexList_same h₂).trans ((setParent_same h₃).trans (setParent_same h₄)))
  have hfilled : SameData a₄ a₆ := (putChild_same h₅).trans (putChild_same h₆)
  have hput := putChild_same h
  have hlast : SameData a₆ a' := ⟨hput.1, hput.2⟩
  exact hlinked.trans (hfilled.trans hlast)

theorem insertBufInIndex_same {d : Ptr} {r : DynamicArray × Option Ptr × Nat}
    (h : insertBufInIndex ok fuel a d c = some r) : SameData a r.1 := by
  induction fuel generalizing a d c r with
  | zero => cases h
  | succ fuel ih =>
    obtain ⟨n, -, h⟩ := bind_eq_some_iff.mp h
    split_ifs at h with hfull
    · split at h
      · cases h
        exact ⟨rfl, rfl⟩
      · split at h
        · obtain ⟨r₁, hrec, h⟩ := bind_eq_some_iff.mp h
          have hsame := ih hrec
          dsimp only at h
          split_ifs at h with hret
          · cases h
            exact hsame
          · obtain ⟨a₁, hfin, h⟩ := bind_eq_some_iff.mp h
            cases h
            exact hsame.trans (finishNewIndex_same hfin)
        · split at h
          · cases h
            exact ⟨rfl, rfl⟩
          · obtain ⟨a₁, hfin, h⟩ := bind_eq_some_iff.mp h
            cases h
            have htop := finishNewTop_same hfin
            exact ⟨htop.1, htop.2⟩
    · obtain ⟨a₁, hput, h⟩ := bind_eq_some_iff.mp h
      cases h
      exact putChild_same hput

/-- The error path gives the size back as it finds it, and `bytes_used` as it was. -/
theorem undoInsertOrdered_spec {old : DynamicArray} (h : undoInsertOrdered old a = some a') :
    a'.totalSizeInBytes = a.totalSizeInBytes ∧ a'.sdArray.bytesUsed = old.sdArray.bytesUsed := by
  obtain ⟨_, -, h⟩ := bind_eq_some_iff.mp h
  obtain ⟨_, -, h⟩ := bind_eq_some_iff.mp h
  obtain ⟨_, -, h⟩ := bind_eq_some_iff.mp h
  obtain ⟨_, -, h⟩ := bind_eq_some_iff.mp h
  obtain ⟨_, -, h⟩ := bind_eq_some_iff.mp h
  obtain ⟨_, -, h⟩ := bind_eq_some_iff.mp h
  obtain ⟨_, -, h⟩ := bind_eq_some_iff.mp h
  obtain ⟨_, -, h⟩ := bind_eq_some_iff.mp h
  obtain ⟨_, -, h⟩ := bind_eq_some_iff.mp h
  obtain ⟨_, -, h⟩ := bind_eq_some_iff.mp h
  cases h
  exact ⟨rfl, rfl⟩

/-! ## Inserts of at most one new buffer -/

/-- At most one buffer is allocated, and that succeeds. -/
theorem copyLoop_of_ok {n : Nat} {curr : Ptr} {start : Nat} (hlen : data.length ≤ bufSize)
    (hok : data.length ≤ bufSize - start ∨ ok a.mem.fresh) :
    copyLoop ok (n + 2) a curr start data = copyLoop (fun _ => true) (n + 2) a curr start data := by
  cases hb : buf? a.mem curr with
  | none => simp [copyLoop, hb]
  | some b =>
    by_cases hmore : data.length > bufSize - start
    · have h₀ : ok a.mem.fresh = true := hok.resolve_left (by omega)
      have hrest : ¬ (data.drop (bufSize - start)).length > bufSize - 0 := by
        rw [length_drop]
        omega
      simp only [copyLoop, hb, bind_eq_bind, bind_some, if_pos hmore, Heap.calloc,
        Heap.set_fresh, h₀, if_true, if_neg hrest]
    · simp only [copyLoop, hb, bind_eq_bind, bind_some, if_neg hmore]

theorem insertSimple_of_ok (hlen : data.length ≤ bufSize)
    (hok : data.length ≤ bufSize - a.sdArray.bytesUsed ∨ ok a.mem.fresh) :
    insertSimple ok a data = insertSimple (fun _ => true) a data := by
  cases hlast : a.sdArray.lastDynBuf with
  | none => simp [insertSimple, hlast]
  | some curr =>
    simp only [insertSimple, hlast, bind_eq_bind, bind_some, copyLoop_of_ok hlen hok]

/-- The first buffer that is needed cannot be allocated, and the last one is
full: nothing changes. -/
theorem insertSimple_bufferFails {bufs : List (Ptr × List Byte)} (h : SimpleInv a bufs bytes)
    (hfull : a.sdArray.bytesUsed = bufSize) (hok : ok a.mem.fresh = false) (hdata : data ≠ []) :
    ∃ a', insertSimple ok a data = some (a', errorMemAlloc) ∧ SimpleInv a' bufs bytes ∧
      a'.ordArray = a.ordArray ∧ (∀ q, index? a'.mem q = index? a.mem q) ∧
      a'.mem.fresh = a.mem.fresh + 1 := by
  obtain ⟨pre, ⟨curr, c⟩, rfl⟩ : ∃ pre x, bufs = pre ++ [x] :=
    ⟨_, _, (dropLast_append_getLast h.nonempty).symm⟩
  have hlast : a.sdArray.lastDynBuf = some curr := by
    rw [h.last]
    simp
  obtain ⟨-, hcurr, -, -⟩ := bufSeg_append.mp h.seg
  have hmore : data.length > bufSize - bufSize := by
    rw [Nat.sub_self]
    exact length_pos_of_ne_nil hdata
  -- every cell is written back as it was
  have hcell := buf?_eq_some.mp hcurr
  have hset : ∀ m : Mem, m.cells curr = a.mem.cells curr →
      m.set curr (.buf ⟨none, c⟩) = m := by
    intro m hm
    rw [hcell] at hm
    rw [Heap.set, Function.update_eq_self_iff.mpr hm.symm]
  have hover : overwrite c bufSize (data.take (bufSize - bufSize)) = c := by simp
  have hrun : insertSimple ok a data =
      some ({ a with mem := { a.mem with fresh := a.mem.fresh + 1 } }, errorMemAlloc) := by
    simp only [insertSimple, hlast, bind_eq_bind, bind_some, copyLoop, hcurr, headPtr,
      hfull, if_pos hmore, hover, Heap.calloc, Heap.set_fresh, hok, hset a.mem rfl]
    have hbuf : buf? { cells := a.mem.cells, fresh := a.mem.fresh + 1 } curr = some ⟨none, c⟩ := hcurr
    simp only [Bool.false_eq_true, if_false, hbuf, bind_some, releaseDynBuf]
    rw [hset ⟨a.mem.cells, a.mem.fresh + 1⟩ rfl, ← hlast, ← hfull]
  refine ⟨_, hrun, h.congr (fun _ => rfl) ?_ rfl rfl, rfl, fun _ => rfl, rfl⟩
  exact fun p d hp => Nat.lt_succ_of_lt (h.bounded p d hp)

/-- The index nodes that the next new buffer needs. -/
def indexNodesNeeded (a : DynamicArray) : Nat :=
  match a.ordArray.lastDynIndex with
  | none => 0
  | some p => nodesNeeded (a.ordArray.indexLevels + 1) a.mem p

/-- The last buffer is full and the buffer for the new data is not available:
the array stays as it was. -/
theorem insertOrdered_bufferFails (h : OrdInv a bytes) (hfull : a.sdArray.bytesUsed = bufSize)
    (hok : ok a.mem.fresh = false) (hdata : data ≠ []) :
    ∃ a', insertOrdered ok a data = some (a', errorMemAlloc) ∧ OrdInv a' bytes := by
  obtain ⟨m, bufs, seq, levels, top, place, -, lastBuf, hwalk, hs, hix, -, hfr, -, hlast⟩ := h.saved
  obtain ⟨a', hrun, hs', hord, hidx, hfresh⟩ :=
    insertSimple_bufferFails hs hfull (by rw [← hok]; exact congrArg ok hfr) hdata
  refine ⟨a', ?_, bufs, seq, levels, top, place, hs', ?_⟩
  · simp only [insertOrdered, hwalk, hlast, bind_eq_bind, bind_some, hrun]
    rfl
  · exact hix.of_simple hidx (hfresh ▸ Nat.le_succ _) hord

theorem one_lt_length_of_split {bufs : List (Ptr × List Byte)} {pre news : List Ptr}
    (h : bufs.map Prod.fst = pre ++ p :: news) (hne : news ≠ []) : 1 < bufs.length := by
  have hl := congrArg List.length h
  have hpos := length_pos_of_ne_nil hne
  rw [length_map, length_append, length_cons] at hl
  omega

section

variable (h : OrdInv a bytes)

include h

theorem OrdInv.used_le : a.sdArray.bytesUsed ≤ bufSize := by
  obtain ⟨bufs, -, -, -, -, hs, -⟩ := h
  exact hs.used_le

theorem OrdInv.total : a.totalSizeInBytes = bytes.length := by
  obtain ⟨bufs, -, -, -, -, hs, -⟩ := h
  exact hs.total

/-- Without a new buffer nothing is allocated. -/
theorem insertOrdered_noBuf (hlen : data.length ≤ bufSize)
    (hroom : data.length ≤ bufSize - a.sdArray.bytesUsed) :
    insertOrdered ok a data = insertOrdered (fun _ => true) a data := by
  obtain ⟨m, a₁, bufs₁, seq, levels, top, place, pre, lastBuf, news, hwalk, hlast, hins, hs₁, hptrs, -, -,
    -, -, hsize, -⟩ := h.inserted data
  have hsimple : insertSimple ok { a with mem := m } data = some (a₁, 0) := by
    rw [← hins]
    exact insertSimple_of_ok hlen (Or.inl hroom)
  have hnews : news = [] := by
    by_contra hne
    have hpos₁ := hs₁.used_pos (one_lt_length_of_split hptrs hne)
    have hpos := length_pos_of_ne_nil hne
    have hu := h.used_le
    simp only [bufSize] at hroom hsize hu
    omega
  have hlast₁ : a₁.sdArray.lastDynBuf = some lastBuf := by
    rw [hs₁.last, ← getLast?_map, hptrs, hnews]
    simp
  simp only [insertOrdered, hwalk, hlast, bind_eq_bind, bind_some, hsimple, hins,
    indexLoop, hlast₁, if_true]

/-- One new buffer: the state in which it is entered in the index does not
depend on later allocations. -/
theorem insertOrdered_oneBuf (hlen : data.length ≤ bufSize)
    (hfull : bufSize - a.sdArray.bytesUsed < data.length) :
    ∃ (a₁ : DynamicArray) (last next : Ptr), a₁.mem.Bounded ∧
      a₁.totalSizeInBytes = a.totalSizeInBytes + data.length ∧
      a₁.mem.fresh = a.mem.fresh + 1 ∧
      indexNodesNeeded a = nodesNeeded (a₁.ordArray.indexLevels + 1) a₁.mem last ∧
      ∀ ok : Nat → Bool, ok a.mem.fresh → insertOrdered ok a data =
        (insertBufInIndex ok (a₁.ordArray.indexLevels + 1) a₁ last next).bind fun r =>
          if r.2.2 ≠ 0 then (undoInsertOrdered a r.1).bind fun a₂ => some (a₂, r.2.2)
          else some (r.1, 0) := by
  obtain ⟨m, a₁, bufs₁, seq, levels, top, place, pre, lastBuf, news, hwalk, hlast, hins, hs₁, hptrs, hix₁,
    hord, hfr, hfresh, hsize, hnd⟩ := h.inserted data
  have hused₁ := hs₁.used_le
  obtain ⟨next, hnext⟩ : ∃ q, news = [q] := by
    rw [← length_eq_one_iff]
    have hpos₁ : news ≠ [] → 0 < a₁.sdArray.bytesUsed := fun hne =>
      hs₁.used_pos (one_lt_length_of_split hptrs hne)
    rcases news with - | ⟨x, xs⟩
    · simp only [bufSize, length_nil] at *
      omega
    · have hp := hpos₁ (by simp)
      have hu := h.used_le
      simp only [bufSize, length_cons] at *
      omega
  subst hnext
  obtain ⟨leaf, hleaf, -⟩ := hix₁.last_leaf
  have hlast₁ : a₁.ordArray.lastDynIndex = some leaf := hix₁.lastDynIndex.trans hleaf
  have hne : a₁.sdArray.lastDynBuf = some next := by
    rw [hs₁.last, ← getLast?_map, hptrs]
    simp
  obtain ⟨b, hb, hbnext⟩ := hs₁.seg.next_of_split hptrs
  have hnd₁ := hs₁.nodup
  rw [hptrs] at hnd₁
  have hdiff : next ≠ lastBuf := by
    rintro rfl
    exact (nodup_cons.mp (nodup_append.mp hnd₁).2.1).1 mem_cons_self
  refine ⟨a₁, leaf, next, hs₁.bounded, ?_, hfresh, ?_, fun ok hok => ?_⟩
  · rw [hs₁.total, length_append, h.total]
  · rw [hord] at hlast₁
    rw [indexNodesNeeded, hlast₁, hord]
    exact (nodesNeeded_congr hnd _ _).symm
  · have hsimple : insertSimple ok { a with mem := m } data = some (a₁, 0) := by
      rw [← hins]
      refine insertSimple_of_ok hlen (Or.inr ?_)
      rw [← hok]
      exact congrArg ok hfr
    have hassert : ¬ data.length + (bufSize - 1) < 0 + bufSize := by omega
    simp only [insertOrdered, hwalk, hlast, bind_eq_bind, bind_some, hsimple, indexLoop,
      hne, Option.some.injEq, hdiff, if_false, hb, hbnext, if_neg hassert, hlast₁, ne_eq,
      not_true_eq_false]
    refine bind_congr fun r hr => ?_
    have hlast₂ : r.1.sdArray.lastDynBuf = some next := by
      rw [(insertBufInIndex_same hr).1]
      exact hne
    simp only [hlast₂, if_true]

/-- All index nodes that are needed can be allocated. -/
theorem insertOrdered_of_ok (hlen : data.length ≤ bufSize)
    (hbuf : data.length ≤ bufSize - a.sdArray.bytesUsed ∨ ok a.mem.fresh)
    (hidx : bufSize - a.sdArray.bytesUsed < data.length →
      ∀ j, j < indexNodesNeeded a → ok (a.mem.fresh + 1 + j)) :
    insertOrdered ok a data = insertOrdered (fun _ => true) a data := by
  by_cases hfull : bufSize - a.sdArray.bytesUsed < data.length
  · obtain ⟨a₁, last, next, hb, -, hfresh, hneed, heq⟩ := insertOrdered_oneBuf h hlen hfull
    have hok : ok a.mem.fresh = true := hbuf.resolve_left (by omega)
    rw [heq ok hok, heq (fun _ => true) rfl, insertBufInIndex_of_ok hb]
    intro j hj
    rw [hfresh]
    exact hidx hfull j (hneed ▸ hj)
  · exact insertOrdered_noBuf h hlen (by omega)

/-- An index node cannot be allocated: the insert fails, but the size of the
array has grown. -/
theorem insertOrdered_indexFails (hlen : data.length ≤ bufSize)
    (hfull : bufSize - a.sdArray.bytesUsed < data.length) (hok : ok a.mem.fresh) {j : Nat}
    (hj : j < indexNodesNeeded a) (hfail : ok (a.mem.fresh + 1 + j) = false)
    {r : DynamicArray × Nat}
    (hr : insertOrdered ok a data = some r) :
    r.2 ≠ 0 ∧ r.1.totalSizeInBytes = a.totalSizeInBytes + data.length := by
  obtain ⟨a₁, last, next, hb, htotal, hfresh, hneed, heq⟩ := insertOrdered_oneBuf h hlen hfull
  rw [heq ok hok] at hr
  obtain ⟨r₁, hrun, hr⟩ := bind_eq_some_iff.mp hr
  have hne := insertBufInIndex_fails hb (hneed ▸ hj) (by rw [hfresh]; exact hfail) hrun
  rw [if_pos hne] at hr
  obtain ⟨a₂, hundo, hr⟩ := bind_eq_some_iff.mp hr
  cases hr
  refine ⟨hne, ?_⟩
  rw [(undoInsertOrdered_spec hundo).1, (insertBufInIndex_same hrun).2, htotal]

end

end IClaustron.DynArray
