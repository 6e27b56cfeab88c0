import IClaustron.DynArray.AlikeCalls

/-!
# DynArray.InsertOutcome — which allocation decides what an insert does

An insert first asks for its buffers, and when it has them all for the index nodes. It succeeds
as if memory never ran out, or the buffers do not suffice, or an index node is missing.

* `insertSimple_outcome`, `insertOrdered_outcome` — the cases.
* `insertSimple_failed`, `insertOrdered_failed` — a missing buffer leaves an array that is
  alike: what has been copied into the last buffer lies behind the data.
-/

namespace IClaustron.DynArray

open Lib List Option Heap

variable {ok : Nat → Bool} {a a' : DynamicArray}

/-- The number of buffers that an insert of `size` bytes asks for, when `used` bytes of the last
buffer are used. -/
def buffersNeeded (used size : Nat) : Nat := (used + size - 1) / bufSize

variable {fuel size start : Nat} {c curr d p : Ptr} {data : List Byte} {r : DynamicArray × Nat}
  {m : Mem} {G : Ptr → Nat → Prop}

theorem buffersNeeded_more (hStart : start ≤ bufSize) (hMore : size > bufSize - start) :
    buffersNeeded start size = buffersNeeded 0 (size - (bufSize - start)) + 1 := by
  unfold buffersNeeded
  simp only [bufSize] at *
  omega

theorem buffersNeeded_fits (hFits : ¬ size > bufSize - start) (hStart : start ≤ bufSize) :
    buffersNeeded start size = 0 := by
  unfold buffersNeeded
  simp only [bufSize] at *
  omega

/-! ## The cases -/

/-- All buffers are there, or one of them is missing. -/
theorem copyLoop_outcome {r : DynamicArray × Option Nat} (hStart : start ≤ bufSize)
    (h : copyLoop ok fuel a curr start data = some r) :
    ((∃ used, r.2 = some used) ∧ copyLoop (fun _ => true) fuel a curr start data = some r ∧
      (∀ j < buffersNeeded start data.length, ok (a.mem.fresh + j) = true) ∧
      r.1.mem.fresh = a.mem.fresh + buffersNeeded start data.length) ∨
    (r.2 = none ∧ ∃ j < buffersNeeded start data.length, ok (a.mem.fresh + j) = false) := by
  induction fuel generalizing a curr start data with
  | zero => cases h
  | succ fuel ih =>
    rcases bind_eq_some_iff.mp h with ⟨b, hb, h⟩
    have hRun : copyLoop (fun _ => true) (fuel + 1) a curr start data =
        (buf? a.mem curr >>= fun b => _) := rfl
    rw [hRun, hb]
    dsimp only [bind_eq_bind, bind_some] at h ⊢
    by_cases hMore : data.length > bufSize - start
    · rw [if_pos hMore] at h
      rw [if_pos hMore, buffersNeeded_more hStart hMore]
      unfold calloc at h ⊢
      cases hok : ok a.mem.fresh with
      | false =>
        rw [set_fresh, hok] at h
        cases h
        exact .inr ⟨rfl, 0, Nat.succ_pos _, hok⟩
      | true =>
        rw [set_fresh, hok] at h
        have hRest := ih (Nat.zero_le _) h
        rw [length_drop] at hRest
        have hNext : ∀ j, a.mem.fresh + (j + 1) = a.mem.fresh + 1 + j := fun j => by omega
        rcases hRest with ⟨hUsed, hAll, hOk, hFresh⟩ | ⟨hNone, j, hj, hFail⟩
        · refine .inl ⟨hUsed, hAll, fun j hj => ?_, hFresh.trans (hNext _).symm⟩
          cases j with
          | zero => exact hok
          | succ j =>
            rw [hNext]
            exact hOk j (Nat.lt_of_succ_lt_succ hj)
        · refine .inr ⟨hNone, j + 1, Nat.succ_lt_succ hj, ?_⟩
          rw [hNext]
          exact hFail
    · rw [if_neg hMore] at h
      rw [if_neg hMore, buffersNeeded_fits hMore hStart]
      cases h
      exact .inl ⟨⟨_, rfl⟩, rfl, nofun, rfl⟩

theorem insertSimple_outcome (hUsed : a.sdArray.bytesUsed ≤ bufSize)
    (h : insertSimple ok a data = some r) :
    (r.2 = 0 ∧ insertSimple (fun _ => true) a data = some r ∧
      (∀ j < buffersNeeded a.sdArray.bytesUsed data.length, ok (a.mem.fresh + j) = true) ∧
      r.1.mem.fresh = a.mem.fresh + buffersNeeded a.sdArray.bytesUsed data.length) ∨
    (r.2 = errorMemAlloc ∧
      ∃ j < buffersNeeded a.sdArray.bytesUsed data.length, ok (a.mem.fresh + j) = false) := by
  rcases bind_eq_some_iff.mp h with ⟨curr, hCurr, h⟩
  rcases bind_eq_some_iff.mp h with ⟨⟨a₁, used⟩, hLoop, h⟩
  rcases copyLoop_outcome hUsed hLoop with ⟨⟨n, hn⟩, hAll, hOk, hFresh⟩ | ⟨hNone, hFail⟩
  · have hn : used = some n := hn
    subst hn
    cases h
    refine .inl ⟨rfl, ?_, hOk, hFresh⟩
    rw [insertSimple, hCurr, bind_eq_bind, bind_some, hAll]
    rfl
  · have hNone : used = none := hNone
    subst hNone
    rcases bind_eq_some_iff.mp h with ⟨b, -, h⟩
    rcases bind_eq_some_iff.mp h with ⟨m, -, h⟩
    cases h
    exact .inr ⟨rfl, hFail⟩

/-! ## Addresses -/

theorem insertDynIndexList_fresh (h : insertDynIndexList a p = some a') :
    a'.mem.fresh = a.mem.fresh := by
  rcases bind_eq_some_iff.mp h with ⟨prev, -, h⟩
  rcases bind_eq_some_iff.mp h with ⟨n, -, h⟩
  cases h
  rfl

theorem setParent_fresh {q : Option Ptr} (h : setParent a p q = some a') :
    a'.mem.fresh = a.mem.fresh := by
  rcases bind_eq_some_iff.mp h with ⟨n, -, h⟩
  cases h
  rfl

theorem putChild_fresh {i : Nat} (h : putChild a p i c = some a') : a'.mem.fresh = a.mem.fresh := by
  rcases bind_eq_some_iff.mp h with ⟨n, -, h⟩
  split_ifs at h
  cases h
  rfl

theorem finishNewIndex_fresh {new : Ptr} {q : Option Ptr} (h : finishNewIndex a d new q c = some a')
    : a'.mem.fresh = a.mem.fresh := by
  rcases bind_eq_some_iff.mp h with ⟨a₁, h₁, h⟩
  rcases bind_eq_some_iff.mp h with ⟨n, -, h⟩
  rcases bind_eq_some_iff.mp h with ⟨a₂, h₂, h⟩
  rw [putChild_fresh h, setParent_fresh h₂, insertDynIndexList_fresh h₁]

theorem finishNewTop_fresh {new top : Ptr} (h : finishNewTop a d new top c = some a') :
    a'.mem.fresh = a.mem.fresh := by
  rcases bind_eq_some_iff.mp h with ⟨a₁, h₁, h⟩
  rcases bind_eq_some_iff.mp h with ⟨a₂, h₂, h⟩
  rcases bind_eq_some_iff.mp h with ⟨a₃, h₃, h⟩
  rcases bind_eq_some_iff.mp h with ⟨a₄, h₄, h⟩
  rcases bind_eq_some_iff.mp h with ⟨a₅, h₅, h⟩
  rcases bind_eq_some_iff.mp h with ⟨a₆, h₆, h⟩
  have hPut := putChild_fresh h
  have hLast : a'.mem.fresh = a₆.mem.fresh := hPut
  rw [hLast, putChild_fresh h₆, putChild_fresh h₅, setParent_fresh h₄, setParent_fresh h₃,
    insertDynIndexList_fresh h₂, insertDynIndexList_fresh h₁]

/-- Addresses are handed out in increasing order. -/
theorem insertBufInIndex_fresh {r : DynamicArray × Option Ptr × Nat}
    (h : insertBufInIndex ok fuel a d c = some r) : a.mem.fresh ≤ r.1.mem.fresh := by
  induction fuel generalizing a d c r with
  | zero => cases h
  | succ fuel ih =>
    rcases bind_eq_some_iff.mp h with ⟨n, -, h⟩
    have hFresh := calloc_fresh ok a.mem (.index zeroIndex)
    split_ifs at h with hFull
    · cases hNew : a.mem.calloc ok (.index zeroIndex) with
      | mk mem new =>
        rw [hNew] at h hFresh
        have hMem : a.mem.fresh ≤ mem.fresh := hFresh ▸ Nat.le_succ _
        cases new with
        | none =>
          cases h
          exact hMem
        | some new =>
          dsimp only at h
          cases hPar : n.parentDynIndex with
          | some parent =>
            rw [hPar] at h
            rcases bind_eq_some_iff.mp h with ⟨⟨a₁, newParent, ret⟩, hRec, h⟩
            have hUp : a.mem.fresh ≤ a₁.mem.fresh := hMem.trans (ih hRec)
            dsimp only at h
            split_ifs at h with hRet
            · cases h
              exact hUp
            · rcases bind_eq_some_iff.mp h with ⟨a₂, hFin, h⟩
              cases h
              exact hUp.trans (finishNewIndex_fresh hFin).ge
          | none =>
            rw [hPar] at h
            have hFreshTop := calloc_fresh ok mem (.index zeroIndex)
            cases hTop : mem.calloc ok (.index zeroIndex) with
            | mk memTop top =>
              rw [hTop] at hFreshTop
              have hMemTop : a.mem.fresh ≤ memTop.fresh := hMem.trans (hFreshTop ▸ Nat.le_succ _)
              dsimp only at h
              rw [hTop] at h
              cases top with
              | none =>
                cases h
                exact hMemTop
              | some top =>
                rcases bind_eq_some_iff.mp h with ⟨a₂, hFin, h⟩
                cases h
                exact hMemTop.trans (finishNewTop_fresh hFin).ge
    · rcases bind_eq_some_iff.mp h with ⟨a₁, hPut, h⟩
      cases h
      exact (putChild_fresh hPut).ge

/-! ## Index nodes -/

/-- All index nodes are there, or one of them is missing. -/
theorem insertBufInIndex_outcome {r : DynamicArray × Option Ptr × Nat}
    (h : insertBufInIndex ok fuel a d c = some r) :
    (r.2.2 = 0 ∧ insertBufInIndex (fun _ => true) fuel a d c = some r) ∨
    (r.2.2 ≠ 0 ∧ ∃ p, a.mem.fresh ≤ p ∧ ok p = false) := by
  induction fuel generalizing a d c r with
  | zero => cases h
  | succ fuel ih =>
    rcases bind_eq_some_iff.mp h with ⟨n, hn, h⟩
    have hRun : insertBufInIndex (fun _ => true) (fuel + 1) a d c =
        (index? a.mem d >>= fun n => _) := rfl
    rw [hRun, hn]
    dsimp only [bind_eq_bind, bind_some] at h ⊢
    have hCode : errorMemAlloc ≠ 0 := by decide
    by_cases hFull : n.nextIndexToInsert = indexSize
    · rw [if_pos hFull] at h ⊢
      cases hok : ok a.mem.fresh with
      | false =>
        rw [calloc_of_not hok] at h
        cases h
        exact .inr ⟨hCode, _, le_rfl, hok⟩
      | true =>
        rw [calloc_of_ok hok, calloc_ok fun _ => rfl] at h
        rw [calloc_ok fun _ => rfl]
        dsimp only at h ⊢
        cases hPar : n.parentDynIndex with
        | some parent =>
          rw [hPar] at h
          rcases bind_eq_some_iff.mp h with ⟨⟨a₁, newParent, ret⟩, hRec, h⟩
          rcases ih hRec with ⟨hRet, hAll⟩ | ⟨hRet, p, hp, hFail⟩
          · have hRet : ret = 0 := hRet
            subst hRet
            refine .inl ⟨?_, ?_⟩
            · rcases bind_eq_some_iff.mp h with ⟨a₂, -, h⟩
              cases h
              rfl
            · dsimp only
              rw [hAll]
              exact h
          · dsimp only at h hRet
            rw [if_pos hRet] at h
            cases h
            exact .inr ⟨hRet, p, Nat.le_of_succ_le hp, hFail⟩
        | none =>
          rw [hPar] at h
          dsimp only at h ⊢
          cases hokTop : ok (a.mem.fresh + 1) with
          | false =>
            rw [calloc_of_not hokTop] at h
            cases h
            exact .inr ⟨hCode, _, Nat.le_succ _, hokTop⟩
          | true =>
            rw [calloc_of_ok hokTop] at h
            refine .inl ⟨?_, h⟩
            rw [calloc_ok fun _ => rfl] at h
            rcases bind_eq_some_iff.mp h with ⟨a₂, -, h⟩
            cases h
            rfl
    · rw [if_neg hFull] at h ⊢
      refine .inl ⟨?_, h⟩
      rcases bind_eq_some_iff.mp h with ⟨a₁, -, h⟩
      cases h
      rfl

theorem indexLoop_outcome {old : DynamicArray} {indexed : Nat}
    (h : indexLoop ok old size fuel a p indexed = some r) :
    (r.2 = 0 ∧ indexLoop (fun _ => true) old size fuel a p indexed = some r) ∨
    (r.2 ≠ 0 ∧ (∃ q, a.mem.fresh ≤ q ∧ ok q = false) ∧ a.sdArray.lastDynBuf ≠ some p ∧
      r.1.totalSizeInBytes = a.totalSizeInBytes) := by
  induction fuel generalizing a p indexed with
  | zero => cases h
  | succ fuel ih =>
    unfold indexLoop at h ⊢
    split_ifs at h ⊢ with hEnd
    · cases h
      exact .inl ⟨rfl, rfl⟩
    · rcases bind_eq_some_iff.mp h with ⟨b, hb, h⟩
      rcases bind_eq_some_iff.mp h with ⟨next, hNext, h⟩
      dsimp only at h
      split_ifs at h with hAssert
      rcases bind_eq_some_iff.mp h with ⟨leaf, hLeaf, h⟩
      rcases bind_eq_some_iff.mp h with ⟨⟨a₁, x, ret⟩, hIns, h⟩
      have hFresh : a.mem.fresh ≤ a₁.mem.fresh := insertBufInIndex_fresh hIns
      have hSame : SameData a a₁ := insertBufInIndex_same hIns
      rcases insertBufInIndex_outcome hIns with ⟨hRet, hAll⟩ | ⟨hRet, hFail⟩
      · have hRet : ret = 0 := hRet
        subst hRet
        dsimp only at h
        rw [if_neg (not_not_intro rfl)] at h
        rcases ih h with ⟨hCode, hRest⟩ | ⟨hCode, ⟨q, hq, hFail⟩, -, hTotal⟩
        · refine .inl ⟨hCode, ?_⟩
          simp only [hb, hNext, hLeaf, hAll, bind_eq_bind, bind_some, if_neg hAssert,
            ne_eq, not_true_eq_false, if_false]
          exact hRest
        · exact .inr ⟨hCode, ⟨q, hFresh.trans hq, hFail⟩, hEnd, hTotal.trans hSame.2⟩
      · dsimp only at h hRet
        rw [if_pos hRet] at h
        rcases bind_eq_some_iff.mp h with ⟨a₂, hUndo, h⟩
        cases h
        exact .inr ⟨hRet, hFail, hEnd, (undoInsertOrdered_spec hUndo).1.trans hSame.2⟩

theorem copyLoop_total {r : DynamicArray × Option Nat}
    (h : copyLoop ok fuel a curr start data = some r)
    : r.1.totalSizeInBytes = a.totalSizeInBytes := by
  induction fuel generalizing a curr start data with
  | zero => cases h
  | succ fuel ih =>
    rcases bind_eq_some_iff.mp h with ⟨b, -, h⟩
    dsimp only at h
    split_ifs at h with hMore
    · split at h
      · cases h
        rfl
      · have hRest := ih h
        exact hRest
    · cases h
      rfl

/-- What an insert adds to the size of the array, and where it ends when there is no data. -/
theorem insertSimple_total (h : insertSimple ok a data = some r) (hCode : r.2 = 0) :
    r.1.totalSizeInBytes = a.totalSizeInBytes + data.length ∧
      (data = [] → r.1.sdArray.lastDynBuf = a.sdArray.lastDynBuf) := by
  rcases bind_eq_some_iff.mp h with ⟨curr, hCurr, h⟩
  rcases bind_eq_some_iff.mp h with ⟨⟨a₁, used⟩, hLoop, h⟩
  have hTotal : a₁.totalSizeInBytes = a.totalSizeInBytes := copyLoop_total hLoop
  cases used with
  | none =>
    rcases bind_eq_some_iff.mp h with ⟨b, -, h⟩
    rcases bind_eq_some_iff.mp h with ⟨m, -, h⟩
    cases h
    cases hCode
  | some used =>
    cases h
    refine ⟨congrArg (· + data.length) hTotal, ?_⟩
    rintro rfl
    rcases bind_eq_some_iff.mp hLoop with ⟨b, -, hLoop⟩
    rw [length_nil, if_neg (Nat.not_lt_zero _)] at hLoop
    cases hLoop
    rfl

/-- An insert succeeds, or a buffer is missing, or an index node is missing and the size has
grown. -/
def InsertOutcome (insert : (Nat → Bool) → DynamicArray → List Byte → Option (DynamicArray × Nat))
    (ok : Nat → Bool) (a : DynamicArray) (data : List Byte) (r : DynamicArray × Nat) : Prop :=
  let needed := buffersNeeded a.sdArray.bytesUsed data.length
  (r.2 = 0 ∧ insert (fun _ => true) a data = some r ∧ ∀ j < needed, ok (a.mem.fresh + j) = true) ∨
    (r.2 ≠ 0 ∧ ∃ j < needed, ok (a.mem.fresh + j) = false) ∨
    (r.2 ≠ 0 ∧ (∀ j < needed, ok (a.mem.fresh + j) = true) ∧
      (∃ j, needed ≤ j ∧ ok (a.mem.fresh + j) = false) ∧
      data ≠ [] ∧ r.1.totalSizeInBytes = a.totalSizeInBytes + data.length)

theorem insertOrdered_outcome (hUsed : a.sdArray.bytesUsed ≤ bufSize)
    (h : insertOrdered ok a data = some r) : InsertOutcome insertOrdered ok a data r := by
  have hCode : errorMemAlloc ≠ 0 := by decide
  rcases bind_eq_some_iff.mp h with ⟨m, hSave, h⟩
  rcases bind_eq_some_iff.mp h with ⟨curr, hCurr, h⟩
  rcases bind_eq_some_iff.mp h with ⟨⟨a₁, ret⟩, hIns, h⟩
  have hFresh : m.fresh = a.mem.fresh := walkParents_fresh hSave
  have hOutcome := @insertSimple_outcome ok { a with mem := m } data (a₁, ret) hUsed hIns
  dsimp only at h hOutcome
  rw [hFresh] at hOutcome
  rcases hOutcome with ⟨hRet, hAll, hOk, hFresh₁⟩ | ⟨hRet, hFail⟩
  · subst hRet
    rw [if_neg (not_not_intro rfl)] at h
    have hTotal := insertSimple_total hIns rfl
    rcases indexLoop_outcome h with ⟨hEnd, hLoop⟩ | ⟨hEnd, ⟨q, hq, hFail⟩, hNew, hKept⟩
    · refine .inl ⟨hEnd, ?_, hOk⟩
      simp only [insertOrdered, hSave, hCurr, hAll, bind_eq_bind, bind_some, ne_eq,
        not_true_eq_false, if_false]
      exact hLoop
    · -- without data there is no new buffer
      have hData : data ≠ [] := fun hNil => hNew ((hTotal.2 hNil).trans hCurr)
      refine .inr (.inr ⟨hEnd, hOk, ⟨q - a.mem.fresh, by omega, ?_⟩, hData, hKept.trans hTotal.1⟩)
      rw [Nat.add_sub_cancel' (by omega)]
      exact hFail
  · subst hRet
    rw [if_pos hCode] at h
    cases h
    exact .inr (.inl ⟨hCode, hFail⟩)

/-! ## A missing buffer -/

theorem releaseDynBuf_spec {bufs : List (Ptr × List Byte)} (h : BufSeg m bufs none)
    (hNodup : (bufs.map Prod.fst).Nodup) (hFuel : bufs.length ≤ fuel) :
    ∃ m', releaseDynBuf fuel m (headPtr bufs none) = some m' ∧ m'.fresh = m.fresh ∧
      (∀ q ∈ bufs.map Prod.fst, m'.cells q = none) ∧
      ∀ q ∉ bufs.map Prod.fst, m'.cells q = m.cells q := by
  induction bufs generalizing fuel m with
  | nil => exact ⟨m, by cases fuel <;> rfl, rfl, nofun, fun _ _ => rfl⟩
  | cons x rest ih =>
    rcases x with ⟨p, c⟩
    rcases h with ⟨hBuf, -, hRest⟩
    rw [map_cons, nodup_cons] at hNodup
    cases fuel with
    | zero => cases hFuel
    | succ fuel =>
      have hSeg : BufSeg (m.free p) rest none := by
        refine hRest.congr fun q hq => buf?_congr (free_of_ne m ?_)
        rintro rfl
        exact hNodup.1 hq
      rcases ih hSeg hNodup.2 (Nat.le_of_succ_le_succ hFuel) with ⟨m', hRun, hFresh, hFreed, hKept⟩
      refine ⟨m', ?_, hFresh, fun q hq => ?_, fun q hq => ?_⟩
      · simp only [headPtr, releaseDynBuf, hBuf, bind_eq_bind, bind_some]
        exact hRun
      · rcases mem_cons.mp hq with rfl | hIn
        · rw [hKept _ hNodup.1, free_self]
        · exact hFreed q hIn
      · rw [map_cons, mem_cons, not_or] at hq
        rw [hKept q hq.2, free_of_ne m hq.1]

/-- What the copy loop leaves when a buffer is missing: the new buffers hang behind `curr`. -/
structure CopyFailed (a a' : DynamicArray) (curr : Ptr) (c : List Byte) (start : Nat)
    (c' : List Byte)
    (news : List (Ptr × List Byte)) : Prop where
  seg : BufSeg a'.mem ((curr, c') :: news) none
  same : ∀ i < start, c'[i]? = (c)[i]?
  nodup : (news.map Prod.fst).Nodup
  new_ge : ∀ p ∈ news.map Prod.fst, a.mem.fresh ≤ p
  old : ∀ q < a.mem.fresh, q ≠ curr → a'.mem.cells q = a.mem.cells q
  new : ∀ q, a.mem.fresh ≤ q → q ∉ news.map Prod.fst → a'.mem.cells q = none
  bounded : a'.mem.Bounded
  fresh_le : a.mem.fresh + news.length ≤ a'.mem.fresh
  first : a'.sdArray.firstDynBuf = a.sdArray.firstDynBuf
  ordArray : a'.ordArray = a.ordArray
  total : a'.totalSizeInBytes = a.totalSizeInBytes

theorem cells_none (hb : m.Bounded) {q : Ptr} (hq : m.fresh ≤ q) : m.cells q = none := by
  cases hc : m.cells q with
  | none => rfl
  | some c => exact absurd (hb q c hc) (Nat.not_lt.mpr hq)

theorem copyLoop_failed {c : List Byte} (hb : a.mem.Bounded) (hCurr : BufSeg a.mem [(curr, c)] none)
    (hStart : start ≤ bufSize) (hFuel : data.length + start / bufSize < fuel) {j : Nat}
    (hj : j < buffersNeeded start data.length) (hFail : ok (a.mem.fresh + j) = false) :
    ∃ a' c' news, copyLoop ok fuel a curr start data = some (a', none) ∧
      CopyFailed a a' curr c start c' news := by
  induction fuel generalizing a curr c start data j with
  | zero => exact absurd hFuel (Nat.not_lt_zero _)
  | succ fuel ih =>
    rcases hCurr with ⟨hBuf, hLen, -⟩
    have hLt : curr < a.mem.fresh := lt_of_buf? hb hBuf
    have hMore : data.length > bufSize - start := by
      by_contra hFits
      rw [buffersNeeded_fits hFits hStart] at hj
      exact Nat.not_lt_zero j hj
    have hTake : (data.take (bufSize - start)).length = bufSize - start :=
      length_take_of_le (Nat.le_of_lt hMore)
    set b : DynBuf := ⟨none, overwrite c start (data.take (bufSize - start))⟩ with hDef
    have hFull : b.buf.length = bufSize := by
      rw [hDef, length_overwrite (by omega), hLen]
    have hSame : ∀ i < start, b.buf[i]? = (c)[i]? := by
      intro i hi
      rw [hDef, getElem?_overwrite (by omega), if_neg (by omega)]
    simp only [copyLoop, hBuf, bind_eq_bind, bind_some, headPtr, if_pos hMore]
    cases hok : ok a.mem.fresh with
    | false =>
      have hok' : ok (a.mem.set curr (.buf b)).fresh = false := hok
      rw [calloc_of_not hok']
      have hb' : (a.mem.set curr (.buf b)).Bounded := hb.set hLt _
      refine ⟨_, b.buf, [], rfl, ⟨⟨buf?_set_self _ _ _, hFull, trivial⟩, hSame, .nil,
        fun _ hp => absurd hp not_mem_nil,
        fun q _ hq => set_of_ne _ _ hq, fun q hq _ => cells_none hb' hq, ?_, Nat.le_succ _, rfl, rfl, rfl⟩⟩
      exact fun q d hq => Nat.lt_succ_of_lt (hb' q d hq)
    | true =>
      have hok' : ok (a.mem.set curr (.buf b)).fresh = true := hok
      rw [calloc_of_ok hok', calloc_ok fun _ => rfl]
      -- the loop goes on in the new buffer, and fails there
      rw [buffersNeeded_more hStart hMore, ← length_drop] at hj
      obtain ⟨i, rfl⟩ : ∃ i, j = i + 1 := by
        cases j with
        | zero =>
          rw [Nat.add_zero, hok] at hFail
          cases hFail
        | succ i => exact ⟨i, rfl⟩
      have hFuel' : (data.drop (bufSize - start)).length + 0 / bufSize < fuel := by
        rw [length_drop]
        simp only [bufSize] at hFuel hMore hStart ⊢
        omega
      have hSeg : BufSeg (linkNew a.mem curr b) [(a.mem.fresh, zeroBuf.buf)] none :=
        ⟨buf?_eq_some.mpr (linkNew_new hb hBuf b), length_zeroBuf, trivial⟩
      have hFail' : ok ((linkNew a.mem curr b).fresh + i) = false := by
        rw [← hFail]
        exact congrArg ok (by show a.mem.fresh + 1 + i = _; omega)
      rcases ih (a := { a with
            mem := linkNew a.mem curr b
            sdArray := { a.sdArray with lastDynBuf := some a.mem.fresh } })
          (linkNew_bounded hb hBuf b) hSeg (Nat.zero_le _) hFuel' (Nat.lt_of_succ_lt_succ hj) hFail'
        with ⟨a', c', news, hRun, hRest⟩
      have hCurr' : a'.mem.cells curr = some (.buf { b with nextDynBuf := some a.mem.fresh }) :=
        (hRest.old curr (Nat.lt_succ_of_lt hLt) (Nat.ne_of_lt hLt)).trans (set_self _ _ _)
      have hFresh : a.mem.fresh + 1 + news.length ≤ a'.mem.fresh := hRest.fresh_le
      refine ⟨a', b.buf, (a.mem.fresh, c') :: news, hRun, ⟨⟨buf?_eq_some.mpr hCurr', hFull, hRest.seg⟩,
        hSame, ?_, ?_, ?_, ?_, hRest.bounded, ?_, hRest.first, hRest.ordArray, hRest.total⟩⟩
      · rw [map_cons, nodup_cons]
        exact ⟨fun hIn => absurd (hRest.new_ge _ hIn) (Nat.not_succ_le_self _), hRest.nodup⟩
      · intro p hp
        rcases mem_cons.mp hp with rfl | hIn
        · exact le_rfl
        · exact (Nat.le_succ _).trans (hRest.new_ge p hIn)
      · intro q hq hNe
        rw [hRest.old q (Nat.lt_succ_of_lt hq) (Nat.ne_of_lt hq)]
        exact linkNew_old b (Nat.ne_of_lt hq) hNe
      · intro q hq hOut
        rw [map_cons, mem_cons, not_or] at hOut
        exact hRest.new q (Nat.lt_of_le_of_ne hq (Ne.symm hOut.1)) hOut.2
      · rw [length_cons]
        omega

/-- The array with the next address moved on. -/
def DynamicArray.movedOn (a : DynamicArray) (fresh : Nat) : DynamicArray :=
  { a with mem := { a.mem with fresh } }

theorem insertSimple_failed {S : Ptr → Prop} {bufs : List (Ptr × List Byte)} {bytes : List Byte}
    (h : SimpleInv a bufs bytes) (hSelf : MemAlike nowhere S a.mem a.mem) {j : Nat}
    (hj : j < buffersNeeded a.sdArray.bytesUsed data.length)
    (hFail : ok (a.mem.fresh + j) = false) :
    ∃ a' curr, insertSimple ok a data = some (a', errorMemAlloc) ∧
      a.sdArray.lastDynBuf = some curr ∧ a.mem.fresh ≤ a'.mem.fresh ∧
      ArrayAlike (Tail curr a.sdArray.bytesUsed) (a'.mem.fresh ≤ ·) (a.movedOn a'.mem.fresh) a' := by
  obtain ⟨pre, ⟨curr, c⟩, rfl⟩ : ∃ pre x, bufs = pre ++ [x] :=
    ⟨_, _, (dropLast_append_getLast h.nonempty).symm⟩
  have hLast : a.sdArray.lastDynBuf = some curr := by
    rw [h.last]
    simp
  have hCurr : BufSeg a.mem [(curr, c)] none := (bufSeg_append.mp h.seg).2
  have hLt : curr < a.mem.fresh := lt_of_buf? h.bounded hCurr.1
  have hFuel : data.length + a.sdArray.bytesUsed / bufSize < data.length + 2 := by
    have hUsed := h.used_le
    simp only [bufSize] at hUsed ⊢
    omega
  rcases copyLoop_failed h.bounded hCurr h.used_le hFuel hj hFail with ⟨a₁, c', news, hRun, hCopy⟩
  rcases hCopy.seg with ⟨hBuf, hLen, hNews⟩
  have hFresh := hCopy.fresh_le
  rcases releaseDynBuf_spec hNews hCopy.nodup (show news.length ≤ a₁.mem.fresh + 1 by omega)
    with ⟨m, hRelease, hFreshM, hFreed, hKept⟩
  have hLe : a.mem.fresh ≤ m.fresh := by omega
  refine ⟨{ a₁ with
      mem := m.set curr (.buf ⟨none, c'⟩)
      sdArray := { a₁.sdArray with lastDynBuf := some curr, bytesUsed := a.sdArray.bytesUsed } },
    curr, ?_, hLast, ?_, ?_⟩
  · simp only [insertSimple, hLast, bind_eq_bind, bind_some, hRun, hBuf, hRelease]
  · exact hLe
  · have hOut : ∀ q ∈ news.map Prod.fst, a.mem.fresh ≤ q := hCopy.new_ge
    -- every cell but that of the last buffer is as before
    have hCells : ∀ q, q ≠ curr → m.cells q = a.mem.cells q := by
      intro q hq
      by_cases hNew : q ∈ news.map Prod.fst
      · rw [hFreed q hNew, cells_none h.bounded (hOut q hNew)]
      · rw [hKept q hNew]
        by_cases hOld : q < a.mem.fresh
        · exact hCopy.old q hOld hq
        · rw [hCopy.new q (Nat.not_lt.mp hOld) hNew, cells_none h.bounded (Nat.not_lt.mp hOld)]
    have hMoved : ∀ q d, a.mem.cells q = some d → q < m.fresh := by
      intro q d hq
      exact (h.bounded q d hq).trans_le hLe
    refine ⟨⟨fun q => ?_, rfl, hMoved, fun _ => id, ?_⟩, ?_, hCopy.ordArray, hCopy.total⟩
    · show Option.Rel _ (a.mem.cells q) ((m.set curr _).cells q)
      by_cases hq : q = curr
      · subst hq
        rw [set_self, buf?_eq_some.mp hCurr.1]
        refine .some (.buf ⟨rfl, hCurr.2.1, hLen, fun i hi => hCopy.same i ?_⟩)
        exact Nat.not_le.mp fun hIn => hi ⟨rfl, hIn⟩
      · rw [set_of_ne m _ hq, hCells q hq]
        refine (hSelf.cells q).mono fun _ _ hCell => hCell.mono (fun _ => False.elim) fun hNew => ?_
        exact hSelf.new q (hLe.trans hNew)
    · intro q n r hq hn
      exact absurd (hMoved q _ hn) (Nat.not_lt.mpr hq)
    · show SdArray.mk a₁.sdArray.firstDynBuf (some curr) a.sdArray.bytesUsed = a.sdArray
      rw [hCopy.first, ← hLast]

theorem MemAlike.movedOn {m' : Mem} (h : MemAlike G (m.fresh ≤ ·) m m') {f : Nat}
    (hf : m.fresh ≤ f) :
    MemAlike G (f ≤ ·) { m with fresh := f } { m' with fresh := f } where
  cells q := (h.cells q).mono fun _ _ hc => hc.mono (fun _ => id) hf.trans
  fresh := rfl
  bounded q c hq := (h.bounded q c hq).trans_le hf
  new _ := id
  closed q _ _ hq hn := absurd (h.bounded q _ hn) (Nat.not_lt.mpr (hf.trans hq))

theorem CellAlike.trans {G : Nat → Prop} {saved : Prop} {c₁ c₂ c₃ : Cell}
    (h₁ : CellAlike (nowhere 0) saved c₁ c₂) (h₂ : CellAlike G saved c₂ c₃) :
    CellAlike G saved c₁ c₃ := by
  cases h₁ with
  | buf hb₁ =>
    cases h₂ with
    | buf hb₂ =>
      exact .buf ⟨hb₂.next.trans hb₁.next, hb₁.length, hb₂.length', fun i hi =>
        (hb₂.bytes i hi).trans (hb₁.bytes i id)⟩
  | index hn₁ =>
    cases h₂ with
    | index hn₂ =>
      exact .index ⟨hn₂.next.trans hn₁.next, hn₂.parent.trans hn₁.parent, hn₂.used.trans hn₁.used,
        hn₂.child.trans hn₁.child, fun hs => (hn₂.old hs).trans (hn₁.old hs)⟩

theorem MemAlike.trans {S : Ptr → Prop} {m₁ m₂ m₃ : Mem} (h₁ : MemAlike nowhere S m₁ m₂)
    (h₂ : MemAlike G S m₂ m₃) : MemAlike G S m₁ m₃ where
  cells q := by
    have hFirst := h₁.cells q
    have hSecond := h₂.cells q
    revert hFirst hSecond
    generalize m₁.cells q = c₁, m₂.cells q = c₂, m₃.cells q = c₃
    rintro (hc₁ | _) (hc₂ | _)
    · exact .some (hc₁.trans hc₂)
    · exact .none
  fresh := h₂.fresh.trans h₁.fresh
  bounded := h₁.bounded
  new := h₁.new
  closed := h₁.closed

/-- To remember the positions changes nothing else. -/
theorem save_self {m' m₁ : Mem} {p : Option Ptr} (h : MemAlike G (m.fresh ≤ ·) m m')
    (hRun : walkParents saveIndex fuel m' p = some m₁) : MemAlike G (m.fresh ≤ ·) m m₁ := by
  induction fuel generalizing m' p with
  | zero =>
    cases p with
    | none =>
      cases hRun
      exact h
    | some p => cases hRun
  | succ fuel ih =>
    cases p with
    | none =>
      cases hRun
      exact h
    | some p =>
      rcases bind_eq_some_iff.mp hRun with ⟨n', hn', hRest⟩
      refine @ih (m'.set p (.index (saveIndex n'))) n'.parentDynIndex
        ⟨fun q => ?_, h.fresh, h.bounded, h.new, h.closed⟩ hRest
      by_cases hq : q = p
      · subst hq
        have hCell := h.cells q
        rw [set_self]
        rw [index?_eq_some.mp hn'] at hCell
        revert hCell
        generalize hc : m.cells q = c
        rintro (hCell | _)
        cases hCell with
        | index hn =>
          refine .some (.index { hn with old := fun hNew => ?_ })
          exact absurd (h.bounded q _ hc) (Nat.not_lt.mpr hNew)
      · rw [set_of_ne m' _ hq]
        exact h.cells q

theorem insertOrdered_failed {bytes : List Byte} (h : OrdInv a bytes)
    (hSelf : MemAlike nowhere (a.mem.fresh ≤ ·) a.mem a.mem) {j : Nat}
    (hj : j < buffersNeeded a.sdArray.bytesUsed data.length)
    (hFail : ok (a.mem.fresh + j) = false) :
    ∃ a' curr, insertOrdered ok a data = some (a', errorMemAlloc) ∧
      a.sdArray.lastDynBuf = some curr ∧ a.mem.fresh ≤ a'.mem.fresh ∧
      ArrayAlike (Tail curr a.sdArray.bytesUsed) (a'.mem.fresh ≤ ·) (a.movedOn a'.mem.fresh) a' := by
  rcases h.saved with
    ⟨m, bufs, seq, levels, top, place, pre, lastBuf, hWalk, hSimple, -, -, hFresh, -, hLast⟩
  have hSaved : MemAlike nowhere (a.mem.fresh ≤ ·) m m := by
    have hBoth := save_alike (a.ordArray.indexLevels + 1) hSelf a.ordArray.lastDynIndex
    rw [hWalk] at hBoth
    cases hBoth with
    | some hm => exact hm
  have hFail' : ok (m.fresh + j) = false := hFresh ▸ hFail
  rcases insertSimple_failed hSimple hSaved hj hFail' with ⟨a', curr, hRun, hCurr, hUp, hAlike⟩
  have hUp : a.mem.fresh ≤ a'.mem.fresh := hFresh ▸ hUp
  refine ⟨a', curr, ?_, hCurr, hUp, ?_, hAlike.sdArray, hAlike.ordArray, hAlike.total⟩
  · simp only [insertOrdered, hWalk, hLast, bind_eq_bind, bind_some, hRun]
    rfl
  · exact ((save_self hSelf hWalk).movedOn hUp).trans hAlike.mem

end IClaustron.DynArray
