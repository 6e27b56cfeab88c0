import IClaustron.DynArray.Alike

/-!
# DynArray.AlikeCalls — the same calls on arrays that cannot be told apart

Arrays that are alike stay so under every call, and give the same return codes. An insert into
an ordered array first remembers the positions on the way to the top; from then on the two
arrays agree in all that the error path reads.

* `insertOrdered_alike`, `writeWith_alike` — the calls that change an array.
* `findPosSimple_alike`, `findPosOrdered_alike`, `readWith_alike` — the calls that do not.
-/

namespace IClaustron.DynArray

open Lib Option

variable {G : Ptr → Nat → Prop} {S : Ptr → Prop} {m m' : Mem} {ok : Nat → Bool}
  {a a' old old' : DynamicArray}

/-! ## Inserts into an ordered array -/

theorem MemAlike.above (h : MemAlike G S m m') (p q : Ptr) : Above m' p q ↔ Above m p q := by
  have hNode := h.indexAt p
  unfold Above
  revert hNode
  generalize index? m p = n, index? m' p = n'
  rintro (hAlike | _)
  · constructor
    · rintro ⟨_, ⟨⟩, hq⟩
      exact ⟨_, rfl, hAlike.parent ▸ hq⟩
    · rintro ⟨_, ⟨⟩, hq⟩
      exact ⟨_, rfl, hAlike.parent.trans hq⟩
  · exact Iff.rfl

theorem OnWay.of_above {p : Option Ptr} {q : Ptr} (h : OnWay m p q)
    (hAbove : ∀ x y, Above m x y → Above m' x y) : OnWay m' p q := by
  rcases h with ⟨leaf, rfl, hUp⟩
  exact ⟨leaf, rfl, Relation.ReflTransGen.mono hAbove leaf q hUp⟩

/-- When the positions on the way to the top have been remembered, they are equal. -/
theorem save_way (h : MemAlike G S m m') (fuel : Nat) (p : Option Ptr) :
    Option.Rel (MemAlike G fun q => OnWay m p q ∨ m.fresh ≤ q)
      (walkParents saveIndex fuel m p) (walkParents saveIndex fuel m' p) := by
  refine (save_alike fuel h p).imp fun m₁ m₁' hRun hRun' hAlike => ?_
  have hFresh : m₁.fresh = m.fresh := walkParents_fresh hRun
  refine ⟨fun q => ?_, hAlike.fresh, hAlike.bounded, fun q hq => .inr (hFresh ▸ hq), ?_⟩
  · have hCell := hAlike.cells q
    have hSaved : OnWay m p q → Saved m₁ q := walk_saved hRun
    have hSaved' : OnWay m p q → Saved m₁' q := fun hWay =>
      walk_saved hRun' (hWay.of_above fun x y => (h.above x y).mpr)
    unfold Saved index? at hSaved hSaved'
    revert hCell hSaved hSaved'
    generalize hc : m₁.cells q = c, m₁'.cells q = c'
    rintro (hCell | _) hSaved hSaved'
    · cases hCell with
      | buf hb => exact .some (.buf hb)
      | @index n n' hn =>
        refine .some (.index { hn with old := ?_ })
        rintro (hWay | hNew)
        · rw [hSaved hWay n rfl, hSaved' hWay n' rfl, hn.used]
        · exact absurd (hAlike.bounded q _ hc) (Nat.not_lt.mpr (hFresh ▸ hNew))
    · exact .none
  · intro q n r hq hn hr
    have hAbove : Above m q r := (walk_above hRun q r).mp ⟨n, index?_eq_some.mpr hn, hr⟩
    rcases hq with ⟨leaf, hLeaf, hUp⟩ | hNew
    · exact .inl ⟨leaf, hLeaf, hUp.tail hAbove⟩
    · exact absurd (hAlike.bounded q _ hn) (Nat.not_lt.mpr (hFresh ▸ hNew))

theorem releaseDynIndex_alike (h : MemAlike G S m m') (fuel : Nat) (p : Option Ptr) :
    Option.Rel (MemAlike G S) (releaseDynIndex fuel m p) (releaseDynIndex fuel m' p) := by
  induction fuel generalizing m m' p with
  | zero =>
    cases p with
    | none => exact .some h
    | some p => exact .none
  | succ fuel ih =>
    cases p with
    | none => exact .some h
    | some p =>
      refine (h.indexAt p).bind fun n n' _ _ hn => ?_
      rw [hn.next]
      exact ih (h.free p) _

/-- The error path reads remembered positions on the way to the top alone. -/
theorem undoInsertOrdered_alike (h : ArrayAlike nowhere S a a') (hSd : old'.sdArray = old.sdArray)
    (hOrd : old'.ordArray = old.ordArray)
    (hLast : ∀ q, old.ordArray.lastDynIndex = some q → S q) :
    Option.Rel (ArrayAlike nowhere S) (undoInsertOrdered old a) (undoInsertOrdered old' a') := by
  unfold undoInsertOrdered
  rw [hSd, hOrd]
  refine (Option.Rel.same old.sdArray.lastDynBuf).bind ?_
  rintro curr _ - - rfl
  refine (h.mem.bufAt curr).bind fun b b' hb _ hBuf => ?_
  rw [hBuf.next, h.mem.fresh]
  refine (releaseDynBuf_alike h.mem _ _).bind fun m₁ m₁' e₁ _ h₁ => ?_
  have hLt : curr < m₁.fresh := by
    rw [releaseDynBuf_fresh e₁]
    exact lt_of_buf? h.mem.bounded hb
  have h₂ : MemAlike nowhere S (m₁.set curr (.buf { b with nextDynBuf := none }))
      (m₁'.set curr (.buf { b' with nextDynBuf := none })) :=
    h₁.set_buf hLt ⟨rfl, hBuf.length, hBuf.length', hBuf.bytes⟩ fun _ _ _ => id
  dsimp only
  rw [Heap.set_fresh, Heap.set_fresh, h₁.fresh]
  refine (restore_alike _ h₂ _ hLast).bind fun m₃ m₃' _ _ h₃ => ?_
  refine (Option.Rel.same old.ordArray.lastDynIndex).bind ?_
  rintro leaf _ - - rfl
  refine (h₃.indexAt leaf).bind fun n n' _ _ hNode => ?_
  rw [hNode.next, h₃.fresh]
  refine (releaseDynIndex_alike h₃ _ _).bind fun m₄ m₄' _ _ h₄ => ?_
  refine (h₄.indexAt leaf).bind fun n₄ n₄' hn₄ _ hNode₄ => ?_
  refine (Option.Rel.same old.ordArray.topDynIndex).bind ?_
  rintro top _ - - rfl
  have h₅ : MemAlike nowhere S (m₄.set leaf (.index { n₄ with nextDynIndex := none }))
      (m₄'.set leaf (.index { n₄' with nextDynIndex := none })) :=
    h₄.set_index (lt_of_index? h₄.bounded hn₄)
      ⟨rfl, hNode₄.parent, hNode₄.used, hNode₄.child, hNode₄.old⟩ fun hs _ => h₄.parent hs hn₄
  refine (h₅.indexAt top).bind fun n₅ n₅' hn₅ _ hNode₅ => .some ?_
  refine ⟨h₅.set_index (lt_of_index? h₅.bounded hn₅)
    ⟨hNode₅.next, rfl, hNode₅.used, hNode₅.child, hNode₅.old⟩ fun _ => nofun, ?_, ?_, h.total⟩
  · dsimp only
    rw [h.sdArray]
  · dsimp only
    rw [h.ordArray]

/-- The new buffers are entered in both indexes, or given up in both. -/
theorem indexLoop_alike {size fuel indexed : Nat} {p : Ptr} (h : IndexedAlike nowhere S a a')
    (hSd : old'.sdArray = old.sdArray) (hOrd : old'.ordArray = old.ordArray)
    (hLast : ∀ q, old.ordArray.lastDynIndex = some q → S q)
    (hUsed : a.sdArray.bytesUsed ≤ bufSize) (hOldUsed : old.sdArray.bytesUsed ≤ bufSize) :
    Option.Rel
      (fun r r' => r'.2 = r.2 ∧ ArrayAlike nowhere S r.1 r'.1 ∧ r.1.sdArray.bytesUsed ≤ bufSize)
      (indexLoop ok old size fuel a p indexed) (indexLoop ok old' size fuel a' p indexed) := by
  induction fuel generalizing a a' p indexed with
  | zero => exact .none
  | succ fuel ih =>
    unfold indexLoop
    rw [h.1.sdArray, h.1.ordArray]
    split_ifs with hEnd
    · exact .some ⟨rfl, h.1, hUsed⟩
    · refine (h.1.mem.bufAt p).bind fun b b' _ _ hBuf => ?_
      rw [hBuf.next]
      refine (Option.Rel.same b.nextDynBuf).bind ?_
      rintro next _ - - rfl
      dsimp only
      split_ifs with hAssert
      · exact .none
      · refine (Option.Rel.same a.ordArray.lastDynIndex).bind ?_
        rintro leaf _ hLeaf - rfl
        refine (insertBufInIndex_alike h (h.2 leaf hLeaf)).bind ?_
        rintro ⟨a₁, x, ret⟩ ⟨a₁', x', ret'⟩ hRun - ⟨h₁, hEq, -⟩
        cases hEq
        have hSame := (insertBufInIndex_same hRun).1
        dsimp only at h₁ ⊢
        split_ifs with hRet
        · refine (undoInsertOrdered_alike h₁.1 hSd hOrd hLast).bind fun a₂ a₂' hUndo _ h₂ => ?_
          exact .some ⟨rfl, h₂, (undoInsertOrdered_spec hUndo).2.trans_le hOldUsed⟩
        · exact ih h₁ (hSame ▸ hUsed)

theorem InsertAlike.forget {r r' : DynamicArray × Nat} (h : InsertAlike G S a r r') :
    InsertAlike G (r.1.mem.fresh ≤ ·) a r r' := by
  rcases h.alike with ⟨G', hG', hAlike⟩
  refine ⟨h.code, h.used, ⟨G', hG', ?_⟩, fun hEnd => ?_⟩
  · exact { hAlike with mem := hAlike.mem.forget }
  · exact { h.clean hEnd with mem := (h.clean hEnd).mem.forget }

theorem insertOrdered_alike {data : List Byte} (h : ArrayAlike G S a a')
    (hG : ∀ q i, G q i → a.sdArray.lastDynBuf = some q ∧ a.sdArray.bytesUsed ≤ i)
    (hUsed : a.sdArray.bytesUsed ≤ bufSize) :
    Option.Rel (fun r r' => InsertAlike G (r.1.mem.fresh ≤ ·) a r r')
      (insertOrdered ok a data) (insertOrdered ok a' data) := by
  unfold insertOrdered
  rw [h.sdArray, h.ordArray]
  refine (save_way h.mem _ _).bind fun m₁ m₁' _ _ hMem => ?_
  refine (Option.Rel.same a.sdArray.lastDynBuf).bind ?_
  rintro curr _ hCurr - rfl
  have hSaved : ArrayAlike G (fun q => OnWay a.mem a.ordArray.lastDynIndex q ∨ a.mem.fresh ≤ q)
      { a with mem := m₁ }
      { a' with mem := m₁', sdArray := a.sdArray, ordArray := a.ordArray } :=
    ⟨hMem, rfl, rfl, h.total⟩
  refine (insertSimple_alike hSaved hG hUsed).bind ?_
  rintro ⟨a₁, ret⟩ ⟨a₁', ret'⟩ - - ⟨hIns, hOrd⟩
  have hCode : ret' = ret := hIns.code
  subst hCode
  dsimp only
  split_ifs with hRet
  · exact .some (InsertAlike.forget ⟨rfl, hIns.used, hIns.alike, hIns.clean⟩)
  · have hLast : ∀ q, a.ordArray.lastDynIndex = some q →
        OnWay a.mem a.ordArray.lastDynIndex q ∨ a.mem.fresh ≤ q := fun q hq => .inl ⟨q, hq, .refl⟩
    by_cases hSame : a₁.sdArray.lastDynBuf = some curr
    · -- no new buffer: the loop ends at once
      rcases hIns.alike with ⟨G', hG', hAlike⟩
      have hEnd : indexLoop ok a data.length (data.length + 2) a₁ curr 0 = some (a₁, 0) := by
        rw [indexLoop, if_pos hSame]
      have hEnd' : indexLoop ok a' data.length (data.length + 2) a₁' curr 0 = some (a₁', 0) := by
        rw [indexLoop, if_pos (hAlike.sdArray ▸ hSame)]
      rw [hEnd, hEnd']
      refine .some (InsertAlike.forget ⟨rfl, hIns.used, ⟨G', hG', hAlike⟩, ?_⟩)
      rintro (hNe | hNe)
      · exact absurd rfl hNe
      · exact absurd (hSame.trans hCurr.symm) hNe
    · have hClean := hIns.clean (.inr fun hEq => hSame (hEq.trans hCurr))
      refine (indexLoop_alike ⟨hClean, fun q hq => hLast q ?_⟩ h.sdArray h.ordArray hLast hIns.used
        hUsed).mono ?_
      · exact hOrd ▸ hq
      · rintro ⟨a₂, ret⟩ ⟨a₂', ret'⟩ ⟨hEq, hAlike, hEndUsed⟩
        exact InsertAlike.forget ⟨hEq, hEndUsed, ⟨nowhere, fun _ _ => False.elim, hAlike⟩, fun _ => hAlike⟩

/-! ## Lookups, reads and writes -/

theorem scanPos_alike (h : MemAlike G S m m') (fuel : Nat) (p : Option Ptr) (pos : Nat) :
    scanPos fuel m' p pos = scanPos fuel m p pos := by
  induction fuel generalizing p pos with
  | zero => cases p <;> rfl
  | succ fuel ih =>
    cases p with
    | none => rfl
    | some p =>
      unfold scanPos
      split_ifs with hFar
      · refine Option.Rel.eq ((h.bufAt p).bind fun b b' _ _ hBuf => ?_)
        rw [hBuf.next, ih]
        exact Option.Rel.refl fun _ _ => rfl
      · rfl

theorem findPosSimple_alike (h : ArrayAlike G S a a') (pos : Nat) :
    findPosSimple a' pos = findPosSimple a pos := by
  unfold findPosSimple
  rw [h.sdArray]
  exact scanPos_alike h.mem _ _ _

theorem descend_alike (h : MemAlike G S m m') (level : Nat) (p : Option Ptr) (pos : Nat) :
    descend level m' p pos = descend level m p pos := by
  induction level generalizing p pos with
  | zero => rfl
  | succ level ih =>
    unfold descend
    dsimp only
    split_ifs with hOver
    · rfl
    · refine bind_congr fun q _ => ?_
      refine Option.Rel.eq ((h.indexAt q).bind fun n n' _ _ hNode => ?_)
      rw [hNode.child, ih]
      exact Option.Rel.refl fun _ _ => rfl

theorem findPosOrdered_alike (h : ArrayAlike G S a a') (pos : Nat) :
    findPosOrdered a' pos = findPosOrdered a pos := by
  unfold findPosOrdered
  rw [h.ordArray]
  exact descend_alike h.mem _ _ _

/-- Reads return the same code; where the buffers do not differ they return the same bytes. -/
theorem readLoop_alike (h : MemAlike G S m m') (fuel : Nat) (p : Option Ptr) (bufPos size : Nat) :
    Option.Rel (fun r r' => r'.1 = r.1 ∧ ((∀ q i, ¬ G q i) → r' = r))
      (readLoop fuel m p bufPos size) (readLoop fuel m' p bufPos size) := by
  induction fuel generalizing p bufPos size with
  | zero => exact .none
  | succ fuel ih =>
    cases p with
    | none => exact .some ⟨rfl, fun _ => rfl⟩
    | some p =>
      refine (h.bufAt p).bind fun b b' _ _ hBuf => ?_
      have hBytes : (∀ q i, ¬ G q i) → b'.buf = b.buf := fun hG =>
        List.ext_getElem? fun i => hBuf.bytes i (hG p i)
      dsimp only
      rw [hBuf.next]
      split_ifs with hMore
      · refine (ih b.nextDynBuf 0 _).bind ?_
        rintro ⟨ret, rest⟩ ⟨ret', rest'⟩ - - ⟨hCode, hSame⟩
        refine .some ⟨hCode, fun hG => ?_⟩
        cases hSame hG
        rw [hBytes hG]
      · refine .some ⟨rfl, fun hG => ?_⟩
        rw [hBytes hG]

theorem writeLoop_alike (h : MemAlike G S m m') (fuel : Nat) (p : Option Ptr) (bufPos : Nat)
    (data : List Byte) :
    Option.Rel (fun r r' => r'.2 = r.2 ∧ MemAlike G S r.1 r'.1)
      (writeLoop fuel m p bufPos data) (writeLoop fuel m' p bufPos data) := by
  induction fuel generalizing m m' p bufPos data with
  | zero => exact .none
  | succ fuel ih =>
    cases p with
    | none => exact .some ⟨rfl, h⟩
    | some p =>
      refine (h.bufAt p).bind fun b b' hb _ hBuf => ?_
      dsimp only
      set part := data.take (min data.length (bufSize - bufPos)) with hPart
      have hLen : part.length = min data.length (bufSize - bufPos) :=
        List.length_take_of_le (Nat.min_le_left _ _)
      -- behind the end of a buffer nothing is written
      have hOver : BufAlike (G p) { b with buf := overwrite b.buf bufPos part }
          { b' with buf := overwrite b'.buf bufPos part } := by
        by_cases hIn : bufPos ≤ bufSize
        · exact (@BufAlike.overwrite _ _ _ hBuf bufPos part (by omega)).mono fun i => And.left
        · have hNil : part = [] := List.eq_nil_of_length_eq_zero (by omega)
          rw [hNil, overwrite_nil, overwrite_nil]
          exact hBuf
      have hMem : MemAlike G S (m.set p (.buf { b with buf := overwrite b.buf bufPos part }))
          (m'.set p (.buf { b' with buf := overwrite b'.buf bufPos part })) :=
        h.set_buf (lt_of_buf? h.bounded hb) hOver fun _ _ _ => id
      rw [hBuf.next] at hMem ⊢
      split_ifs with hMore
      · exact ih hMem b.nextDynBuf 0 _
      · exact .some ⟨rfl, hMem⟩

variable {findPos : DynamicArray → Nat → Option (Nat × Option Ptr × Nat)}

theorem readWith_alike (h : ArrayAlike G S a a') {pos : Nat} (hFind : findPos a' pos = findPos a pos)
    (size : Nat) :
    Option.Rel (fun r r' => r'.1 = r.1 ∧ ((∀ q i, ¬ G q i) → r' = r))
      (readWith findPos a pos size) (readWith findPos a' pos size) := by
  unfold readWith
  rw [h.total, hFind]
  split_ifs with hOver
  · exact .some ⟨rfl, fun _ => rfl⟩
  · refine (Option.Rel.same (findPos a pos)).bind ?_
    rintro ⟨ret, dynBuf, bufPos⟩ _ - - rfl
    dsimp only
    split_ifs with hRet
    · exact .some ⟨rfl, fun _ => rfl⟩
    · exact readLoop_alike h.mem _ _ _ _

theorem writeWith_alike (h : ArrayAlike G S a a') {pos : Nat} (hFind : findPos a' pos = findPos a pos)
    (data : List Byte) :
    Option.Rel (fun r r' => r'.2 = r.2 ∧ ArrayAlike G S r.1 r'.1)
      (writeWith findPos a pos data) (writeWith findPos a' pos data) := by
  unfold writeWith
  rw [hFind]
  refine (Option.Rel.same (findPos a pos)).bind ?_
  rintro ⟨ret, dynBuf, bufPos⟩ _ - - rfl
  dsimp only
  split_ifs with hRet
  · exact .some ⟨rfl, h⟩
  · refine (writeLoop_alike h.mem _ _ _ _).bind ?_
    rintro ⟨m₁, ret⟩ ⟨m₁', ret'⟩ - - ⟨hCode, hMem⟩
    exact .some ⟨hCode, h.withMem hMem⟩

end IClaustron.DynArray
