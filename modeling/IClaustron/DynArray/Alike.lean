import IClaustron.DynArray.AllocFail
import IClaustron.Lib.OptionRel

/-!
# DynArray.Alike — arrays that cannot be told apart

Two arrays are alike when they have the same objects with the same links, and differ at most
in bytes of a region and in insert positions that have been remembered. Every call does the
same to both. The remembered positions of the nodes in `S` are equal; an insert makes `S` the
way from the last leaf to the top, which is all that its error path looks at.

* `MemAlike` — the relation on the memory, and what the basic operations do to it.
* `insertSimple_alike`, `insertOrdered_alike`, `writeWith_alike`, `findPosOrdered_alike` — the
  calls.
-/

namespace IClaustron.DynArray

open Lib Option Heap

/-! ## Objects -/

/-- Two buffers with the same bytes outside `G`. -/
structure BufAlike (G : Nat → Prop) (b b' : DynBuf) : Prop where
  next : b'.nextDynBuf = b.nextDynBuf
  length : b.buf.length = bufSize
  length' : b'.buf.length = bufSize
  bytes : ∀ i, ¬ G i → b'.buf[i]? = b.buf[i]?

/-- Two index nodes, of which the remembered positions agree if it matters. -/
structure IndexAlike (saved : Prop) (n n' : DynIndex) : Prop where
  next : n'.nextDynIndex = n.nextDynIndex
  parent : n'.parentDynIndex = n.parentDynIndex
  used : n'.nextIndexToInsert = n.nextIndexToInsert
  child : n'.childPtrs = n.childPtrs
  old : saved → n'.oldNextIndexToInsert = n.oldNextIndexToInsert

/-- Two objects at one place. -/
inductive CellAlike (G : Nat → Prop) (saved : Prop) : Cell → Cell → Prop where
  | buf {b b' : DynBuf} (h : BufAlike G b b') : CellAlike G saved (.buf b) (.buf b')
  | index {n n' : DynIndex} (h : IndexAlike saved n n') : CellAlike G saved (.index n) (.index n')

/-- Two memories; `S` holds what is allocated later, and with a node its parent. -/
structure MemAlike (G : Ptr → Nat → Prop) (S : Ptr → Prop) (m m' : Mem) : Prop where
  cells : ∀ p, Option.Rel (CellAlike (G p) (S p)) (m.cells p) (m'.cells p)
  fresh : m'.fresh = m.fresh
  bounded : m.Bounded
  new : ∀ p, m.fresh ≤ p → S p
  closed : ∀ p n q, S p → m.cells p = some (.index n) → n.parentDynIndex = some q → S q

/-- Nowhere. -/
def nowhere : Ptr → Nat → Prop := fun _ _ => False

/-- The end of a buffer. -/
def Tail (p : Ptr) (start : Nat) : Ptr → Nat → Prop := fun q i => q = p ∧ start ≤ i

variable {G G' : Ptr → Nat → Prop} {S : Ptr → Prop} {m m' : Mem} {p : Ptr} {ok : Nat → Bool}

variable {b b' : DynBuf} {childPtr : Ptr}

theorem BufAlike.mono {G G' : Nat → Prop} (h : BufAlike G b b') (hG : ∀ i, G i → G' i) :
    BufAlike G' b b' :=
  { h with bytes := fun i hi => h.bytes i fun hg => hi (hG i hg) }

theorem CellAlike.mono {G G' : Nat → Prop} {saved saved' : Prop} {c c' : Cell}
    (h : CellAlike G saved c c') (hG : ∀ i, G i → G' i) (hS : saved' → saved) :
    CellAlike G' saved' c c' := by
  cases h with
  | buf h => exact .buf (h.mono hG)
  | index h => exact .index { h with old := fun hs => h.old (hS hs) }

section

variable (h : MemAlike G S m m')

include h

theorem MemAlike.mono (hG : ∀ p i, G p i → G' p i) : MemAlike G' S m m' :=
  { h with cells := fun p => (h.cells p).mono fun _ _ hc => hc.mono (hG p) id }

/-- Without what has been remembered. -/
theorem MemAlike.forget : MemAlike G (m.fresh ≤ ·) m m' where
  cells p := (h.cells p).mono fun _ _ hc => hc.mono (fun _ => id) (h.new p)
  fresh := h.fresh
  bounded := h.bounded
  new _ := id
  closed p _ _ hp hn := absurd (h.bounded p _ hn) (Nat.not_lt.mpr hp)

/-! ## Following pointers -/

theorem MemAlike.bufAt (p : Ptr) : Option.Rel (BufAlike (G p)) (buf? m p) (buf? m' p) := by
  have hCell := h.cells p
  unfold buf?
  revert hCell
  generalize m.cells p = c, m'.cells p = c'
  rintro (hc | _)
  · cases hc with
    | buf hb => exact .some hb
    | index hn => exact .none
  · exact .none

theorem MemAlike.indexAt (p : Ptr) : Option.Rel (IndexAlike (S p)) (index? m p) (index? m' p) := by
  have hCell := h.cells p
  unfold index?
  revert hCell
  generalize m.cells p = c, m'.cells p = c'
  rintro (hc | _)
  · cases hc with
    | buf hb => exact .none
    | index hn => exact .some hn
  · exact .none

end

theorem lt_of_buf? (h : m.Bounded) (hb : buf? m p = some b) : p < m.fresh :=
  h p _ (buf?_eq_some.mp hb)

theorem lt_of_index? (h : m.Bounded) {n : DynIndex} (hn : index? m p = some n) : p < m.fresh :=
  h p _ (index?_eq_some.mp hn)

/-- The parent of a node in `S`. -/
theorem MemAlike.parent (h : MemAlike G S m m') (hp : S p) {n : DynIndex} (hn : index? m p = some n)
    {q : Ptr} (hq : n.parentDynIndex = some q) : S q :=
  h.closed p n q hp (index?_eq_some.mp hn) hq

/-! ## Changing the memory -/

/-- A buffer is written in both memories. -/
theorem MemAlike.set_buf (h : MemAlike G S m m') (hp : p < m.fresh) (hb : BufAlike (G' p) b b')
    (hG : ∀ q, q ≠ p → ∀ i, G q i → G' q i) :
    MemAlike G' S (m.set p (.buf b)) (m'.set p (.buf b')) where
  cells q := by
    by_cases hq : q = p
    · subst hq
      rw [set_self, set_self]
      exact .some (.buf hb)
    · rw [set_of_ne m _ hq, set_of_ne m' _ hq]
      exact (h.cells q).mono fun _ _ hc => hc.mono (hG q hq) id
  fresh := h.fresh
  bounded := h.bounded.set hp _
  new := h.new
  closed q n r hq hn := by
    by_cases hqp : q = p
    · subst hqp
      rw [set_self] at hn
      cases hn
    · rw [set_of_ne m _ hqp] at hn
      exact h.closed q n r hq hn

/-- An index node is written in both memories. -/
theorem MemAlike.set_index (h : MemAlike G S m m') {n n' : DynIndex} (hp : p < m.fresh)
    (hn : IndexAlike (S p) n n') (hParent : S p → ∀ q, n.parentDynIndex = some q → S q) :
    MemAlike G S (m.set p (.index n)) (m'.set p (.index n')) where
  cells q := by
    by_cases hq : q = p
    · subst hq
      rw [set_self, set_self]
      exact .some (.index hn)
    · rw [set_of_ne m _ hq, set_of_ne m' _ hq]
      exact h.cells q
  fresh := h.fresh
  bounded := h.bounded.set hp _
  new := h.new
  closed q k r hq hk hr := by
    by_cases hqp : q = p
    · subst hqp
      rw [set_self] at hk
      cases hk
      exact hParent hq r hr
    · rw [set_of_ne m _ hqp] at hk
      exact h.closed q k r hq hk hr

theorem bounded_free (h : m.Bounded) (p : Ptr) : (m.free p).Bounded := by
  intro q c hq
  by_cases hqp : q = p
  · subst hqp
    rw [free_self] at hq
    cases hq
  · rw [free_of_ne m hqp] at hq
    exact h q c hq

theorem MemAlike.free (h : MemAlike G S m m') (p : Ptr) : MemAlike G S (m.free p) (m'.free p) where
  cells q := by
    by_cases hq : q = p
    · subst hq
      rw [free_self, free_self]
      exact .none
    · rw [free_of_ne m hq, free_of_ne m' hq]
      exact h.cells q
  fresh := h.fresh
  bounded := bounded_free h.bounded p
  new := h.new
  closed q n r hq hn := by
    by_cases hqp : q = p
    · subst hqp
      rw [free_self] at hn
      cases hn
    · rw [free_of_ne m hqp] at hn
      exact h.closed q n r hq hn

/-- What `ic_calloc` has filled with zeros. -/
def IsZero (c : Cell) : Prop := c = .buf zeroBuf ∨ c = .index zeroIndex

theorem cellAlike_zero {c : Cell} (hc : IsZero c) (G : Nat → Prop) (saved : Prop) :
    CellAlike G saved c c := by
  rcases hc with rfl | rfl
  · exact .buf ⟨rfl, length_zeroBuf, length_zeroBuf, fun _ _ => rfl⟩
  · exact .index ⟨rfl, rfl, rfl, rfl, fun _ => rfl⟩

/-- An allocation has the same outcome, and gives the same place. -/
theorem MemAlike.calloc (h : MemAlike G S m m') (ok : Nat → Bool) {c : Cell} (hc : IsZero c) :
    ∃ m₁ m₁' r, m.calloc ok c = (m₁, r) ∧ m'.calloc ok c = (m₁', r) ∧ MemAlike G S m₁ m₁' ∧
      m₁.fresh = m.fresh + 1 ∧ ∀ q, r = some q → S q ∧ q < m₁.fresh ∧ m.fresh ≤ q := by
  unfold Heap.calloc
  rw [h.fresh]
  have hNew : ∀ p, m.fresh + 1 ≤ p → S p := fun p hp => h.new p (Nat.le_of_succ_le hp)
  by_cases hok : ok m.fresh
  · rw [if_pos hok, if_pos hok]
    refine ⟨_, _, _, rfl, rfl, ⟨fun q => ?_, rfl, h.bounded.calloc c, hNew, fun q n r hq hn hr => ?_⟩,
      rfl, ?_⟩
    · show Option.Rel _ ((m.set m.fresh c).cells q) ((m'.set m.fresh c).cells q)
      by_cases hqf : q = m.fresh
      · subst hqf
        rw [set_self, set_self]
        exact .some (cellAlike_zero hc _ _)
      · rw [set_of_ne m _ hqf, set_of_ne m' _ hqf]
        exact h.cells q
    · have hn : (m.set m.fresh c).cells q = some (.index n) := hn
      by_cases hqf : q = m.fresh
      · subst hqf
        rw [set_self] at hn
        rcases hc with rfl | rfl
        · cases hn
        · cases hn
          cases hr
      · rw [set_of_ne m _ hqf] at hn
        exact h.closed q n r hq hn hr
    · rintro q ⟨⟩
      exact ⟨h.new _ le_rfl, Nat.lt_succ_self _, le_rfl⟩
  · rw [if_neg hok, if_neg hok]
    refine ⟨_, _, _, rfl, rfl, ⟨h.cells, rfl, ?_, hNew, h.closed⟩, rfl, nofun⟩
    exact fun q d hq => Nat.lt_succ_of_lt (h.bounded q d hq)

/-! ## Buffers -/

/-- The same bytes are written into both buffers; where they are written the buffers agree. -/
theorem BufAlike.overwrite {G : Nat → Prop} (h : BufAlike G b b') {start : Nat} {data : List Byte}
    (hFits : start + data.length ≤ bufSize) :
    BufAlike (fun i => G i ∧ ¬ (start ≤ i ∧ i < start + data.length))
      { b with buf := Lib.overwrite b.buf start data }
      { b' with buf := Lib.overwrite b'.buf start data } where
  next := h.next
  length := (length_overwrite (h.length ▸ hFits)).trans h.length
  length' := (length_overwrite (h.length' ▸ hFits)).trans h.length'
  bytes i hi := by
    have hStart : start ≤ bufSize := Nat.le_of_add_right_le hFits
    show (Lib.overwrite b'.buf start data)[i]? = (Lib.overwrite b.buf start data)[i]?
    rw [getElem?_overwrite (h.length' ▸ hStart), getElem?_overwrite (h.length ▸ hStart)]
    split_ifs with hIn
    · rfl
    · exact h.bytes i fun hg => hi ⟨hg, hIn⟩

theorem releaseDynBuf_fresh {fuel : Nat} {m : Mem} {p : Option Ptr}
    (h : releaseDynBuf fuel m p = some m') : m'.fresh = m.fresh := by
  induction fuel generalizing m p with
  | zero =>
    cases p with
    | none =>
      cases h
      rfl
    | some p => cases h
  | succ fuel ih =>
    cases p with
    | none =>
      cases h
      rfl
    | some p =>
      rcases bind_eq_some_iff.mp h with ⟨b, -, hRest⟩
      exact (ih hRest).trans rfl

theorem releaseDynBuf_alike (h : MemAlike G S m m') (fuel : Nat) (p : Option Ptr) :
    Option.Rel (MemAlike G S) (releaseDynBuf fuel m p) (releaseDynBuf fuel m' p) := by
  induction fuel generalizing m m' p with
  | zero =>
    cases p with
    | none => exact .some h
    | some p => exact .none
  | succ fuel ih =>
    cases p with
    | none => exact .some h
    | some p =>
      refine (h.bufAt p).bind fun b b' _ _ hb => ?_
      rw [hb.next]
      exact ih (h.free p) _

/-! ## Arrays -/

/-- Two arrays with memories that are alike. -/
structure ArrayAlike (G : Ptr → Nat → Prop) (S : Ptr → Prop) (a a' : DynamicArray) : Prop where
  mem : MemAlike G S a.mem a'.mem
  sdArray : a'.sdArray = a.sdArray
  ordArray : a'.ordArray = a.ordArray
  total : a'.totalSizeInBytes = a.totalSizeInBytes

variable {a a' : DynamicArray}

theorem ArrayAlike.withMem {S' : Ptr → Prop} (h : ArrayAlike G S a a') (hMem : MemAlike G' S' m m') :
    ArrayAlike G' S' { a with mem := m } { a' with mem := m' } :=
  ⟨hMem, h.sdArray, h.ordArray, h.total⟩

/-- What the copy loop leaves in two arrays: outside the buffer `curr` in which it began they agree. -/
structure CopyAlike (G : Ptr → Nat → Prop) (S : Ptr → Prop) (curr : Ptr) (a : DynamicArray)
    (r r' : DynamicArray × Option Nat) : Prop where
  result : r'.2 = r.2
  sdArray : r'.1.sdArray = r.1.sdArray
  ordArray : r'.1.ordArray = r.1.ordArray ∧ r.1.ordArray = a.ordArray
  total : r'.1.totalSizeInBytes = r.1.totalSizeInBytes
  failed : r.2 = none → MemAlike nowhere S r.1.mem r'.1.mem
  kept : ∀ used, r.2 = some used → used ≤ bufSize ∧
    MemAlike (fun q i => G q i ∧ used ≤ i) S r.1.mem r'.1.mem
  crossed : r.1.sdArray.lastDynBuf ≠ some curr → MemAlike nowhere S r.1.mem r'.1.mem

theorem copyLoop_alike {curr : Ptr} {start fuel : Nat} {data : List Byte}
    (h : ArrayAlike G S a a') (hG : ∀ q i, G q i → q = curr ∧ start ≤ i) (hStart : start ≤ bufSize)
    (hLast : a.sdArray.lastDynBuf = some curr) :
    Option.Rel (CopyAlike G S curr a) (copyLoop ok fuel a curr start data)
      (copyLoop ok fuel a' curr start data) := by
  induction fuel generalizing G a a' curr start data with
  | zero => exact .none
  | succ fuel ih =>
    refine (h.mem.bufAt curr).bind fun b b' hb hb' hBuf => ?_
    have hLt := lt_of_buf? h.mem.bounded hb
    dsimp only
    by_cases hMore : data.length > bufSize - start
    · rw [if_pos hMore, if_pos hMore]
      have hTake : (data.take (bufSize - start)).length = bufSize - start :=
        List.length_take_of_le (Nat.le_of_lt hMore)
      -- the rest of the buffer is written, and with it the bytes that differed
      have hFull : BufAlike (nowhere curr)
          { b with buf := overwrite b.buf start (data.take (bufSize - start)) }
          { b' with buf := overwrite b'.buf start (data.take (bufSize - start)) } := by
        have hOver := @BufAlike.overwrite _ _ _ hBuf start (data.take (bufSize - start)) (by omega)
        refine { hOver with bytes := fun i _ => ?_ }
        by_cases hi : i < bufSize
        · refine hOver.bytes i fun hg => hg.2 ⟨(hG curr i hg.1).2, ?_⟩
          omega
        · rw [List.getElem?_eq_none (hOver.length'.le.trans (Nat.not_lt.mp hi)),
            List.getElem?_eq_none (hOver.length.le.trans (Nat.not_lt.mp hi))]
      have hClean : MemAlike nowhere S _ _ :=
        h.mem.set_buf hLt hFull fun q hq i hg => hq (hG q i hg).1
      rcases hClean.calloc ok (.inl rfl) with ⟨m₁, m₁', r, hRun, hRun', hMem, hFresh, hNew⟩
      rw [hRun, hRun']
      cases r with
      | none =>
        exact .some ⟨rfl, h.sdArray, ⟨h.ordArray, rfl⟩, h.total, fun _ => hMem, nofun, fun _ => hMem⟩
      | some new =>
        have hLt₁ : curr < m₁.fresh := by
          rw [hFresh]
          exact Nat.lt_succ_of_lt hLt
        have hLinked : MemAlike nowhere S
            (m₁.set curr (.buf { b with
              nextDynBuf := some new, buf := overwrite b.buf start (data.take (bufSize - start)) }))
            (m₁'.set curr (.buf { b' with
              nextDynBuf := some new, buf := overwrite b'.buf start (data.take (bufSize - start)) })) :=
          hMem.set_buf hLt₁ ⟨rfl, hFull.length, hFull.length', hFull.bytes⟩ fun _ _ _ => id
        have hNext : ArrayAlike nowhere S
            { a with
              mem := m₁.set curr (.buf { b with
                nextDynBuf := some new, buf := overwrite b.buf start (data.take (bufSize - start)) })
              sdArray := { a.sdArray with lastDynBuf := some new } }
            { a' with
              mem := m₁'.set curr (.buf { b' with
                nextDynBuf := some new, buf := overwrite b'.buf start (data.take (bufSize - start)) })
              sdArray := { a'.sdArray with lastDynBuf := some new } } :=
          ⟨hLinked, by rw [h.sdArray], h.ordArray, h.total⟩
        refine (ih hNext nofun (Nat.zero_le _) rfl).mono fun r r' hr => ?_
        have hAll : MemAlike nowhere S r.1.mem r'.1.mem := by
          cases hUsed : r.2 with
          | none => exact hr.failed hUsed
          | some used => exact (hr.kept used hUsed).2.mono fun _ _ => And.left
        exact ⟨hr.result, hr.sdArray, hr.ordArray, hr.total, fun _ => hAll,
          fun used hUsed => ⟨(hr.kept used hUsed).1, hAll.mono nofun⟩, fun _ => hAll⟩
    · rw [if_neg hMore, if_neg hMore]
      have hOver := @BufAlike.overwrite _ _ _ hBuf start data (by omega)
      refine .some ⟨rfl, h.sdArray, ⟨h.ordArray, rfl⟩, h.total, nofun, ?_, fun hNot => absurd hLast hNot⟩
      rintro used ⟨⟩
      refine ⟨by omega, h.mem.set_buf hLt (hOver.mono fun i hi => ⟨hi.1, ?_⟩) ?_⟩
      · have hBegin := (hG curr i hi.1).2
        have hOut := hi.2
        omega
      · exact fun q hq i hg => absurd (hG q i hg).1 hq

/-- What an insert leaves in two arrays. They may differ behind the data, if they did so before; a
failed insert leaves no difference, and neither does one that has added a buffer. -/
structure InsertAlike (G : Ptr → Nat → Prop) (S : Ptr → Prop) (a : DynamicArray)
    (r r' : DynamicArray × Nat) : Prop where
  code : r'.2 = r.2
  used : r.1.sdArray.bytesUsed ≤ bufSize
  alike : ∃ G', (∀ q i, G' q i → G q i ∧ r.1.sdArray.lastDynBuf = some q ∧
    r.1.sdArray.bytesUsed ≤ i) ∧ ArrayAlike G' S r.1 r'.1
  clean : r.2 ≠ 0 ∨ r.1.sdArray.lastDynBuf ≠ a.sdArray.lastDynBuf → ArrayAlike nowhere S r.1 r'.1

section

variable (h : ArrayAlike G S a a')

include h

theorem insertSimple_alike {data : List Byte}
    (hG : ∀ q i, G q i → a.sdArray.lastDynBuf = some q ∧ a.sdArray.bytesUsed ≤ i)
    (hUsed : a.sdArray.bytesUsed ≤ bufSize) :
    Option.Rel (fun r r' => InsertAlike G S a r r' ∧ r.1.ordArray = a.ordArray)
      (insertSimple ok a data) (insertSimple ok a' data) := by
  unfold insertSimple
  rw [h.sdArray]
  cases hLast : a.sdArray.lastDynBuf with
  | none => exact .none
  | some curr =>
    have hG' : ∀ q i, G q i → q = curr ∧ a.sdArray.bytesUsed ≤ i := by
      intro q i hg
      have := hG q i hg
      rw [hLast] at this
      exact ⟨(Option.some.inj this.1).symm, this.2⟩
    refine (copyLoop_alike h hG' hUsed hLast).bind ?_
    rintro ⟨a₁, used⟩ ⟨a₁', used'⟩ - - hCopy
    have hResult : used' = used := hCopy.result
    subst hResult
    dsimp only
    cases used' with
    | none =>
      -- the buffers allocated so far are deallocated
      have hMem := hCopy.failed rfl
      refine (hMem.bufAt curr).bind fun b b' hb _ hBuf => ?_
      rw [hMem.fresh, hBuf.next]
      refine (releaseDynBuf_alike hMem (a₁.mem.fresh + 1) b.nextDynBuf).bind fun m m' hm _ hFreed => ?_
      have hLt : curr < m.fresh := by
        rw [releaseDynBuf_fresh hm]
        exact lt_of_buf? hMem.bounded hb
      have hDone : ArrayAlike nowhere S
          { a₁ with
            mem := m.set curr (.buf { b with nextDynBuf := none })
            sdArray := { a₁.sdArray with
              lastDynBuf := some curr, bytesUsed := a.sdArray.bytesUsed } }
          { a₁' with
            mem := m'.set curr (.buf { b' with nextDynBuf := none })
            sdArray := { a₁'.sdArray with
              lastDynBuf := some curr, bytesUsed := a.sdArray.bytesUsed } } :=
        ⟨hFreed.set_buf hLt ⟨rfl, hBuf.length, hBuf.length', hBuf.bytes⟩ fun _ _ _ => id,
          by rw [hCopy.sdArray], hCopy.ordArray.1, hCopy.total⟩
      exact .some ⟨⟨rfl, hUsed, ⟨nowhere, nofun, hDone⟩, fun _ => hDone⟩, hCopy.ordArray.2⟩
    | some used =>
      rcases hCopy.kept used rfl with ⟨hFits, hMem⟩
      have hSame : ∀ {G₁}, MemAlike G₁ S a₁.mem a₁'.mem → ArrayAlike G₁ S
          { a₁ with
            sdArray := { a₁.sdArray with bytesUsed := used }
            totalSizeInBytes := a₁.totalSizeInBytes + data.length }
          { a₁' with
            sdArray := { a₁'.sdArray with bytesUsed := used }
            totalSizeInBytes := a₁'.totalSizeInBytes + data.length } := fun hm =>
        ⟨hm, by rw [hCopy.sdArray], hCopy.ordArray.1, by rw [hCopy.total]⟩
      refine .some ⟨⟨rfl, hFits, ?_, ?_⟩, hCopy.ordArray.2⟩
      · by_cases hCross : a₁.sdArray.lastDynBuf = some curr
        · refine ⟨_, fun q i hg => ⟨hg.1, ?_, hg.2⟩, hSame hMem⟩
          exact hCross.trans (congrArg some (hG' q i hg.1).1.symm)
        · exact ⟨nowhere, nofun, hSame (hCopy.crossed hCross)⟩
      · rintro (hCode | hCross)
        · exact absurd rfl hCode
        · exact hSame (hCopy.crossed fun hEq => hCross (hEq.trans hLast.symm))

/-! ## Index nodes -/

theorem insertDynIndexList_alike (dynIndex : Ptr) :
    Option.Rel (ArrayAlike G S) (insertDynIndexList a dynIndex) (insertDynIndexList a' dynIndex) := by
  unfold insertDynIndexList
  rw [h.ordArray]
  cases hLast : a.ordArray.lastDynIndex with
  | none => exact .none
  | some prev =>
    refine (h.mem.indexAt prev).bind fun n n' hn _ hNode => .some ?_
    have hMem : MemAlike G S
        (a.mem.set prev (.index { n with nextDynIndex := some dynIndex }))
        (a'.mem.set prev (.index { n' with nextDynIndex := some dynIndex })) :=
      h.mem.set_index (lt_of_index? h.mem.bounded hn)
        ⟨rfl, hNode.parent, hNode.used, hNode.child, hNode.old⟩ fun hp _ => h.mem.parent hp hn
    exact ⟨hMem, h.sdArray, rfl, h.total⟩

theorem setParent_alike (dynIndex : Ptr) {parent : Option Ptr}
    (hParent : ∀ q, parent = some q → S q) :
    Option.Rel (ArrayAlike G S) (setParent a dynIndex parent) (setParent a' dynIndex parent) := by
  refine (h.mem.indexAt dynIndex).bind fun n n' hn _ hNode => .some ?_
  exact h.withMem (h.mem.set_index (lt_of_index? h.mem.bounded hn)
    ⟨hNode.next, rfl, hNode.used, hNode.child, hNode.old⟩ fun _ => hParent)

theorem putChild_alike (dynIndex : Ptr) (i : Nat) (child : Ptr) :
    Option.Rel (ArrayAlike G S) (putChild a dynIndex i child) (putChild a' dynIndex i child) := by
  refine (h.mem.indexAt dynIndex).bind fun n n' hn _ hNode => ?_
  split_ifs with hi
  · rw [hNode.child]
    exact .some (h.withMem (h.mem.set_index (lt_of_index? h.mem.bounded hn)
      ⟨hNode.next, hNode.parent, rfl, rfl, hNode.old⟩ fun hp _ => h.mem.parent hp hn))
  · exact .none

end

theorem setParent_ordArray {dynIndex : Ptr} {parent : Option Ptr}
    (h : setParent a dynIndex parent = some a') : a'.ordArray = a.ordArray := by
  rcases bind_eq_some_iff.mp h with ⟨n, -, h⟩
  cases h
  rfl

theorem putChild_ordArray {dynIndex child : Ptr} {i : Nat}
    (h : putChild a dynIndex i child = some a') : a'.ordArray = a.ordArray := by
  rcases bind_eq_some_iff.mp h with ⟨n, -, h⟩
  split_ifs at h
  cases h
  rfl

theorem insertDynIndexList_last {dynIndex : Ptr} (h : insertDynIndexList a dynIndex = some a') :
    a'.ordArray.lastDynIndex = some dynIndex := by
  rcases bind_eq_some_iff.mp h with ⟨prev, -, h⟩
  rcases bind_eq_some_iff.mp h with ⟨n, -, h⟩
  cases h
  rfl

/-- Two arrays that are alike, with the last leaf in `S`. -/
def IndexedAlike (G : Ptr → Nat → Prop) (S : Ptr → Prop) (a a' : DynamicArray) : Prop :=
  ArrayAlike G S a a' ∧ ∀ q, a.ordArray.lastDynIndex = some q → S q

theorem finishNewIndex_alike (h : ArrayAlike G S a a') {dynIndex newDynIndex : Ptr}
    {newParent : Option Ptr} (hIndex : S dynIndex) (hNew : S newDynIndex)
    (hParent : ∀ q, newParent = some q → S q) :
    Option.Rel (IndexedAlike G S) (finishNewIndex a dynIndex newDynIndex newParent childPtr)
      (finishNewIndex a' dynIndex newDynIndex newParent childPtr) := by
  refine (insertDynIndexList_alike h newDynIndex).bind fun a₁ a₁' e₁ _ h₁ => ?_
  refine (h₁.mem.indexAt dynIndex).bind fun n n' hn _ hNode => ?_
  rw [hNode.parent]
  refine (setParent_alike h₁ newDynIndex fun q hq => ?_).bind fun a₂ a₂' e₂ _ h₂ => ?_
  · rcases or_eq_some_iff.mp hq with hNewParent | ⟨-, hOld⟩
    · exact hParent q hNewParent
    · exact h₁.mem.parent hIndex hn hOld
  · refine (putChild_alike h₂ newDynIndex 0 childPtr).imp fun a₃ a₃' e₃ _ h₃ => ⟨h₃, fun q hq => ?_⟩
    rw [putChild_ordArray e₃, setParent_ordArray e₂, insertDynIndexList_last e₁] at hq
    cases hq
    exact hNew

theorem finishNewTop_alike (h : ArrayAlike G S a a') {dynIndex newDynIndex newTop : Ptr}
    (hNew : S newDynIndex) (hTop : S newTop) :
    Option.Rel (IndexedAlike G S) (finishNewTop a dynIndex newDynIndex newTop childPtr)
      (finishNewTop a' dynIndex newDynIndex newTop childPtr) := by
  have hParent : ∀ q, some newTop = some q → S q := by
    rintro q ⟨⟩
    exact hTop
  refine (insertDynIndexList_alike h newTop).bind fun a₁ a₁' _ _ h₁ => ?_
  refine (insertDynIndexList_alike h₁ newDynIndex).bind fun a₂ a₂' e₂ _ h₂ => ?_
  refine (setParent_alike h₂ dynIndex hParent).bind fun a₃ a₃' e₃ _ h₃ => ?_
  refine (setParent_alike h₃ newDynIndex hParent).bind fun a₄ a₄' e₄ _ h₄ => ?_
  refine (putChild_alike h₄ newTop 0 dynIndex).bind fun a₅ a₅' e₅ _ h₅ => ?_
  refine (putChild_alike h₅ newTop 1 newDynIndex).bind fun a₆ a₆' e₆ _ h₆ => ?_
  have h₇ : ArrayAlike G S
      { a₆ with
        ordArray := { a₆.ordArray with
          indexLevels := a₆.ordArray.indexLevels + 1, topDynIndex := some newTop } }
      { a₆' with
        ordArray := { a₆'.ordArray with
          indexLevels := a₆'.ordArray.indexLevels + 1, topDynIndex := some newTop } } :=
    ⟨h₆.mem, h₆.sdArray, by rw [h₆.ordArray], h₆.total⟩
  refine (putChild_alike h₇ newDynIndex 0 childPtr).imp fun a₈ a₈' e₈ _ h₈ => ⟨h₈, fun q hq => ?_⟩
  rw [putChild_ordArray e₈] at hq
  have hLast : a₆.ordArray.lastDynIndex = some newDynIndex := by
    rw [putChild_ordArray e₆, putChild_ordArray e₅, setParent_ordArray e₄, setParent_ordArray e₃]
    exact insertDynIndexList_last e₂
  cases hLast.symm.trans hq
  exact hNew

/-- A buffer or node is entered in both indexes. -/
theorem insertBufInIndex_alike {fuel : Nat} {dynIndex : Ptr} (h : IndexedAlike G S a a')
    (hIndex : S dynIndex) :
    Option.Rel
      (fun r r' => IndexedAlike G S r.1 r'.1 ∧ r'.2 = r.2 ∧ ∀ q, r.2.1 = some q → S q)
      (insertBufInIndex ok fuel a dynIndex childPtr)
      (insertBufInIndex ok fuel a' dynIndex childPtr) := by
  induction fuel generalizing a a' dynIndex childPtr with
  | zero => exact .none
  | succ fuel ih =>
    rcases h with ⟨h, hLast⟩
    refine (h.mem.indexAt dynIndex).bind fun n n' hn _ hNode => ?_
    rw [hNode.used, hNode.parent]
    by_cases hFull : n.nextIndexToInsert = indexSize
    · rw [if_pos hFull, if_pos hFull]
      rcases h.mem.calloc ok (.inr rfl) with ⟨m₁, m₁', r, hRun, hRun', hMem, -, hNew⟩
      rw [hRun, hRun']
      cases r with
      | none => exact .some ⟨⟨h.withMem hMem, hLast⟩, rfl, nofun⟩
      | some new =>
        have hNewS : ∀ q, some new = some q → S q := fun q hq => (hNew q hq).1
        dsimp only
        cases hPar : n.parentDynIndex with
        | some parent =>
          refine (ih ⟨h.withMem hMem, hLast⟩ (h.mem.parent hIndex hn hPar)).bind ?_
          rintro ⟨a₁, newParent, ret⟩ ⟨a₁', newParent', ret'⟩ - - ⟨⟨h₁, hLast₁⟩, hEq, hParent⟩
          cases hEq
          dsimp only at h₁ hLast₁ hParent ⊢
          by_cases hRet : ret ≠ 0
          · rw [if_pos hRet, if_pos hRet]
            exact .some ⟨⟨h₁.withMem (h₁.mem.free new), hLast₁⟩, rfl, hNewS⟩
          · rw [if_neg hRet, if_neg hRet]
            refine (finishNewIndex_alike h₁ hIndex (hNewS new rfl) hParent).bind
              fun a₂ a₂' _ _ h₂ => ?_
            exact .some ⟨h₂, rfl, hNewS⟩
        | none =>
          rcases hMem.calloc ok (.inr rfl) with ⟨m₂, m₂', r, hTop, hTop', hMem₂, -, hNewTop⟩
          dsimp only
          rw [hTop, hTop']
          cases r with
          | none => exact .some ⟨⟨h.withMem (hMem₂.free new), hLast⟩, rfl, hNewS⟩
          | some newTop =>
            refine (finishNewTop_alike (h.withMem hMem₂) (hNewS new rfl) (hNewTop newTop rfl).1).bind
              fun a₂ a₂' _ _ h₂ => ?_
            exact .some ⟨h₂, rfl, hNewS⟩
    · rw [if_neg hFull, if_neg hFull]
      refine (putChild_alike h dynIndex _ childPtr).bind fun a₁ a₁' e₁ _ h₁ => ?_
      refine .some ⟨⟨h₁, fun q hq => hLast q ?_⟩, rfl, nofun⟩
      rwa [putChild_ordArray e₁] at hq

/-! ## The way to the top -/

theorem walkParents_fresh {f : DynIndex → DynIndex} {fuel : Nat} {m : Mem} {p : Option Ptr}
    (h : walkParents f fuel m p = some m') : m'.fresh = m.fresh := by
  induction fuel generalizing m p with
  | zero =>
    cases p with
    | none =>
      cases h
      rfl
    | some p => cases h
  | succ fuel ih =>
    cases p with
    | none =>
      cases h
      rfl
    | some p =>
      rcases bind_eq_some_iff.mp h with ⟨n, -, hRest⟩
      exact (ih hRest).trans rfl

/-- A walk does the same to both memories when the change to a node does, on the way `T`. -/
theorem walkParents_alike {f : DynIndex → DynIndex} {T : Ptr → Prop}
    (hParent : ∀ n, (f n).parentDynIndex = n.parentDynIndex)
    (hNode : ∀ q n n', T q → IndexAlike (S q) n n' → IndexAlike (S q) (f n) (f n'))
    (hWay : ∀ m m', MemAlike G S m m' → ∀ q n r, T q → index? m q = some n →
      n.parentDynIndex = some r → T r)
    (fuel : Nat) (h : MemAlike G S m m') (p : Option Ptr) (hp : ∀ q, p = some q → T q) :
    Option.Rel (MemAlike G S) (walkParents f fuel m p) (walkParents f fuel m' p) := by
  induction fuel generalizing m m' p with
  | zero =>
    cases p with
    | none => exact .some h
    | some p => exact .none
  | succ fuel ih =>
    cases p with
    | none => exact .some h
    | some p =>
      refine (h.indexAt p).bind fun n n' hn _ hAlike => ?_
      have hp : T p := hp p rfl
      rw [hAlike.parent]
      refine ih (h.set_index (lt_of_index? h.bounded hn) (hNode p n n' hp hAlike) ?_) _ ?_
      · intro hs q hq
        rw [hParent] at hq
        exact h.parent hs hn hq
      · intro q hq
        exact hWay m m' h p n q hp hn hq

/-- The restore looks at nodes in `S` alone. -/
theorem restore_alike (fuel : Nat) (h : MemAlike G S m m') (p : Option Ptr)
    (hp : ∀ q, p = some q → S q) :
    Option.Rel (MemAlike G S) (walkParents restoreIndex fuel m p)
      (walkParents restoreIndex fuel m' p) := by
  have hParent : ∀ n, (restoreIndex n).parentDynIndex = n.parentDynIndex := fun _ => rfl
  refine walkParents_alike hParent (fun q n n' hq hAlike => ?_)
    (fun m m' h q n r hq hn hr => h.parent hq hn hr) fuel h p hp
  exact ⟨hAlike.next, hAlike.parent, hAlike.old hq, hAlike.child, hAlike.old⟩

theorem save_alike (fuel : Nat) (h : MemAlike G S m m') (p : Option Ptr) :
    Option.Rel (MemAlike G S) (walkParents saveIndex fuel m p)
      (walkParents saveIndex fuel m' p) := by
  have hParent : ∀ n, (saveIndex n).parentDynIndex = n.parentDynIndex := fun _ => rfl
  refine walkParents_alike hParent (fun q n n' _ hAlike => ?_)
    (fun _ _ _ _ _ _ _ _ _ => trivial) fuel h p fun _ _ => trivial
  exact ⟨hAlike.next, hAlike.parent, hAlike.used, hAlike.child, fun _ => hAlike.used⟩

/-- A node and its parent. -/
def Above (m : Mem) (p q : Ptr) : Prop := ∃ n, index? m p = some n ∧ n.parentDynIndex = some q

/-- A node on the way to the top. -/
def OnWay (m : Mem) (p : Option Ptr) (q : Ptr) : Prop :=
  ∃ leaf, p = some leaf ∧ Relation.ReflTransGen (Above m) leaf q

/-- The position of a node has been remembered. -/
def Saved (m : Mem) (q : Ptr) : Prop :=
  ∀ n, index? m q = some n → n.oldNextIndexToInsert = n.nextIndexToInsert

theorem above_save {n : DynIndex} (hn : index? m p = some n) (q r : Ptr) :
    Above (m.set p (.index (saveIndex n))) q r ↔ Above m q r := by
  unfold Above
  by_cases hq : q = p
  · subst hq
    have hNew : index? (m.set q (.index (saveIndex n))) q = some (saveIndex n) := by simp [index?]
    rw [hNew, hn]
    constructor
    · rintro ⟨_, ⟨⟩, hr⟩
      exact ⟨n, rfl, hr⟩
    · rintro ⟨_, ⟨⟩, hr⟩
      exact ⟨saveIndex n, rfl, hr⟩
  · rw [index?_congr (set_of_ne m _ hq)]

theorem saved_save (h : Saved m p) {q : Ptr} {n : DynIndex} :
    Saved (m.set q (.index (saveIndex n))) p := by
  intro k hk
  by_cases hp : p = q
  · subst hp
    rw [index?_eq_some, set_self] at hk
    cases hk
    rfl
  · rw [index?_congr (set_of_ne m _ hp)] at hk
    exact h k hk

theorem saved_self (m : Mem) (p : Ptr) (n : DynIndex) : Saved (m.set p (.index (saveIndex n))) p := by
  intro k hk
  rw [index?_eq_some, set_self] at hk
  cases hk
  rfl

theorem walk_above {fuel : Nat} {m : Mem} {p : Option Ptr}
    (h : walkParents saveIndex fuel m p = some m') (q r : Ptr) : Above m' q r ↔ Above m q r := by
  induction fuel generalizing m p with
  | zero =>
    cases p with
    | none =>
      cases h
      exact Iff.rfl
    | some p => cases h
  | succ fuel ih =>
    cases p with
    | none =>
      cases h
      exact Iff.rfl
    | some p =>
      rcases bind_eq_some_iff.mp h with ⟨n, hn, hRest⟩
      exact (ih hRest).trans (above_save hn q r)

theorem walk_keeps {fuel : Nat} {m : Mem} {p : Option Ptr} {q : Ptr}
    (h : walkParents saveIndex fuel m p = some m') (hq : Saved m q) : Saved m' q := by
  induction fuel generalizing m p with
  | zero =>
    cases p with
    | none =>
      cases h
      exact hq
    | some p => cases h
  | succ fuel ih =>
    cases p with
    | none =>
      cases h
      exact hq
    | some p =>
      rcases bind_eq_some_iff.mp h with ⟨n, -, hRest⟩
      exact ih hRest (saved_save hq)

/-- All positions on the way are remembered. -/
theorem walk_saved {fuel : Nat} {m : Mem} {p : Option Ptr} {q : Ptr}
    (h : walkParents saveIndex fuel m p = some m') (hq : OnWay m p q) : Saved m' q := by
  induction fuel generalizing m p with
  | zero =>
    rcases hq with ⟨leaf, rfl, -⟩
    cases h
  | succ fuel ih =>
    rcases hq with ⟨leaf, rfl, hWay⟩
    rcases bind_eq_some_iff.mp h with ⟨n, hn, hRest⟩
    rcases hWay.cases_head with rfl | ⟨r, hAbove, hUp⟩
    · exact walk_keeps hRest (saved_self m leaf n)
    · rcases hAbove with ⟨k, hk, hr⟩
      rw [hn] at hk
      cases hk
      have hUp' := Relation.ReflTransGen.mono (fun x y => (above_save hn x y).mpr) r q hUp
      exact ih hRest ⟨r, hr, hUp'⟩

end IClaustron.DynArray
