import IClaustron.DynArray.InsertOutcome
import IClaustron.DynArray.Refine
import IClaustron.Lib.Forall2

/-!
# DynArray.FailedInsert — what a failed insert leaves behind

A program that uses an array sees the return codes, the bytes of the reads that succeed and the
current size. An insert that fails because a data buffer is missing cannot be noticed by any
later calls, whatever allocations fail in these. One that fails because an index node is missing
leaves the size larger than the data.

* `Twin` — two arrays that the same calls keep apart only behind the data.
* `failed_insert_iff` — the result, for both kinds of arrays; `missing_node_grows` — what a missing
  index node does.

Scope limits: the two calls of the array operations that end an array or write it to disk are
left out, and the result of a read whose 64-bit sum of position and size wraps is its code.
-/

namespace IClaustron.DynArray

open Lib List Option

/-! ## Calls -/

/-- IC_DYNAMIC_ARRAY_OPS: which of the two implementations an array has. -/
inductive Kind where
  | simple
  | ordered
deriving DecidableEq

/-- A new array; its allocations succeed. -/
def createOf : Kind → Option DynamicArray
  | .simple => createSimple (fun _ => true) Heap.empty
  | .ordered => createOrdered (fun _ => true) Heap.empty

/-- `ic_insert_dynamic_array`. -/
def insertOf : Kind → (Nat → Bool) → DynamicArray → List Byte → Option (DynamicArray × Nat)
  | .simple => insertSimple
  | .ordered => insertOrdered

def findPosOf : Kind → DynamicArray → Nat → Option (Nat × Option Ptr × Nat)
  | .simple => findPosSimple
  | .ordered => findPosOrdered

/-- The calls of a user; an insert comes with the outcomes of its allocations. -/
inductive Call where
  | insert (ok : Nat → Bool) (data : List Byte)
  | write (position : Nat) (data : List Byte)
  | read (position size : Nat)
  | currentSize

/-- What a user gets from a call. -/
inductive Answer where
  | code (ret : Nat)
  | bytes (ret : Nat) (data : List Byte)
  | size (n : Nat)
deriving DecidableEq

/-- A call and its answer. The buffer of a read counts when the read has succeeded. -/
def call (kind : Kind) (a : DynamicArray) : Call → Option (DynamicArray × Answer)
  | .insert ok data => do
    let (a', ret) ← insertOf kind ok a data
    some (a', .code ret)
  | .write position data => do
    let (a', ret) ← writeWith (findPosOf kind) a position data
    some (a', .code ret)
  | .read position size => do
    let (ret, data) ← readWith (findPosOf kind) a position size
    some (a, .bytes ret (if ret = 0 ∧ position + size < 2 ^ 64 then data else []))
  | .currentSize => some (a, .size a.totalSizeInBytes)

def step (kind : Kind) (a : DynamicArray) (c : Call) : Option DynamicArray :=
    (call kind a c).map Prod.fst

/-- The answers to some calls, up to the one at which the program stops. -/
def answers (kind : Kind) : DynamicArray → List Call → List (Option Answer)
  | _, [] => []
  | a, c :: cs =>
    match call kind a c with
    | none => [none]
    | some (a', answer) => some answer :: answers kind a' cs

/-- The insert fails, and no later calls tell the array from one in which it was not called (and
where the next addresses are the same). The same objects are allocated as before, with the same
links between them. -/
def FailedUnchanged (kind : Kind) (ok : Nat → Bool) (a : DynamicArray) (data : List Byte) : Prop :=
  ∃ a' ret, insertOf kind ok a data = some (a', ret) ∧ ret ≠ 0 ∧
    (∀ calls, answers kind a' calls = answers kind (a.movedOn a'.mem.fresh) calls) ∧
    (∀ p, Option.Rel (CellAlike (fun _ => True) False) (a.mem.cells p) (a'.mem.cells p)) ∧
    a'.sdArray = a.sdArray ∧ a'.ordArray = a.ordArray

/-- The allocations behind those of the data buffers succeed. -/
def NodesAvailable (a : DynamicArray) : Call → Prop
  | .insert ok data =>
    ∀ j, buffersNeeded a.sdArray.bytesUsed data.length ≤ j → ok (a.mem.fresh + j) = true
  | _ => True

/-- The array stores `bytes`. -/
def Holds : Kind → DynamicArray → List Byte → Prop
  | .simple => fun a bytes => ∃ bufs, SimpleInv a bufs bytes
  | .ordered => OrdInv

variable {kind : Kind} {G : Ptr → Nat → Prop} {S : Ptr → Prop} {m m' : Mem} {ok : Nat → Bool}
  {a a' : DynamicArray} {bytes data : List Byte}

/-! ## Alike arrays store the same bytes -/

theorem MemAlike.bounded_right (h : MemAlike G S m m') : m'.Bounded := by
  intro q c hq
  have hCell := h.cells q
  rw [hq] at hCell
  revert hCell
  generalize hc : m.cells q = c
  rintro (hCell | _)
  rw [h.fresh]
  exact h.bounded q _ hc

/-- The contents of two buffers with one address. -/
def SameOutside (G : Ptr → Nat → Prop) (x y : Ptr × List Byte) : Prop :=
  y.1 = x.1 ∧ y.2.length = x.2.length ∧ ∀ i, ¬ G x.1 i → y.2[i]? = x.2[i]?

variable {l : List (Ptr × List Byte)} {r : DynamicArray × Nat} {position size : Nat}
  {findPos : DynamicArray → Nat → Option (Nat × Option Ptr × Nat)}

theorem BufSeg.alike {t : Option Ptr} (h : BufSeg m l t) (hMem : MemAlike G S m m') :
    ∃ l', BufSeg m' l' t ∧ headPtr l' t = headPtr l t ∧ List.Forall₂ (SameOutside G) l l' := by
  induction l with
  | nil => exact ⟨[], trivial, rfl, .nil⟩
  | cons x rest ih =>
    rcases x with ⟨p, c⟩
    rcases h with ⟨hBuf, hLen, hRest⟩
    rcases ih hRest with ⟨rest', hRest', hHead, hSame⟩
    rcases (hMem.bufAt p).returns hBuf with ⟨b', hBuf', hAlike⟩
    refine ⟨(p, b'.buf) :: rest', ⟨?_, hAlike.length', hRest'⟩, rfl, .cons ?_ hSame⟩
    · rw [hBuf', hHead]
      exact congrArg (fun next => some (DynBuf.mk next b'.buf)) hAlike.next
    · exact ⟨rfl, hAlike.length'.trans hLen.symm, hAlike.bytes⟩

theorem map_fst_of_same {l' : List (Ptr × List Byte)} (h : List.Forall₂ (SameOutside G) l l') :
    l'.map Prod.fst = l.map Prod.fst := by
  induction h with
  | nil => rfl
  | cons hx _ ih => rw [map_cons, map_cons, hx.1, ih]

/-- Where nothing differs the buffers are the same. -/
theorem eq_of_same {l' : List (Ptr × List Byte)} (h : List.Forall₂ (SameOutside G) l l')
    (hG : ∀ p ∈ l.map Prod.fst, ∀ i, ¬ G p i) : l' = l := by
  induction h with
  | nil => rfl
  | @cons x y l l' hx _ ih =>
    have hBytes : y.2 = x.2 := ext_getElem? fun i =>
      hx.2.2 i (hG x.1 mem_cons_self i)
    rw [ih fun p hp => hG p (mem_cons_of_mem _ hp)]
    exact congrArg (· :: l) (Prod.ext hx.1 hBytes)

/-- The array stores as many bytes, in buffers at the same addresses. -/
theorem SimpleInv.alike {bufs : List (Ptr × List Byte)} (h : SimpleInv a bufs bytes)
    (hAlike : ArrayAlike G S a a') :
    ∃ bufs', List.Forall₂ (SameOutside G) bufs bufs' ∧
      SimpleInv a' bufs' ((flat bufs').take bytes.length) := by
  rcases h.seg.alike hAlike.mem with ⟨bufs', hSeg, hHead, hSame⟩
  have hPtrs := map_fst_of_same hSame
  have hLength : bufs'.length = bufs.length := hSame.length_eq.symm
  have hTake : ((flat bufs').take bytes.length).length = bytes.length := by
    rw [length_take_of_le]
    rw [hSeg.length_flat, hLength]
    exact h.length_le
  refine ⟨bufs', hSame, ⟨hAlike.mem.bounded_right, hSeg, hPtrs ▸ h.nodup, ?_, ?_, ?_, ?_, ?_, ?_, ?_, ?_⟩⟩
  · rintro rfl
    exact h.nonempty (eq_nil_of_length_eq_zero hLength.symm)
  · rw [hAlike.sdArray, hHead]
    exact h.first
  · rw [hAlike.sdArray, h.last, ← getLast?_map, ← getLast?_map, hPtrs]
  · rw [hAlike.sdArray]
    exact h.used_le
  · rw [hAlike.sdArray, hLength]
    exact h.used_pos
  · rw [hAlike.total, hTake]
    exact h.total
  · rw [hTake, hLength, hAlike.sdArray]
    exact h.size
  · rw [hTake]

/-- What differs lies behind the data. -/
def BehindData (G : Ptr → Nat → Prop) (a : DynamicArray) : Prop :=
  ∀ q i, G q i → a.sdArray.lastDynBuf = some q ∧ a.sdArray.bytesUsed ≤ i

theorem SimpleInv.alike_behind {bufs : List (Ptr × List Byte)} (h : SimpleInv a bufs bytes)
    (hAlike : ArrayAlike G S a a') (hG : BehindData G a) :
    ∃ bufs', bufs'.map Prod.fst = bufs.map Prod.fst ∧ SimpleInv a' bufs' bytes := by
  rcases h.alike hAlike with ⟨bufs', hSame, hInv⟩
  refine ⟨bufs', map_fst_of_same hSame, ?_⟩
  have hBytes : (flat bufs').take bytes.length = bytes := by
    obtain ⟨pre, ⟨curr, c⟩, rfl⟩ : ∃ pre x, bufs = pre ++ [x] :=
      ⟨_, _, (dropLast_append_getLast h.nonempty).symm⟩
    have hLast : a.sdArray.lastDynBuf = some curr := by
      rw [h.last]
      simp
    rcases forall₂_concat_left hSame with ⟨pre', ⟨curr', c'⟩, rfl, hPre, hx⟩
    have hNodup := h.nodup
    rw [map_append, nodup_append] at hNodup
    -- the buffers in front of the last one are the same
    have hPreEq : pre' = pre := by
      refine eq_of_same hPre fun p hp i hg => ?_
      have hCurr := (hG p i hg).1
      rw [hLast] at hCurr
      exact hNodup.2.2 p hp curr (by simp) (Option.some.inj hCurr).symm
    subst hPreEq
    have hSize := h.size
    have hPreLen := (bufSeg_append.mp h.seg).1.length_flat
    rw [length_append, length_singleton, Nat.mul_succ] at hSize
    have hUsed : bytes.length - (flat pre').length = a.sdArray.bytesUsed := by omega
    have hPart : c'.take a.sdArray.bytesUsed = c.take a.sdArray.bytesUsed := by
      refine ext_getElem? fun i => ?_
      rw [getElem?_take, getElem?_take]
      split_ifs with hi
      · exact hx.2.2 i fun hg => Nat.not_le.mpr hi (hG curr i hg).2
      · rfl
    have hFlat : ∀ x : Ptr × List Byte, (flat (pre' ++ [x])).take bytes.length =
        flat pre' ++ x.2.take a.sdArray.bytesUsed := by
      intro x
      rw [flat_append, take_append, take_of_length_le (by omega), hUsed]
      simp [flat]
    calc (flat (pre' ++ [(curr', c')])).take bytes.length
        = flat pre' ++ c'.take a.sdArray.bytesUsed := hFlat (curr', c')
      _ = flat pre' ++ c.take a.sdArray.bytesUsed := by rw [hPart]
      _ = (flat (pre' ++ [(curr, c)])).take bytes.length := (hFlat (curr, c)).symm
      _ = bytes := h.bytes_eq.symm
  exact hBytes ▸ hInv

theorem MemAlike.node (h : MemAlike G S m m') (p : Ptr) : node? m' p = node? m p := by
  have hNode := h.indexAt p
  unfold node?
  revert hNode
  generalize index? m p = n, index? m' p = n'
  rintro (hn | _)
  · simp only [map_some, DynIndex.node, hn.parent, hn.used, hn.child]
  · rfl

theorem Indexed.alike {ptrs : List Ptr} {seq : Nat → List Ptr} {levels : Nat} {top : Ptr}
    {place : Ptr → Option (Nat × Nat)} (h : Indexed a ptrs seq levels top place)
    (hAlike : ArrayAlike G S a a') : Indexed a' ptrs seq levels top place where
  tree := h.tree.congr (fun _ _ p _ _ => hAlike.mem.node p) hAlike.mem.fresh.ge
  seq_zero := h.seq_zero
  topDynIndex := hAlike.ordArray ▸ h.topDynIndex
  indexLevels := hAlike.ordArray ▸ h.indexLevels
  lastDynIndex := hAlike.ordArray ▸ h.lastDynIndex

section

variable (h : Holds kind a bytes)

include h

theorem Holds.alike_behind (hAlike : ArrayAlike G S a a') (hG : BehindData G a) :
    Holds kind a' bytes := by
  cases kind with
  | simple =>
    rcases h with ⟨bufs, hSimple⟩
    rcases hSimple.alike_behind hAlike hG with ⟨bufs', -, hSimple'⟩
    exact ⟨bufs', hSimple'⟩
  | ordered =>
    rcases h with ⟨bufs, seq, levels, top, place, hSimple, hIndexed⟩
    rcases hSimple.alike_behind hAlike hG with ⟨bufs', hPtrs, hSimple'⟩
    exact ⟨bufs', seq, levels, top, place, hSimple', hPtrs ▸ hIndexed.alike hAlike⟩

theorem Holds.alike (hAlike : ArrayAlike G S a a') : ∃ bytes', Holds kind a' bytes' := by
  cases kind with
  | simple =>
    rcases h with ⟨bufs, hSimple⟩
    rcases hSimple.alike hAlike with ⟨bufs', -, hSimple'⟩
    exact ⟨_, bufs', hSimple'⟩
  | ordered =>
    rcases h with ⟨bufs, seq, levels, top, place, hSimple, hIndexed⟩
    rcases hSimple.alike hAlike with ⟨bufs', hSame, hSimple'⟩
    exact ⟨_, bufs', seq, levels, top, place, hSimple', map_fst_of_same hSame ▸ hIndexed.alike hAlike⟩

theorem Holds.simple : ∃ bufs, SimpleInv a bufs bytes := by
  cases kind with
  | simple => exact h
  | ordered =>
    rcases h with ⟨bufs, -, -, -, -, hSimple, -⟩
    exact ⟨bufs, hSimple⟩

theorem Holds.used_le : a.sdArray.bytesUsed ≤ bufSize := by
  rcases h.simple with ⟨bufs, hSimple⟩
  exact hSimple.used_le

theorem Holds.total : a.totalSizeInBytes = bytes.length := by
  rcases h.simple with ⟨bufs, hSimple⟩
  exact hSimple.total

theorem Holds.movedOn {f : Nat} (hf : a.mem.fresh ≤ f) : Holds kind (a.movedOn f) bytes := by
  have hBounded : ∀ {bufs}, SimpleInv a bufs bytes → SimpleInv (a.movedOn f) bufs bytes :=
    fun hSimple => hSimple.congr (fun _ => rfl)
      (fun q c hq => (hSimple.bounded q c hq).trans_le hf) rfl rfl
  cases kind with
  | simple =>
    rcases h with ⟨bufs, hSimple⟩
    exact ⟨bufs, hBounded hSimple⟩
  | ordered =>
    rcases h with ⟨bufs, seq, levels, top, place, hSimple, hIndexed⟩
    exact ⟨bufs, seq, levels, top, place, hBounded hSimple, hIndexed.of_simple (fun _ => rfl) hf rfl⟩

/-- A successful insert appends. -/
theorem Holds.insert (hRun : insertOf kind (fun _ => true) a data = some r) :
    Holds kind r.1 (bytes ++ data) := by
  cases kind with
  | simple =>
    rcases h with ⟨bufs, hSimple⟩
    rcases @insertSimple_spec _ _ _ hSimple (fun _ => true) (fun _ => rfl) data
      with ⟨a', bufs', -, hRun', hSimple', -⟩
    cases hRun.symm.trans hRun'
    exact ⟨bufs', hSimple'⟩
  | ordered =>
    rcases insertOrdered_spec h data with ⟨a', hRun', h'⟩
    cases hRun.symm.trans hRun'
    exact h'

theorem Holds.read (hSize : 0 < size) (hIn : position + size ≤ bytes.length) :
    readWith (findPosOf kind) a position size = some (0, (bytes.drop position).take size) := by
  cases kind with
  | simple =>
    rcases h with ⟨bufs, hSimple⟩
    exact readWith_spec hSimple hSimple.looksUp_simple hSize hIn
  | ordered =>
    rcases h with ⟨bufs, seq, levels, top, place, hSimple, hIndexed⟩
    exact readWith_spec hSimple hIndexed.looksUp hSize hIn

end

/-! ## Calls on alike arrays -/

theorem findPos_alike (h : ArrayAlike G S a a') (pos : Nat) :
    findPosOf kind a' pos = findPosOf kind a pos := by
  cases kind with
  | simple => exact findPosSimple_alike h pos
  | ordered => exact findPosOrdered_alike h pos

theorem insert_alike (h : ArrayAlike G S a a') (hG : BehindData G a)
    (hUsed : a.sdArray.bytesUsed ≤ bufSize) :
    Option.Rel (fun r r' => InsertAlike G (r.1.mem.fresh ≤ ·) a r r')
      (insertOf kind ok a data) (insertOf kind ok a' data) := by
  cases kind with
  | simple => exact (insertSimple_alike h hG hUsed).mono fun _ _ hr => hr.1.forget
  | ordered => exact insertOrdered_alike h hG hUsed

theorem insert_outcome (hUsed : a.sdArray.bytesUsed ≤ bufSize)
    (h : insertOf kind ok a data = some r) : InsertOutcome (insertOf kind) ok a data r := by
  cases kind with
  | simple =>
    rcases insertSimple_outcome hUsed h with ⟨hCode, hAll, hOk, -⟩ | ⟨hCode, hFail⟩
    · exact .inl ⟨hCode, hAll, hOk⟩
    · refine .inr (.inl ⟨?_, hFail⟩)
      rw [hCode]
      decide
  | ordered => exact insertOrdered_outcome hUsed h

theorem MemAlike.left (h : MemAlike G S m m') : MemAlike nowhere S m m where
  cells q := by
    refine Option.Rel.refl fun c hc => ?_
    have hCell := h.cells q
    rw [hc] at hCell
    revert hCell
    generalize m'.cells q = c'
    rintro (hCell | _)
    cases hCell with
    | buf hb => exact .buf ⟨rfl, hb.length, hb.length, fun _ _ => rfl⟩
    | index hn => exact .index ⟨rfl, rfl, rfl, rfl, fun _ => rfl⟩
  fresh := rfl
  bounded := h.bounded
  new := h.new
  closed := h.closed

/-- The same calls keep the two arrays apart only behind the data, or not at all. -/
structure Twin (kind : Kind) (a a' : DynamicArray) : Prop where
  used : a.sdArray.bytesUsed ≤ bufSize
  alike : ∃ G, BehindData G a ∧ ArrayAlike G (a.mem.fresh ≤ ·) a a' ∧
    ((∀ q i, ¬ G q i) ∨ ∃ bytes, Holds kind a bytes)

theorem Twin.of_same (hUsed : a.sdArray.bytesUsed ≤ bufSize)
    (h : ArrayAlike nowhere (a.mem.fresh ≤ ·) a a') : Twin kind a a' :=
  ⟨hUsed, nowhere, nofun, h, .inl fun _ _ => id⟩

theorem Twin.left (h : Twin kind a a') : ArrayAlike nowhere (a.mem.fresh ≤ ·) a a := by
  rcases h.alike with ⟨G, -, hAlike, -⟩
  exact ⟨hAlike.mem.left, rfl, rfl, rfl⟩

theorem insert_twin (h : Twin kind a a') :
    Option.Rel (fun r r' => r'.2 = r.2 ∧ Twin kind r.1 r'.1)
      (insertOf kind ok a data) (insertOf kind ok a' data) := by
  rcases h.alike with ⟨G, hG, hAlike, hHolds⟩
  refine (insert_alike hAlike hG h.used).imp fun r r' hRun _ hr => ⟨hr.code, ?_⟩
  by_cases hClean : r.2 ≠ 0 ∨ r.1.sdArray.lastDynBuf ≠ a.sdArray.lastDynBuf
  · exact .of_same hr.used (hr.clean hClean)
  · rcases hr.alike with ⟨G', hG', hAlike'⟩
    refine ⟨hr.used, G', fun q i hg => (hG' q i hg).2, hAlike', ?_⟩
    rcases hHolds with hSame | ⟨bytes, hBytes⟩
    · exact .inl fun q i hg => hSame q i (hG' q i hg).1
    · -- the data went into the last buffer
      rcases insert_outcome h.used hRun with ⟨-, hAll, -⟩ | ⟨hCode, -⟩ | ⟨hCode, -⟩
      · exact .inr ⟨_, hBytes.insert hAll⟩
      · exact absurd (.inl hCode) hClean
      · exact absurd (.inl hCode) hClean

/-- A write changes bytes of buffers alone. -/
theorem writeLoop_kept {fuel bufPos : Nat} {p : Option Ptr} {r : Mem × Nat}
    (h : MemAlike (fun _ _ => True) S m m') (hRun : writeLoop fuel m' p bufPos data = some r) :
    MemAlike (fun _ _ => True) S m r.1 := by
  induction fuel generalizing m' p bufPos data with
  | zero => cases hRun
  | succ fuel ih =>
    cases p with
    | none =>
      cases hRun
      exact h
    | some p =>
      rcases bind_eq_some_iff.mp hRun with ⟨b', hb', hRun⟩
      dsimp only at hRun
      set part := data.take (min data.length (bufSize - bufPos)) with hPart
      have hLen : part.length = min data.length (bufSize - bufPos) :=
        length_take_of_le (Nat.min_le_left _ _)
      have hMem : MemAlike (fun _ _ => True) S m
          (m'.set p (.buf { b' with buf := overwrite b'.buf bufPos part })) := by
        refine ⟨fun q => ?_, h.fresh, h.bounded, h.new, h.closed⟩
        by_cases hq : q = p
        · subst hq
          have hCell := h.cells q
          rw [Heap.set_self]
          rw [buf?_eq_some.mp hb'] at hCell
          revert hCell
          generalize m.cells q = c
          rintro (hCell | _)
          cases hCell with
          | buf hb =>
            refine .some (.buf ⟨hb.next, hb.length, ?_, fun _ hi => absurd trivial hi⟩)
            by_cases hIn : bufPos ≤ bufSize
            · exact (length_overwrite (by rw [hb.length']; omega)).trans hb.length'
            · have hNil : part = [] := eq_nil_of_length_eq_zero (by omega)
              rw [hNil, overwrite_nil]
              exact hb.length'
        · rw [Heap.set_of_ne m' _ hq]
          exact h.cells q
      split_ifs at hRun with hMore
      · exact ih hMem hRun
      · cases hRun
        exact hMem

theorem writeWith_kept (hSelf : MemAlike nowhere S a.mem a.mem)
    (hRun : writeWith findPos a position data = some r) : ArrayAlike (fun _ _ => True) S a r.1 := by
  have hEvery : MemAlike (fun _ _ => True) S a.mem a.mem := hSelf.mono fun _ _ _ => trivial
  rcases bind_eq_some_iff.mp hRun with ⟨⟨ret, dynBuf, bufPos⟩, -, hRun⟩
  dsimp only at hRun
  split_ifs at hRun with hRet
  · cases hRun
    exact ⟨hEvery, rfl, rfl, rfl⟩
  · rcases bind_eq_some_iff.mp hRun with ⟨⟨m, ret⟩, hWrite, hRun⟩
    cases hRun
    exact ⟨writeLoop_kept hEvery hWrite, rfl, rfl, rfl⟩

theorem write_twin (h : Twin kind a a') (position : Nat) :
    Option.Rel (fun r r' => r'.2 = r.2 ∧ Twin kind r.1 r'.1)
      (writeWith (findPosOf kind) a position data) (writeWith (findPosOf kind) a' position data) := by
  rcases h.alike with ⟨G, hG, hAlike, hHolds⟩
  refine (writeWith_alike hAlike (findPos_alike hAlike position) data).imp
    fun r r' hRun _ ⟨hCode, hr⟩ => ⟨hCode, ?_⟩
  have hKept := writeWith_kept hAlike.mem.left hRun
  have hFresh : r.1.mem.fresh = a.mem.fresh := hKept.mem.fresh
  refine ⟨hKept.sdArray ▸ h.used, G, fun q i hg => hKept.sdArray ▸ hG q i hg, hFresh ▸ hr, ?_⟩
  exact hHolds.imp_right fun ⟨bytes, hBytes⟩ => hBytes.alike hKept

theorem readWith_nil {r : Nat × List Byte} (hRun : readWith findPos a position 0 = some r) :
    r.2 = [] := by
  unfold readWith at hRun
  split_ifs at hRun with hOver
  · cases hRun
    rfl
  · rcases bind_eq_some_iff.mp hRun with ⟨⟨ret, dynBuf, bufPos⟩, -, hRun⟩
    dsimp only at hRun
    split_ifs at hRun with hRet
    · cases hRun
      rfl
    · cases dynBuf with
      | none =>
        cases hRun
        rfl
      | some p =>
        rcases bind_eq_some_iff.mp hRun with ⟨b, -, hRun⟩
        rw [Nat.zero_min, if_neg (Nat.lt_irrefl 0)] at hRun
        cases hRun
        rfl

/-- A read that succeeds is inside the data, unless the sum wraps. -/
theorem readWith_in {r : Nat × List Byte} (hRun : readWith findPos a position size = some r)
    (hCode : r.1 = 0) (hSum : position + size < 2 ^ 64) : position + size ≤ a.totalSizeInBytes := by
  unfold readWith at hRun
  rw [Nat.mod_eq_of_lt hSum] at hRun
  split_ifs at hRun with hOver
  · cases hRun
    cases hCode
  · exact Nat.not_lt.mp hOver

theorem read_twin (h : Twin kind a a') (position size : Nat) :
    Option.Rel (fun r r' => r'.1 = r.1 ∧ (r.1 = 0 → position + size < 2 ^ 64 → r'.2 = r.2))
      (readWith (findPosOf kind) a position size) (readWith (findPosOf kind) a' position size) := by
  rcases h.alike with ⟨G, hG, hAlike, hHolds⟩
  refine (readWith_alike hAlike (findPos_alike hAlike position) size).imp
    fun r r' hRun hRun' ⟨hCode, hSame⟩ => ⟨hCode, fun hOk hSum => ?_⟩
  rcases hHolds with hEvery | ⟨bytes, hBytes⟩
  · rw [hSame hEvery]
  · cases size with
    | zero => rw [readWith_nil hRun, readWith_nil hRun']
    | succ size =>
      have hIn := readWith_in hRun hOk hSum
      rw [hBytes.total] at hIn
      have hRead := hBytes.read (Nat.succ_pos size) hIn
      have hRead' := (hBytes.alike_behind hAlike hG).read (Nat.succ_pos size) hIn
      rw [hRead] at hRun
      rw [hRead'] at hRun'
      cases hRun
      cases hRun'
      rfl

/-- A call has the same answer on both. -/
theorem call_twin (h : Twin kind a a') (c : Call) :
    Option.Rel (fun r r' => r'.2 = r.2 ∧ Twin kind r.1 r'.1) (call kind a c) (call kind a' c) := by
  cases c with
  | insert ok data =>
    exact (insert_twin h).bind fun r r' _ _ hr => .some ⟨congrArg Answer.code hr.1, hr.2⟩
  | write position data =>
    exact (write_twin h position).bind fun r r' _ _ hr => .some ⟨congrArg Answer.code hr.1, hr.2⟩
  | read position size =>
    refine (read_twin h position size).bind fun r r' _ _ hr => .some ⟨?_, h⟩
    dsimp only
    rw [hr.1]
    by_cases hOk : r.1 = 0 ∧ position + size < 2 ^ 64
    · rw [if_pos hOk, if_pos hOk, hr.2 hOk.1 hOk.2]
    · rw [if_neg hOk, if_neg hOk]
  | currentSize =>
    rcases h.alike with ⟨G, -, hAlike, -⟩
    exact .some ⟨congrArg Answer.size hAlike.total, h⟩

/-- No calls tell the two apart. -/
theorem answers_twin (h : Twin kind a a') (calls : List Call) :
    answers kind a' calls = answers kind a calls := by
  induction calls generalizing a a' with
  | nil => rfl
  | cons c calls ih =>
    have hCall := call_twin h c
    unfold answers
    revert hCall
    generalize call kind a c = r, call kind a' c = r'
    rintro (⟨hAnswer, hTwin⟩ | _)
    · rename_i r r'
      show some r'.2 :: answers kind r'.1 calls = some r.2 :: answers kind r.1 calls
      rw [hAnswer, ih hTwin]
    · rfl

/-! ## Runs -/

/-- The invariant of the runs in which no index node is missing. -/
structure Good (kind : Kind) (a : DynamicArray) : Prop where
  self : ArrayAlike nowhere (a.mem.fresh ≤ ·) a a
  holds : ∃ bytes, Holds kind a bytes

theorem Good.used_le (h : Good kind a) : a.sdArray.bytesUsed ≤ bufSize := by
  rcases h.holds with ⟨bytes, hBytes⟩
  exact hBytes.used_le

/-- A missing buffer leaves an array that differs behind the data alone. -/
theorem Good.insert_failed (h : Good kind a) {j : Nat}
    (hj : j < buffersNeeded a.sdArray.bytesUsed data.length) (hFail : ok (a.mem.fresh + j) = false) :
    ∃ a' G, insertOf kind ok a data = some (a', errorMemAlloc) ∧ BehindData G a ∧
      a.mem.fresh ≤ a'.mem.fresh ∧
      ArrayAlike G (a'.mem.fresh ≤ ·) (a.movedOn a'.mem.fresh) a' := by
  rcases h.holds with ⟨bytes, hBytes⟩
  have hTail : ∀ {curr}, a.sdArray.lastDynBuf = some curr →
      BehindData (Tail curr a.sdArray.bytesUsed) a := by
    rintro curr hCurr q i ⟨rfl, hi⟩
    exact ⟨hCurr, hi⟩
  cases kind with
  | simple =>
    rcases hBytes with ⟨bufs, hSimple⟩
    rcases insertSimple_failed hSimple h.self.mem hj hFail with ⟨a', curr, hRun, hCurr, hUp, hAlike⟩
    exact ⟨a', _, hRun, hTail hCurr, hUp, hAlike⟩
  | ordered =>
    rcases insertOrdered_failed hBytes h.self.mem hj hFail with ⟨a', curr, hRun, hCurr, hUp, hAlike⟩
    exact ⟨a', _, hRun, hTail hCurr, hUp, hAlike⟩

theorem Good.step (h : Good kind a) {c : Call} (hNodes : NodesAvailable a c)
    (hStep : step kind a c = some a') : Good kind a' := by
  have hTwin : Twin kind a a := .of_same h.used_le h.self
  rcases h.holds with ⟨bytes, hBytes⟩
  rcases map_eq_some_iff.mp hStep with ⟨⟨a₁, answer⟩, hCall, hEq⟩
  have hEq : a₁ = a' := hEq
  subst hEq
  have hSelf : ArrayAlike nowhere (a₁.mem.fresh ≤ ·) a₁ a₁ := by
    have hBoth := call_twin hTwin c
    rw [hCall] at hBoth
    rcases hBoth with ⟨-, hBoth⟩ | _
    exact hBoth.left
  refine ⟨hSelf, ?_⟩
  cases c with
  | insert ok data =>
    rcases bind_eq_some_iff.mp hCall with ⟨⟨a₂, ret⟩, hRun, hCall⟩
    cases hCall
    rcases insert_outcome h.used_le hRun with ⟨-, hAll, -⟩ | ⟨-, j, hj, hFail⟩ | ⟨-, -, ⟨j, hj, hFail⟩, -⟩
    · exact ⟨_, hBytes.insert hAll⟩
    · rcases h.insert_failed hj hFail with ⟨a₃, G, hRun', hG, hUp, hAlike⟩
      cases hRun.symm.trans hRun'
      exact ⟨bytes, (hBytes.movedOn hUp).alike_behind hAlike hG⟩
    · have hOk : ok (a.mem.fresh + j) = true := hNodes j hj
      rw [hFail] at hOk
      cases hOk
  | write position data =>
    rcases bind_eq_some_iff.mp hCall with ⟨⟨a₂, ret⟩, hRun, hCall⟩
    cases hCall
    exact hBytes.alike (writeWith_kept h.self.mem hRun)
  | read position size =>
    rcases bind_eq_some_iff.mp hCall with ⟨⟨ret, data⟩, -, hCall⟩
    cases hCall
    exact ⟨bytes, hBytes⟩
  | currentSize =>
    cases hCall
    exact ⟨bytes, hBytes⟩

theorem createSimple_same {f : Nat → Bool} (h : MemAlike nowhere S m m)
    (hRun : createSimple f m = some a) : ArrayAlike nowhere S a a := by
  rcases h.calloc f (.inl rfl) with ⟨m₁, m₁', r, hNew, hNew', hMem, -⟩
  cases hNew.symm.trans hNew'
  unfold createSimple at hRun
  rw [hNew] at hRun
  cases r with
  | none => cases hRun
  | some dynBuf =>
    cases hRun
    exact ⟨hMem, rfl, rfl, rfl⟩

theorem createOrdered_same {f : Nat → Bool} (h : MemAlike nowhere S m m)
    (hRun : createOrdered f m = some a) : ArrayAlike nowhere S a a := by
  rcases h.calloc f (.inr rfl) with ⟨m₁, m₁', r, hNew, hNew', hMem, -⟩
  cases hNew.symm.trans hNew'
  unfold createOrdered at hRun
  rw [hNew] at hRun
  cases r with
  | none => cases hRun
  | some dynIndex =>
    rcases bind_eq_some_iff.mp hRun with ⟨a₁, hSimple, hRun⟩
    rcases bind_eq_some_iff.mp hRun with ⟨first, -, hRun⟩
    have hSame := createSimple_same hMem hSimple
    have hTop : ArrayAlike nowhere S
        { a₁ with ordArray := ⟨some dynIndex, some dynIndex, some dynIndex, 1⟩ }
        { a₁ with ordArray := ⟨some dynIndex, some dynIndex, some dynIndex, 1⟩ } :=
      ⟨hSame.mem, rfl, rfl, rfl⟩
    have hBoth := putChild_alike hTop dynIndex 0 first
    rw [hRun] at hBoth
    cases hBoth with
    | some hPut => exact hPut

theorem good_create (h : createOf kind = some a) : Good kind a := by
  have hEmpty : MemAlike nowhere (fun _ => True) (Heap.empty : Mem) Heap.empty :=
    ⟨fun _ => .none, rfl, Heap.bounded_empty, fun _ _ => trivial, fun _ _ _ _ _ _ => trivial⟩
  cases kind with
  | simple =>
    have h : createSimple (fun _ => true) Heap.empty = some a := h
    have hSame := createSimple_same hEmpty h
    rcases @createSimple_spec (fun _ => true) (fun _ => rfl) Heap.empty Heap.bounded_empty
      with ⟨a', hRun, hSimple, -⟩
    cases h.symm.trans hRun
    exact ⟨⟨hSame.mem.forget, rfl, rfl, rfl⟩, [], _, hSimple⟩
  | ordered =>
    have h : createOrdered (fun _ => true) Heap.empty = some a := h
    have hSame := createOrdered_same hEmpty h
    rcases createOrdered_spec with ⟨a', hRun, hOrdered⟩
    cases h.symm.trans hRun
    exact ⟨⟨hSame.mem.forget, rfl, rfl, rfl⟩, [], hOrdered⟩

/-- The state that a run reaches in which no index node is missing. -/
theorem good_run {a₀ : DynamicArray} {calls : List Call} (hNew : createOf kind = some a₀)
    (hRun : Run.exec (step kind) a₀ calls = some a)
    (hNodes : Run.Along (step kind) NodesAvailable a₀ calls) : Good kind a :=
  Run.invariant_along (step kind) NodesAvailable (Good kind)
    (fun _ _ _ hOk hStep hGood => hGood.step hOk hStep) hNodes hRun (good_create hNew)

/-- In every run in which no index node is missing, an insert fails and leaves the array
unchanged if and only if one of its data buffers cannot be allocated. -/
theorem failed_insert_iff {a₀ : DynamicArray} {calls : List Call} (hNew : createOf kind = some a₀)
    (hRun : Run.exec (step kind) a₀ calls = some a)
    (hNodes : Run.Along (step kind) NodesAvailable a₀ calls) (ok : Nat → Bool) (data : List Byte) :
    FailedUnchanged kind ok a data ↔
      ∃ j < buffersNeeded a.sdArray.bytesUsed data.length, ok (a.mem.fresh + j) = false := by
  have hGood := good_run hNew hRun hNodes
  constructor
  · rintro ⟨a', ret, hInsert, hRet, hAnswers, -⟩
    rcases insert_outcome hGood.used_le hInsert with ⟨hCode, -⟩ | ⟨-, hFail⟩ | ⟨-, -, -, hData, hGrown⟩
    · exact absurd hCode hRet
    · exact hFail
    · -- the size has grown, and the next call can ask for it
      have hPos := List.length_pos_of_ne_nil hData
      have hGrown : a'.totalSizeInBytes = a.totalSizeInBytes + data.length := hGrown
      have hSize := hAnswers [.currentSize]
      have hEq : a'.totalSizeInBytes = a.totalSizeInBytes := by
        simpa [answers, call, DynamicArray.movedOn] using hSize
      omega
  · rintro ⟨j, hj, hFail⟩
    rcases hGood.insert_failed hj hFail with ⟨a', G, hInsert, hG, hUp, hAlike⟩
    rcases hGood.holds with ⟨bytes, hBytes⟩
    have hTwin : Twin kind (a.movedOn a'.mem.fresh) a' :=
      ⟨hGood.used_le, G, hG, hAlike, .inr ⟨bytes, hBytes.movedOn hUp⟩⟩
    refine ⟨a', errorMemAlloc, hInsert, by decide, fun calls => answers_twin hTwin calls, fun p => ?_,
      hAlike.sdArray, hAlike.ordArray⟩
    exact (hAlike.mem.cells p).mono fun _ _ hCell => hCell.mono (fun _ _ => trivial) False.elim

/-- A new ordered array, and two inserts for which a buffer is missing. -/
theorem two_inserts_fail :
    ∃ a₀ a ok, createOf .ordered = some a₀ ∧
      Run.exec (step .ordered) a₀ [.insert ok (List.replicate 1025 0)] = some a ∧
      FailedUnchanged .ordered (fun _ => false) a (List.replicate 1025 0) := by
  rcases createOrdered_spec with ⟨a₀, hNew, -⟩
  have hNew : createOf .ordered = some a₀ := hNew
  have hUsed : a₀.sdArray.bytesUsed = 0 := by
    have hRun : createOf .ordered = some _ := rfl
    cases hNew.symm.trans hRun
    rfl
  have hNeeded : buffersNeeded a₀.sdArray.bytesUsed (List.replicate 1025 (0 : Byte)).length = 1 := by
    rw [hUsed, List.length_replicate]
    rfl
  have hFail : decide (a₀.mem.fresh + 0 ≠ a₀.mem.fresh) = false := by simp
  rcases @Good.insert_failed _ (fun p => decide (p ≠ a₀.mem.fresh)) _ _ (good_create hNew) 0
    (hNeeded ▸ Nat.zero_lt_one) hFail with ⟨a, G, hInsert, -, -, hAlike⟩
  have hStep : step .ordered a₀
      (.insert (fun p => decide (p ≠ a₀.mem.fresh)) (List.replicate 1025 0)) = some a := by
    show ((insertOf .ordered _ a₀ _).bind _).map Prod.fst = some a
    rw [hInsert]
    rfl
  have hRun : Run.exec (step .ordered) a₀
      [.insert (fun p => decide (p ≠ a₀.mem.fresh)) (List.replicate 1025 0)] = some a := by
    rw [Run.exec_cons, hStep]
    rfl
  have hSame : a.sdArray = a₀.sdArray := hAlike.sdArray
  refine ⟨a₀, a, _, hNew, hRun, (failed_insert_iff hNew hRun ?_ _ _).mpr ⟨0, ?_, rfl⟩⟩
  · refine fun _ _ => ⟨fun j hj => decide_eq_true ?_, trivial⟩
    rw [hNeeded] at hj
    omega
  · rw [hSame, hNeeded]
    exact Nat.zero_lt_one

/-! ## A missing index node -/

theorem index?_set_self (m : Mem) (p : Ptr) (n : DynIndex) :
    index? (m.set p (.index n)) p = some n := by
  simp [index?]

/-- While there is room in the last leaf, it takes the new buffers. -/
theorem indexLoop_leaf {old : DynamicArray} {fuel indexed : Nat} {curr leaf : Ptr} {c : List Byte}
    {n : DynIndex} (hb : a.mem.Bounded) (hSeg : BufSeg a.mem ((curr, c) :: l) none)
    (hNodup : (((curr, c) :: l).map Prod.fst).Nodup)
    (hEnd : a.sdArray.lastDynBuf = ((curr, c) :: l).getLast?.map Prod.fst)
    (hLast : a.ordArray.lastDynIndex = some leaf) (hn : index? a.mem leaf = some n)
    (hRoom : n.nextIndexToInsert + l.length ≤ indexSize)
    (hRun : indexLoop ok old size fuel a curr indexed = some r) :
    r.1.ordArray = a.ordArray ∧ ∃ n', index? r.1.mem leaf = some n' ∧
      n'.nextDynIndex = n.nextDynIndex ∧ n'.parentDynIndex = n.parentDynIndex ∧
      n'.nextIndexToInsert = n.nextIndexToInsert + l.length := by
  induction l generalizing a curr c n fuel indexed with
  | nil =>
    cases fuel with
    | zero => cases hRun
    | succ fuel =>
      have hEnd : a.sdArray.lastDynBuf = some curr := hEnd
      rw [indexLoop, if_pos hEnd] at hRun
      cases hRun
      exact ⟨rfl, n, hn, rfl, rfl, rfl⟩
  | cons x l ih =>
    rcases x with ⟨next, d⟩
    rcases hSeg with ⟨hBuf, -, hRest⟩
    rw [map_cons, nodup_cons] at hNodup
    rw [length_cons] at hRoom
    cases fuel with
    | zero => cases hRun
    | succ fuel =>
      have hMore : a.sdArray.lastDynBuf ≠ some curr := by
        intro hEq
        rw [hEnd, getLast?_cons_cons, map_eq_some_iff] at hEq
        rcases hEq with ⟨y, hy, hEq⟩
        exact hNodup.1 (mem_map.mpr ⟨y, mem_of_getLast? hy, hEq⟩)
      rw [indexLoop, if_neg hMore] at hRun
      simp only [hBuf, headPtr, hLast, bind_eq_bind, bind_some] at hRun
      split_ifs at hRun with hAssert
      have hNotFull : n.nextIndexToInsert ≠ indexSize := by omega
      have hLt : n.nextIndexToInsert < indexSize := by omega
      simp only [insertBufInIndex, putChild, hn, hNotFull, hLt, bind_eq_bind, bind_some,
        if_false, if_true, ne_eq, not_true_eq_false] at hRun
      have hEnd' : a.sdArray.lastDynBuf = ((next, d) :: l).getLast?.map Prod.fst := by
        rw [hEnd, getLast?_cons_cons]
      set n₁ : DynIndex := { n with
        childPtrs := Function.update n.childPtrs n.nextIndexToInsert (some next)
        nextIndexToInsert := n.nextIndexToInsert + 1 }
      have hRest' := hRest.congr fun q _ => buf?_set_index hn n₁ q
      have hRoom' : n.nextIndexToInsert + 1 + l.length ≤ indexSize := by omega
      rcases ih (a := { a with mem := a.mem.set leaf (.index n₁) }) (hb.set (lt_of_index? hb hn) _)
        hRest' hNodup.2 hEnd' hLast (index?_set_self _ _ _) hRoom' hRun
        with ⟨hOrd, n', hn', hNext, hParent, hUsed⟩
      refine ⟨hOrd, n', hn', hNext, hParent, hUsed.trans ?_⟩
      rw [length_cons, Nat.add_comm l.length, ← Nat.add_assoc]

/-- The error path takes one buffer back from a tree of one leaf. -/
theorem undoInsertOrdered_leaf {old : DynamicArray} {curr next leaf : Ptr} {c d : List Byte}
    {n : DynIndex} (hCurr : old.sdArray.lastDynBuf = some curr)
    (hTop : old.ordArray.topDynIndex = some leaf) (hLast : old.ordArray.lastDynIndex = some leaf)
    (hBufCurr : buf? a.mem curr = some ⟨some next, c⟩) (hBufNext : buf? a.mem next = some ⟨none, d⟩)
    (hLeaf : index? a.mem leaf = some n) (hParent : n.parentDynIndex = none)
    (hNext : n.nextDynIndex = none) : ∃ a', undoInsertOrdered old a = some a' := by
  have hLeafCurr : leaf ≠ curr := by
    rintro rfl
    rw [index?_of_buf? hBufCurr] at hLeaf
    cases hLeaf
  have hLeafNext : leaf ≠ next := by
    rintro rfl
    rw [index?_of_buf? hBufNext] at hLeaf
    cases hLeaf
  have hRelease : releaseDynBuf (a.mem.fresh + 1) a.mem (some next) = some (a.mem.free next) := by
    simp only [releaseDynBuf, hBufNext, bind_eq_bind, bind_some]
  obtain ⟨m₁, hm₁⟩ : ∃ m₁, (a.mem.free next).set curr (.buf ⟨none, c⟩) = m₁ := ⟨_, rfl⟩
  have hLeaf₁ : index? m₁ leaf = some n := by
    rw [← hLeaf, ← hm₁]
    exact index?_congr ((Heap.set_of_ne _ _ hLeafCurr).trans (Heap.free_of_ne _ hLeafNext))
  have hRestore : walkParents restoreIndex (m₁.fresh + 1) m₁ (some leaf) =
      some (m₁.set leaf (.index (restoreIndex n))) := by
    simp only [walkParents, hLeaf₁, bind_eq_bind, bind_some, hParent]
  have hNone : (restoreIndex n).nextDynIndex = none := hNext
  simp only [undoInsertOrdered, hCurr, hTop, hLast, hBufCurr, hRelease, hm₁, hRestore, index?_set_self,
    hNone, releaseDynIndex, bind_eq_bind, bind_some]
  exact ⟨_, rfl⟩

/-- A tree of one full leaf: when a node for the next buffer is missing, the insert fails, and
the size of the array has grown. -/
theorem insertOrdered_nodeFails {leaf : Ptr} {n : DynIndex}
    (h : OrdInv a bytes) (hFull : a.sdArray.bytesUsed = bufSize)
    (hTop : a.ordArray.topDynIndex = some leaf) (hLast : a.ordArray.lastDynIndex = some leaf)
    (hn : index? a.mem leaf = some n) (hUsed : n.nextIndexToInsert = indexSize)
    (hParent : n.parentDynIndex = none) (hNext : n.nextDynIndex = none)
    (hBuf : ok a.mem.fresh = true) (hNode : ok (a.mem.fresh + 1) = false) (hData : data ≠ [])
    (hLen : data.length ≤ bufSize) :
    ∃ a', insertOrdered ok a data = some (a', errorMemAlloc) := by
  rcases h.saved with
    ⟨m, bufs, seq, levels, top, place, pre, curr, hWalk, hSimple, -, -, hFresh, hPtrs, hCurr⟩
  have hSave : walkParents saveIndex (a.ordArray.indexLevels + 1) a.mem (some leaf) =
      some (a.mem.set leaf (.index (saveIndex n))) := by
    have hUp : (saveIndex n).parentDynIndex = none := hParent
    simp only [walkParents, hn, bind_eq_bind, bind_some, hParent]
  have hm : m = a.mem.set leaf (.index (saveIndex n)) := by
    rw [hLast, hSave] at hWalk
    exact (Option.some.inj hWalk).symm
  rcases @insertSimple_spec _ _ _ hSimple (fun _ => true) (fun _ => rfl) data
    with ⟨a₁, bufs₁, news, hRun, hSimple₁, hPtrs₁, hOrd, hIndex, hFresh₁⟩
  have hOk : insertSimple ok { a with mem := m } data = some (a₁, 0) := by
    rw [← hRun]
    exact insertSimple_of_ok hLen (.inr (hFresh ▸ hBuf))
  -- the data needs one more buffer
  obtain ⟨next, rfl⟩ : ∃ next, news = [next] := by
    rw [← length_eq_one_iff]
    have hPos := length_pos_of_ne_nil hData
    have hOne : buffersNeeded a.sdArray.bytesUsed data.length = 1 := by
      unfold buffersNeeded
      rw [hFull]
      simp only [bufSize] at *
      omega
    rcases insertSimple_outcome hSimple.used_le hRun with ⟨-, -, -, hCount⟩ | ⟨hCode, -⟩
    · have hCount : a₁.mem.fresh = m.fresh + buffersNeeded a.sdArray.bytesUsed data.length := hCount
      have hFresh₁ : a₁.mem.fresh = m.fresh + news.length := hFresh₁
      omega
    · cases hCode
  rw [hPtrs, append_assoc, map_eq_append_iff] at hPtrs₁
  rcases hPtrs₁ with ⟨front, back, rfl, -, hBack⟩
  obtain ⟨c, d, rfl⟩ : ∃ c d, back = [(curr, c), (next, d)] := by
    rcases back with _ | ⟨⟨x, c⟩, _ | ⟨⟨y, d⟩, _ | ⟨z, rest⟩⟩⟩
    all_goals cases hBack
    exact ⟨c, d, rfl⟩
  rcases (bufSeg_append.mp hSimple₁.seg).2 with ⟨hBufCurr, -, hBufNext, -⟩
  have hEnd : a₁.sdArray.lastDynBuf ≠ some curr := by
    have hNodup := hSimple₁.nodup
    rw [map_append, nodup_append] at hNodup
    have hPair := (nodup_cons.mp hNodup.2.1).1
    have hNext : a₁.sdArray.lastDynBuf = some next := by
      rw [hSimple₁.last]
      simp
    rw [hNext]
    rintro ⟨⟩
    exact hPair mem_cons_self
  have hLeaf : index? a₁.mem leaf = some (saveIndex n) := by
    rw [hIndex, hm]
    exact index?_set_self _ _ _
  have hFail : ok a₁.mem.fresh = false := by
    rw [hFresh₁]
    show ok (m.fresh + 1) = false
    rw [hFresh]
    exact hNode
  have hGrow : insertBufInIndex ok (a.ordArray.indexLevels + 1) a₁ leaf next =
      some ({ a₁ with mem := { a₁.mem with fresh := a₁.mem.fresh + 1 } }, none, errorMemAlloc) := by
    have hUsed' : (saveIndex n).nextIndexToInsert = indexSize := hUsed
    simp only [insertBufInIndex, hLeaf, bind_eq_bind, bind_some, if_pos hUsed',
      Heap.calloc_of_not hFail]
  rcases @undoInsertOrdered_leaf { a₁ with mem := { a₁.mem with fresh := a₁.mem.fresh + 1 } } a curr next
    leaf c d (saveIndex n) hCurr hTop hLast hBufCurr hBufNext hLeaf hParent hNext with ⟨a₂, hUndo⟩
  refine ⟨a₂, ?_⟩
  have hAssert : ¬ data.length + (bufSize - 1) < 0 + bufSize := by
    have hPos := length_pos_of_ne_nil hData
    simp only [bufSize]
    omega
  have hLast₁ : a₁.ordArray.lastDynIndex = some leaf := hOrd ▸ hLast
  have hLevels : a₁.ordArray.indexLevels = a.ordArray.indexLevels := congrArg OrdArray.indexLevels hOrd
  have hCode : errorMemAlloc ≠ 0 := by decide
  have hLoop : indexLoop ok a data.length (data.length + 2) a₁ curr 0 = some (a₂, errorMemAlloc) := by
    rw [indexLoop, if_neg hEnd]
    simp only [hBufCurr, headPtr, hLast₁, hLevels, hGrow, hUndo, bind_eq_bind, bind_some,
      if_neg hAssert, if_pos hCode]
  simp only [insertOrdered, hWalk, hCurr, hOk, hLoop, bind_eq_bind, bind_some, ne_eq,
    not_true_eq_false, if_false]

/-- An insert into a tree of one leaf that has room for the new buffers. -/
theorem insertOrdered_leaf {leaf : Ptr} {n : DynIndex} (h : OrdInv a bytes)
    (hLast : a.ordArray.lastDynIndex = some leaf) (hn : index? a.mem leaf = some n)
    (hParent : n.parentDynIndex = none)
    (hRoom : n.nextIndexToInsert + buffersNeeded a.sdArray.bytesUsed data.length ≤ indexSize) :
    ∃ a' n', insertOrdered (fun _ => true) a data = some (a', 0) ∧ OrdInv a' (bytes ++ data) ∧
      a'.ordArray = a.ordArray ∧ index? a'.mem leaf = some n' ∧
      n'.nextDynIndex = n.nextDynIndex ∧ n'.parentDynIndex = none ∧
      n'.nextIndexToInsert = n.nextIndexToInsert + buffersNeeded a.sdArray.bytesUsed data.length := by
  rcases insertOrdered_spec h data with ⟨a', hInsert, h'⟩
  rcases h.saved with
    ⟨m, bufs, seq, levels, top, place, pre, curr, hWalk, hSimple, -, -, hFresh, hPtrs, hCurr⟩
  rcases @insertSimple_spec _ _ _ hSimple (fun _ => true) (fun _ => rfl) data
    with ⟨a₁, bufs₁, news, hRun, hSimple₁, hPtrs₁, hOrd, hIndex, hFresh₁⟩
  have hm : m = a.mem.set leaf (.index (saveIndex n)) := by
    simp only [hLast, walkParents, hn, bind_eq_bind, bind_some, hParent] at hWalk
    exact (Option.some.inj hWalk).symm
  have hNews : news.length = buffersNeeded a.sdArray.bytesUsed data.length := by
    rcases insertSimple_outcome hSimple.used_le hRun with ⟨-, -, -, hCount⟩ | ⟨hCode, -⟩
    · have hCount : a₁.mem.fresh = m.fresh + buffersNeeded a.sdArray.bytesUsed data.length := hCount
      have hFresh₁ : a₁.mem.fresh = m.fresh + news.length := hFresh₁
      omega
    · cases hCode
  have hLeaf : index? a₁.mem leaf = some (saveIndex n) := by
    rw [hIndex, hm]
    exact index?_set_self _ _ _
  -- the chain from the old last buffer on
  rw [hPtrs, append_assoc, map_eq_append_iff] at hPtrs₁
  rcases hPtrs₁ with ⟨front, back, rfl, -, hBack⟩
  obtain ⟨c, l, rfl, hl⟩ : ∃ c l, back = (curr, c) :: l ∧ l.map Prod.fst = news := by
    rcases back with _ | ⟨⟨x, c⟩, l⟩
    · cases hBack
    · rw [map_cons, singleton_append, List.cons.injEq] at hBack
      exact ⟨c, l, by rw [← hBack.1], hBack.2⟩
  have hLength : l.length = news.length := by rw [← hl, length_map]
  have hNodup := hSimple₁.nodup
  rw [map_append, nodup_append] at hNodup
  have hEnd : a₁.sdArray.lastDynBuf = ((curr, c) :: l).getLast?.map Prod.fst := by
    rw [hSimple₁.last, getLast?_append_of_ne_nil _ (cons_ne_nil _ _)]
  have hLoop : indexLoop (fun _ => true) a data.length (data.length + 2) a₁ curr 0 = some (a', 0) := by
    rw [← hInsert]
    simp only [insertOrdered, hWalk, hCurr, hRun, bind_eq_bind, bind_some, ne_eq,
      not_true_eq_false, if_false]
  have hRoom₁ : (saveIndex n).nextIndexToInsert + l.length ≤ indexSize := by
    rw [hLength, hNews]
    exact hRoom
  rcases indexLoop_leaf hSimple₁.bounded (bufSeg_append.mp hSimple₁.seg).2 hNodup.2.1 hEnd (hOrd ▸ hLast)
    hLeaf hRoom₁ hLoop with ⟨hOrd', n', hn', hNext, hParent', hUsed⟩
  exact ⟨a', n', hInsert, h', hOrd'.trans hOrd, hn', hNext, hParent'.trans hParent, by
    rw [hUsed, hLength, hNews]
    rfl⟩

/-- A new ordered array: its leaf. -/
theorem createOrdered_leaf :
    ∃ a n, createOf .ordered = some a ∧ OrdInv a [] ∧ a.ordArray = ⟨some 0, some 0, some 0, 1⟩ ∧
      a.sdArray.bytesUsed = 0 ∧ index? a.mem 0 = some n ∧ n.nextDynIndex = none ∧
      n.parentDynIndex = none ∧ n.nextIndexToInsert = 1 := by
  rcases createOrdered_spec with ⟨a, hNew, h⟩
  have hRun : createOrdered (fun _ => true) Heap.empty = some _ := rfl
  cases hNew.symm.trans hRun
  exact ⟨_, _, hRun, h, rfl, rfl, rfl, rfl, rfl, rfl⟩

/-- The first insert into a new ordered array, with room in the leaf. -/
theorem insertOrdered_first (data : List Byte)
    (hRoom : 1 + buffersNeeded 0 data.length ≤ indexSize) :
    ∃ a₀ a n, createOf .ordered = some a₀ ∧ insertOrdered (fun _ => true) a₀ data = some (a, 0) ∧
      OrdInv a data ∧ a₀.sdArray.bytesUsed = 0 ∧ a.ordArray = ⟨some 0, some 0, some 0, 1⟩ ∧
      index? a.mem 0 = some n ∧ n.nextDynIndex = none ∧ n.parentDynIndex = none ∧
      n.nextIndexToInsert = 1 + buffersNeeded 0 data.length := by
  rcases createOrdered_leaf with ⟨a₀, n₀, hNew, h₀, hOrd₀, hUsed₀, hn₀, hNext₀, hParent₀, hCount₀⟩
  have hRoom₀ : n₀.nextIndexToInsert + buffersNeeded a₀.sdArray.bytesUsed data.length ≤ indexSize := by
    rwa [hCount₀, hUsed₀]
  rcases insertOrdered_leaf h₀ (by rw [hOrd₀]) hn₀ hParent₀ hRoom₀ with
    ⟨a, n, hInsert, h, hOrd, hn, hNext, hParent, hCount⟩
  refine ⟨a₀, a, n, hNew, hInsert, h, hUsed₀, hOrd.trans hOrd₀, hn, hNext.trans hNext₀, hParent, ?_⟩
  rw [hCount, hCount₀, hUsed₀]

/-- A leaf is full after 128 kB. The node for one more byte is missing: the insert fails, and
the array is not what it was. -/
theorem missing_node_grows :
    ∃ (a₀ a a' : DynamicArray) (calls : List Call) (ok : Nat → Bool) (data : List Byte),
      createOf .ordered = some a₀ ∧ Run.exec (step .ordered) a₀ calls = some a ∧
      insertOf .ordered ok a data = some (a', errorMemAlloc) ∧
      a'.totalSizeInBytes = a.totalSizeInBytes + data.length ∧
      ¬ FailedUnchanged .ordered ok a data := by
  have hNeeded : buffersNeeded 0 (List.replicate (bufSize * indexSize) (0 : Byte)).length = 127 := by
    rw [List.length_replicate]
    rfl
  rcases insertOrdered_first (List.replicate (bufSize * indexSize) 0) (by rw [hNeeded]; decide) with
    ⟨a₀, a, n, hNew, hInsert, h, -, hOrd, hn, hNext, hParent, hCount⟩
  have hFull : a.sdArray.bytesUsed = bufSize := by
    rcases h with ⟨bufs, -, -, -, -, hSimple, -⟩
    have hSize := hSimple.size
    have hLe := hSimple.used_le
    have hPos := hSimple.used_pos
    rw [List.length_replicate] at hSize
    simp only [bufSize, indexSize] at hSize hLe hPos ⊢
    omega
  rw [hNeeded] at hCount
  have hOk : decide (a.mem.fresh ≠ a.mem.fresh + 1) = true := by simp
  have hNode : decide (a.mem.fresh + 1 ≠ a.mem.fresh + 1) = false := by simp
  have hTop : a.ordArray.topDynIndex = some 0 := by rw [hOrd]
  have hLast : a.ordArray.lastDynIndex = some 0 := by rw [hOrd]
  rcases @insertOrdered_nodeFails (fun p => decide (p ≠ a.mem.fresh + 1)) a _ [0] 0 n h hFull hTop hLast hn
    hCount hParent hNext hOk hNode (List.cons_ne_nil _ _) (by decide) with ⟨a', hFail⟩
  have hGrown : a'.totalSizeInBytes = a.totalSizeInBytes + 1 := by
    rcases insertOrdered_outcome h.used_le hFail with ⟨hCode, -⟩ | ⟨-, j, hj, hBad⟩ | ⟨-, -, -, -, hMore⟩
    · cases hCode
    · -- the one buffer is there
      have hOne : buffersNeeded a.sdArray.bytesUsed [(0 : Byte)].length = 1 := by
        rw [hFull]
        rfl
      have hj : j = 0 := by omega
      subst hj
      exact absurd hBad (by simp)
    · exact hMore
  refine ⟨a₀, a, a', [.insert (fun _ => true) (List.replicate (bufSize * indexSize) 0)],
    fun p => decide (p ≠ a.mem.fresh + 1), [0], hNew, ?_, hFail, hGrown, ?_⟩
  · have hStep : step .ordered a₀ (.insert (fun _ => true) (List.replicate (bufSize * indexSize) 0)) =
        some a := by
      show ((insertOrdered (fun _ => true) a₀ _).bind _).map Prod.fst = some a
      rw [hInsert]
      rfl
    rw [Run.exec_cons, hStep]
    rfl
  · rintro ⟨a₂, ret, hInsert₂, -, hAnswers, -⟩
    cases hFail.symm.trans hInsert₂
    have hSize := hAnswers [.currentSize]
    have hEq : a'.totalSizeInBytes = a.totalSizeInBytes := by
      simpa [answers, call, DynamicArray.movedOn] using hSize
    omega

end IClaustron.DynArray
