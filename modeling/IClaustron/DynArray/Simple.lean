import IClaustron.DynArray.Array
import Mathlib.Data.List.Basic
import Mathlib.Tactic.Ring

/-!
# DynArray.Simple — the list of buffers as one byte sequence

`BufSeg` is the shape of the buffer list in memory, with the contents of the
buffers; `flat` is their concatenation. Every loop over the list is described
by what it does to `flat`:

* `readLoop_spec`, `writeLoop_spec` — a read takes and a write overwrites a
  range of it, across any number of buffers;
* `copyLoop_spec` — an insert appends zeroed buffers and overwrites;
* `SimpleInv` — the array stores a given byte sequence.
-/

namespace IClaustron.DynArray

open Lib List Option Heap

/-! ## Memory lemmas -/

variable {p : Ptr} {t : Option Ptr} {l : List (Ptr × List Byte)} {c data : List Byte}
  {bufPos fuel pos : Nat} {ok : Nat → Bool}

theorem buf?_eq_some {m : Mem} {b : DynBuf} : buf? m p = some b ↔ m.cells p = some (.buf b) := by
  unfold buf?
  split <;> simp_all

theorem index?_eq_some {m : Mem} {n : DynIndex} :
    index? m p = some n ↔ m.cells p = some (.index n) := by
  unfold index?
  split <;> simp_all

theorem buf?_congr {m m' : Mem} (h : m'.cells p = m.cells p) : buf? m' p = buf? m p := by
  simp [buf?, h]

theorem index?_congr {m m' : Mem} (h : m'.cells p = m.cells p) : index? m' p = index? m p := by
  simp [index?, h]

/-- A pointer to a buffer is no pointer to an index node. -/
theorem index?_of_buf? {m : Mem} {b : DynBuf} (h : buf? m p = some b) : index? m p = none := by
  rw [buf?_eq_some] at h
  simp [index?, h]

@[simp] theorem buf?_set_self (m : Mem) (p : Ptr) (b : DynBuf) :
    buf? (m.set p (.buf b)) p = some b := by
  simp [buf?]

@[simp] theorem index?_set_buf_self (m : Mem) (p : Ptr) (b : DynBuf) :
    index? (m.set p (.buf b)) p = none := by
  simp [index?]

/-! ## The buffer list -/

/-- The pointer to the first buffer of a list that is followed by `t`. -/
def headPtr : List (Ptr × List Byte) → Option Ptr → Option Ptr
  | [], t => t
  | (p, _) :: _, _ => some p

/-- The buffers lie in memory as a linked list that is followed by `t`. -/
def BufSeg (m : Mem) : List (Ptr × List Byte) → Option Ptr → Prop
  | [], _ => True
  | (p, c) :: rest, t => buf? m p = some ⟨headPtr rest t, c⟩ ∧ c.length = bufSize ∧ BufSeg m rest t

/-- All bytes of the buffers in order. -/
def flat (bufs : List (Ptr × List Byte)) : List Byte := bufs.flatMap Prod.snd

@[simp] theorem flat_nil : flat [] = [] := rfl

@[simp] theorem flat_cons (p : Ptr) (c : List Byte) (rest : List (Ptr × List Byte)) :
    flat ((p, c) :: rest) = c ++ flat rest := rfl

@[simp] theorem flat_append (l₁ l₂ : List (Ptr × List Byte)) :
    flat (l₁ ++ l₂) = flat l₁ ++ flat l₂ := by
  simp [flat]

theorem headPtr_append (l₁ l₂ : List (Ptr × List Byte)) (t : Option Ptr) :
    headPtr (l₁ ++ l₂) t = headPtr l₁ (headPtr l₂ t) := by
  cases l₁ <;> rfl

theorem bufSeg_append {m : Mem} {l₁ l₂ : List (Ptr × List Byte)} :
    BufSeg m (l₁ ++ l₂) t ↔ BufSeg m l₁ (headPtr l₂ t) ∧ BufSeg m l₂ t := by
  induction l₁ with
  | nil => simp [BufSeg]
  | cons b rest ih =>
    simp only [cons_append, BufSeg, headPtr_append, ih]
    tauto

theorem BufSeg.length_flat {m : Mem} (h : BufSeg m l t) : (flat l).length = bufSize * l.length := by
  induction l with
  | nil => rfl
  | cons b rest ih =>
    obtain ⟨p, c⟩ := b
    obtain ⟨-, hlen, hrest⟩ := h
    simp only [flat_cons, length_append, length_cons, hlen, ih hrest]
    ring

/-- The list only depends on its own cells. -/
theorem BufSeg.congr {m m' : Mem} (h : BufSeg m l t)
    (hm : ∀ p ∈ l.map Prod.fst, buf? m' p = buf? m p) : BufSeg m' l t := by
  induction l with
  | nil => trivial
  | cons b rest ih =>
    obtain ⟨hb, hlen, hrest⟩ := h
    refine ⟨(hm b.1 (by simp)).trans hb, hlen, ih hrest fun p hp => hm p ?_⟩
    exact mem_cons_of_mem _ hp

theorem BufSeg.buf_of_mem {m : Mem} (h : BufSeg m l t) (hp : p ∈ l.map Prod.fst) :
    ∃ b, buf? m p = some b := by
  induction l with
  | nil => cases hp
  | cons b rest ih =>
    rcases mem_cons.mp hp with rfl | hp
    · exact ⟨_, h.1⟩
    · exact ih h.2.2 hp

/-! ## Reading -/

theorem readLoop_spec {m : Mem} {rest : List (Ptr × List Byte)} {size : Nat}
    (h : BufSeg m ((p, c) :: rest) t) (hpos : bufPos < bufSize)
    (hsize : bufPos + size ≤ (flat ((p, c) :: rest)).length) (hfuel : size < fuel) :
    readLoop fuel m (some p) bufPos size =
      some (0, ((flat ((p, c) :: rest)).drop bufPos).take size) := by
  induction fuel generalizing p c rest bufPos size with
  | zero => omega
  | succ fuel ih =>
    obtain ⟨hb, hlen, hrest⟩ := h
    have hdrop : (c ++ flat rest).drop bufPos = c.drop bufPos ++ flat rest :=
      drop_append_of_le_length (by omega)
    have hdl : (c.drop bufPos).length = bufSize - bufPos := by
      rw [length_drop, hlen]
    rw [flat_cons, length_append, hlen] at hsize
    simp only [readLoop, hb, bind_eq_bind, bind_some]
    rw [flat_cons, hdrop]
    by_cases hmore : min size (bufSize - bufPos) < size
    · -- the rest of this buffer, then the following ones from their start
      have hmin : min size (bufSize - bufPos) = bufSize - bufPos := by omega
      rw [if_pos hmore, hmin]
      cases rest with
      | nil =>
        simp only [flat_nil, length_nil] at hsize
        omega
      | cons b rest =>
        obtain ⟨q, d⟩ := b
        have hih : readLoop fuel m (some q) 0 (size - (bufSize - bufPos)) = _ :=
          ih hrest (by decide) (by omega) (by omega)
        rw [show headPtr ((q, d) :: rest) t = some q from rfl, hih]
        simp only [bind_some, drop_zero]
        rw [take_append, take_of_length_le (l := c.drop bufPos) (by omega),
          take_of_length_le (l := c.drop bufPos) (by omega), hdl]
    · have hmin : min size (bufSize - bufPos) = size := by omega
      rw [if_neg hmore, hmin, take_append_of_le_length (by omega)]

/-! ## Writing -/

theorem writeLoop_spec {m : Mem} {rest : List (Ptr × List Byte)} (h : BufSeg m ((p, c) :: rest) t)
    (hnd : (((p, c) :: rest).map Prod.fst).Nodup) (hpos : bufPos < bufSize)
    (hsize : bufPos + data.length ≤ (flat ((p, c) :: rest)).length) (hfuel : data.length < fuel) :
    ∃ m' bufs, writeLoop fuel m (some p) bufPos data = some (m', 0) ∧ BufSeg m' bufs t ∧
      bufs.map Prod.fst = ((p, c) :: rest).map Prod.fst ∧
      flat bufs = overwrite (flat ((p, c) :: rest)) bufPos data ∧
      (∀ q ∉ ((p, c) :: rest).map Prod.fst, m'.cells q = m.cells q) ∧ m'.fresh = m.fresh := by
  induction fuel generalizing m p c rest bufPos data with
  | zero => omega
  | succ fuel ih =>
    obtain ⟨hb, hlen, hrest⟩ := h
    rw [map_cons, nodup_cons] at hnd
    rw [flat_cons, length_append, hlen] at hsize
    simp only [writeLoop, hb, bind_eq_bind, bind_some]
    by_cases hmore : min data.length (bufSize - bufPos) < data.length
    · have hmin : min data.length (bufSize - bufPos) = bufSize - bufPos := by omega
      rw [if_pos hmore, hmin]
      set b' : DynBuf := ⟨headPtr rest t, overwrite c bufPos (data.take (bufSize - bufPos))⟩ with hb'
      cases rest with
      | nil =>
        simp only [flat_nil, length_nil] at hsize
        omega
      | cons b rest =>
        obtain ⟨q, d⟩ := b
        have hkeep : BufSeg (m.set p (.buf b')) ((q, d) :: rest) t := by
          refine hrest.congr fun q hq => buf?_congr (set_of_ne m _ ?_)
          rintro rfl
          exact hnd.1 hq
        have hdl : (data.drop (bufSize - bufPos)).length = data.length - (bufSize - bufPos) :=
          length_drop
        have hdle : 0 + (data.drop (bufSize - bufPos)).length ≤ (flat ((q, d) :: rest)).length := by
          omega
        obtain ⟨m', bufs, hrun, hseg, hptrs, hflat, hframe, hfresh⟩ :=
          ih hkeep hnd.2 (by decide) hdle (by omega)
        refine ⟨m', (p, b'.buf) :: bufs, hrun, ⟨?_, ?_, hseg⟩, ?_, ?_, fun q hq => ?_, hfresh⟩
        · rw [buf?_congr (hframe p hnd.1), buf?_set_self, hb']
          have hhead : headPtr bufs t = headPtr ((q, d) :: rest) t := by
            cases bufs with
            | nil => cases hptrs
            | cons x xs =>
              simp only [map_cons, List.cons.injEq] at hptrs
              exact congrArg some hptrs.1
          rw [hhead]
        · rw [hb', length_overwrite, hlen]
          rw [length_take, hlen]
          omega
        · rw [map_cons, map_cons, hptrs]
        · rw [flat_cons, flat_cons, hflat, ← hlen]
          rw [overwrite_append_split (by omega) (by omega), hb', hlen]
        · rw [map_cons, mem_cons, not_or] at hq
          rw [hframe q hq.2, set_of_ne m _ hq.1]
    · -- the write ends in this buffer
      have hmin : min data.length (bufSize - bufPos) = data.length := by omega
      rw [if_neg hmore, hmin, take_length]
      refine ⟨_, (p, overwrite c bufPos data) :: rest, rfl, ⟨buf?_set_self _ _ _, ?_, ?_⟩, rfl, ?_,
        fun q hq => ?_, rfl⟩
      · rw [length_overwrite (by omega), hlen]
      · refine hrest.congr fun q hq => buf?_congr (set_of_ne m _ ?_)
        rintro rfl
        exact hnd.1 hq
      · rw [flat_cons, flat_cons, overwrite_append_left (by omega)]
      · rw [map_cons, mem_cons, not_or] at hq
        exact set_of_ne m _ hq.1

/-! ## Position lookup by scanning -/

theorem scanPos_spec {m : Mem} {bufs : List (Ptr × List Byte)} (h : BufSeg m bufs none)
    (hfuel : pos / bufSize < fuel) :
    scanPos fuel m (headPtr bufs none) pos =
      match (bufs.map Prod.fst)[pos / bufSize]? with
      | none => some (1, none, 0)
      | some p => some (0, some p, pos % bufSize) := by
  induction fuel generalizing bufs pos with
  | zero => exact absurd hfuel (Nat.not_lt_zero _)
  | succ fuel ih =>
    cases bufs with
    | nil => simp [headPtr, scanPos]
    | cons b rest =>
      obtain ⟨p, c⟩ := b
      obtain ⟨hb, -, hrest⟩ := h
      simp only [headPtr, scanPos, ge_iff_le]
      split_ifs with hge
      · have hdiv : pos / bufSize = (pos - bufSize) / bufSize + 1 := by
          simp only [bufSize] at hge ⊢
          omega
        have hmod : (pos - bufSize) % bufSize = pos % bufSize := by
          simp only [bufSize] at hge ⊢
          omega
        have hih : scanPos fuel m (headPtr rest none) (pos - bufSize) = _ := ih hrest (by omega)
        rw [hb, bind_eq_bind, bind_some, hih, hdiv, hmod]
        simp
      · have hdiv : pos / bufSize = 0 := Nat.div_eq_of_lt (by omega)
        simp [hdiv, Nat.mod_eq_of_lt (show pos < bufSize by omega)]

/-! ## Appending -/

theorem length_zeroBuf : zeroBuf.buf.length = bufSize := length_replicate

/-- The memory after one round of the copy loop: buffer `curr` is full and
followed by a new buffer. -/
def linkNew (m : Mem) (curr : Ptr) (b : DynBuf) : Mem :=
  set { (m.set curr (.buf b)).set m.fresh (.buf zeroBuf) with fresh := m.fresh + 1 } curr
    (.buf { b with nextDynBuf := some m.fresh })

section LinkNew

variable {m : Mem} {curr : Ptr} {b₀ : DynBuf} (hb : m.Bounded) (hcurr : buf? m curr = some b₀)
  (b : DynBuf)

include hb hcurr

theorem linkNew_new : (linkNew m curr b).cells m.fresh = some (.buf zeroBuf) := by
  have hlt : curr < m.fresh := hb curr _ (buf?_eq_some.mp hcurr)
  rw [linkNew, set_of_ne _ _ (Nat.ne_of_gt hlt)]
  exact set_self _ _ _

omit hb hcurr in
theorem linkNew_old {q : Ptr} (hq : q ≠ m.fresh) (hqc : q ≠ curr) :
    (linkNew m curr b).cells q = m.cells q := by
  rw [linkNew, set_of_ne _ _ hqc]
  exact (set_of_ne _ _ hq).trans (set_of_ne _ _ hqc)

theorem linkNew_bounded : (linkNew m curr b).Bounded := by
  have hlt : curr < m.fresh := hb curr _ (buf?_eq_some.mp hcurr)
  have hset : (m.set curr (.buf b)).Bounded := hb.set hlt _
  exact (hset.calloc (.buf zeroBuf)).set (Nat.lt_succ_of_lt hlt) _

theorem linkNew_index (q : Ptr) : index? (linkNew m curr b) q = index? m q := by
  by_cases hqc : q = curr
  · subst hqc
    rw [index?_of_buf? hcurr, linkNew, index?_set_buf_self]
  · by_cases hq : q = m.fresh
    · subst hq
      have hnone : m.cells m.fresh = none := by
        cases hc : m.cells m.fresh with
        | none => rfl
        | some x => exact absurd (hb _ _ hc) (Nat.lt_irrefl _)
      simp [index?, linkNew_new hb hcurr b, hnone]
    · exact index?_congr (linkNew_old b hq hqc)

end LinkNew

/-- What the copy loop leaves when it started in the last buffer of the list,
with content `c`: the new buffers `news`, and the bytes in them. -/
structure Copied (a a' : DynamicArray) (curr : Ptr) (c : List Byte) (start : Nat) (data : List Byte)
    (c' : List Byte) (news : List (Ptr × List Byte)) (used : Nat) : Prop where
  seg : BufSeg a'.mem ((curr, c') :: news) none
  flat_eq : flat ((curr, c') :: news) =
    overwrite (c ++ List.replicate (bufSize * news.length) 0) start data
  size : start + data.length = bufSize * news.length + used
  used_le : used ≤ bufSize
  used_pos : news ≠ [] → 0 < used
  nodup : (news.map Prod.fst).Nodup
  new_ge : ∀ p ∈ news.map Prod.fst, a.mem.fresh ≤ p
  old : ∀ q < a.mem.fresh, q ≠ curr → a'.mem.cells q = a.mem.cells q
  index : ∀ q, index? a'.mem q = index? a.mem q
  bounded : a'.mem.Bounded
  fresh_eq : a'.mem.fresh = a.mem.fresh + news.length
  sdArray : a'.sdArray =
    { a.sdArray with lastDynBuf := (((curr, c') :: news).getLast?).map Prod.fst }
  ordArray : a'.ordArray = a.ordArray
  total : a'.totalSizeInBytes = a.totalSizeInBytes

theorem copyLoop_spec (hok : ∀ n, ok n) {a : DynamicArray} {curr : Ptr} {start : Nat}
    (hb : a.mem.Bounded) (hcurr : BufSeg a.mem [(curr, c)] none)
    (hlast : a.sdArray.lastDynBuf = some curr) (hstart : start ≤ bufSize)
    (hfuel : data.length + start / bufSize < fuel) :
    ∃ a' c' news used, copyLoop ok fuel a curr start data = some (a', some used) ∧
      Copied a a' curr c start data c' news used := by
  induction fuel generalizing a curr c start data with
  | zero => exact absurd hfuel (Nat.not_lt_zero _)
  | succ fuel ih =>
    obtain ⟨hbuf, hlen, -⟩ := hcurr
    have hlt : curr < a.mem.fresh := hb curr _ (buf?_eq_some.mp hbuf)
    simp only [copyLoop, hbuf, bind_eq_bind, bind_some, headPtr]
    by_cases hmore : data.length > bufSize - start
    · rw [if_pos hmore, calloc_ok hok]
      -- the loop goes on in the new buffer
      set b : DynBuf := ⟨none, overwrite c start (data.take (bufSize - start))⟩ with hbdef
      have hnew := linkNew_new hb hbuf b
      have hdl : (data.drop (bufSize - start)).length = data.length - (bufSize - start) :=
        length_drop
      have hfuel' : (data.drop (bufSize - start)).length + 0 / bufSize < fuel := by
        simp only [bufSize] at hfuel hdl hstart ⊢
        omega
      have hseg₀ : BufSeg (linkNew a.mem curr b) [(a.mem.fresh, zeroBuf.buf)] none :=
        ⟨buf?_eq_some.mpr hnew, length_zeroBuf, trivial⟩
      obtain ⟨a', c', news, used, hrun, hcop⟩ :=
        ih (a := { a with
            mem := linkNew a.mem curr b
            sdArray := { a.sdArray with lastDynBuf := some a.mem.fresh } })
          (linkNew_bounded hb hbuf b) hseg₀ rfl (Nat.zero_le _) hfuel'
      refine ⟨a', b.buf, (a.mem.fresh, c') :: news, used, hrun, ?_⟩
      have hcurr' : a'.mem.cells curr = some (.buf { b with nextDynBuf := some a.mem.fresh }) :=
        (hcop.old curr (Nat.lt_succ_of_lt hlt) (Nat.ne_of_lt hlt)).trans (set_self _ _ _)
      have hsize := hcop.size
      refine ⟨⟨buf?_eq_some.mpr hcurr', ?_, hcop.seg⟩, ?_, ?_, hcop.used_le, ?_, ?_, ?_, ?_, ?_,
        hcop.bounded, ?_, ?_, hcop.ordArray, hcop.total⟩
      · rw [hbdef, length_overwrite, hlen]
        rw [length_take, hlen]
        omega
      · -- the bytes: the rest of this buffer, then those of the new ones
        have hzero : List.replicate (bufSize * (news.length + 1)) (0 : Byte) =
            zeroBuf.buf ++ List.replicate (bufSize * news.length) 0 := by
          rw [zeroBuf, replicate_append_replicate, Nat.mul_succ, Nat.add_comm]
        have hsplit :
            overwrite (c ++ (zeroBuf.buf ++ List.replicate (bufSize * news.length) 0)) start data = _ :=
          overwrite_append_split (by omega) (by omega)
        rw [hlen] at hsplit
        rw [flat_cons, hcop.flat_eq, length_cons, hzero, hsplit]
      · simp only [length_cons, Nat.mul_succ]
        omega
      · intro _
        rcases news with - | ⟨x, xs⟩
        · simp only [length_nil, bufSize] at hsize hdl hmore ⊢
          omega
        · exact hcop.used_pos (by simp)
      · rw [map_cons, nodup_cons]
        refine ⟨fun hmem => ?_, hcop.nodup⟩
        exact absurd (hcop.new_ge _ hmem) (Nat.not_succ_le_self _)
      · intro p hp
        rcases mem_cons.mp hp with rfl | hp
        · exact le_rfl
        · exact (Nat.le_succ _).trans (hcop.new_ge p hp)
      · intro q hq hqc
        rw [hcop.old q (Nat.lt_succ_of_lt hq) (Nat.ne_of_lt hq)]
        exact linkNew_old b (Nat.ne_of_lt hq) hqc
      · intro q
        rw [hcop.index q]
        exact linkNew_index hb hbuf b q
      · have hfresh : a'.mem.fresh = a.mem.fresh + 1 + news.length := hcop.fresh_eq
        rw [hfresh, length_cons]
        omega
      · rw [hcop.sdArray]
        simp
    · rw [if_neg hmore]
      refine ⟨_, overwrite c start data, [], start + data.length, rfl,
        ⟨buf?_set_self _ _ _, ?_, trivial⟩, ?_, by simp, by omega, by simp, by simp, by simp,
        fun q _ hq => set_of_ne _ _ hq, ?_, hb.set hlt _, rfl, ?_, rfl, rfl⟩
      · rw [length_overwrite (by omega), hlen]
      · simp
      · intro q
        by_cases hq : q = curr
        · subst hq
          rw [index?_of_buf? hbuf, index?_set_buf_self]
        · exact index?_congr (set_of_ne _ _ hq)
      · simp [← hlast]

/-! ## The array as a byte sequence -/

/-- The array stores `bytes` in the buffers `bufs`. -/
structure SimpleInv (a : DynamicArray) (bufs : List (Ptr × List Byte)) (bytes : List Byte) :
    Prop where
  bounded : a.mem.Bounded
  seg : BufSeg a.mem bufs none
  nodup : (bufs.map Prod.fst).Nodup
  nonempty : bufs ≠ []
  first : a.sdArray.firstDynBuf = headPtr bufs none
  last : a.sdArray.lastDynBuf = bufs.getLast?.map Prod.fst
  used_le : a.sdArray.bytesUsed ≤ bufSize
  used_pos : 1 < bufs.length → 0 < a.sdArray.bytesUsed
  total : a.totalSizeInBytes = bytes.length
  size : bytes.length + bufSize = bufSize * bufs.length + a.sdArray.bytesUsed
  bytes_eq : bytes = (flat bufs).take bytes.length

variable {a : DynamicArray} {bufs : List (Ptr × List Byte)} {bytes : List Byte}

theorem SimpleInv.length_le (h : SimpleInv a bufs bytes) :
    bytes.length ≤ bufSize * bufs.length := by
  have hsize := h.size
  have hused := h.used_le
  omega

/-- Insert when all allocations succeed: the new buffers follow the old ones. -/
theorem insertSimple_spec (h : SimpleInv a bufs bytes) {ok : Nat → Bool} (hok : ∀ n, ok n)
    (data : List Byte) :
    ∃ a' bufs' news, insertSimple ok a data = some (a', 0) ∧ SimpleInv a' bufs' (bytes ++ data) ∧
      bufs'.map Prod.fst = bufs.map Prod.fst ++ news ∧ a'.ordArray = a.ordArray ∧
      (∀ q, index? a'.mem q = index? a.mem q) ∧ a'.mem.fresh = a.mem.fresh + news.length := by
  obtain ⟨pre, ⟨curr, c⟩, rfl⟩ : ∃ pre x, bufs = pre ++ [x] :=
    ⟨_, _, (dropLast_append_getLast h.nonempty).symm⟩
  have hlast : a.sdArray.lastDynBuf = some curr := by
    rw [h.last]
    simp
  obtain ⟨hpre, hcurr⟩ := bufSeg_append.mp h.seg
  have hfuel : data.length + a.sdArray.bytesUsed / bufSize < data.length + 2 := by
    have hused := h.used_le
    simp only [bufSize] at hused ⊢
    omega
  obtain ⟨a', c', news, used, hrun, hcop⟩ :=
    copyLoop_spec hok h.bounded hcurr hlast h.used_le hfuel
  have hlen : c.length = bufSize := hcurr.2.1
  have hsize := h.size
  have hcsize := hcop.size
  have hprelen : (flat pre).length = bufSize * pre.length := hpre.length_flat
  have hnd := h.nodup
  rw [map_append, nodup_append] at hnd
  have hptr_lt : ∀ p ∈ (pre ++ [(curr, c)]).map Prod.fst, p < a.mem.fresh := by
    intro p hp
    obtain ⟨b, hb⟩ := h.seg.buf_of_mem hp
    exact h.bounded p _ (buf?_eq_some.mp hb)
  rw [length_append, length_singleton, Nat.mul_succ] at hsize
  refine ⟨{ a' with
      sdArray := { a'.sdArray with bytesUsed := used }
      totalSizeInBytes := a'.totalSizeInBytes + data.length },
    pre ++ (curr, c') :: news, news.map Prod.fst, ?_, ⟨hcop.bounded, ?_, ?_, by simp, ?_, ?_,
      hcop.used_le, ?_, ?_, ?_, ?_⟩, by simp, hcop.ordArray, hcop.index, by simpa using hcop.fresh_eq⟩
  · simp [insertSimple, hlast, hrun]
  · rw [bufSeg_append]
    refine ⟨hpre.congr fun p hp => buf?_congr (hcop.old p ?_ ?_), hcop.seg⟩
    · exact hptr_lt p (by simp [hp])
    · exact hnd.2.2 p hp curr (by simp)
  · rw [map_append, nodup_append, map_cons, nodup_cons]
    refine ⟨hnd.1, ⟨fun hmem => ?_, hcop.nodup⟩, fun p hp q hq => ?_⟩
    · exact absurd (hcop.new_ge curr hmem) (Nat.not_le_of_lt (hptr_lt curr (by simp)))
    · rcases mem_cons.mp hq with rfl | hq
      · exact hnd.2.2 p hp _ (by simp)
      · have hplt := hptr_lt p (by simp [hp])
        exact Nat.ne_of_lt (hplt.trans_le (hcop.new_ge q hq))
  · rw [hcop.sdArray, h.first, headPtr_append, headPtr_append]
    rfl
  · rw [hcop.sdArray, getLast?_append_of_ne_nil _ (by simp)]
  · intro hmany
    rcases news with - | ⟨x, xs⟩
    · -- no new buffer: the bytes used only grow
      have hpos : 0 < a.sdArray.bytesUsed := h.used_pos (by simpa using hmany)
      simp only [length_nil, Nat.mul_zero, Nat.zero_add] at hcsize
      change 0 < used
      omega
    · exact hcop.used_pos (by simp)
  · change a'.totalSizeInBytes + data.length = _
    rw [hcop.total, h.total, length_append]
  · simp only [length_append, length_cons, Nat.mul_add, Nat.mul_succ]
    omega
  · -- the bytes lie at the end of what was used
    have hbytes := h.bytes_eq
    have hstart : a.sdArray.bytesUsed = bytes.length - (flat pre).length := by omega
    have hold : (flat pre ++ (c ++ List.replicate (bufSize * news.length) 0)).take bytes.length =
        bytes := by
      rw [← append_assoc, take_append_of_le_length]
      · simpa using hbytes.symm
      · rw [length_append, hprelen, hlen]
        have hused := h.used_le
        omega
    rw [flat_append, hcop.flat_eq, hstart, ← overwrite_append_right (by omega), length_append,
      take_overwrite_end, hold]
    rw [length_append, length_append, hlen, hprelen]
    have hused := h.used_le
    omega

/-- The buffer in which a position lies, with the list from it on. -/
theorem SimpleInv.seg_at (h : SimpleInv a bufs bytes) (hpos : pos < bufSize * bufs.length) :
    ∃ pre p c rest, bufs = pre ++ (p, c) :: rest ∧ pre.length = pos / bufSize ∧
      (bufs.map Prod.fst)[pos / bufSize]? = some p ∧
      (flat pre).length + pos % bufSize = pos ∧ BufSeg a.mem ((p, c) :: rest) none := by
  have hk : pos / bufSize < bufs.length := Nat.div_lt_of_lt_mul hpos
  have hsplit : bufs =
      bufs.take (pos / bufSize) ++ bufs[pos / bufSize] :: bufs.drop (pos / bufSize + 1) := by
    rw [getElem_cons_drop, take_append_drop]
  obtain ⟨hpre, hrest⟩ := bufSeg_append.mp (hsplit ▸ h.seg)
  have hlen : (bufs.take (pos / bufSize)).length = pos / bufSize := by
    rw [length_take]
    omega
  refine ⟨_, _, _, _, hsplit, hlen, ?_, ?_, hrest⟩
  · rw [getElem?_map, getElem?_eq_getElem hk]
    rfl
  · rw [hpre.length_flat, hlen]
    exact Nat.div_add_mod pos bufSize

/-- A position lookup that finds every position in the buffers. -/
def LooksUp (findPos : DynamicArray → Nat → Option (Nat × Option Ptr × Nat)) (a : DynamicArray)
    (bufs : List (Ptr × List Byte)) : Prop :=
  ∀ pos < bufSize * bufs.length,
    findPos a pos = some (0, (bufs.map Prod.fst)[pos / bufSize]?, pos % bufSize)

theorem SimpleInv.looksUp_simple (h : SimpleInv a bufs bytes) : LooksUp findPosSimple a bufs := by
  intro pos hpos
  obtain ⟨-, p, -, -, -, -, hp, -⟩ := h.seg_at hpos
  rw [findPosSimple, h.first, scanPos_spec h.seg (Nat.lt_succ_self _), hp]

variable {findPos : DynamicArray → Nat → Option (Nat × Option Ptr × Nat)}

theorem readWith_spec (h : SimpleInv a bufs bytes) (hfind : LooksUp findPos a bufs) {size : Nat}
    (hsize : 0 < size) (hin : pos + size ≤ bytes.length) :
    readWith findPos a pos size = some (0, (bytes.drop pos).take size) := by
  have hle := h.length_le
  have hpos : pos < bufSize * bufs.length := by omega
  obtain ⟨pre, p, c, rest, hbufs, -, hp, hoff, hseg⟩ := h.seg_at hpos
  have hmod : ¬ (pos + size) % 2 ^ 64 > a.totalSizeInBytes := by
    rw [h.total]
    have hmle := Nat.mod_le (pos + size) (2 ^ 64)
    omega
  have hflat : (flat bufs).length = bufSize * bufs.length := h.seg.length_flat
  have hdrop : (flat bufs).drop pos = (flat ((p, c) :: rest)).drop (pos % bufSize) := by
    have hpre : (flat pre).length ≤ pos := by omega
    rw [hbufs, flat_append, drop_append, drop_of_length_le hpre, nil_append]
    congr 1
    omega
  have hlen : pos % bufSize + size ≤ (flat ((p, c) :: rest)).length := by
    have hsum := congrArg (fun l => (flat l).length) hbufs
    simp only [flat_append, length_append] at hsum
    omega
  have hread := readLoop_spec hseg (Nat.mod_lt pos (by decide)) hlen (Nat.lt_succ_self size)
  simp only [readWith, bind_eq_bind, if_neg hmod, hfind pos hpos, bind_some, hp, readPos]
  rw [if_neg (by simp)]
  have hres : (bytes.drop pos).take size = ((flat bufs).drop pos).take size := by
    rw [h.bytes_eq, drop_take, take_take, Nat.min_eq_left]
    exact Nat.le_sub_of_add_le' hin
  rw [hres, hdrop]
  exact hread

theorem writeWith_spec (h : SimpleInv a bufs bytes) (hfind : LooksUp findPos a bufs)
    (hpos : pos < bufSize * bufs.length) (hin : pos + data.length ≤ bytes.length) :
    ∃ a' bufs', writeWith findPos a pos data = some (a', 0) ∧
      SimpleInv a' bufs' (overwrite bytes pos data) ∧ bufs'.map Prod.fst = bufs.map Prod.fst ∧
      a'.ordArray = a.ordArray ∧ (∀ q, index? a'.mem q = index? a.mem q) ∧
      a'.mem.fresh = a.mem.fresh := by
  obtain ⟨pre, p, c, rest, rfl, -, hp, hoff, hseg⟩ := h.seg_at hpos
  have hle := h.length_le
  have hflat : (flat (pre ++ (p, c) :: rest)).length = _ := h.seg.length_flat
  have hlen : pos % bufSize + data.length ≤ (flat ((p, c) :: rest)).length := by
    simp only [flat_append, length_append] at hflat hle ⊢
    omega
  have hnd := h.nodup
  rw [map_append, nodup_append] at hnd
  obtain ⟨m', tail, hrun, hseg', hptrs, hfl, hframe, hfresh⟩ :=
    writeLoop_spec hseg hnd.2.1 (Nat.mod_lt pos (by decide)) hlen (Nat.lt_succ_self data.length)
  have htail : tail.length = ((p, c) :: rest).length := by
    simpa using congrArg List.length hptrs
  have hhead : headPtr tail none = some p := by
    rcases tail with - | ⟨⟨x, d⟩, xs⟩
    · simp at htail
    · simp only [map_cons, List.cons.injEq] at hptrs
      exact congrArg some hptrs.1
  have hlast : tail.getLast?.map Prod.fst = ((p, c) :: rest).getLast?.map Prod.fst := by
    rw [← getLast?_map, hptrs, getLast?_map]
  have hne : tail ≠ [] := by
    rintro rfl
    simp at htail
  have hbig : flat (pre ++ tail) = overwrite (flat (pre ++ (p, c) :: rest)) pos data := by
    rw [flat_append, flat_append, hfl, overwrite_append_right (by omega)]
    congr 2
    omega
  have hlen' : (overwrite bytes pos data).length = bytes.length := length_overwrite hin
  refine ⟨{ a with mem := m' }, pre ++ tail, ?_, ⟨?_, ?_, ?_, by simp [hne], ?_, ?_, h.used_le, ?_, ?_,
    ?_, ?_⟩, ?_, rfl, fun q => ?_, hfresh⟩
  · simp only [writeWith, hfind pos hpos, hp, writePos, hrun, bind_eq_bind, bind_some]
    rfl
  · intro q d hq
    change q < m'.fresh
    rw [hfresh]
    by_cases hmem : q ∈ ((p, c) :: rest).map Prod.fst
    · obtain ⟨b, hb⟩ := hseg.buf_of_mem hmem
      exact h.bounded q _ (buf?_eq_some.mp hb)
    · exact h.bounded q d ((hframe q hmem).symm.trans hq)
  · rw [bufSeg_append, hhead]
    refine ⟨(bufSeg_append.mp h.seg).1.congr fun q hq => buf?_congr (hframe q fun hq' => ?_), hseg'⟩
    exact hnd.2.2 q hq q hq' rfl
  · rw [map_append, hptrs, ← map_append]
    exact h.nodup
  · rw [headPtr_append, hhead]
    exact h.first.trans (headPtr_append _ _ _)
  · change a.sdArray.lastDynBuf = _
    rw [h.last, getLast?_append_of_ne_nil _ hne, hlast,
      getLast?_append_of_ne_nil _ (by simp)]
  · rw [length_append, htail, ← length_append]
    exact h.used_pos
  · rw [hlen']
    exact h.total
  · rw [hlen', length_append, htail, ← length_append]
    exact h.size
  · rw [hlen', hbig, take_overwrite hin (by omega), ← h.bytes_eq]
  · rw [map_append, hptrs, ← map_append]
  · by_cases hmem : q ∈ ((p, c) :: rest).map Prod.fst
    · obtain ⟨b, hb⟩ := hseg.buf_of_mem hmem
      obtain ⟨b', hb'⟩ := hseg'.buf_of_mem (hptrs ▸ hmem)
      rw [index?_of_buf? hb, index?_of_buf? hb']
    · exact index?_congr (hframe q hmem)

/-- An empty write where no buffer is found changes nothing. -/
theorem writeWith_nil_not_found {ret : Nat} {p : Option Ptr}
    (hfind : findPos a pos = some (ret, p, bufPos)) (hno : ret ≠ 0 ∨ p = none) :
    ∃ ret', writeWith findPos a pos [] = some (a, ret') := by
  by_cases hret : ret = 0
  · have hp : p = none := hno.resolve_left (by simpa using hret)
    subst hp
    exact ⟨1, by simp [writeWith, hfind, hret, writePos, writeLoop]⟩
  · exact ⟨ret, by simp [writeWith, hfind, hret]⟩

theorem createSimple_spec (hok : ∀ n, ok n) {m : Mem} (hm : m.Bounded) :
    ∃ a, createSimple ok m = some a ∧ SimpleInv a [(m.fresh, zeroBuf.buf)] [] ∧
      a.mem = { m.set m.fresh (.buf zeroBuf) with fresh := m.fresh + 1 } := by
  refine ⟨_, by rw [createSimple, calloc_ok hok], ⟨hm.calloc _, ?_, by simp, by simp, rfl, rfl,
    Nat.zero_le _, by simp, rfl, rfl, rfl⟩, rfl⟩
  exact ⟨buf?_eq_some.mpr (set_self _ _ _), length_zeroBuf, trivial⟩

end IClaustron.DynArray
