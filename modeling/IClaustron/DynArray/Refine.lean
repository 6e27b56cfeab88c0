import IClaustron.DynArray.Ordered
import IClaustron.Lib.Run
import Mathlib.Tactic.IntervalCases

/-!
# DynArray.Refine — dynamic arrays are byte lists

The abstract array is the list of bytes inserted so far; an insert appends and
a write overwrites. Both implementations are run against it on the same calls.

An ordered array fails at one point only: an empty write at the end of the data
looks up the buffer behind the last one. When the data fills whole index nodes
and more than one level of them, the node for that buffer is missing, and the
descent follows the NULL pointer (`Hole`, `writeOrdered_hole`).
-/

namespace IClaustron.DynArray

open Lib

variable {a : DynamicArray} {bytes : List Byte}

/-- At these sizes, the buffer behind the last one has no place in the index:
the data fills a number of leaf nodes, and is not a full tree. -/
def Hole (total : Nat) : Prop :=
  total ≠ 0 ∧ bufSize * indexSize ∣ total ∧ ∀ l, total ≠ bufSize * indexSize ^ l

/-! ## The end of the data -/

variable {bufs : List (Ptr × List Byte)} {seq : Nat → List Ptr} {levels : Nat} {top : Ptr}
  {place : Ptr → Option (Nat × Nat)} {bytes' : List Byte} {ops : List Op}

/-- What the lookup of the position behind a full last buffer finds. -/
theorem findPosOrdered_end (hix : Indexed a (bufs.map Prod.fst) seq levels top place)
    (hne : bufs ≠ []) :
    findPosOrdered a (bufSize * bufs.length) =
      if bufs.length = indexSize ^ levels then some (1, none, 0)
      else if indexSize ∣ bufs.length then none
      else some (0, none, 0) := by
  have hlen : (seq 0).length = bufs.length := by
    rw [hix.seq_zero, List.length_map]
  have hpos : 0 < bufs.length := List.length_pos_of_ne_nil hne
  have hle : bufs.length ≤ indexSize ^ levels := by
    by_contra hgt
    have hlt := (hix.tree.lt_length_iff (k := 1) (le_refl levels)).mpr (by rw [hlen]; omega)
    rw [hix.tree.top_eq] at hlt
    simp at hlt
  have hdiv : ∀ k, bufSize * bufs.length / span k = bufs.length / indexSize ^ k := fun k =>
    Nat.mul_div_mul_left _ _ (by decide)
  -- a node on the way is missing when the buffers fill its level
  have hmiss : ∀ k, k ≤ levels →
      ((seq k).length ≤ bufs.length / indexSize ^ k ↔ indexSize ^ k ∣ bufs.length) := by
    intro k hk
    rw [← Nat.not_lt, hix.tree.lt_length_iff hk, hlen, Nat.not_lt]
    constructor
    · intro h
      exact ⟨_, (Nat.mul_comm _ _ ▸ (Nat.div_mul_le_self _ _).antisymm h).symm⟩
    · intro h
      exact (Nat.div_mul_cancel h).ge
  split_ifs with hfull hdvd
  · refine findPosOrdered_over hix ?_
    rw [hfull]
    exact le_refl _
  · have hlt : bufs.length < indexSize ^ levels := lt_of_le_of_ne hle hfull
    have htwo : 1 < levels := by
      rcases Nat.lt_or_ge 1 levels with h | h
      · exact h
      · have hone : levels = 1 := by
          have := hix.tree.base_lt
          omega
        rw [hone, pow_one] at hlt
        exact absurd (Nat.le_of_dvd hpos hdvd) (by omega)
    rw [findPosOrdered_eq hix (Nat.mul_lt_mul_of_pos_left hlt (by decide))]
    refine descend_lost hix.tree (k := 0) (by omega) ?_
    rw [hdiv, hmiss 1 (by omega), pow_one]
    exact hdvd
  · have hlt : bufs.length < indexSize ^ levels := lt_of_le_of_ne hle hfull
    rw [findPosOrdered_eq hix (Nat.mul_lt_mul_of_pos_left hlt (by decide)), descend_found hix.tree]
    · rw [Nat.mul_div_cancel_left _ (by decide), Nat.mul_mod_right, hix.seq_zero,
        List.getElem?_eq_none (by simp)]
    · intro k hk
      rw [hdiv]
      by_contra hge
      have hd := (hmiss (k + 1) (by omega)).mp (Nat.le_of_not_lt hge)
      exact hdvd ((dvd_pow_self indexSize (by omega)).trans hd)

/-- The tree is no higher than needed: a power of 128 buffers is a full tree. -/
theorem Indexed.levels_of_pow {ptrs : List Ptr} {l : Nat}
    (hix : Indexed a ptrs seq levels top place) (hlen : ptrs.length = indexSize ^ l)
    (hdvd : indexSize ∣ ptrs.length) : l = levels := by
  have hbase := hix.tree.base_lt
  have hl : 0 < l := by
    rcases Nat.eq_zero_or_pos l with rfl | hl
    · rw [hlen] at hdvd
      exact absurd hdvd (by decide)
    · exact hl
  have hle : l ≤ levels := by
    by_contra hgt
    have hlt : (1 : Nat) < (seq levels).length := by
      rw [hix.tree.lt_length_iff (le_refl levels), hix.seq_zero, hlen, one_mul]
      exact Nat.pow_lt_pow_right (by decide) (by omega)
    rw [hix.tree.top_eq] at hlt
    simp at hlt
  rcases Nat.lt_or_ge 1 levels with htwo | hone
  · have htall := hix.tree.tall htwo
    have hlt : (1 : Nat) < (seq (levels - 1)).length := htall
    rw [hix.tree.lt_length_iff (by omega), hix.seq_zero, hlen, one_mul] at hlt
    have hgt := (Nat.pow_lt_pow_iff_right (show 1 < indexSize by decide)).mp hlt
    omega
  · omega

/-! ## Writes of an ordered array -/

theorem hole_iff (hs : SimpleInv a bufs bytes)
    (hix : Indexed a (bufs.map Prod.fst) seq levels top place)
    (hend : bytes.length = bufSize * bufs.length) :
    Hole bytes.length ↔ indexSize ∣ bufs.length ∧ bufs.length ≠ indexSize ^ levels := by
  have hpos : 0 < bufs.length := List.length_pos_of_ne_nil hs.nonempty
  have hb : 0 < bufSize := by decide
  rw [Hole, hend, Nat.mul_dvd_mul_iff_left hb]
  constructor
  · rintro ⟨-, hdvd, hpow⟩
    exact ⟨hdvd, fun heq => hpow levels (by rw [heq])⟩
  · rintro ⟨hdvd, hne⟩
    refine ⟨(Nat.mul_pos hb hpos).ne', hdvd, fun l heq => hne ?_⟩
    have hl : bufs.length = indexSize ^ l := Nat.eq_of_mul_eq_mul_left hb heq
    have hlev := hix.levels_of_pow (by rw [List.length_map, hl]) (by rwa [List.length_map])
    rw [hl, hlev]

theorem writeOrdered_spec (h : OrdInv a bytes) {pos : Nat} {data : List Byte}
    (hin : pos + data.length ≤ bytes.length)
    (hno : ¬ (data = [] ∧ pos = bytes.length ∧ Hole bytes.length)) :
    ∃ a' ret, writeOrdered a pos data = some (a', ret) ∧ OrdInv a' (overwrite bytes pos data) := by
  obtain ⟨bufs, seq, levels, top, place, hs, hix⟩ := h
  by_cases hpos : pos < bufSize * bufs.length
  · obtain ⟨a', bufs', hrun, hs', hptrs, hord, hidx, hfresh⟩ :=
      writeWith_spec hs hix.looksUp hpos hin
    refine ⟨a', 0, hrun, bufs', seq, levels, top, place, hs', ?_⟩
    rw [hptrs]
    exact hix.of_simple hidx hfresh.ge hord
  · -- an empty write behind the last buffer
    have hle := hs.length_le
    have hend : bytes.length = bufSize * bufs.length := by omega
    have hdata : data = [] := List.eq_nil_of_length_eq_zero (by omega)
    have hposeq : pos = bytes.length := by omega
    subst hdata
    rw [overwrite_nil]
    have hnh : ¬ Hole bytes.length := fun hh => hno ⟨rfl, hposeq, hh⟩
    rw [hole_iff hs hix hend] at hnh
    have hfind := findPosOrdered_end hix hs.nonempty
    obtain ⟨ret, hret⟩ : ∃ ret, writeOrdered a pos [] = some (a, ret) := by
      rw [hposeq, hend]
      split_ifs at hfind with hfull hdvd
      · exact writeWith_nil_not_found hfind (Or.inl one_ne_zero)
      · exact absurd ⟨hdvd, hfull⟩ hnh
      · exact writeWith_nil_not_found hfind (Or.inr rfl)
    exact ⟨a, ret, hret, bufs, seq, levels, top, place, hs, hix⟩

theorem writeOrdered_hole (h : OrdInv a bytes) (hh : Hole bytes.length) :
    writeOrdered a bytes.length [] = none := by
  obtain ⟨bufs, seq, levels, top, place, hs, hix⟩ := h
  have hend : bytes.length = bufSize * bufs.length := by
    -- a positive multiple of the buffer size leaves no room in the last buffer
    obtain ⟨hne, ⟨t, ht⟩, -⟩ := hh
    have hsize := hs.size
    have hused := hs.used_le
    have hupos := hs.used_pos
    have hpos : 0 < bufs.length := List.length_pos_of_ne_nil hs.nonempty
    simp only [bufSize, indexSize] at *
    omega
  obtain ⟨hdvd, hne⟩ := (hole_iff hs hix hend).mp hh
  have hfind := findPosOrdered_end hix hs.nonempty
  rw [if_neg hne, if_pos hdvd] at hfind
  rw [hend, writeOrdered, writeWith, hfind]
  rfl

/-! ## Runs -/

/-- The calls that change an array. -/
inductive Op where
  | insert (data : List Byte)
  | write (pos : Nat) (data : List Byte)
deriving DecidableEq

def applyOrdered (a : DynamicArray) : Op → Option DynamicArray
  | .insert data => (insertOrdered (fun _ => true) a data).map Prod.fst
  | .write pos data => (writeOrdered a pos data).map Prod.fst

def applySimple (a : DynamicArray) : Op → Option DynamicArray
  | .insert data => (insertSimple (fun _ => true) a data).map Prod.fst
  | .write pos data => (writeSimple a pos data).map Prod.fst

/-- An ordered array after the calls; all allocations succeed. -/
def runOrdered (ops : List Op) : Option DynamicArray :=
  (createOrdered (fun _ => true) Heap.empty).bind fun a => Run.exec applyOrdered a ops

/-- A simple array after the calls. -/
def runSimple (ops : List Op) : Option DynamicArray :=
  (createSimple (fun _ => true) Heap.empty).bind fun a => Run.exec applySimple a ops

/-- The abstract array: an insert of at least one byte appends, a write inside
the data overwrites. -/
def applyBytes (bytes : List Byte) : Op → Option (List Byte)
  | .insert data => if data = [] then none else some (bytes ++ data)
  | .write pos data =>
    if pos + data.length ≤ bytes.length then some (overwrite bytes pos data) else none

/-- An empty write at the end of data with a hole behind it. -/
def WritesIntoHole (bytes : List Byte) (op : Op) : Prop :=
  op = .write bytes.length [] ∧ Hole bytes.length

theorem applyOrdered_spec (h : OrdInv a bytes) {op : Op} (hop : applyBytes bytes op = some bytes')
    (hno : ¬ WritesIntoHole bytes op) : ∃ a', applyOrdered a op = some a' ∧ OrdInv a' bytes' := by
  cases op with
  | insert data =>
    simp only [applyBytes] at hop
    split_ifs at hop
    cases hop
    obtain ⟨a', hrun, h'⟩ := insertOrdered_spec h data
    exact ⟨a', by simp [applyOrdered, hrun], h'⟩
  | write pos data =>
    simp only [applyBytes] at hop
    split_ifs at hop with hin
    cases hop
    obtain ⟨a', ret, hrun, h'⟩ := writeOrdered_spec h hin (by
      rintro ⟨rfl, rfl, hh⟩
      exact hno ⟨rfl, hh⟩)
    exact ⟨a', by simp [applyOrdered, hrun], h'⟩

theorem applySimple_spec (h : SimpleInv a bufs bytes) {op : Op}
    (hop : applyBytes bytes op = some bytes') :
    ∃ a' bufs', applySimple a op = some a' ∧ SimpleInv a' bufs' bytes' := by
  cases op with
  | insert data =>
    simp only [applyBytes] at hop
    split_ifs at hop
    cases hop
    obtain ⟨a', bufs', -, hrun, h', -⟩ := @insertSimple_spec _ _ _ h (fun _ => true) (fun _ => rfl) data
    exact ⟨a', bufs', by simp [applySimple, hrun], h'⟩
  | write pos data =>
    simp only [applyBytes] at hop
    split_ifs at hop with hin
    cases hop
    by_cases hpos : pos < bufSize * bufs.length
    · obtain ⟨a', bufs', hrun, h', -⟩ := writeWith_spec h h.looksUp_simple hpos hin
      exact ⟨a', bufs', by simp [applySimple, writeSimple, hrun], h'⟩
    · have hle := h.length_le
      have hdata : data = [] := List.eq_nil_of_length_eq_zero (by omega)
      subst hdata
      rw [overwrite_nil]
      have hnone : (bufs.map Prod.fst)[pos / bufSize]? = none := by
        rw [List.getElem?_eq_none_iff, List.length_map, Nat.le_div_iff_mul_le (by decide), Nat.mul_comm]
        omega
      have hfind : findPosSimple a pos = some (1, none, 0) := by
        rw [findPosSimple, h.first, scanPos_spec h.seg (Nat.lt_succ_self _), hnone]
      obtain ⟨ret, hret⟩ := writeWith_nil_not_found hfind (Or.inl one_ne_zero)
      exact ⟨a, bufs, by simp [applySimple, writeSimple, hret], h⟩

theorem exec_ordered (h : OrdInv a bytes) (hops : Run.exec applyBytes bytes ops = some bytes')
    (hno : Run.Along applyBytes (fun b op => ¬ WritesIntoHole b op) bytes ops) :
    ∃ a', Run.exec applyOrdered a ops = some a' ∧ OrdInv a' bytes' := by
  induction ops generalizing a bytes with
  | nil =>
    cases hops
    exact ⟨a, rfl, h⟩
  | cons op ops ih =>
    obtain ⟨b, hb, hops⟩ := Option.bind_eq_some_iff.mp hops
    obtain ⟨hop, hrest⟩ := hno b hb
    obtain ⟨a₁, hrun, h₁⟩ := applyOrdered_spec h hb hop
    rw [Run.exec_cons, hrun]
    exact ih h₁ hops hrest

/-- Once a call writes into a hole, the program is gone. -/
theorem exec_ordered_hole (h : OrdInv a bytes) (hops : Run.exec applyBytes bytes ops = some bytes')
    (hno : ¬ Run.Along applyBytes (fun b op => ¬ WritesIntoHole b op) bytes ops) :
    Run.exec applyOrdered a ops = none := by
  induction ops generalizing a bytes with
  | nil => exact absurd trivial hno
  | cons op ops ih =>
    obtain ⟨b, hb, hops⟩ := Option.bind_eq_some_iff.mp hops
    by_cases hop : WritesIntoHole bytes op
    · obtain ⟨rfl, hh⟩ := hop
      simp [applyOrdered, writeOrdered_hole h hh]
    · obtain ⟨a₁, hrun, h₁⟩ := applyOrdered_spec h hb hop
      rw [Run.exec_cons, hrun]
      refine ih h₁ hops fun hrest => hno ?_
      intro b' hb'
      rw [hb] at hb'
      cases hb'
      exact ⟨hop, hrest⟩

theorem exec_simple (h : SimpleInv a bufs bytes)
    (hops : Run.exec applyBytes bytes ops = some bytes') :
    ∃ a' bufs', Run.exec applySimple a ops = some a' ∧ SimpleInv a' bufs' bytes' := by
  induction ops generalizing a bufs bytes with
  | nil =>
    cases hops
    exact ⟨a, bufs, rfl, h⟩
  | cons op ops ih =>
    obtain ⟨b, hb, hops⟩ := Option.bind_eq_some_iff.mp hops
    obtain ⟨a₁, bufs₁, hrun, h₁⟩ := applySimple_spec h hb
    rw [Run.exec_cons, hrun]
    exact ih h₁ hops

/-- On every sequence of legal calls, an ordered array reads like the byte list,
and like a simple array, if and only if no call is an empty write at the end of
data with a hole behind it. -/
theorem ordered_reads_bytes_iff {ops : List Op} {bytes : List Byte}
    (hops : Run.exec applyBytes [] ops = some bytes) :
    (∃ a s, runOrdered ops = some a ∧ runSimple ops = some s ∧
      ∀ pos size, 0 < size → pos + size ≤ bytes.length →
        readOrdered a pos size = some (0, (bytes.drop pos).take size) ∧
        readSimple s pos size = readOrdered a pos size) ↔
      Run.Along applyBytes (fun b op => ¬ WritesIntoHole b op) [] ops := by
  obtain ⟨a₀, hcreate, h₀⟩ := createOrdered_spec
  obtain ⟨s₀, hcreate', hs₀, -⟩ := @createSimple_spec (fun _ => true) (fun _ => rfl)
    Heap.empty Heap.bounded_empty
  constructor
  · rintro ⟨a, -, hrun, -⟩
    by_contra hno
    rw [runOrdered, hcreate, Option.bind_some, exec_ordered_hole h₀ hops hno] at hrun
    cases hrun
  · intro hno
    obtain ⟨a, hrun, bufs, seq, levels, top, place, hs, hix⟩ := exec_ordered h₀ hops hno
    obtain ⟨s, sbufs, hrun', hs'⟩ := exec_simple hs₀ hops
    refine ⟨a, s, ?_, ?_, fun pos size hsize hin => ?_⟩
    · rw [runOrdered, hcreate]
      exact hrun
    · rw [runSimple, hcreate']
      exact hrun'
    · have hread : readOrdered a pos size = _ := readWith_spec hs hix.looksUp hsize hin
      have hread' : readSimple s pos size = _ := readWith_spec hs' hs'.looksUp_simple hsize hin
      exact ⟨hread, hread'.trans hread.symm⟩

theorem ordered_reads_small :
    ∃ a s, runOrdered [.insert [1, 2, 3], .write 1 [9]] = some a ∧
      runSimple [.insert [1, 2, 3], .write 1 [9]] = some s ∧
      ∀ pos size, 0 < size → pos + size ≤ 3 →
        readOrdered a pos size = some (0, (List.drop pos [1, 9, 3]).take size) ∧
        readSimple s pos size = readOrdered a pos size := by
  have hops : Run.exec applyBytes [] [.insert [1, 2, 3], .write 1 [9]] = some [1, 9, 3] := rfl
  refine (ordered_reads_bytes_iff hops).mpr ?_
  intro b₁ h₁
  cases h₁
  refine ⟨fun h => absurd h.1 (by decide), fun b₂ h₂ => ?_⟩
  cases h₂
  exact ⟨fun h => absurd h.1 (by decide), trivial⟩

/-- 256 full buffers are two full leaf nodes. The empty write at their end is a
call inside the data, and it follows a NULL pointer. -/
theorem ordered_end_write_crashes :
    ∃ bytes, Run.exec applyBytes []
        [.insert (List.replicate 262144 0), .write 262144 []] = some bytes ∧
      runOrdered [.insert (List.replicate 262144 0), .write 262144 []] = none := by
  obtain ⟨data, hdata, hlen⟩ :
      ∃ data, data = List.replicate 262144 (0 : Byte) ∧ data.length = 262144 :=
    ⟨_, rfl, List.length_replicate⟩
  rw [← hdata]
  have hne : data ≠ [] := by
    rw [← List.length_pos_iff, hlen]
    decide
  refine ⟨data, ?_, ?_⟩
  · simp [applyBytes, hne, hlen]
  · obtain ⟨a₀, hcreate, h₀⟩ := createOrdered_spec
    obtain ⟨a₁, hins, h₁⟩ := insertOrdered_spec h₀ data
    rw [List.nil_append] at h₁
    have hhole : Hole data.length := by
      rw [hlen]
      refine ⟨by decide, by decide, fun l => ?_⟩
      -- 128 < 256 < 128 ^ 2
      rcases Nat.lt_or_ge l 2 with hl | hl
      · interval_cases l <;> decide
      · have hpow : indexSize ^ 2 ≤ indexSize ^ l := Nat.pow_le_pow_right (by decide) hl
        have hmul : bufSize * indexSize ^ 2 ≤ bufSize * indexSize ^ l := Nat.mul_le_mul_left _ hpow
        have hval : bufSize * indexSize ^ 2 = 16777216 := by decide
        omega
    have hwrite := writeOrdered_hole h₁ hhole
    rw [hlen] at hwrite
    rw [runOrdered, hcreate]
    simp [applyOrdered, hins, hwrite]

end IClaustron.DynArray
