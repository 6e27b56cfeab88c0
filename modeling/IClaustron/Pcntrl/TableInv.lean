import IClaustron.DynArray.Slots
import IClaustron.Lib.Result
import IClaustron.Pcntrl.Commands

/-!
# Pcntrl.TableInv — hash table and pointer array hold the same entries

`WorldInv` is what holds of the process table between two sections: the hash
table has one entry for each key, and the live slots of the pointer array are
the objects of the hash table, each at its `dyn_trans_index`. `insertPcEntry_spec`
and `removePcEntry_spec` are the two operations that change both.
-/

namespace IClaustron.Pcntrl

open Lib DynArray

/-- The object is in the hash table. -/
def InTable (w : World) (p : Ptr) : Prop := ∃ k, (k, p) ∈ w.hash

/-- The process table, with the entries `slots` of the pointer array. A slot
that is not in use holds the free mark. -/
structure WorldInv (w : World) (slots : List Nat) : Prop where
  stored : Slots w.array slots
  head : slots[0]? = some 0
  fits : entrySize * slots.length ≤ 2 ^ 64
  address : ∀ p c, w.pcs.cells p = some c → 0 < p ∧ p < w.pcs.fresh ∧ p < highestBitSet
  fresh_pos : 0 < w.pcs.fresh
  keys : Assoc.Keyed w.hash
  entry : ∀ k p, (k, p) ∈ w.hash →
    ∃ c, w.pcs.cells p = some c ∧ c.key = k ∧ 0 < c.dynTransIndex ∧
      slots[c.dynTransIndex]? = some p
  slot : ∀ i v, 0 < i → slots[i]? = some v →
    v = highestBitSet ∨ ∃ c, w.pcs.cells v = some c ∧ (c.key, v) ∈ w.hash ∧ c.dynTransIndex = i

variable {w : World} {slots : List Nat} {p : Ptr} {c : PcStart}

section

variable (h : WorldInv w slots)

include h

theorem WorldInv.live (hp : InTable w p) : ∃ c, w.pcs.cells p = some c ∧ (c.key, p) ∈ w.hash := by
  obtain ⟨k, hk⟩ := hp
  obtain ⟨c, hc, rfl, -⟩ := h.entry k p hk
  exact ⟨c, hc, hk⟩

theorem WorldInv.mem_hash (hp : InTable w p) (hc : w.pcs.cells p = some c) :
    (c.key, p) ∈ w.hash := by
  obtain ⟨c', hc', hmem⟩ := h.live hp
  rw [hc] at hc'
  cases hc'
  exact hmem

/-- A search finds the object with the key. -/
theorem WorldInv.search {k : Key} {f : Ptr} (hs : hashSearch w k = some f) :
    ∃ c, w.pcs.cells f = some c ∧ c.key = k ∧ (k, f) ∈ w.hash := by
  have hmem : (k, f) ∈ w.hash := Assoc.mem_of_search hs
  obtain ⟨c, hc, hk, -⟩ := h.entry k f hmem
  exact ⟨c, hc, hk, hmem⟩

/-! ## Changes of one object -/

/-- Writing an object changes neither its key nor, for an entry of the table, its
index. -/
theorem WorldInv.store (hc : w.pcs.cells p = some c) (c' : PcStart) (hkey : c'.key = c.key)
    (hidx : InTable w p → c'.dynTransIndex = c.dynTransIndex) : WorldInv (store w p c') slots := by
  have hself : (Pcntrl.store w p c').pcs.cells p = some c' := Heap.set_self _ _ _
  have hother : ∀ q, q ≠ p → (Pcntrl.store w p c').pcs.cells q = w.pcs.cells q :=
    fun q hq => Heap.set_of_ne _ _ hq
  refine ⟨h.stored, h.head, h.fits, ?_, h.fresh_pos, h.keys, ?_, ?_⟩
  · intro q d hd
    by_cases hq : q = p
    · subst hq
      exact h.address q c hc
    · rw [hother q hq] at hd
      exact h.address q d hd
  · intro k q hmem
    obtain ⟨d, hd, hdk, hpos, hslot⟩ := h.entry k q hmem
    by_cases hq : q = p
    · subst hq
      rw [hc] at hd
      cases hd
      rw [← hidx ⟨k, hmem⟩] at hpos hslot
      exact ⟨c', hself, by rw [hkey, hdk], hpos, hslot⟩
    · exact ⟨d, by rw [hother q hq, hd], hdk, hpos, hslot⟩
  · intro i v hi hv
    rcases h.slot i v hi hv with hfree | ⟨d, hd, hmem, hdi⟩
    · exact .inl hfree
    · right
      by_cases hq : v = p
      · subst hq
        rw [hc] at hd
        cases hd
        refine ⟨c', hself, by rw [hkey]; exact hmem, ?_⟩
        rw [hidx ⟨_, hmem⟩, hdi]
      · exact ⟨d, by rw [hother v hq, hd], hmem, hdi⟩

/-- An object outside the table can be freed. -/
theorem WorldInv.release (hp : ¬ InTable w p) (hc : w.pcs.cells p = some c) :
    release w p = .ok { w with pcs := w.pcs.free p } ∧
      WorldInv { w with pcs := w.pcs.free p } slots := by
  have hother : ∀ q, q ≠ p → (w.pcs.free p).cells q = w.pcs.cells q :=
    fun q hq => Heap.free_of_ne _ hq
  refine ⟨by unfold Pcntrl.release; rw [hc], h.stored, h.head, h.fits, ?_, h.fresh_pos, h.keys, ?_, ?_⟩
  · intro q d hd
    by_cases hq : q = p
    · subst hq
      simp [Heap.free] at hd
    · exact h.address q d (by rw [← hother q hq]; exact hd)
  · intro k q hmem
    obtain ⟨d, hd, hrest⟩ := h.entry k q hmem
    have hq : q ≠ p := by
      rintro rfl
      exact hp ⟨k, hmem⟩
    exact ⟨d, by rw [← hd]; exact hother q hq, hrest⟩
  · intro i v hi hv
    rcases h.slot i v hi hv with hfree | ⟨d, hd, hmem, hdi⟩
    · exact .inl hfree
    · have hq : v ≠ p := by
        rintro rfl
        exact hp ⟨_, hmem⟩
      exact .inr ⟨d, by rw [← hd]; exact hother v hq, hmem, hdi⟩

/-- A new object. -/
theorem WorldInv.create (hlt : w.pcs.fresh < highestBitSet) (c : PcStart) :
    WorldInv { w with pcs := { w.pcs.set w.pcs.fresh c with fresh := w.pcs.fresh + 1 } } slots := by
  have hnew : w.pcs.cells w.pcs.fresh = none := by
    cases hcell : w.pcs.cells w.pcs.fresh with
    | none => rfl
    | some d => exact absurd (h.address _ d hcell).2.1 (Nat.lt_irrefl _)
  have hother : ∀ q d, w.pcs.cells q = some d → (w.pcs.set w.pcs.fresh c).cells q = some d := by
    intro q d hd
    rw [Heap.set_of_ne _ _ (by rintro rfl; rw [hnew] at hd; cases hd)]
    exact hd
  refine ⟨h.stored, h.head, h.fits, ?_, Nat.succ_pos _, h.keys, ?_, ?_⟩
  · intro q d hd
    by_cases hq : q = w.pcs.fresh
    · subst hq
      exact ⟨h.fresh_pos, Nat.lt_succ_self _, hlt⟩
    · have hd' : w.pcs.cells q = some d := by
        rw [← Heap.set_of_ne w.pcs c hq]
        exact hd
      obtain ⟨hpos, hfresh, hhigh⟩ := h.address q d hd'
      exact ⟨hpos, Nat.lt_succ_of_lt hfresh, hhigh⟩
  · intro k q hmem
    obtain ⟨d, hd, hrest⟩ := h.entry k q hmem
    exact ⟨d, hother q d hd, hrest⟩
  · intro i v hi hv
    rcases h.slot i v hi hv with hfree | ⟨d, hd, hmem, hdi⟩
    · exact .inl hfree
    · exact .inr ⟨d, hother v d hd, hmem, hdi⟩

/-! ## Entries -/

theorem removePcEntry_spec (hp : InTable w p) (hc : w.pcs.cells p = some c) :
    ∃ a', removePcEntry w p =
        .ok { w with hash := Assoc.remove w.hash c.key, array := a' } ∧
      WorldInv { w with hash := Assoc.remove w.hash c.key, array := a' }
        (slots.set c.dynTransIndex highestBitSet) := by
  have hmem := h.mem_hash hp hc
  obtain ⟨c', hc', -, hpos, hslot⟩ := h.entry _ _ hmem
  rw [hc] at hc'
  cases hc'
  have hlt : c.dynTransIndex < slots.length := (List.getElem?_eq_some_iff.mp hslot).1
  have hp64 : p < 2 ^ 64 := (h.address p c hc).2.2.trans highestBitSet_lt
  obtain ⟨a', hrem, hstored⟩ := removePtr_spec h.stored h.head hpos hslot hp64 h.fits
  refine ⟨a', ?_, hstored, ?_, ?_, h.address, h.fresh_pos, h.keys.remove _, ?_, ?_⟩
  · unfold removePcEntry
    rw [Result.bind_of_ok (follow_of_cell hc)]
    have hsearch : hashSearch w c.key = some p := h.keys.search hmem
    rw [if_pos hsearch, hrem]
    rfl
  · rw [slot_set_iff hlt]
    exact .inr ⟨by omega, h.head⟩
  · rw [List.length_set]
    exact h.fits
  · intro k q hq
    obtain ⟨hq, hne⟩ := (Assoc.mem_remove h.keys).mp hq
    obtain ⟨d, hd, hdk, hdpos, hdslot⟩ := h.entry k q hq
    refine ⟨d, hd, hdk, hdpos, ?_⟩
    rw [slot_set_iff hlt]
    refine .inr ⟨fun heq => ?_, hdslot⟩
    -- the same slot would hold two objects
    rw [heq, hslot] at hdslot
    cases hdslot
    rw [hc] at hd
    cases hd
    exact hne hdk.symm
  · intro i v hi hv
    rw [slot_set_iff hlt] at hv
    rcases hv with ⟨-, hv⟩ | ⟨hne, hv⟩
    · exact .inl hv
    · rcases h.slot i v hi hv with hfree | ⟨d, hd, hdmem, hdi⟩
      · exact .inl hfree
      · refine .inr ⟨d, hd, (Assoc.mem_remove h.keys).mpr ⟨hdmem, fun hk => ?_⟩, hdi⟩
        rw [hk] at hdmem
        rw [h.keys.unique hdmem hmem, hc] at hd
        cases hd
        exact hne hdi.symm

/-- One more slot, in use by `p`. -/
theorem WorldInv.append (hout : ¬ InTable w p) (hc : w.pcs.cells p = some c)
    (hkey : ∀ q, (c.key, q) ∉ w.hash) {a' : DynamicArray} (hstored : Slots a' (slots ++ [p]))
    (hfit : entrySize * (slots.length + 1) ≤ 2 ^ 64) :
    WorldInv
      { w with
        pcs := w.pcs.set p { c with dynTransIndex := slots.length }
        hash := (c.key, p) :: w.hash
        array := a' } (slots ++ [p]) := by
  have hself := Heap.set_self w.pcs p { c with dynTransIndex := slots.length }
  have hother : ∀ q, q ≠ p →
      (w.pcs.set p { c with dynTransIndex := slots.length }).cells q = w.pcs.cells q :=
    fun q hq => Heap.set_of_ne _ _ hq
  have hlen : 0 < slots.length := (List.getElem?_eq_some_iff.mp h.head).1
  refine ⟨hstored, ?_, ?_, ?_, h.fresh_pos, h.keys.cons hkey, ?_, ?_⟩
  · rw [slot_append_iff]
    exact .inl h.head
  · rw [List.length_append, List.length_singleton]
    exact hfit
  · intro q d hd
    by_cases hq : q = p
    · subst hq
      exact h.address q c hc
    · exact h.address q d (by rw [← hother q hq]; exact hd)
  · intro k q hmem
    rcases List.mem_cons.mp hmem with heq | hold
    · cases heq
      exact ⟨_, hself, rfl, hlen, (slot_append_iff _ _ _ _).mpr (.inr ⟨rfl, rfl⟩)⟩
    · obtain ⟨d, hd, hdk, hpos, hslot⟩ := h.entry k q hold
      have hq : q ≠ p := by
        rintro rfl
        exact hout ⟨k, hold⟩
      exact ⟨d, by rw [← hd]; exact hother q hq, hdk, hpos,
        (slot_append_iff _ _ _ _).mpr (.inl hslot)⟩
  · intro i v hi hv
    rcases (slot_append_iff _ _ _ _).mp hv with hv | ⟨rfl, rfl⟩
    · rcases h.slot i v hi hv with hfree | ⟨d, hd, hmem, hdi⟩
      · exact .inl hfree
      · have hq : v ≠ p := by
          rintro rfl
          exact hout ⟨_, hmem⟩
        exact .inr ⟨d, by rw [← hd]; exact hother v hq, List.mem_cons_of_mem _ hmem, hdi⟩
    · exact .inr ⟨_, hself, List.mem_cons_self, rfl⟩

/-- One more slot that was given back at once. -/
theorem WorldInv.appendFree {a' : DynamicArray} (hstored : Slots a' (slots ++ [highestBitSet]))
    (hfit : entrySize * (slots.length + 1) ≤ 2 ^ 64) :
    WorldInv { w with array := a' } (slots ++ [highestBitSet]) := by
  refine ⟨hstored, ?_, ?_, h.address, h.fresh_pos, h.keys, ?_, ?_⟩
  · rw [slot_append_iff]
    exact .inl h.head
  · rw [List.length_append, List.length_singleton]
    exact hfit
  · intro k q hmem
    obtain ⟨d, hd, hdk, hpos, hslot⟩ := h.entry k q hmem
    exact ⟨d, hd, hdk, hpos, (slot_append_iff _ _ _ _).mpr (.inl hslot)⟩
  · intro i v hi hv
    rcases (slot_append_iff _ _ _ _).mp hv with hv | ⟨-, rfl⟩
    · exact h.slot i v hi hv
    · exact .inl rfl

/-- `insert_pc_entry` of an object whose key is not in the table: it is entered in
both, or in none of them and an error is returned. -/
theorem insertPcEntry_spec (hout : ¬ InTable w p) (hc : w.pcs.cells p = some c)
    (hkey : ∀ q, (c.key, q) ∉ w.hash) (hroom : w.array.totalSizeInBytes + entrySize ≤ 2 ^ 64)
    {failAt : Option Nat} (hidx : ¬ FailsIndex w.array failAt) {hash : HashInsert}
    (hhash : hash ≠ .realloc) :
    ∃ ret index a' slots', insertPcEntry w p failAt hash =
        .ok ({ w with
          pcs := w.pcs.set p { c with dynTransIndex := index }
          hash := if ret = 0 then (c.key, p) :: w.hash else w.hash
          array := a' }, ret) ∧
      WorldInv { w with
          pcs := w.pcs.set p { c with dynTransIndex := index }
          hash := if ret = 0 then (c.key, p) :: w.hash else w.hash
          array := a' } slots' := by
  have hfit : entrySize * (slots.length + 1) ≤ 2 ^ 64 := by
    rw [h.stored.total] at hroom
    exact hroom
  have hp := h.address p c hc
  unfold insertPcEntry
  rw [Result.bind_of_ok (follow_of_cell hc)]
  rcases insertPtr_spec h.stored h.head p hidx with ⟨a₁, hins, h₁⟩ | ⟨a₁, hins, h₁⟩
  · rw [hins]
    cases hash with
    | realloc => exact absurd rfl hhash
    | ok => exact ⟨0, slots.length, a₁, slots ++ [p], rfl, h.append hout hc hkey h₁ hfit⟩
    | noMemory =>
      have hlen : 0 < slots.length := (List.getElem?_eq_some_iff.mp h.head).1
      have hhead : (slots ++ [p])[0]? = some 0 := (slot_append_iff _ _ _ _).mpr (.inl h.head)
      have hslot : (slots ++ [p])[slots.length]? = some p :=
        (slot_append_iff _ _ _ _).mpr (.inr ⟨rfl, rfl⟩)
      have hfit' : entrySize * (slots ++ [p]).length ≤ 2 ^ 64 := by
        rw [List.length_append, List.length_singleton]
        exact hfit
      obtain ⟨a₂, hrem, h₂⟩ :=
        removePtr_spec h₁ hhead hlen hslot (hp.2.2.trans highestBitSet_lt) hfit'
      have hset : (slots ++ [p]).set slots.length highestBitSet = slots ++ [highestBitSet] := by
        simp
      rw [hset] at h₂
      refine ⟨errorMemAlloc, slots.length, a₂, slots ++ [highestBitSet], ?_, ?_⟩
      · simp only [ne_eq, not_true_eq_false, if_false, Pcntrl.store, hrem]
        rfl
      · exact (h.store hc { c with dynTransIndex := slots.length } rfl
          fun hin => absurd hin hout).appendFree h₂ hfit
  · rw [hins]
    refine ⟨errorMemAlloc, c.dynTransIndex, a₁, slots, ?_, ?_⟩
    · rw [Heap.set_same hc]
      rfl
    · rw [Heap.set_same hc]
      exact { h with stored := h₁ }

end

end IClaustron.Pcntrl
