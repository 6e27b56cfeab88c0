import IClaustron.DynArray.Simple

/-!
# DynArray.Ordered — the index tree over the buffer list

The tree is described by the sequence of nodes on each level: `seq 0` are the
buffers, `seq (l + 1)` the index nodes whose children are `seq l`. All nodes but
the last of a level are full, so node `i` of a level has the children
`128 i .. 128 i + 127` of the level below. `Tree` says this of a memory, from a
level `base` upwards: an insertion climbs from the leaves and restores one level
at a time.

* `insertBufInIndex_spec` — one child is appended at level `base`, and a node at
  each level above that is full;
* `descend_spec` — the descent finds element `pos / 1024` of `seq 0`.
-/

namespace IClaustron.DynArray

open Lib List Option Function

/-! ## Nodes -/

/-- The fields of an index node that make up the tree. -/
structure Node where
  parent : Option Ptr
  used : Nat
  child : Nat → Option Ptr

def DynIndex.node (n : DynIndex) : Node := ⟨n.parentDynIndex, n.nextIndexToInsert, n.childPtrs⟩

def node? (m : Mem) (p : Ptr) : Option Node := (index? m p).map DynIndex.node

variable {new p prev : Ptr} {nd : Node} {i l pos : Nat} {a' : DynamicArray}

theorem node?_eq_some {m : Mem} : node? m p = some nd ↔ ∃ n, index? m p = some n ∧ n.node = nd := by
  simp [node?]

theorem node?_congr {m m' : Mem} (h : m'.cells p = m.cells p) : node? m' p = node? m p := by
  rw [node?, node?, index?_congr h]

@[simp] theorem node?_set_self (m : Mem) (p : Ptr) (n : DynIndex) :
    node? (m.set p (.index n)) p = some n.node := by
  simp [node?, index?]

theorem buf?_set_index {m : Mem} {n₀ : DynIndex} (hp : index? m p = some n₀) (n : DynIndex)
    (q : Ptr) : buf? (m.set p (.index n)) q = buf? m q := by
  by_cases hq : q = p
  · subst hq
    rw [index?_eq_some] at hp
    simp [buf?, hp]
  · exact buf?_congr (Heap.set_of_ne _ _ hq)

theorem lt_fresh_of_node? {m : Mem} (hb : m.Bounded) (h : node? m p = some nd) : p < m.fresh := by
  obtain ⟨n, hn, -⟩ := node?_eq_some.mp h
  exact hb p _ (index?_eq_some.mp hn)

/-- The array with an index node written: the tree fields of `p` are now `nd`,
the buffers and all other nodes keep theirs. -/
structure NodeSet (a a' : DynamicArray) (p : Ptr) (nd : Node) : Prop where
  self : node? a'.mem p = some nd
  other : ∀ q, q ≠ p → node? a'.mem q = node? a.mem q
  buf : ∀ q, buf? a'.mem q = buf? a.mem q
  fresh : a'.mem.fresh = a.mem.fresh
  bounded : a'.mem.Bounded
  sdArray : a'.sdArray = a.sdArray
  total : a'.totalSizeInBytes = a.totalSizeInBytes

theorem nodeSet_set {a : DynamicArray} (hb : a.mem.Bounded) {n₀ : DynIndex}
    (hp : index? a.mem p = some n₀) (n : DynIndex) (ord : OrdArray) :
    NodeSet a { a with mem := a.mem.set p (.index n), ordArray := ord } p n.node where
  self := node?_set_self _ _ _
  other _ hq := node?_congr (Heap.set_of_ne _ _ hq)
  buf := buf?_set_index hp n
  fresh := rfl
  bounded := hb.set (hb p _ (index?_eq_some.mp hp)) _
  sdArray := rfl
  total := rfl

theorem setParent_spec {a : DynamicArray} (hb : a.mem.Bounded) (hp : node? a.mem p = some nd)
    (parent : Option Ptr) :
    ∃ a', setParent a p parent = some a' ∧ a'.ordArray = a.ordArray ∧
      NodeSet a a' p { nd with parent } := by
  obtain ⟨n, hn, rfl⟩ := node?_eq_some.mp hp
  refine ⟨{ a with mem := a.mem.set p (.index { n with parentDynIndex := parent }) }, ?_, rfl,
    nodeSet_set hb hn _ _⟩
  simp [setParent, hn]

theorem putChild_spec {a : DynamicArray} (hb : a.mem.Bounded) (hp : node? a.mem p = some nd)
    (hi : i < indexSize) (child : Ptr) :
    ∃ a', putChild a p i child = some a' ∧ a'.ordArray = a.ordArray ∧
      NodeSet a a' p ⟨nd.parent, i + 1, update nd.child i (some child)⟩ := by
  obtain ⟨n, hn, rfl⟩ := node?_eq_some.mp hp
  refine ⟨{ a with
      mem := a.mem.set p (.index { n with
        childPtrs := update n.childPtrs i (some child), nextIndexToInsert := i + 1 }) },
    ?_, rfl, nodeSet_set hb hn _ _⟩
  simp [putChild, hn, hi]

/-- Entering a node in the list of all nodes changes no tree field. -/
theorem insertDynIndexList_spec {a : DynamicArray} (hb : a.mem.Bounded)
    (hprev : a.ordArray.lastDynIndex = some prev) (hp : node? a.mem prev = some nd) (new : Ptr) :
    ∃ a', insertDynIndexList a new = some a' ∧
      a'.ordArray = { a.ordArray with lastDynIndex := some new } ∧ NodeSet a a' prev nd := by
  obtain ⟨n, hn, rfl⟩ := node?_eq_some.mp hp
  refine ⟨{ a with
      mem := a.mem.set prev (.index { n with nextDynIndex := some new })
      ordArray := { a.ordArray with lastDynIndex := some new } },
    ?_, rfl, nodeSet_set hb hn _ _⟩
  simp [insertDynIndexList, hprev, hn]

theorem NodeSet.same {a : DynamicArray} (h : NodeSet a a' p nd) (hp : node? a.mem p = some nd)
    (q : Ptr)
    : node? a'.mem q = node? a.mem q := by
  by_cases hq : q = p
  · subst hq
    rw [h.self, hp]
  · exact h.other q hq

/-- The memory after an index node has been allocated. -/
def withNode (m : Mem) : Mem := { m.set m.fresh (.index zeroIndex) with fresh := m.fresh + 1 }

theorem node?_withNode_self (m : Mem) :
    node? (withNode m) m.fresh = some ⟨none, 0, fun _ => none⟩ :=
  node?_set_self m m.fresh zeroIndex

theorem node?_withNode {m : Mem} (hp : p ≠ m.fresh) : node? (withNode m) p = node? m p :=
  node?_congr (Heap.set_of_ne m _ hp)

theorem buf?_withNode {m : Mem} (hb : m.Bounded) (p : Ptr) : buf? (withNode m) p = buf? m p := by
  by_cases hp : p = m.fresh
  · subst hp
    have hnone : m.cells m.fresh = none := by
      cases hc : m.cells m.fresh with
      | none => rfl
      | some x => exact absurd (hb _ _ hc) (Nat.lt_irrefl _)
    simp [buf?, withNode, hnone]
  · exact buf?_congr (Heap.set_of_ne m _ hp)

/-! ## The tree -/

/-- Node `i` of level `l + 1`. -/
def nodeAt (seq : Nat → List Ptr) (l i : Nat) : Node :=
  ⟨(seq (l + 2))[i / indexSize]?, min indexSize ((seq l).length - indexSize * i),
    fun j => if j < indexSize then (seq l)[indexSize * i + j]? else none⟩

/-- The nodes above level `base` lie in memory as a tree. `place` gives the
level and number of a node, so a node is in one place only. -/
structure Tree (m : Mem) (base : Nat) (seq : Nat → List Ptr) (levels : Nat) (top : Ptr)
    (place : Ptr → Option (Nat × Nat)) : Prop where
  base_lt : base < levels
  top_eq : seq levels = [top]
  above : ∀ l, levels < l → seq l = []
  nonempty : seq base ≠ []
  length_eq : ∀ l, base ≤ l → l < levels →
    (seq (l + 1)).length = ((seq l).length + (indexSize - 1)) / indexSize
  nodes : ∀ (l i : Nat) (p : Ptr), base ≤ l → (seq (l + 1))[i]? = some p → node? m p = some (nodeAt seq l i)
  placed : ∀ (l i : Nat) (p : Ptr), base ≤ l → (seq (l + 1))[i]? = some p → place p = some (l, i)
  place_lt : ∀ p, m.fresh ≤ p → place p = none
  tall : base + 1 < levels → 2 ≤ (seq (levels - 1)).length

variable {m m' : Mem} {base levels : Nat} {seq : Nat → List Ptr} {top : Ptr}
  {place : Ptr → Option (Nat × Nat)}

section

variable (h : Tree m base seq levels top place)

include h

theorem Tree.congr
    (hm : ∀ (l i : Nat) (p : Ptr), base ≤ l → (seq (l + 1))[i]? = some p → node? m' p = node? m p)
    (hfresh : m.fresh ≤ m'.fresh) : Tree m' base seq levels top place :=
  { h with
    nodes := fun l i p hl hp => (hm l i p hl hp).trans (h.nodes l i p hl hp)
    place_lt := fun p hp => h.place_lt p (hfresh.trans hp) }

theorem Tree.up (hlt : base + 1 < levels) :
    Tree m (base + 1) seq levels top place where
  base_lt := hlt
  top_eq := h.top_eq
  above := h.above
  nonempty := by
    intro hnil
    have hlen := h.length_eq base le_rfl h.base_lt
    have hpos := length_pos_of_ne_nil h.nonempty
    rw [hnil, length_nil] at hlen
    simp only [indexSize] at hlen
    omega
  length_eq l hl := h.length_eq l (by omega)
  nodes l i p hl := h.nodes l i p (by omega)
  placed l i p hl := h.placed l i p (by omega)
  place_lt := h.place_lt
  tall _ := h.tall hlt

/-- A node is on the level that its place says. -/
theorem Tree.level_unique {l' i' : Nat} (hl : base ≤ l) (hl' : base ≤ l')
    (hp : (seq (l + 1))[i]? = some p) (hp' : (seq (l' + 1))[i']? = some p) : l = l' ∧ i = i' := by
  have h₁ := h.placed l i p hl hp
  have h₂ := h.placed l' i' p hl' hp'
  rw [h₁] at h₂
  simpa using h₂

/-- The last node on the level above `base`. -/
theorem Tree.last (hp : (seq (base + 1)).getLast? = some p) :
    (seq (base + 1))[((seq base).length - 1) / indexSize]? = some p ∧
      (seq (base + 1)).length = ((seq base).length - 1) / indexSize + 1 := by
  have hlen := h.length_eq base le_rfl h.base_lt
  have hpos := length_pos_of_ne_nil h.nonempty
  have hi : (seq (base + 1)).length - 1 = ((seq base).length - 1) / indexSize := by
    simp only [indexSize] at hlen ⊢
    omega
  rw [getLast?_eq_getElem?, hi] at hp
  refine ⟨hp, ?_⟩
  simp only [indexSize] at hlen ⊢
  omega

end

/-! ## Inserting a child -/

/-- What an insertion of `child` at level `base` leaves. `newParent` is the node
created on the level above, if one was. -/
structure Inserted (a a' : DynamicArray) (base : Nat) (seq : Nat → List Ptr)
    (place : Ptr → Option (Nat × Nat)) (dynIndex child : Ptr) (newParent : Option Ptr)
    (seq' : Nat → List Ptr) (levels' : Nat) (top' : Ptr) (place' : Ptr → Option (Nat × Nat)) :
    Prop where
  tree : Tree a'.mem base seq' levels' top' place'
  topDynIndex : a'.ordArray.topDynIndex = some top'
  indexLevels : a'.ordArray.indexLevels = levels'
  lastDynIndex : a'.ordArray.lastDynIndex = newParent.or a.ordArray.lastDynIndex
  seq_base : seq' base = seq base ++ [child]
  seq_below : ∀ k, k < base → seq' k = seq k
  seq_above : ∀ l, base < l → seq l <+: seq' l
  holder : (seq' (base + 1))[(seq base).length / indexSize]? = some (newParent.getD dynIndex)
  other : ∀ p, p < a.mem.fresh → (∀ l, base ≤ l → p ∉ seq (l + 1)) →
    node? a'.mem p = node? a.mem p
  isNode : ∀ p, (node? a.mem p).isSome → (node? a'.mem p).isSome
  buf : ∀ p, buf? a'.mem p = buf? a.mem p
  fresh_le : a.mem.fresh ≤ a'.mem.fresh
  bounded : a'.mem.Bounded
  sdArray : a'.sdArray = a.sdArray
  total : a'.totalSizeInBytes = a.totalSizeInBytes
  place_eq : ∀ p, p < a.mem.fresh → place' p = place p

/-- The children of a node that is not the last one do not change when one is
appended to its level. -/
theorem nodeAt_append {seq : Nat → List Ptr} (child : Ptr)
    (hfull : indexSize * (i + 1) ≤ (seq l).length) :
    nodeAt (update seq l (seq l ++ [child])) l i = nodeAt seq l i := by
  simp only [nodeAt, update_self, length_append, length_singleton]
  rw [update_of_ne (by omega)]
  congr 1
  · rw [Nat.mul_succ] at hfull
    omega
  · funext j
    split_ifs with hj
    · rw [getElem?_append_left]
      rw [Nat.mul_succ] at hfull
      omega
    · rfl

/-- Appending a child to the last node of a level. -/
theorem nodeAt_append_last {seq : Nat → List Ptr} {k : Nat} (child : Ptr)
    (hk : (seq l).length = indexSize * i + k) (hroom : k < indexSize) :
    nodeAt (update seq l (seq l ++ [child])) l i =
      ⟨(nodeAt seq l i).parent, k + 1, update (nodeAt seq l i).child k (some child)⟩ := by
  simp only [nodeAt, update_self, length_append, length_singleton]
  rw [update_of_ne (by omega)]
  congr 1
  · omega
  · funext j
    by_cases hjk : j = k
    · subst hjk
      rw [update_self, if_pos hroom, ← hk]
      simp
    · rw [update_of_ne hjk]
      split_ifs with hj
      · rcases Nat.lt_or_gt_of_ne hjk with hlt | hgt
        · rw [getElem?_append_left (by omega)]
        · rw [getElem?_eq_none, getElem?_eq_none]
          · omega
          · simp only [length_append, length_singleton]
            omega
      · rfl

/-- A node of another level does not see the new child. -/
theorem nodeAt_update_of_ne {seq : Nat → List Ptr} {l' : Nat} (s : List Ptr) (h : l' < l) :
    nodeAt (update seq l' s) l i = nodeAt seq l i := by
  simp only [nodeAt]
  rw [update_of_ne (by omega), update_of_ne (by omega)]

variable {a : DynamicArray} {dynIndex : Ptr}

/-- The last node has room. -/
theorem insert_notFull (h : Tree a.mem base seq levels top place) (hb : a.mem.Bounded)
    (htop : a.ordArray.topDynIndex = some top) (hlevels : a.ordArray.indexLevels = levels)
    (hlast : (seq (base + 1)).getLast? = some dynIndex)
    (hroom : ¬ indexSize ∣ (seq base).length) (child : Ptr) :
    ∃ a', putChild a dynIndex (nodeAt seq base (((seq base).length - 1) / indexSize)).used child =
        some a' ∧
      Inserted a a' base seq place dynIndex child none
        (update seq base (seq base ++ [child])) levels top place := by
  obtain ⟨hp, hlen⟩ := h.last hlast
  have hpos := List.length_pos_of_ne_nil h.nonempty
  set i := ((seq base).length - 1) / indexSize with hi
  have hnode := h.nodes base i dynIndex le_rfl hp
  -- the number of children of the last node
  obtain ⟨k, hk, hkroom⟩ : ∃ k, (seq base).length = indexSize * i + k ∧ k < indexSize := by
    refine ⟨(seq base).length - indexSize * i, ?_, ?_⟩
    · simp only [indexSize] at hi ⊢
      omega
    · simp only [indexSize] at hi hroom ⊢
      omega
  have hkpos : 0 < k := by
    rcases Nat.eq_zero_or_pos k with rfl | hkpos
    · exact absurd ⟨i, hk⟩ hroom
    · exact hkpos
  have hused : (nodeAt seq base i).used = k := by
    simp only [nodeAt]
    omega
  obtain ⟨a', hput, hord, hset⟩ := putChild_spec hb hnode hkroom child
  refine ⟨a', by rw [hused]; exact hput, ?_⟩
  have hlen' : (seq (base + 1)).length = i + 1 := hlen
  refine ⟨⟨h.base_lt, ?_, ?_, ?_, ?_, ?_, ?_, ?_, ?_⟩, by rw [hord, htop], by rw [hord, hlevels],
    by rw [hord]; rfl, update_self _ _ _, fun k hk => update_of_ne (by omega) _ _,
    fun l hl => ?_, ?_, fun p _ hpn => ?_, fun p hsome => ?_, hset.buf, hset.fresh.ge, hset.bounded,
    hset.sdArray, hset.total, fun p _ => rfl⟩
  · rw [update_of_ne (by have := h.base_lt; omega)]
    exact h.top_eq
  · intro l hl
    rw [update_of_ne (by have := h.base_lt; omega)]
    exact h.above l hl
  · simp
  · intro l hl hlt
    rw [update_of_ne (by omega)]
    by_cases hlb : l = base
    · subst hlb
      rw [update_self, List.length_append, List.length_singleton, hlen']
      simp only [indexSize] at hk hkroom ⊢
      omega
    · rw [update_of_ne hlb]
      exact h.length_eq l hl hlt
  · intro l j p hl hp'
    rw [update_of_ne (by omega)] at hp'
    by_cases hlb : l = base
    · subst hlb
      by_cases hji : j = i
      · subst hji
        rw [hp] at hp'
        cases hp'
        rw [hset.self, nodeAt_append_last child hk hkroom]
      · have hj : j < i + 1 := by
          rw [← hlen']
          exact (List.getElem?_eq_some_iff.mp hp').1
        have hne : p ≠ dynIndex := by
          rintro rfl
          exact hji (h.level_unique le_rfl le_rfl hp' hp).2
        rw [hset.other p hne, h.nodes l j p hl hp', nodeAt_append]
        have hji' : j + 1 ≤ i := by omega
        exact (Nat.mul_le_mul_left _ hji').trans (by omega)
    · have hne : p ≠ dynIndex := by
        rintro rfl
        exact hlb (h.level_unique hl le_rfl hp' hp).1
      rw [hset.other p hne, h.nodes l j p hl hp', nodeAt_update_of_ne _ (by omega)]
  · intro l j p hl hp'
    rw [update_of_ne (by omega)] at hp'
    exact h.placed l j p hl hp'
  · intro p hp'
    rw [hset.fresh] at hp'
    exact h.place_lt p hp'
  · intro htall
    rw [update_of_ne (by omega)]
    exact h.tall htall
  · have hsame := update_of_ne (show l ≠ base by omega) (seq base ++ [child]) seq
    exact hsame.symm ▸ List.prefix_rfl
  · rw [update_of_ne (by omega), hk, Nat.mul_add_div (by decide), Nat.div_eq_of_lt hkroom]
    exact hp
  · refine hset.other p ?_
    rintro rfl
    exact hpn base le_rfl (List.mem_of_getElem? hp)
  · by_cases hpd : p = dynIndex
    · rw [hpd, hset.self]
      rfl
    · rw [hset.other p hpd]
      exact hsome

/-- Behind a list stands what was appended to it. -/
theorem last_of_concat {ps : List Ptr} {x p : Ptr} {i : Nat} (hi : ps.length ≤ i)
    (h : (ps ++ [x])[i]? = some p) : i = ps.length ∧ x = p := by
  have hlt := (List.getElem?_eq_some_iff.mp h).1
  rw [List.length_append, List.length_singleton] at hlt
  obtain rfl : i = ps.length := by omega
  rw [List.getElem?_concat_length] at h
  exact ⟨rfl, Option.some.inj h⟩

/-- A new node of a level whose other nodes are full holds the new child alone. -/
theorem nodeAt_new {seq : Nat → List Ptr} (child : Ptr) (hlen : (seq l).length = indexSize * i) :
    nodeAt (update seq l (seq l ++ [child])) l i =
      ⟨(seq (l + 2))[i / indexSize]?, 1, update (fun _ => none) 0 (some child)⟩ := by
  have hroom : (0 : Nat) < indexSize := by decide
  rw [nodeAt_append_last child hlen hroom]
  have hnone : (nodeAt seq l i).child = fun _ => none := by
    funext j
    simp only [nodeAt]
    split_ifs with hj
    · rw [getElem?_eq_none]
      omega
    · rfl
  rw [hnone]
  rfl

/-- The insertion into the parent of a full node, followed by the new node on
this level: `a₁` is the array after the recursive call, `a'` differs from it in
the new node only. -/
theorem insert_full_parent (h : Tree a.mem base seq levels top place)
    (hlast : (seq (base + 1)).getLast? = some dynIndex) (hfull : indexSize ∣ (seq base).length)
    {parent child : Ptr} {newParent : Option Ptr} {a₁ : DynamicArray} {seq₁ : Nat → List Ptr}
    {levels₁ : Nat} {top₁ : Ptr} {place₁ : Ptr → Option (Nat × Nat)}
    (hparent : (seq (base + 2))[((seq base).length - 1) / indexSize / indexSize]? = some parent)
    (hins : Inserted { a with mem := withNode a.mem } a₁ (base + 1) seq place parent a.mem.fresh
      newParent seq₁ levels₁ top₁ place₁)
    (hset : NodeSet a₁ a' a.mem.fresh ⟨some (newParent.getD parent), 1,
      update (fun _ => none) 0 (some child)⟩) (hb : a.mem.Bounded)
    (hord : a'.ordArray = { a₁.ordArray with lastDynIndex := some a.mem.fresh }) :
    Inserted a a' base seq place dynIndex child (some a.mem.fresh)
      (update seq₁ base (seq₁ base ++ [child])) levels₁ top₁
      (update place₁ a.mem.fresh (some (base, (seq (base + 1)).length))) := by
  obtain ⟨hp, hlen⟩ := h.last hlast
  have hpos := List.length_pos_of_ne_nil h.nonempty
  set new := a.mem.fresh with hnew
  have hbase : seq₁ base = seq base := hins.seq_below base (Nat.lt_succ_self base)
  have hnodes : seq₁ (base + 1) = seq (base + 1) ++ [new] := hins.seq_base
  have hlenb : (seq base).length = indexSize * (seq (base + 1)).length := by
    obtain ⟨k, hk⟩ := hfull
    rw [hlen]
    simp only [indexSize] at hk ⊢
    omega
  -- nothing above the level of the new node is the new node
  have hplace₁ : place₁ new = none := by
    rw [hins.place_eq new (Nat.lt_succ_self _)]
    exact h.place_lt new le_rfl
  have hne₁ : ∀ (l i : Nat) (p : Ptr), base + 1 ≤ l → (seq₁ (l + 1))[i]? = some p → p ≠ new := by
    rintro l i p hl hp' rfl
    have hpl := hins.tree.placed l i new hl hp'
    rw [hplace₁] at hpl
    cases hpl
  -- the nodes of this level are untouched by the recursive call
  have hold : ∀ (i : Nat) (p : Ptr), (seq (base + 1))[i]? = some p →
      p < new ∧ node? a'.mem p = node? a.mem p := by
    intro i p hp'
    have hlt : p < new := lt_fresh_of_node? hb (h.nodes base i p le_rfl hp')
    refine ⟨hlt, ?_⟩
    rw [hset.other p (Nat.ne_of_lt hlt), hins.other p (Nat.lt_succ_of_lt hlt)]
    · exact node?_withNode (Nat.ne_of_lt hlt)
    · intro l hl hmem
      obtain ⟨j, hj⟩ := List.mem_iff_getElem?.mp hmem
      have hlev := (h.level_unique le_rfl (by omega) hp' hj).1
      omega
  have hbl := hins.tree.base_lt
  refine ⟨⟨by omega, ?_, ?_, by simp, ?_, ?_, ?_, ?_, ?_⟩, by rw [hord]; exact hins.topDynIndex,
    by rw [hord]; exact hins.indexLevels, by rw [hord]; rfl, by rw [update_self, hbase],
    fun k hk => ?_, fun l hl => ?_, ?_, fun p hp' hpn => ?_, fun p hsome => ?_, fun p => ?_,
    (Nat.le_succ _).trans (hset.fresh ▸ hins.fresh_le), hset.bounded, hset.sdArray.trans hins.sdArray,
    hset.total.trans hins.total, fun p hp' => ?_⟩
  · rw [update_of_ne (by omega)]
    exact hins.tree.top_eq
  · intro l hl
    rw [update_of_ne (by omega)]
    exact hins.tree.above l hl
  · intro l hl hlt
    rw [update_of_ne (by omega)]
    by_cases hlb : l = base
    · subst hlb
      rw [update_self, hbase, hnodes]
      simp only [List.length_append, List.length_singleton, hlenb, indexSize]
      omega
    · rw [update_of_ne hlb]
      exact hins.tree.length_eq l (by omega) hlt
  · intro l i p hl hp'
    rw [update_of_ne (by omega)] at hp'
    by_cases hlb : l = base
    · subst hlb
      rw [hnodes] at hp'
      rcases Nat.lt_or_ge i (seq (l + 1)).length with hi | hi
      · -- an old node: full, and its parent is where it was
        rw [List.getElem?_append_left hi] at hp'
        rw [(hold i p hp').2, h.nodes l i p le_rfl hp', nodeAt_append]
        · obtain ⟨q, hq⟩ : ∃ q, (seq (l + 2))[i / indexSize]? = some q := by
            have hle : i / indexSize ≤ ((seq l).length - 1) / indexSize / indexSize :=
              Nat.div_le_div_right (by omega)
            have hlt := (List.getElem?_eq_some_iff.mp hparent).1
            exact ⟨_, List.getElem?_eq_getElem (hle.trans_lt hlt)⟩
          have hq' : (seq₁ (l + 2))[i / indexSize]? = some q := by
            obtain ⟨t, ht⟩ := hins.seq_above (l + 2) (by omega)
            rw [← ht, List.getElem?_append_left (List.getElem?_eq_some_iff.mp hq).1]
            exact hq
          simp only [nodeAt, hq, hq', hbase]
        · rw [hbase, hlenb]
          exact Nat.mul_le_mul_left _ hi
      · -- the new node
        obtain ⟨hi', rfl⟩ := last_of_concat hi hp'
        rw [hset.self, hi', nodeAt_new child (by rw [hbase, hlenb]), hins.holder]
    · rw [hset.other p (hne₁ l i p (by omega) hp'), hins.tree.nodes l i p (by omega) hp',
        nodeAt_update_of_ne _ (by omega)]
  · intro l i p hl hp'
    rw [update_of_ne (by omega)] at hp'
    by_cases hlb : l = base
    · subst hlb
      rw [hnodes] at hp'
      rcases Nat.lt_or_ge i (seq (l + 1)).length with hi | hi
      · rw [List.getElem?_append_left hi] at hp'
        have hlt := (hold i p hp').1
        rw [update_of_ne (Nat.ne_of_lt hlt), hins.place_eq p (Nat.lt_succ_of_lt hlt)]
        exact h.placed l i p le_rfl hp'
      · obtain ⟨hi', rfl⟩ := last_of_concat hi hp'
        rw [update_self, hi']
    · rw [update_of_ne (hne₁ l i p (by omega) hp')]
      exact hins.tree.placed l i p (by omega) hp'
  · intro p hp'
    rw [hset.fresh] at hp'
    have hlt : new < p := Nat.lt_of_lt_of_le (Nat.lt_of_lt_of_le (Nat.lt_succ_self _) hins.fresh_le) hp'
    rw [update_of_ne (Nat.ne_of_gt hlt)]
    exact hins.tree.place_lt p hp'
  · intro htall
    rw [update_of_ne (by omega)]
    by_cases hb1 : base + 2 < levels₁
    · exact hins.tree.tall hb1
    · have hl1 : levels₁ - 1 = base + 1 := by omega
      rw [hl1, hnodes, List.length_append, List.length_singleton, hlen]
      exact Nat.le_add_left 2 _
  · rw [update_of_ne (by omega)]
    exact hins.seq_below k (by omega)
  · rw [update_of_ne (by omega)]
    by_cases hlb : l = base + 1
    · subst hlb
      rw [hnodes]
      exact List.prefix_append _ _
    · exact hins.seq_above l (by omega)
  · rw [update_of_ne (by omega), hnodes, hlenb, Nat.mul_div_cancel_left _ (by decide)]
    simp
  · have hne : p ≠ new := Nat.ne_of_lt hp'
    rw [hset.other p hne, hins.other p (Nat.lt_succ_of_lt hp') fun l hl => hpn l (by omega)]
    exact node?_withNode hne
  · by_cases hpn : p = new
    · rw [hpn, hset.self]
      rfl
    · rw [hset.other p hpn]
      refine hins.isNode p ?_
      rw [node?_withNode hpn]
      exact hsome
  · rw [hset.buf p, hins.buf p]
    exact buf?_withNode hb p
  · rw [update_of_ne (Nat.ne_of_lt hp')]
    exact hins.place_eq p (Nat.lt_succ_of_lt hp')

/-- The full top of level `base` and a `new` node with the `child` get a parent. -/
structure Grown (seq seq' : Nat → List Ptr) (base : Nat) (top new newTop child : Ptr) : Prop where
  children : seq' base = seq base ++ [child]
  nodes : seq' (base + 1) = [top, new]
  top_eq : seq' (base + 2) = [newTop]
  other : ∀ l, l ≠ base → l ≠ base + 1 → l ≠ base + 2 → seq' l = seq l

section

variable {seq' : Nat → List Ptr} {newTop child : Ptr} (hg : Grown seq seq' base top new newTop child)

theorem grown_update : Grown seq (update (update (update seq (base + 2) [newTop]) (base + 1)
    [top, new]) base (seq base ++ [child])) base top new newTop child := by
  refine ⟨update_self _ _ _, ?_, ?_, ?_⟩
  · rw [update_of_ne (by omega), update_self]
  · rw [update_of_ne (by omega), update_of_ne (by omega), update_self]
  · intro l h0 h1 h2
    rw [update_of_ne h0, update_of_ne h1, update_of_ne h2]

include hg

theorem Grown.above (h : Tree m base seq (base + 1) top place) (hl : base + 2 < l) :
    seq' l = [] := by
  rw [hg.other l (by omega) (by omega) (by omega)]
  exact h.above l (by omega)

/-- The positions of the nodes. -/
theorem Grown.cases (h : Tree m base seq (base + 1) top place) (hl : base ≤ l)
    (hp : (seq' (l + 1))[i]? = some p) :
    (l = base ∧ i = 0 ∧ p = top) ∨ (l = base ∧ i = 1 ∧ p = new) ∨
      (l = base + 1 ∧ i = 0 ∧ p = newTop) := by
  rcases Nat.lt_trichotomy l (base + 1) with hlt | rfl | hgt
  · have hlb : l = base := by omega
    subst hlb
    rw [hg.nodes] at hp
    match i, hp with
    | 0, hp => simp_all
    | 1, hp => simp_all
    | i + 2, hp => simp at hp
  · rw [hg.top_eq] at hp
    match i, hp with
    | 0, hp => simp_all
    | i + 1, hp => simp at hp
  · rw [hg.above h (by omega)] at hp
    simp at hp

/-- The old top keeps its children. -/
theorem Grown.nodeAt_old (hfull : (seq base).length = indexSize) :
    nodeAt seq' base 0 = { nodeAt seq base 0 with parent := some newTop } := by
  simp only [nodeAt, hg.children, hg.top_eq, length_append, length_singleton, hfull]
  congr 1
  funext j
  split_ifs with hj
  · rw [getElem?_append_left]
    omega
  · rfl

theorem Grown.nodeAt_new (hfull : (seq base).length = indexSize) :
    nodeAt seq' base 1 = ⟨some newTop, 1, update (fun _ => none) 0 (some child)⟩ := by
  simp only [nodeAt, hg.children, hg.top_eq, length_append, length_singleton, hfull]
  congr 1
  funext j
  match j with
  | 0 => simp [hfull, indexSize]
  | j + 1 =>
    rw [update_of_ne (by omega), getElem?_eq_none]
    · split_ifs <;> rfl
    · simp [hfull]

theorem Grown.nodeAt_top (h : Tree m base seq (base + 1) top place) :
    nodeAt seq' (base + 1) 0 =
      ⟨none, 2, update (update (fun _ => none) 0 (some top)) 1 (some new)⟩ := by
  simp only [nodeAt, hg.nodes, hg.above h (show base + 2 < base + 1 + 2 by omega)]
  congr 2
  funext j
  match j with
  | 0 => rfl
  | 1 => rfl
  | j + 2 =>
    rw [update_of_ne (by omega), update_of_ne (by omega)]
    split_ifs <;> simp

theorem Grown.length_eq (hfull : (seq base).length = indexSize) (hl : base ≤ l)
    (hlt : l < base + 2) :
    (seq' (l + 1)).length = ((seq' l).length + (indexSize - 1)) / indexSize := by
  by_cases hlb : l = base
  · subst hlb
    rw [hg.children, hg.nodes, length_append, hfull]
    simp [indexSize]
  · obtain rfl : l = base + 1 := by omega
    rw [hg.nodes, hg.top_eq]
    simp [indexSize]

/-- The tree has one level more. -/
theorem Tree.grown (h : Tree m base seq (base + 1) top place)
    (hfull : (seq base).length = indexSize) (hnew : new = m.fresh) (hnewTop : newTop = m.fresh + 1)
    (hnodeTop : node? m' top = some { nodeAt seq base 0 with parent := some newTop })
    (hnodeNew : node? m' new = some ⟨some newTop, 1, update (fun _ => none) 0 (some child)⟩)
    (hnodeNewTop : node? m' newTop =
      some ⟨none, 2, update (update (fun _ => none) 0 (some top)) 1 (some new)⟩)
    (hfresh : m'.fresh = m.fresh + 2) :
    Tree m' base seq' (base + 2) newTop
      (update (update place new (some (base, 1))) newTop (some (base + 1, 0))) := by
  have hplaceTop : place top = some (base, 0) :=
    h.placed base 0 top le_rfl (by rw [h.top_eq]; rfl)
  have htoplt : top < m.fresh := by
    by_contra hge
    rw [h.place_lt top (Nat.le_of_not_lt hge)] at hplaceTop
    cases hplaceTop
  subst hnew hnewTop
  have hne₁ : top ≠ m.fresh := Nat.ne_of_lt htoplt
  have hne₂ : top ≠ m.fresh + 1 := Nat.ne_of_lt (htoplt.trans (Nat.lt_succ_self _))
  have hne₃ : m.fresh ≠ m.fresh + 1 := Nat.ne_of_lt (Nat.lt_succ_self _)
  refine ⟨by omega, hg.top_eq, fun l => hg.above h, by simp [hg.children],
    fun l => hg.length_eq hfull, ?_, ?_, ?_, ?_⟩
  · intro l i p hl hp
    rcases hg.cases h hl hp with ⟨rfl, rfl, rfl⟩ | ⟨rfl, rfl, rfl⟩ | ⟨rfl, rfl, rfl⟩
    · rw [hnodeTop, hg.nodeAt_old hfull]
    · rw [hnodeNew, hg.nodeAt_new hfull]
    · rw [hnodeNewTop, hg.nodeAt_top h]
  · intro l i p hl hp
    rcases hg.cases h hl hp with ⟨rfl, rfl, rfl⟩ | ⟨rfl, rfl, rfl⟩ | ⟨rfl, rfl, rfl⟩
    · rw [update_of_ne hne₂, update_of_ne hne₁]
      exact hplaceTop
    · rw [update_of_ne hne₃, update_self]
    · rw [update_self]
  · intro p hp
    rw [update_of_ne (Nat.ne_of_gt (by omega)), update_of_ne (Nat.ne_of_gt (by omega))]
    exact h.place_lt p (by omega)
  · intro _
    change 2 ≤ (seq' (base + 1)).length
    rw [hg.nodes]
    rfl

end

/-- The insertion when the top node is full: `a'` is `a` with the two new nodes,
the parent of the old top set and the new top entered. -/
theorem insert_full_top (h : Tree a.mem base seq levels top place) (htop : levels = base + 1)
    (hfull : (seq base).length = indexSize) {child newTop : Ptr} (hnew : new = a.mem.fresh)
    (hnewTop : newTop = a.mem.fresh + 1)
    (hnodeTop : node? a'.mem top = some { nodeAt seq base 0 with parent := some newTop })
    (hnodeNew : node? a'.mem new =
      some ⟨some newTop, 1, update (fun _ => none) 0 (some child)⟩)
    (hnodeNewTop : node? a'.mem newTop =
      some ⟨none, 2, update (update (fun _ => none) 0 (some top)) 1 (some new)⟩)
    (hother : ∀ p, p ≠ top → p ≠ new → p ≠ newTop → node? a'.mem p = node? a.mem p)
    (hbuf : ∀ p, buf? a'.mem p = buf? a.mem p) (hbounded : a'.mem.Bounded)
    (hfresh : a'.mem.fresh = a.mem.fresh + 2) (hsd : a'.sdArray = a.sdArray)
    (htotal : a'.totalSizeInBytes = a.totalSizeInBytes) (hord : a'.ordArray =
      ⟨some newTop, a.ordArray.firstDynIndex, some new, a.ordArray.indexLevels + 1⟩)
    (hlevels : a.ordArray.indexLevels = levels) :
    Inserted a a' base seq place top child (some new)
      (update (update (update seq (base + 2) [newTop]) (base + 1)
        [top, new]) base (seq base ++ [child])) (base + 2) newTop
      (update (update place new (some (base, 1))) newTop (some (base + 1, 0))) := by
  subst htop hnew hnewTop
  have hg : Grown seq _ base top a.mem.fresh (a.mem.fresh + 1) child := grown_update
  refine ⟨h.grown hg hfull rfl rfl hnodeTop hnodeNew hnodeNewTop hfresh, by rw [hord],
    by rw [hord]; exact congrArg (· + 1) hlevels, by rw [hord]; rfl, hg.children,
    fun k hk => hg.other k (by omega) (by omega) (by omega), fun l hl => ?_, ?_,
    fun p hp hpn => ?_, fun p hsome => ?_, hbuf, by omega, hbounded, hsd, htotal, fun p hp => ?_⟩
  · by_cases hl1 : l = base + 1
    · subst hl1
      rw [hg.nodes, h.top_eq]
      exact ⟨[a.mem.fresh], rfl⟩
    · rw [h.above l (by omega)]
      exact nil_prefix
  · rw [hg.nodes, hfull]
    rfl
  · refine hother p ?_ (Nat.ne_of_lt hp) (Nat.ne_of_lt (hp.trans (Nat.lt_succ_self _)))
    rintro rfl
    refine hpn base le_rfl ?_
    rw [h.top_eq]
    exact mem_singleton_self _
  · by_cases h1 : p = top
    · rw [h1, hnodeTop]
      rfl
    · by_cases h2 : p = a.mem.fresh
      · rw [h2, hnodeNew]
        rfl
      · by_cases h3 : p = a.mem.fresh + 1
        · rw [h3, hnodeNewTop]
          rfl
        · rw [hother p h1 h2 h3]
          exact hsome
  · rw [update_of_ne (Nat.ne_of_lt (hp.trans (Nat.lt_succ_self _))),
      update_of_ne (Nat.ne_of_lt hp)]

/-- The last node of a level is full when the number of children on the level
below is a multiple of 128. -/
theorem Tree.used_last (h : Tree m base seq levels top place) :
    (nodeAt seq base (((seq base).length - 1) / indexSize)).used = indexSize ↔
      indexSize ∣ (seq base).length := by
  have hpos := length_pos_of_ne_nil h.nonempty
  simp only [nodeAt, indexSize]
  omega

/-- The parent of the last node is the last node on the level above. -/
theorem Tree.parent_last (h : Tree m base seq levels top place)
    (hp : (seq (base + 2))[((seq base).length - 1) / indexSize / indexSize]? = some p) :
    base + 1 < levels ∧ (seq (base + 2)).getLast? = some p := by
  have hlt : base + 1 < levels := by
    by_contra hge
    rw [h.above (base + 2) (by omega)] at hp
    simp at hp
  refine ⟨hlt, ?_⟩
  have hlen := h.length_eq base le_rfl h.base_lt
  have hlen' := h.length_eq (base + 1) (by omega) hlt
  have hpos := length_pos_of_ne_nil h.nonempty
  rw [getLast?_eq_getElem?, ← hp]
  congr 1
  change (seq (base + 1 + 1)).length - 1 = _
  simp only [indexSize] at hlen hlen' ⊢
  omega

/-- `finishNewIndex` writes the tree fields of the new node only. -/
theorem finishNewIndex_spec {a : DynamicArray} (hb : a.mem.Bounded) {dynIndex : Ptr} {nd' : Node}
    (hprev : a.ordArray.lastDynIndex = some prev) (hprevNode : (node? a.mem prev).isSome)
    (hdyn : node? a.mem dynIndex = some nd) (hnew : node? a.mem new = some nd')
    (newParent : Option Ptr) (child : Ptr) :
    ∃ a', finishNewIndex a dynIndex new newParent child = some a' ∧
      a'.ordArray = { a.ordArray with lastDynIndex := some new } ∧
      NodeSet a a' new ⟨newParent.or nd.parent, 1, update nd'.child 0 (some child)⟩ := by
  obtain ⟨ndp, hndp⟩ := isSome_iff_exists.mp hprevNode
  obtain ⟨a₁, h₁, hord₁, hset₁⟩ := insertDynIndexList_spec hb hprev hndp new
  have hsame := hset₁.same hndp
  obtain ⟨n, hn, hnode⟩ := node?_eq_some.mp ((hsame dynIndex).trans hdyn)
  obtain ⟨a₂, h₂, hord₂, hset₂⟩ :=
    setParent_spec hset₁.bounded ((hsame new).trans hnew) (newParent.or n.parentDynIndex)
  obtain ⟨a₃, h₃, hord₃, hset₃⟩ :=
    putChild_spec hset₂.bounded hset₂.self (show 0 < indexSize by decide) child
  have hpar : n.parentDynIndex = nd.parent := congrArg Node.parent hnode
  refine ⟨a₃, ?_, by rw [hord₃, hord₂, hord₁], ?_, fun q hq => ?_, fun q => ?_, ?_, hset₃.bounded, ?_, ?_⟩
  · simp [finishNewIndex, h₁, hn, h₂, h₃]
  · rw [hset₃.self, hpar]
  · rw [hset₃.other q hq, hset₂.other q hq, hsame q]
  · rw [hset₃.buf, hset₂.buf, hset₁.buf]
  · rw [hset₃.fresh, hset₂.fresh, hset₁.fresh]
  · rw [hset₃.sdArray, hset₂.sdArray, hset₁.sdArray]
  · rw [hset₃.total, hset₂.total, hset₁.total]

/-- What `finishNewTop` leaves in the three nodes it writes. -/
theorem finishNewTop_spec {a : DynamicArray} (hb : a.mem.Bounded) {dynIndex newTop : Ptr}
    (hprev : a.ordArray.lastDynIndex = some prev) (hprevNode : (node? a.mem prev).isSome)
    (hdyn : node? a.mem dynIndex = some nd) (hnew : node? a.mem new = some ⟨none, 0, fun _ => none⟩)
    (hnewTop : node? a.mem newTop = some ⟨none, 0, fun _ => none⟩) (hne₁ : dynIndex ≠ new)
    (hne₂ : dynIndex ≠ newTop) (hne₃ : new ≠ newTop) (child : Ptr) :
    ∃ a', finishNewTop a dynIndex new newTop child = some a' ∧
      node? a'.mem dynIndex = some { nd with parent := some newTop } ∧
      node? a'.mem new = some ⟨some newTop, 1, update (fun _ => none) 0 (some child)⟩ ∧
      node? a'.mem newTop = some ⟨none, 2,
        update (update (fun _ => none) 0 (some dynIndex)) 1 (some new)⟩ ∧
      (∀ p, p ≠ dynIndex → p ≠ new → p ≠ newTop → node? a'.mem p = node? a.mem p) ∧
      (∀ p, buf? a'.mem p = buf? a.mem p) ∧ a'.mem.Bounded ∧ a'.mem.fresh = a.mem.fresh ∧
      a'.sdArray = a.sdArray ∧ a'.totalSizeInBytes = a.totalSizeInBytes ∧
      a'.ordArray = ⟨some newTop, a.ordArray.firstDynIndex, some new, a.ordArray.indexLevels + 1⟩ := by
  obtain ⟨ndp, hndp⟩ := isSome_iff_exists.mp hprevNode
  obtain ⟨a₁, h₁, hord₁, hset₁⟩ := insertDynIndexList_spec hb hprev hndp newTop
  have hsame₁ := hset₁.same hndp
  have hlast₁ : a₁.ordArray.lastDynIndex = some newTop := by rw [hord₁]
  have htop₁ := (hsame₁ newTop).trans hnewTop
  obtain ⟨a₂, h₂, hord₂, hset₂⟩ := insertDynIndexList_spec hset₁.bounded hlast₁ htop₁ new
  have hsame₂ : ∀ q, node? a₂.mem q = node? a.mem q := fun q =>
    (hset₂.same htop₁ q).trans (hsame₁ q)
  obtain ⟨a₃, h₃, hord₃, hset₃⟩ :=
    setParent_spec hset₂.bounded ((hsame₂ dynIndex).trans hdyn) (some newTop)
  have hnew₃ : node? a₃.mem new = _ := (hset₃.other new hne₁.symm).trans ((hsame₂ new).trans hnew)
  obtain ⟨a₄, h₄, hord₄, hset₄⟩ := setParent_spec hset₃.bounded hnew₃ (some newTop)
  have htop₄ : node? a₄.mem newTop = _ := (hset₄.other newTop hne₃.symm).trans
    ((hset₃.other newTop hne₂.symm).trans ((hsame₂ newTop).trans hnewTop))
  obtain ⟨a₅, h₅, hord₅, hset₅⟩ :=
    putChild_spec hset₄.bounded htop₄ (show 0 < indexSize by decide) dynIndex
  obtain ⟨a₆, h₆, hord₆, hset₆⟩ :=
    putChild_spec hset₅.bounded hset₅.self (show 1 < indexSize by decide) new
  have hnew₆ : node? a₆.mem new = _ := (hset₆.other new hne₃).trans
    ((hset₅.other new hne₃).trans hset₄.self)
  obtain ⟨a₇, h₇, hord₇, hset₇⟩ :=
    putChild_spec (a := { a₆ with ordArray := { a₆.ordArray with
        indexLevels := a₆.ordArray.indexLevels + 1, topDynIndex := some newTop } })
      hset₆.bounded hnew₆ (show 0 < indexSize by decide) child
  have hother : ∀ q, q ≠ new → q ≠ newTop → node? a₇.mem q = node? a₃.mem q := fun q hq hq' =>
    (hset₇.other q hq).trans ((hset₆.other q hq').trans
      ((hset₅.other q hq').trans (hset₄.other q hq)))
  refine ⟨a₇, ?_, ?_, hset₇.self, ?_, fun q hq₁ hq₂ hq₃ => ?_, fun q => ?_, hset₇.bounded, ?_, ?_, ?_,
    ?_⟩
  · simp [finishNewTop, h₁, h₂, h₃, h₄, h₅, h₆, h₇]
  · rw [hother dynIndex hne₁ hne₂, hset₃.self]
  · exact (hset₇.other newTop hne₃.symm).trans hset₆.self
  · rw [hother q hq₂ hq₃, hset₃.other q hq₁, hsame₂ q]
  · rw [hset₇.buf, hset₆.buf, hset₅.buf, hset₄.buf, hset₃.buf, hset₂.buf, hset₁.buf]
  · rw [hset₇.fresh, hset₆.fresh, hset₅.fresh, hset₄.fresh, hset₃.fresh, hset₂.fresh, hset₁.fresh]
  · rw [hset₇.sdArray, hset₆.sdArray, hset₅.sdArray, hset₄.sdArray, hset₃.sdArray, hset₂.sdArray,
      hset₁.sdArray]
  · rw [hset₇.total, hset₆.total, hset₅.total, hset₄.total, hset₃.total, hset₂.total, hset₁.total]
  · rw [hord₇, hord₆, hord₅, hord₄, hord₃, hord₂, hord₁]

theorem insertBufInIndex_spec {ok : Nat → Bool} (hok : ∀ n, ok n) {fuel : Nat} (child : Ptr)
    (h : Tree a.mem base seq levels top place) (hb : a.mem.Bounded)
    (htop : a.ordArray.topDynIndex = some top) (hlevels : a.ordArray.indexLevels = levels)
    (hlast : (seq (base + 1)).getLast? = some dynIndex)
    (hprev : a.ordArray.lastDynIndex = some prev) (hprevNode : (node? a.mem prev).isSome)
    (hfuel : levels - base ≤ fuel) :
    ∃ a' newParent seq' levels' top' place',
      insertBufInIndex ok fuel a dynIndex child = some (a', newParent, 0) ∧
        Inserted a a' base seq place dynIndex child newParent seq' levels' top' place' := by
  induction fuel generalizing a base dynIndex child with
  | zero =>
    have hlt := h.base_lt
    omega
  | succ fuel ih =>
    obtain ⟨hp, hlen⟩ := h.last hlast
    obtain ⟨n, hn, hnode⟩ := node?_eq_some.mp (h.nodes base _ dynIndex le_rfl hp)
    have hused : n.nextIndexToInsert = _ := congrArg Node.used hnode
    have hpar : n.parentDynIndex = _ := congrArg Node.parent hnode
    obtain ⟨nd, hnd⟩ := isSome_iff_exists.mp hprevNode
    simp only [insertBufInIndex, hn, bind_eq_bind, bind_some]
    by_cases hfull : indexSize ∣ (seq base).length
    · rw [if_pos (hused.trans (h.used_last.mpr hfull)), Heap.calloc_ok hok]
      -- the state of the call after the new node has been allocated
      have hold : ∀ (l i : Nat) (p : Ptr), base ≤ l → (seq (l + 1))[i]? = some p →
          node? (withNode a.mem) p = node? a.mem p := by
        intro l i p hl hp'
        exact node?_withNode (Nat.ne_of_lt (lt_fresh_of_node? hb (h.nodes l i p hl hp')))
      have htree : Tree (withNode a.mem) base seq levels top place := h.congr hold (Nat.le_succ _)
      have hbw : (withNode a.mem).Bounded := hb.calloc _
      have hprev' : (node? (withNode a.mem) prev).isSome := by
        rw [node?_withNode (Nat.ne_of_lt (lt_fresh_of_node? hb hnd)), hnd]
        rfl
      have hdynlt : dynIndex < a.mem.fresh := lt_fresh_of_node? hb (h.nodes base _ dynIndex le_rfl hp)
      cases hparent : n.parentDynIndex with
      | some parent =>
        obtain ⟨hlt, hlastp⟩ := h.parent_last (hpar.symm.trans hparent)
        obtain ⟨a₁, newParent, seq₁, levels₁, top₁, place₁, hrec, hins⟩ :=
          ih (a := { a with mem := withNode a.mem }) a.mem.fresh (htree.up hlt) hbw htop hlevels hlastp
            hprev hprev' (by omega)
        -- the full node keeps its tree fields, the new one is still empty
        have hnotin : ∀ q, q < a.mem.fresh + 1 → (∀ l, base + 1 ≤ l → q ∉ seq (l + 1)) →
            node? a₁.mem q = node? (withNode a.mem) q := fun q hq hqn => hins.other q hq hqn
        have hdyn₁ : node? a₁.mem dynIndex = some n.node := by
          rw [hnotin dynIndex (Nat.lt_succ_of_lt hdynlt), hold base _ _ le_rfl hp,
            h.nodes base _ dynIndex le_rfl hp, hnode]
          intro l hl hmem
          obtain ⟨j, hj⟩ := mem_iff_getElem?.mp hmem
          have hlev := (h.level_unique le_rfl (by omega) hp hj).1
          omega
        have hnew₁ : node? a₁.mem a.mem.fresh = some ⟨none, 0, fun _ => none⟩ := by
          rw [hnotin a.mem.fresh (Nat.lt_succ_self _)]
          · exact node?_withNode_self a.mem
          · intro l hl hmem
            obtain ⟨j, hj⟩ := mem_iff_getElem?.mp hmem
            have hpl := h.placed l j _ (by omega) hj
            rw [h.place_lt _ le_rfl] at hpl
            cases hpl
        obtain ⟨last₁, hlast₁, hlastNode₁⟩ : ∃ q, a₁.ordArray.lastDynIndex = some q ∧
            (node? a₁.mem q).isSome := by
          rw [hins.lastDynIndex]
          cases hnp : newParent with
          | none => exact ⟨prev, hprev, hins.isNode prev hprev'⟩
          | some q =>
            refine ⟨q, rfl, ?_⟩
            have hhold := hins.holder
            rw [hnp] at hhold
            rw [hins.tree.nodes (base + 1) _ q le_rfl hhold]
            rfl
        obtain ⟨a', hfin, hord, hset⟩ :=
          finishNewIndex_spec hins.bounded hlast₁ hlastNode₁ hdyn₁ hnew₁ newParent child
        refine ⟨a', some a.mem.fresh, _, _, _, _, ?_, insert_full_parent h hlast hfull
          (hpar.symm.trans hparent) hins ?_ hb hord⟩
        · change ((insertBufInIndex ok fuel { a with mem := withNode a.mem } parent a.mem.fresh).bind _)
            = _
          rw [hrec]
          simp [hfin]
        · have hor : newParent.or n.node.parent = some (newParent.getD parent) := by
            change newParent.or n.parentDynIndex = _
            rw [hparent]
            cases newParent <;> rfl
          rw [← hor]
          exact hset
      | none =>
        -- the full node is the top node
        have hlv : levels = base + 1 := by
          by_contra hne
          have hlt : base + 1 < levels := by
            have := h.base_lt
            omega
          have hlen' := h.length_eq (base + 1) (by omega) hlt
          have hnone : (seq (base + 2))[((seq base).length - 1) / indexSize / indexSize]? = none :=
            hpar.symm.trans hparent
          rw [getElem?_eq_none_iff] at hnone
          change (seq (base + 1 + 1)).length ≤ _ at hnone
          simp only [indexSize] at hlen hlen' hnone
          omega
        have hdt : dynIndex = top := by
          subst hlv
          rw [h.top_eq] at hlast
          simpa using hlast.symm
        have hlen1 : (seq base).length = indexSize := by
          subst hlv
          have hone := congrArg List.length h.top_eq
          rw [hlen, length_singleton] at hone
          have hpos := length_pos_of_ne_nil h.nonempty
          obtain ⟨k, hk⟩ := hfull
          simp only [indexSize] at hone hk ⊢
          omega
        have hi0 : ((seq base).length - 1) / indexSize = 0 := by
          rw [hlen1]
          decide
        rw [hi0] at hnode hp
        subst hdt
        dsimp only
        rw [Heap.calloc_ok hok]
        set mem₂ : Mem := withNode (withNode a.mem) with hmem₂
        have hdyn₂ : node? mem₂ dynIndex = some (nodeAt seq base 0) := by
          have hne : dynIndex ≠ (withNode a.mem).fresh := Nat.ne_of_lt (Nat.lt_succ_of_lt hdynlt)
          rw [hmem₂, node?_withNode hne, hold base 0 _ le_rfl hp, h.nodes base 0 _ le_rfl hp]
        have hnew₂ : node? mem₂ a.mem.fresh = some ⟨none, 0, fun _ => none⟩ := by
          have hne : a.mem.fresh ≠ (withNode a.mem).fresh := Nat.ne_of_lt (Nat.lt_succ_self _)
          rw [hmem₂, node?_withNode hne, node?_withNode_self]
        have hprev₂ : (node? mem₂ prev).isSome := by
          obtain ⟨ndp, hndp⟩ := isSome_iff_exists.mp hprev'
          rw [hmem₂, node?_withNode (Nat.ne_of_lt (lt_fresh_of_node? hbw hndp)), hndp]
          rfl
        obtain ⟨a', hfin, hnd₁, hnd₂, hnd₃, hoth, hbuf, hbd, hfr, hsd, htot, hord⟩ :=
          finishNewTop_spec (a := { a with mem := mem₂ }) (hbw.calloc _) hprev hprev₂ hdyn₂ hnew₂
            (node?_withNode_self (withNode a.mem)) (Nat.ne_of_lt hdynlt)
            (Nat.ne_of_lt (Nat.lt_succ_of_lt hdynlt)) (Nat.ne_of_lt (Nat.lt_succ_self _)) child
        refine ⟨a', some a.mem.fresh, _, _, _, _, ?_, insert_full_top h hlv hlen1 rfl rfl hnd₁ hnd₂
          hnd₃ (fun p h₁ h₂ h₃ => ?_) (fun p => ?_) hbd hfr hsd htot hord hlevels⟩
        · change ((finishNewTop { a with mem := mem₂ } dynIndex a.mem.fresh (withNode a.mem).fresh
            child).bind _) = _
          rw [hfin]
          rfl
        · rw [hoth p h₁ h₂ h₃]
          exact (node?_withNode h₃).trans (node?_withNode h₂)
        · rw [hbuf p]
          exact (buf?_withNode hbw p).trans (buf?_withNode hb p)
    · rw [if_neg (fun hc => hfull (h.used_last.mp (hused.symm.trans hc))), hused]
      obtain ⟨a', hput, hins⟩ := insert_notFull h hb htop hlevels hlast hfull child
      exact ⟨a', none, _, _, _, _, by rw [hput]; rfl, hins⟩

/-! ## Ordered insert -/

/-- Remembering the insert positions on the way to the top changes no tree
field. -/
theorem walkParents_save (fuel l i : Nat) (h : Tree m 0 seq levels top place) (hb : m.Bounded)
    (hfuel : levels ≤ l + fuel) :
    ∃ m', walkParents saveIndex fuel m (seq (l + 1))[i]? = some m' ∧
      (∀ p, node? m' p = node? m p) ∧ (∀ p, buf? m' p = buf? m p) ∧ m'.fresh = m.fresh ∧
      m'.Bounded := by
  induction fuel generalizing m l i with
  | zero =>
    refine ⟨m, ?_, fun p => rfl, fun p => rfl, rfl, hb⟩
    rw [h.above (l + 1) (by omega)]
    simp [walkParents]
  | succ fuel ih =>
    cases hp : (seq (l + 1))[i]? with
    | none => exact ⟨m, by simp [walkParents], fun p => rfl, fun p => rfl, rfl, hb⟩
    | some p =>
      obtain ⟨n, hn, hnode⟩ := node?_eq_some.mp (h.nodes l i p (Nat.zero_le _) hp)
      have hpar : n.parentDynIndex = (seq (l + 2))[i / indexSize]? := congrArg Node.parent hnode
      have hsame : ∀ q, node? (m.set p (.index (saveIndex n))) q = node? m q := by
        intro q
        by_cases hq : q = p
        · subst hq
          rw [node?_set_self, node?, hn]
          rfl
        · exact node?_congr (Heap.set_of_ne _ _ hq)
      obtain ⟨m', hrun, hnd, hbf, hfr, hbd⟩ :=
        ih (l + 1) (i / indexSize) (h.congr (fun _ _ q _ _ => hsame q) le_rfl)
          (hb.set (hb p _ (index?_eq_some.mp hn)) _) (by omega)
      refine ⟨m', ?_, fun q => (hnd q).trans (hsame q),
        fun q => (hbf q).trans (buf?_set_index hn _ q), hfr, hbd⟩
      simp only [walkParents, hn, bind_eq_bind, bind_some, hpar]
      exact hrun

variable {bufs : List (Ptr × List Byte)} {bytes : List Byte}

theorem SimpleInv.congr (h : SimpleInv a bufs bytes) (hbuf : ∀ p, buf? a'.mem p = buf? a.mem p)
    (hbd : a'.mem.Bounded) (hsd : a'.sdArray = a.sdArray)
    (htot : a'.totalSizeInBytes = a.totalSizeInBytes) : SimpleInv a' bufs bytes where
  bounded := hbd
  seg := h.seg.congr fun p _ => hbuf p
  nodup := h.nodup
  nonempty := h.nonempty
  first := hsd ▸ h.first
  last := hsd ▸ h.last
  used_le := hsd ▸ h.used_le
  used_pos := hsd ▸ h.used_pos
  total := htot ▸ h.total
  size := hsd ▸ h.size
  bytes_eq := h.bytes_eq

/-- The index covers the buffers `ptrs`. -/
structure Indexed (a : DynamicArray) (ptrs : List Ptr) (seq : Nat → List Ptr) (levels : Nat)
    (top : Ptr)
    (place : Ptr → Option (Nat × Nat)) : Prop where
  tree : Tree a.mem 0 seq levels top place
  seq_zero : seq 0 = ptrs
  topDynIndex : a.ordArray.topDynIndex = some top
  indexLevels : a.ordArray.indexLevels = levels
  lastDynIndex : a.ordArray.lastDynIndex = (seq 1).getLast?

/-- The last leaf exists. -/
theorem Indexed.last_leaf {ptrs : List Ptr} (h : Indexed a ptrs seq levels top place) :
    ∃ p, (seq 1).getLast? = some p ∧ (node? a.mem p).isSome := by
  have hlen := h.tree.length_eq 0 le_rfl h.tree.base_lt
  have hpos := length_pos_of_ne_nil h.tree.nonempty
  have hne : seq 1 ≠ [] := by
    intro hnil
    rw [show seq (0 + 1) = seq 1 from rfl, hnil, length_nil] at hlen
    simp only [indexSize] at hlen
    omega
  refine ⟨(seq 1).getLast hne, getLast?_eq_some_getLast hne, ?_⟩
  obtain ⟨i, hi⟩ := mem_iff_getElem?.mp (getLast_mem hne)
  rw [h.tree.nodes 0 i _ le_rfl hi]
  rfl

/-- The next pointer of a buffer that is not the last one. -/
theorem BufSeg.next_of_split {pre rest : List Ptr} {q : Ptr} {t : Option Ptr} (h : BufSeg m bufs t)
    (hptrs : bufs.map Prod.fst = pre ++ p :: q :: rest) :
    ∃ b, buf? m p = some b ∧ b.nextDynBuf = some q := by
  induction bufs generalizing pre with
  | nil => simp at hptrs
  | cons b tail ih =>
    obtain ⟨x, c⟩ := b
    cases pre with
    | nil =>
      simp only [map_cons, nil_append, List.cons.injEq] at hptrs
      obtain ⟨rfl, htail⟩ := hptrs
      refine ⟨_, h.1, ?_⟩
      cases tail with
      | nil => simp at htail
      | cons y ys =>
        simp only [map_cons, List.cons.injEq] at htail
        exact congrArg some htail.1
    | cons y ys =>
      simp only [map_cons, cons_append, List.cons.injEq] at hptrs
      exact ih h.2.2 hptrs.2

/-- The loop that enters the new buffers: `rest` are those not yet entered. -/
theorem indexLoop_spec {ok : Nat → Bool} (hok : ∀ n, ok n) (old : DynamicArray)
    {fuel size indexed : Nat}
    {pre rest : List Ptr} {loopDynBuf : Ptr} (hs : SimpleInv a bufs bytes)
    (hptrs : bufs.map Prod.fst = pre ++ loopDynBuf :: rest)
    (hix : Indexed a (pre ++ [loopDynBuf]) seq levels top place)
    (hassert : indexed + bufSize * rest.length ≤ size + (bufSize - 1))
    (hfuel : rest.length < fuel) :
    ∃ a' seq' levels' top' place', indexLoop ok old size fuel a loopDynBuf indexed = some (a', 0) ∧
      SimpleInv a' bufs bytes ∧ Indexed a' (bufs.map Prod.fst) seq' levels' top' place' := by
  induction fuel generalizing a seq levels top place pre rest loopDynBuf indexed with
  | zero => omega
  | succ fuel ih =>
    have hlastptr : a.sdArray.lastDynBuf = (loopDynBuf :: rest).getLast? := by
      rw [hs.last, ← getLast?_map, hptrs, getLast?_append_of_ne_nil _ (by simp)]
    cases rest with
    | nil =>
      refine ⟨a, seq, levels, top, place, ?_, hs, hptrs ▸ hix⟩
      simp [indexLoop, hlastptr]
    | cons next rest =>
      have hne : a.sdArray.lastDynBuf ≠ some loopDynBuf := by
        intro heq
        rw [hlastptr, getLast?_cons_cons] at heq
        have hmem : loopDynBuf ∈ next :: rest := mem_of_getLast? heq
        have hnd := hs.nodup
        rw [hptrs, nodup_append] at hnd
        exact (nodup_cons.mp hnd.2.1).1 hmem
      obtain ⟨b, hb, hnext⟩ := hs.seg.next_of_split hptrs
      obtain ⟨leaf, hleaf, hleafNode⟩ := hix.last_leaf
      have hlast : a.ordArray.lastDynIndex = some leaf := hix.lastDynIndex.trans hleaf
      obtain ⟨a₁, newParent, seq₁, levels₁, top₁, place₁, hrun, hins⟩ :=
        insertBufInIndex_spec hok next hix.tree hs.bounded hix.topDynIndex hix.indexLevels hleaf hlast
          hleafNode (show levels - 0 ≤ a.ordArray.indexLevels + 1 by rw [hix.indexLevels]; omega)
      have hs₁ : SimpleInv a₁ bufs bytes := hs.congr hins.buf hins.bounded hins.sdArray hins.total
      have hix₁ : Indexed a₁ ((pre ++ [loopDynBuf]) ++ [next]) seq₁ levels₁ top₁ place₁ := by
        refine ⟨hins.tree, hins.seq_base.trans (by rw [hix.seq_zero]), hins.topDynIndex,
          hins.indexLevels, ?_⟩
        -- the last leaf is the one that holds the new buffer
        have hhold := hins.holder
        have hlen₁ := hins.tree.length_eq 0 le_rfl hins.tree.base_lt
        rw [hins.seq_base, length_append, length_singleton] at hlen₁
        rw [hins.lastDynIndex, hlast, getLast?_eq_getElem?]
        have hidx : (seq₁ 1).length - 1 = (seq 0).length / indexSize := by
          change (seq₁ (0 + 1)).length - 1 = _
          simp only [indexSize] at hlen₁ ⊢
          omega
        rw [hidx, hhold]
        cases newParent <;> rfl
      have hassert₁ : indexed + bufSize + bufSize * rest.length ≤ size + (bufSize - 1) := by
        rw [length_cons, Nat.mul_succ] at hassert
        omega
      have hptrs₁ : bufs.map Prod.fst = (pre ++ [loopDynBuf]) ++ next :: rest := by
        simpa using hptrs
      obtain ⟨a', seq', levels', top', place', hloop, hres⟩ :=
        ih hs₁ hptrs₁ hix₁ hassert₁ (by simpa using hfuel)
      refine ⟨a', seq', levels', top', place', ?_, hres⟩
      have hnassert : ¬ size + (bufSize - 1) < indexed + bufSize := by omega
      simp only [indexLoop, if_neg hne, hb, hnext, bind_eq_bind, bind_some,
        if_neg hnassert, hlast, hrun]
      simpa using hloop

/-- The array stores `bytes` and its index covers all buffers. -/
def OrdInv (a : DynamicArray) (bytes : List Byte) : Prop :=
  ∃ bufs seq levels top place, SimpleInv a bufs bytes ∧
    Indexed a (bufs.map Prod.fst) seq levels top place

/-- An operation on the buffers keeps the index. -/
theorem Indexed.of_simple {ptrs : List Ptr} (h : Indexed a ptrs seq levels top place)
    (hidx : ∀ q, index? a'.mem q = index? a.mem q) (hfresh : a.mem.fresh ≤ a'.mem.fresh)
    (hord : a'.ordArray = a.ordArray) :
    Indexed a' ptrs seq levels top place where
  tree := h.tree.congr (fun _ _ p _ _ => by rw [node?, node?, hidx p]) hfresh
  seq_zero := h.seq_zero
  topDynIndex := hord ▸ h.topDynIndex
  indexLevels := hord ▸ h.indexLevels
  lastDynIndex := hord ▸ h.lastDynIndex

/-- The last buffer of an array and the state after its insert positions have
been remembered, which is where the insert starts. -/
theorem OrdInv.saved (h : OrdInv a bytes) :
    ∃ m bufs seq levels top place pre lastBuf,
      walkParents saveIndex (a.ordArray.indexLevels + 1) a.mem a.ordArray.lastDynIndex = some m ∧
      SimpleInv { a with mem := m } bufs bytes ∧
      Indexed { a with mem := m } (bufs.map Prod.fst) seq levels top place ∧
      (∀ p, node? m p = node? a.mem p) ∧ m.fresh = a.mem.fresh ∧
      bufs.map Prod.fst = pre ++ [lastBuf] ∧ a.sdArray.lastDynBuf = some lastBuf := by
  obtain ⟨bufs, seq, levels, top, place, hs, hix⟩ := h
  obtain ⟨m, hwalk, hnd, hbf, hfr, hbd⟩ :=
    walkParents_save (a.ordArray.indexLevels + 1) 0 ((seq 1).length - 1) hix.tree hs.bounded
      (by rw [hix.indexLevels]; omega)
  obtain ⟨pre, lastBuf, hpre⟩ : ∃ pre p, bufs.map Prod.fst = pre ++ [p] := by
    have hne : bufs.map Prod.fst ≠ [] := by simpa using hs.nonempty
    exact ⟨_, _, (dropLast_append_getLast hne).symm⟩
  rw [← getLast?_eq_getElem?, ← hix.lastDynIndex] at hwalk
  refine ⟨m, bufs, seq, levels, top, place, pre, lastBuf, hwalk, hs.congr hbf hbd rfl rfl, ?_, hnd, hfr,
    hpre, ?_⟩
  · exact ⟨hix.tree.congr (fun _ _ p _ _ => hnd p) hfr.ge, hix.seq_zero, hix.topDynIndex,
      hix.indexLevels, hix.lastDynIndex⟩
  · rw [hs.last, ← getLast?_map, hpre]
    simp

/-- The insert up to the point where the new buffers are entered in the index:
`news` are the new buffers. -/
theorem OrdInv.inserted (h : OrdInv a bytes) (data : List Byte) :
    ∃ m a₁ bufs₁ seq levels top place pre lastBuf news,
      walkParents saveIndex (a.ordArray.indexLevels + 1) a.mem a.ordArray.lastDynIndex = some m ∧
      a.sdArray.lastDynBuf = some lastBuf ∧
      insertSimple (fun _ => true) { a with mem := m } data = some (a₁, 0) ∧
      SimpleInv a₁ bufs₁ (bytes ++ data) ∧ bufs₁.map Prod.fst = pre ++ lastBuf :: news ∧
      Indexed a₁ (pre ++ [lastBuf]) seq levels top place ∧ a₁.ordArray = a.ordArray ∧
      m.fresh = a.mem.fresh ∧ a₁.mem.fresh = a.mem.fresh + news.length ∧
      data.length + a.sdArray.bytesUsed = bufSize * news.length + a₁.sdArray.bytesUsed ∧
      (∀ p, node? a₁.mem p = node? a.mem p) := by
  obtain ⟨m, bufs, seq, levels, top, place, pre, lastBuf, hwalk, hs, hix, hnd, hfr, hpre, hlast⟩ :=
    h.saved
  obtain ⟨a₁, bufs₁, news, hins, hs₁, hptrs, hord, hidx, hfresh⟩ :=
    insertSimple_spec hs (fun _ => rfl) data
  have hfresh₁ : a₁.mem.fresh = m.fresh + news.length := hfresh
  have hix₁ := hix.of_simple hidx (by rw [hfresh]; exact Nat.le_add_right _ _) hord
  refine ⟨m, a₁, bufs₁, seq, levels, top, place, pre, lastBuf, news, hwalk, hlast, hins, hs₁, ?_,
    hpre ▸ hix₁, hord, hfr, by rw [hfresh₁, hfr], ?_, fun p => ?_⟩
  · rw [hptrs, hpre]
    simp
  · have hsize : bytes.length + bufSize = bufSize * bufs.length + a.sdArray.bytesUsed := hs.size
    have hsize₁ := hs₁.size
    have hlen : bufs₁.length = bufs.length + news.length := by
      simpa using congrArg List.length hptrs
    rw [hlen, length_append, Nat.mul_add] at hsize₁
    omega
  · rw [node?, hidx p]
    exact hnd p

theorem insertOrdered_spec (h : OrdInv a bytes) (data : List Byte) :
    ∃ a', insertOrdered (fun _ => true) a data = some (a', 0) ∧ OrdInv a' (bytes ++ data) := by
  obtain ⟨m, a₁, bufs₁, seq, levels, top, place, pre, lastBuf, news, hwalk, hlast, hins, hs₁, hptrs, hix₁,
    -, -, -, hsize, -⟩ := h.inserted data
  -- the assertion on the number of new buffers
  have hused : a.sdArray.bytesUsed ≤ bufSize := by
    obtain ⟨bufs, -, -, -, -, hs, -⟩ := h
    exact hs.used_le
  have hassert : 0 + bufSize * news.length ≤ data.length + (bufSize - 1) := by
    rcases news with - | ⟨x, xs⟩
    · simp
    · have hlen : 1 < bufs₁.length := by
        have hl := congrArg List.length hptrs
        rw [length_map, length_append, length_cons, length_cons] at hl
        omega
      have hpos := hs₁.used_pos hlen
      omega
  have hfuel : news.length < data.length + 2 := by
    simp only [bufSize] at hassert
    omega
  obtain ⟨a', seq', levels', top', place', hloop, hs', hix'⟩ :=
    indexLoop_spec (fun _ => rfl) a hs₁ hptrs hix₁ hassert hfuel
  refine ⟨a', ?_, bufs₁, seq', levels', top', place', hs', hix'⟩
  simp only [insertOrdered, hwalk, hlast, bind_eq_bind, bind_some, hins]
  simpa using hloop

/-- A new ordered array: one empty buffer below one index node. -/
theorem createOrdered_spec : ∃ a, createOrdered (fun _ => true) Heap.empty = some a ∧ OrdInv a [] := by
  obtain ⟨a₀, hcreate, hs, hmem⟩ := @createSimple_spec (fun _ => true) (fun _ => rfl)
    (withNode Heap.empty) (Heap.bounded_empty.calloc _)
  have hnode : node? a₀.mem 0 = some ⟨none, 0, fun _ => none⟩ := by
    rw [hmem, ← node?_withNode_self Heap.empty]
    exact node?_congr (Heap.set_of_ne (withNode Heap.empty) (.buf zeroBuf) Nat.zero_ne_one)
  obtain ⟨a, hput, hord, hset⟩ :=
    putChild_spec (a := { a₀ with ordArray := ⟨some 0, some 0, some 0, 1⟩ }) hs.bounded hnode
      (show 0 < indexSize by decide) 1
  have hfirst : a₀.sdArray.firstDynBuf = some 1 := hs.first
  refine ⟨a, ?_, [(1, zeroBuf.buf)],
    update (update (fun _ => []) 0 [1]) 1 [0], 1, 0,
    update (fun _ => none) 0 (some (0, 0)), ?_, ⟨?_, rfl, ?_, ?_, ?_⟩⟩
  · have hcall : createOrdered (fun _ => true) Heap.empty =
        (createSimple (fun _ => true) (withNode Heap.empty)).bind fun a =>
          a.sdArray.firstDynBuf.bind fun first =>
            putChild { a with ordArray := ⟨some 0, some 0, some 0, 1⟩ } 0 0 first := by
      rw [createOrdered, Heap.calloc_ok fun _ => rfl]
      rfl
    rw [hcall, hcreate, bind_some, hfirst]
    exact hput
  · exact SimpleInv.congr hs hset.buf hset.bounded hset.sdArray hset.total
  · refine ⟨by decide, rfl, ?_, by simp, ?_, ?_, ?_, ?_, by omega⟩
    · intro l hl
      rw [update_of_ne (by omega), update_of_ne (by omega)]
    · intro l _ hl
      have hl0 : l = 0 := by omega
      subst hl0
      decide
    · intro l i p _ hp
      match l, i, hp with
      | 0, 0, hp =>
        cases hp
        rw [hset.self]
        congr 2
        funext j
        cases j with
        | zero => rfl
        | succ j => simp [update_of_ne]
      | 0, i + 1, hp => simp at hp
      | l + 1, i, hp =>
        rw [update_of_ne (by omega), update_of_ne (by omega)] at hp
        simp at hp
    · intro l i p _ hp
      match l, i, hp with
      | 0, 0, hp =>
        cases hp
        rfl
      | 0, i + 1, hp => simp at hp
      | l + 1, i, hp =>
        rw [update_of_ne (by omega), update_of_ne (by omega)] at hp
        simp at hp
    · intro p hp
      rw [hset.fresh] at hp
      have hfresh : a₀.mem.fresh = 2 := by
        rw [hmem]
        rfl
      refine update_of_ne ?_ _ _
      rintro rfl
      exact absurd (hfresh ▸ hp) (by decide)
  · rw [hord]
  · rw [hord]
  · rw [hord]
    rfl

/-! ## Position lookup by descent -/

/-- The number of bytes below one element of level `l`. -/
def span (l : Nat) : Nat := bufSize * indexSize ^ l

theorem span_pos (l : Nat) : 0 < span l := Nat.mul_pos (by decide) (Nat.pow_pos (by decide))

theorem span_succ (l : Nat) : span (l + 1) = span l * indexSize := by
  rw [span, span, Nat.pow_succ, Nat.mul_assoc]

theorem two_pow_log (l : Nat) : 2 ^ (logBufSize + logIndexSize * l) = span l := by
  rw [span, Nat.pow_add, Nat.pow_mul]
  rfl

/-- One level of the descent, with the shifts written as divisions. -/
theorem descend_succ (level : Nat) (m : Mem) (dynIndex : Option Ptr) (newPos : Nat) :
    descend (level + 1) m dynIndex newPos =
      if newPos / span level ≥ indexSize then some (1, none, 0)
      else dynIndex.bind fun p => (index? m p).bind fun n =>
        descend level m (n.childPtrs (newPos / span level)) (newPos % span level) := by
  have hsub : newPos - newPos / span level * span level = newPos % span level := by
    rw [Nat.mul_comm, ← Nat.mod_eq_sub_mul_div]
  simp only [descend, Nat.shiftRight_eq_div_pow, Nat.shiftLeft_eq, two_pow_log, hsub]
  rfl

section

variable (h : Tree m 0 seq levels top place)

include h

/-- The descent goes from element `pos / span (l + 1)` of a level to element
`pos / span l` of the level below. -/
theorem descend_level (l pos : Nat) :
    descend (l + 1) m (seq (l + 1))[pos / span (l + 1)]? (pos % span (l + 1)) =
      if pos / span (l + 1) < (seq (l + 1)).length then
        descend l m (seq l)[pos / span l]? (pos % span l)
      else none := by
  have hidx : pos % span (l + 1) / span l = pos / span l % indexSize := by
    rw [span_succ, Nat.mod_mul_right_div_self]
  have hrem : pos % span (l + 1) % span l = pos % span l := by
    rw [span_succ, Nat.mod_mul_right_mod]
  have hlt : pos / span l % indexSize < indexSize := Nat.mod_lt _ (by decide)
  rw [descend_succ, hidx, hrem, if_neg (by omega)]
  split_ifs with hin
  · have hp := getElem?_eq_getElem hin
    obtain ⟨n, hn, hnode⟩ := node?_eq_some.mp (h.nodes l _ _ (Nat.zero_le _) hp)
    have hchild : n.childPtrs (pos / span l % indexSize) = (seq l)[pos / span l]? := by
      have hc : n.childPtrs = (nodeAt seq l (pos / span (l + 1))).child := congrArg Node.child hnode
      rw [hc]
      simp only [nodeAt, if_pos hlt]
      rw [span_succ, ← Nat.div_div_eq_div_mul, Nat.div_add_mod]
    rw [hp, bind_some, hn, bind_some, hchild]
  · rw [getElem?_eq_none (by omega)]
    rfl

/-- All nodes on the way exist. -/
theorem descend_found (hall : ∀ k, k < l → pos / span (k + 1) < (seq (k + 1)).length) :
    descend l m (seq l)[pos / span l]? (pos % span l) =
      some (0, (seq 0)[pos / bufSize]?, pos % bufSize) := by
  induction l with
  | zero => simp [descend, span]
  | succ l ih =>
    rw [descend_level h, if_pos (hall l (Nat.lt_succ_self l))]
    exact ih fun k hk => hall k (by omega)

/-- A node on the way is missing: NULL is followed. -/
theorem descend_lost {k : Nat} (hk : k < l) (hout : (seq (k + 1)).length ≤ pos / span (k + 1)) :
    descend l m (seq l)[pos / span l]? (pos % span l) = none := by
  induction l with
  | zero => omega
  | succ l ih =>
    rw [descend_level h]
    split_ifs with hin
    · refine ih ?_
      rcases Nat.lt_or_ge k l with hkl | hkl
      · exact hkl
      · have heq : k = l := by omega
        subst heq
        omega
    · rfl

end

variable {ptrs : List Ptr}

/-- Behind the last buffer that the tree could hold. -/
theorem findPosOrdered_over (h : Indexed a ptrs seq levels top place) (hout : span levels ≤ pos) :
    findPosOrdered a pos = some (1, none, 0) := by
  have hlv := h.tree.base_lt
  obtain ⟨l, rfl⟩ : ∃ l, levels = l + 1 := ⟨levels - 1, by omega⟩
  rw [findPosOrdered, h.indexLevels, descend_succ, if_pos]
  rw [span_succ] at hout
  exact (Nat.le_div_iff_mul_le (span_pos l)).mpr (by rwa [Nat.mul_comm])

/-- Inside the range of the tree, the descent starts at the top node. -/
theorem findPosOrdered_eq (h : Indexed a ptrs seq levels top place) (hin : pos < span levels) :
    findPosOrdered a pos =
      descend levels a.mem (seq levels)[pos / span levels]? (pos % span levels) := by
  rw [findPosOrdered, h.indexLevels, h.topDynIndex, Nat.div_eq_of_lt hin, Nat.mod_eq_of_lt hin,
    h.tree.top_eq]
  rfl

/-- The number of elements on a level: one for every `128 ^ l` buffers begun. -/
theorem Tree.lt_length_iff (h : Tree m 0 seq levels top place) {k : Nat} (hl : l ≤ levels) :
    k < (seq l).length ↔ k * indexSize ^ l < (seq 0).length := by
  induction l generalizing k with
  | zero => simp
  | succ l ih =>
    have hlen := h.length_eq l (Nat.zero_le _) (by omega)
    have hstep : k < (seq (l + 1)).length ↔ k * indexSize < (seq l).length := by
      simp only [indexSize] at hlen ⊢
      omega
    rw [hstep, ih (by omega), Nat.mul_assoc, Nat.pow_succ, Nat.mul_comm indexSize]

/-- Every position inside the buffers is found. -/
theorem Indexed.looksUp (h : Indexed a (bufs.map Prod.fst) seq levels top place) :
    LooksUp findPosOrdered a bufs := by
  intro pos hpos
  have hlen : (seq 0).length = bufs.length := by
    rw [h.seq_zero, length_map]
  have hbuf : pos / bufSize < bufs.length := Nat.div_lt_of_lt_mul hpos
  have hlevel : ∀ k, k ≤ levels → pos / span k < (seq k).length := by
    intro k hk
    rw [h.tree.lt_length_iff hk, hlen, span, ← Nat.div_div_eq_div_mul]
    exact (Nat.div_mul_le_self _ _).trans_lt hbuf
  have hin : pos < span levels := by
    by_contra hout
    have htop := hlevel levels le_rfl
    rw [h.tree.top_eq, length_singleton] at htop
    have hge : 1 ≤ pos / span levels :=
      (Nat.one_le_div_iff (span_pos levels)).mpr (Nat.le_of_not_lt hout)
    omega
  rw [findPosOrdered_eq h hin, descend_found h.tree fun k hk => hlevel (k + 1) hk, h.seq_zero]

end IClaustron.DynArray
