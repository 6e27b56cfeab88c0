import IClaustron.Config.ClusterReader

/-!
# Config.PortCheck — two nodes on the same port

`verify_hostname_port` of api/ic_apic_conf_reader.ic against what it is for. A socket section
for two nodes says which ports and hosts they use with each other. The loop takes over only
one of the two hosts, for a section with the nodes in the other order the wrong one, and
what a section has said about the first node stays for the nodes that follow.

* `verifySecond_eq` — what the inner loop has in hand at each node, without the loop.
* `host_ports_iff` — the check is right exactly if this is enough for the verdict.
* `carried_port_accepted` — the port of another pair hides a conflict.

Scope limits: the texts that are printed.
-/

namespace IClaustron.Config.ClusterReader

open Lib Protocol List Option

/-! ## What the check is for -/

/-- A section is for two nodes, in one order or the other. -/
def IsBetween (i j : Nat) (comm : ConfObject) : Prop :=
  (comm.num "first_node_id").toNat = i ∧ (comm.num "second_node_id").toNat = j ∨
    (comm.num "first_node_id").toNat = j ∧ (comm.num "second_node_id").toNat = i

instance (i j : Nat) : DecidablePred (IsBetween i j) := fun _ =>
  inferInstanceAs (Decidable (_ ∨ _))

/-- The section for two nodes, if there is one. -/
def sectionBetween (comms : List ConfObject) (i j : Nat) : Option ConfObject :=
  comms.find? fun comm => IsBetween i j comm

/-- The host that a section gives to one of its nodes. -/
def hostIn (comm : ConfObject) (id : Nat) : Option CString :=
  if (comm.num "first_node_id").toNat = id then comm.str "first_hostname"
  else comm.str "second_hostname"

/-- The ports and hosts of two nodes: the ones of the section for them, otherwise their own. -/
def ownEnds (comms : List ConfObject) (i j : Nat) (first second : HostPort) : HostPort × HostPort :=
  match sectionBetween comms i j with
  | none => (first, second)
  | some comm =>
    ({ first with port1 := (getPortNumber comm i).1, host := hostIn comm i },
      { second with port1 := (getPortNumber comm i).2, host := hostIn comm j })

/-- Two nodes cannot run at the same time. -/
def Conflict (ends : HostPort × HostPort) : Prop :=
  ends.1.host = ends.2.host ∧ ∃ port : UInt32, port ≠ 0 ∧
    (port = ends.1.port1 ∨ port = ends.1.port2) ∧ (port = ends.2.port1 ∨ port = ends.2.port2)

/-- Two nodes that exist. -/
structure NodePair (s : Load) where
  i : Nat
  j : Nat
  first : HostPort
  second : HostPort
  lt : i < j
  le : j ≤ s.maxNodeId.toNat
  node_i : (s.typedNode i).map (fun node => hostPort node.1 node.2) = some first
  node_j : (s.typedNode j).map (fun node => hostPort node.1 node.2) = some second

/-! ## What the loop has in hand -/

/-- The sections of the node `i` with the nodes of a list that exist. -/
def sectionsOf (node : Nat → Option (NodeType × ConfObject)) (comms : List ConfObject) (i : Nat)
    (ids : List Nat) : List ConfObject :=
  (ids.filter fun id => (node id).isSome).filterMap (sectionBetween comms i)

/-- The first node behind these sections: the last one of them has given the port, and the last one
with the node in front has given the host. -/
def carriedFirst (i : Nat) (first : HostPort) (secs : List ConfObject) : HostPort :=
  { first with
    port1 := secs.getLast?.elim first.port1 fun comm => (getPortNumber comm i).1
    host := (secs.filter fun comm => (comm.num "first_node_id").toNat = i).getLast?.elim first.host
      fun comm => comm.str "first_hostname" }

/-- The second node: a section with it in front gives it the host of the first node. -/
def carriedSecond (comms : List ConfObject) (i j : Nat) (second : HostPort) : HostPort :=
  match sectionBetween comms i j with
  | none => second
  | some comm =>
    { second with
      port1 := (getPortNumber comm i).2
      host := if (comm.num "first_node_id").toNat = i then second.host
        else comm.str "second_hostname" }

/-- What the loop compares for two nodes. -/
def carriedEnds (node : Nat → Option (NodeType × ConfObject)) (comms : List ConfObject) (i j : Nat)
    (first second : HostPort) : HostPort × HostPort :=
  (carriedFirst i first (sectionsOf node comms i (List.range' (i + 1) (j - i))),
    carriedSecond comms i j second)

/-! ## One pair -/

theorem samePort_iff {first second : HostPort} : samePort first second = true ↔
    ∃ port : UInt32, port ≠ 0 ∧ (port = first.port1 ∨ port = first.port2) ∧
      (port = second.port1 ∨ port = second.port2) := by
  unfold samePort
  simp only [Bool.or_eq_true, Bool.and_eq_true, decide_eq_true_eq, bne_iff_ne]
  constructor
  · rintro (((h | h) | h) | h)
    · exact ⟨first.port1, h.2, .inl rfl, .inl h.1⟩
    · exact ⟨first.port1, h.2, .inl rfl, .inr h.1⟩
    · exact ⟨first.port2, h.2, .inr rfl, .inl h.1⟩
    · exact ⟨first.port2, h.2, .inr rfl, .inr h.1⟩
  · rintro ⟨port, hPort, rfl | rfl, h | h⟩
    · exact .inl (.inl (.inl ⟨h, hPort⟩))
    · exact .inl (.inl (.inr ⟨h, hPort⟩))
    · exact .inl (.inr ⟨h, hPort⟩)
    · exact .inr ⟨h, hPort⟩

/-- `get_node_port_number` looks for the section of the two nodes. -/
theorem getNodePortNumber_eq {i j : Nat} (hNe : i ≠ j) (first second : HostPort)
    (comms : List ConfObject) : getNodePortNumber i j first second comms =
      (carriedFirst i first (sectionBetween comms i j).toList, carriedSecond comms i j second) := by
  induction comms with
  | nil => rfl
  | cons comm comms ih =>
    unfold getNodePortNumber sectionBetween carriedSecond sectionBetween
    rw [find?_cons]
    by_cases hFirst : (comm.num "first_node_id").toNat = i
    · by_cases hSecond : (comm.num "second_node_id").toNat = j
      · have hBetween : IsBetween i j comm := .inl ⟨hFirst, hSecond⟩
        rw [if_pos hFirst, if_pos hSecond, decide_eq_true hBetween]
        simp [carriedFirst, hFirst]
      · have hBetween : ¬ IsBetween i j comm := by
          rintro (h | h)
          · exact hSecond h.2
          · exact hNe (hFirst.symm.trans h.1)
        rw [if_pos hFirst, if_neg hSecond, decide_eq_false hBetween]
        exact ih
    · by_cases hOther : (comm.num "second_node_id").toNat = i ∧ (comm.num "first_node_id").toNat = j
      · have hBetween : IsBetween i j comm := .inr ⟨hOther.2, hOther.1⟩
        rw [if_neg hFirst, if_pos hOther, decide_eq_true hBetween]
        simp [carriedFirst, hFirst]
      · have hBetween : ¬ IsBetween i j comm := by
          rintro (h | h)
          · exact hFirst h.1
          · exact hOther ⟨h.2, h.1⟩
        rw [if_neg hFirst, if_neg hOther, decide_eq_false hBetween]
        exact ih

theorem carriedFirst_append (i : Nat) (first : HostPort) (secs secs' : List ConfObject) :
    carriedFirst i (carriedFirst i first secs) secs' = carriedFirst i first (secs ++ secs') := by
  unfold carriedFirst
  rw [filter_append, getLast?_append, getLast?_append]
  congr 1
  · cases secs'.getLast? <;> rfl
  · cases (secs'.filter fun comm => (comm.num "first_node_id").toNat = i).getLast? <;> rfl

/-! ## The inner loop -/

/-- The nodes and the sections have hosts, as the loop requires. -/
structure HostsKnown (node : Nat → Option (NodeType × ConfObject)) (comms : List ConfObject) : Prop where
  nodes : ∀ id t conf, node id = some (t, conf) → (conf.str "hostname").isSome
  firsts : ∀ comm ∈ comms, (comm.str "first_hostname").isSome
  seconds : ∀ comm ∈ comms, (comm.str "second_hostname").isSome

variable {node : Nat → Option (NodeType × ConfObject)} {comms secs : List ConfObject}
  {first second : HostPort} {i j : Nat}

theorem mem_of_sectionBetween {comm : ConfObject} (h : sectionBetween comms i j = some comm) :
    comm ∈ comms := mem_of_find?_eq_some h

theorem carriedFirst_host (h : HostsKnown node comms) (hFirst : first.host.isSome)
    (hSecs : ∀ comm ∈ secs, comm ∈ comms) : (carriedFirst i first secs).host.isSome := by
  unfold carriedFirst
  dsimp only
  cases hLast : (secs.filter fun comm => (comm.num "first_node_id").toNat = i).getLast? with
  | none => exact hFirst
  | some comm =>
    exact h.firsts comm (hSecs comm (mem_of_mem_filter (mem_of_getLast? hLast)))

theorem carriedSecond_host (h : HostsKnown node comms) (hSecond : second.host.isSome) :
    (carriedSecond comms i j second).host.isSome := by
  unfold carriedSecond
  cases hSection : sectionBetween comms i j with
  | none => exact hSecond
  | some comm =>
    dsimp only
    split_ifs
    · exact hSecond
    · exact h.seconds comm (mem_of_sectionBetween hSection)

variable {ids : List Nat} {last : Nat}

theorem sectionsOf_cons_none (h : node j = none) :
    sectionsOf node comms i (j :: ids) = sectionsOf node comms i ids := by
  simp [sectionsOf, h]

theorem sectionsOf_cons_some {conf : NodeType × ConfObject} (h : node j = some conf) :
    sectionsOf node comms i (j :: ids) =
      (sectionBetween comms i j).toList ++ sectionsOf node comms i ids := by
  unfold sectionsOf
  rw [filter_cons_of_pos (by rw [h]; rfl), filterMap_cons]
  cases sectionBetween comms i j <;> rfl

/-- No node of a list is in conflict with the first one, which sections have changed before. -/
def NoneInConflict (node : Nat → Option (NodeType × ConfObject)) (comms : List ConfObject) (i : Nat)
    (first : HostPort) (ids : List Nat) : Prop :=
  ∀ mid j rest t conf, ids = mid ++ j :: rest → node j = some (t, conf) →
    ¬ Conflict (carriedFirst i first (sectionsOf node comms i (mid ++ [j])),
      carriedSecond comms i j (hostPort t conf))

theorem noneInConflict_nil : NoneInConflict node comms i first [] := by
  intro mid j rest t conf h
  exact absurd h (by simp)

/-- A node that does not exist is passed over. -/
theorem noneInConflict_cons_none (h : node j = none) :
    NoneInConflict node comms i first (j :: ids) ↔ NoneInConflict node comms i first ids := by
  constructor
  · intro hNone mid k rest t conf hIds hNode
    have := hNone (j :: mid) k rest t conf (by rw [hIds]; rfl) hNode
    rwa [cons_append, sectionsOf_cons_none h] at this
  · intro hNone mid k rest t conf hIds hNode
    rcases mid with _ | ⟨j', mid⟩
    · cases hIds
      rw [h] at hNode
      cases hNode
    · cases hIds
      rw [cons_append, sectionsOf_cons_none h]
      exact hNone mid k rest t conf rfl hNode

/-- A node that exists changes the first one for the nodes behind it. -/
theorem noneInConflict_cons_some {t : NodeType} {conf : ConfObject} (h : node j = some (t, conf)) :
    NoneInConflict node comms i first (j :: ids) ↔
      ¬ Conflict (carriedFirst i first (sectionBetween comms i j).toList,
        carriedSecond comms i j (hostPort t conf)) ∧
      NoneInConflict node comms i (carriedFirst i first (sectionBetween comms i j).toList) ids := by
  constructor
  · intro hNone
    refine ⟨?_, fun mid k rest t' conf' hIds hNode => ?_⟩
    · have := hNone [] j ids t conf rfl h
      rwa [nil_append, sectionsOf_cons_some h, sectionsOf, filter_nil, filterMap_nil,
        append_nil] at this
    · have := hNone (j :: mid) k rest t' conf' (by rw [hIds]; rfl) hNode
      rwa [cons_append, sectionsOf_cons_some h, ← carriedFirst_append] at this
  · rintro ⟨hHere, hNone⟩ mid k rest t' conf' hIds hNode
    rcases mid with _ | ⟨j', mid⟩
    · cases hIds
      rw [h] at hNode
      cases hNode
      rwa [nil_append, sectionsOf_cons_some h, sectionsOf, filter_nil,
        filterMap_nil, append_nil]
    · cases hIds
      rw [cons_append, sectionsOf_cons_some h, ← carriedFirst_append]
      exact hNone mid k rest t' conf' rfl hNode

/-- The inner loop goes through exactly if no node is in conflict with the first one, as this has been
changed. -/
theorem verifySecond_eq (h : HostsKnown node comms) (ids : List Nat) (hIds : ∀ j ∈ ids, i ≠ j)
    (hFirst : first.host.isSome) :
    (verifySecond node comms i first ids).isSome ∧
      (verifySecond node comms i first ids = some true ↔ NoneInConflict node comms i first ids) := by
  induction ids generalizing first with
  | nil => exact ⟨rfl, fun _ => noneInConflict_nil, fun _ => rfl⟩
  | cons j ids ih =>
    rw [forall_mem_cons] at hIds
    unfold verifySecond
    cases hNode : node j with
    | none =>
      dsimp only
      rw [noneInConflict_cons_none hNode]
      exact ih hIds.2 hFirst
    | some entry =>
      rcases entry with ⟨t, conf⟩
      have hFirst' : (carriedFirst i first (sectionBetween comms i j).toList).host.isSome :=
        carriedFirst_host h hFirst fun comm hComm =>
          mem_of_sectionBetween (mem_toList.mp hComm)
      have hSecond' : (carriedSecond comms i j (hostPort t conf)).host.isSome :=
        carriedSecond_host h (h.nodes j t conf hNode)
      rcases isSome_iff_exists.mp hFirst' with ⟨host, hHost⟩
      rcases isSome_iff_exists.mp hSecond' with ⟨host', hHost'⟩
      dsimp only
      rw [noneInConflict_cons_some hNode, getNodePortNumber_eq hIds.1]
      dsimp only
      rw [hHost, hHost']
      dsimp only
      have hConflict : (host = host' ∧ samePort (carriedFirst i first (sectionBetween comms i j).toList)
          (carriedSecond comms i j (hostPort t conf)) = true) ↔
          Conflict (carriedFirst i first (sectionBetween comms i j).toList,
            carriedSecond comms i j (hostPort t conf)) := by
        unfold Conflict
        rw [samePort_iff]
        dsimp only
        rw [hHost, hHost', Option.some.injEq]
      by_cases hSame : host = host' ∧ samePort (carriedFirst i first
          (sectionBetween comms i j).toList) (carriedSecond comms i j (hostPort t conf)) = true
      · rw [if_pos hSame]
        exact ⟨rfl, nofun, fun hNone => absurd (hConflict.mp hSame) hNone.1⟩
      · rw [if_neg hSame]
        have hRest := ih hIds.2 hFirst'
        exact ⟨hRest.1, fun hTrue => ⟨fun hC => hSame (hConflict.mpr hC), hRest.2.mp hTrue⟩,
          fun hNone => hRest.2.mpr hNone.2⟩

/-! ## Both loops -/

/-- The nodes behind the first one are cut where `j` stands. -/
theorem range_split {mid rest : List Nat} :
    List.range' (i + 1) (last - i) = mid ++ j :: rest ↔ i < j ∧ j ≤ last ∧
      mid = List.range' (i + 1) (j - i - 1) ∧ rest = List.range' (j + 1) (last - j) := by
  rw [range'_eq_append_iff]
  constructor
  · rintro ⟨k, hk, rfl, hRest⟩
    rcases range'_eq_cons_iff.mp hRest.symm with ⟨hPlace, hPos, rfl⟩
    have hCount : k = j - i - 1 := by omega
    have hLen : last - i - k - 1 = last - j := by omega
    rw [hLen, hCount]
    exact ⟨by omega, by omega, rfl, rfl⟩
  · rintro ⟨hLt, hLe, rfl, rfl⟩
    refine ⟨j - i - 1, by omega, rfl, (range'_eq_cons_iff.mpr ⟨by omega, by omega, ?_⟩).symm⟩
    congr 1
    omega

theorem range_concat (h : i < j) :
    List.range' (i + 1) (j - i - 1) ++ [j] = List.range' (i + 1) (j - i) := by
  have hLen : j - i = j - i - 1 + 1 := by omega
  have hPlace : i + 1 + (j - i - 1) = j := by omega
  rw [hLen, range'_1_concat, Nat.add_sub_cancel, hPlace]

/-- For the nodes behind the first one. -/
theorem noneInConflict_range :
    NoneInConflict node comms i first (List.range' (i + 1) (last - i)) ↔
      ∀ j t conf, i < j → j ≤ last → node j = some (t, conf) →
        ¬ Conflict (carriedEnds node comms i j first (hostPort t conf)) := by
  constructor
  · intro hNone j t conf hLt hLe hNode
    have := hNone _ j _ t conf (range_split.mpr ⟨hLt, hLe, rfl, rfl⟩) hNode
    rwa [range_concat hLt] at this
  · intro hNone mid j rest t conf hIds hNode
    rcases range_split.mp hIds with ⟨hLt, hLe, rfl, -⟩
    rw [range_concat hLt]
    exact hNone j t conf hLt hLe hNode

/-- The outer loop. -/
theorem verifyFirst_eq (h : HostsKnown node comms) (ids : List Nat) :
    verifyFirst node comms last ids = some true ↔ ∀ i ∈ ids, ∀ t conf, node i = some (t, conf) →
      NoneInConflict node comms i (hostPort t conf) (List.range' (i + 1) (last - i)) := by
  induction ids with
  | nil => exact ⟨fun _ => nofun, fun _ => rfl⟩
  | cons i ids ih =>
    unfold verifyFirst
    rw [forall_mem_cons]
    cases hNode : node i with
    | none =>
      dsimp only
      rw [ih]
      exact ⟨fun hIds => ⟨nofun, hIds⟩, fun hIds => hIds.2⟩
    | some entry =>
      rcases entry with ⟨t, conf⟩
      have hHost := h.nodes i t conf hNode
      have hInner := @verifySecond_eq _ _ (hostPort t conf) i h
        (List.range' (i + 1) (last - i)) (fun j hj => by
          rw [mem_range'_1] at hj
          omega) hHost
      dsimp only
      rw [if_neg (isSome_iff_ne_none.mp hHost)]
      constructor
      · intro hTrue
        split at hTrue
        · rename_i hSecond
          refine ⟨?_, ih.mp hTrue⟩
          rintro _ _ ⟨⟩
          exact hInner.2.mp hSecond
        · rename_i hSecond
          exact absurd hTrue hSecond
      · rintro ⟨hHere, hRest⟩
        rw [hInner.2.mpr (hHere t conf rfl)]
        exact ih.mpr hRest

/-! ## The check -/

/-- A configuration as the check needs it: its places are there, and its nodes and sections have
hosts. -/
structure PortsKnown (s : Load) (comms : List ConfObject) : Prop where
  slots : s.maxNodeId.toNat < s.nodeSlots
  sections : s.comms = some comms
  hosts : HostsKnown s.typedNode comms

/-- The ports and hosts that two nodes have with each other. -/
def NodePair.own {s : Load} (pair : NodePair s) (comms : List ConfObject) : HostPort × HostPort :=
  ownEnds comms pair.i pair.j pair.first pair.second

/-- The ports and hosts that the loop compares. -/
def NodePair.carried {s : Load} (pair : NodePair s) (comms : List ConfObject) :
    HostPort × HostPort :=
  carriedEnds s.typedNode comms pair.i pair.j pair.first pair.second

/-- What the check returns. -/
theorem verifyHostnamePort_eq {s : Load} (h : PortsKnown s comms) : verifyHostnamePort s = some true ↔
    ∀ pair : NodePair s, ¬ Conflict (pair.carried comms) := by
  unfold verifyHostnamePort
  rw [if_pos h.slots, h.sections]
  dsimp only
  rw [verifyFirst_eq h.hosts]
  constructor
  · rintro hAll ⟨i, j, first, second, hLt, hLe, hi, hj⟩
    rcases map_eq_some_iff.mp hi with ⟨⟨t, conf⟩, hNode, rfl⟩
    rcases map_eq_some_iff.mp hj with ⟨⟨t', conf'⟩, hNode', rfl⟩
    have hMem : i ∈ List.range (s.maxNodeId.toNat + 1) := mem_range.mpr (by omega)
    exact noneInConflict_range.mp (hAll i hMem t conf hNode) j t' conf' hLt hLe hNode'
  · intro hAll i hMem t conf hNode
    refine noneInConflict_range.mpr fun j t' conf' hLt hLe hNode' => ?_
    exact hAll ⟨i, j, _, _, hLt, hLe, by rw [hNode]; rfl, by rw [hNode']; rfl⟩

/-- `verify_hostname_port` returns 0 for the configurations without two nodes in conflict exactly if
the carried ports and hosts have the verdict of the own ones for each pair of nodes, or there is a
conflict by both of them. -/
theorem host_ports_iff (s : Load) (comms : List ConfObject) (h : PortsKnown s comms) :
    (verifyHostnamePort s = some true ↔ ∀ pair : NodePair s, ¬ Conflict (pair.own comms)) ↔
      (∀ pair : NodePair s, Conflict (pair.carried comms) ↔ Conflict (pair.own comms)) ∨
        (∃ pair : NodePair s, Conflict (pair.own comms)) ∧
          ∃ pair : NodePair s, Conflict (pair.carried comms) := by
  rw [verifyHostnamePort_eq h, ← not_exists, ← not_exists, not_iff_not]
  constructor
  · intro hSame
    by_cases hCarried : ∃ pair : NodePair s, Conflict (pair.carried comms)
    · exact .inr ⟨hSame.mp hCarried, hCarried⟩
    · refine .inl fun pair => ?_
      exact ⟨fun h => absurd ⟨pair, h⟩ hCarried, fun h => absurd (hSame.mpr ⟨pair, h⟩) hCarried⟩
  · rintro (hSame | ⟨hOwn, hCarried⟩)
    · exact exists_congr hSame
    · exact ⟨fun _ => hOwn, fun _ => hCarried⟩

/-! ## Three nodes -/

/-- A data server. -/
def portNode (id port : UInt64) (host : String) : ConfObject :=
  ((ConfObject.zero.setNum "node_id" id).setNum "port_number" port).setStr "hostname"
    (some (CString.read (ascii host)))

/-- The socket section of the nodes 1 and 2, in which node 1 is the server. -/
def portSection : ConfObject :=
  (((((ConfObject.zero.setNum "first_node_id" 1).setNum "second_node_id" 2).setNum "server_node_id"
    1).setNum "server_port_number" 5000).setStr "first_hostname"
      (some (CString.read (ascii "a")))).setStr "second_hostname" (some (CString.read (ascii "b")))

/-- Node 1 and node 3 have one host and one port; `numComms` is the number of socket sections. -/
def threeNodes (numComms : UInt32) : Load where
  maxNodeId := 3
  nodeSlots := 4
  numStructs := 4
  numSections t := if t = .comm then numComms else 0
  structs
    | 0 => portSection
    | 1 => portNode 1 1000 "a"
    | 2 => portNode 2 2000 "b"
    | _ => portNode 3 1000 "a"
  nodeTypes id := if 1 ≤ id ∧ id ≤ 3 then .dataServer else .notExist
  nodeConfig id := if 1 ≤ id ∧ id ≤ 3 then some (.own (.struct id)) else none
  commConfig _ := some (.struct 0)

theorem hostsKnown_three {numComms : UInt32} (h : ∀ comm ∈ comms, comm = portSection) :
    HostsKnown (threeNodes numComms).typedNode comms where
  nodes
    | 0, _, _, hNode => nomatch hNode
    | 1, _, _, hNode => by cases hNode; rfl
    | 2, _, _, hNode => by cases hNode; rfl
    | 3, _, _, hNode => by cases hNode; rfl
    | id + 4, _, _, hNode => by
      have hNone : (threeNodes numComms).nodeTypes (id + 4) = .notExist := by simp [threeNodes]
      unfold Load.typedNode at hNode
      rw [if_pos hNone] at hNode
      cases hNode
  firsts comm hComm := by rw [h comm hComm]; rfl
  seconds comm hComm := by rw [h comm hComm]; rfl

theorem portsKnown_three : PortsKnown (threeNodes 1) [portSection] :=
  ⟨by decide, rfl, hostsKnown_three fun _ => List.mem_singleton.mp⟩

/-- The nodes 1 and 2 have a section, node 3 has none. -/
theorem three_nodes_checked : PortsKnown (threeNodes 1) [portSection] ∧
    ((verifyHostnamePort (threeNodes 1) = some true ↔
        ∀ pair : NodePair (threeNodes 1), ¬ Conflict (pair.own [portSection])) ↔
      (∀ pair : NodePair (threeNodes 1),
          Conflict (pair.carried [portSection]) ↔ Conflict (pair.own [portSection])) ∨
        (∃ pair : NodePair (threeNodes 1), Conflict (pair.own [portSection])) ∧
          ∃ pair : NodePair (threeNodes 1), Conflict (pair.carried [portSection])) :=
  ⟨portsKnown_three, host_ports_iff (threeNodes 1) [portSection] portsKnown_three⟩

/-- With the section of the nodes 1 and 2, node 3 is compared with the port of that section. -/
theorem carried_port_accepted : PortsKnown (threeNodes 1) [portSection] ∧
    ¬ (verifyHostnamePort (threeNodes 1) = some true ↔
      ∀ pair : NodePair (threeNodes 1), ¬ Conflict (pair.own [portSection])) := by
  refine ⟨portsKnown_three, fun hIff => ?_⟩
  have hAccepted : verifyHostnamePort (threeNodes 1) = some true := by decide +kernel
  let pair : NodePair (threeNodes 1) :=
    { i := 1, j := 3, first := hostPort .dataServer (portNode 1 1000 "a"),
      second := hostPort .dataServer (portNode 3 1000 "a"), lt := by decide, le := by decide,
      node_i := rfl, node_j := rfl }
  have hNoSection : sectionBetween [portSection] 1 3 = none := by decide +kernel
  refine hIff.mp hAccepted pair ?_
  show Conflict (ownEnds [portSection] 1 3 pair.first pair.second)
  unfold ownEnds
  rw [hNoSection]
  exact ⟨rfl, 1000, by decide, .inl rfl, .inl rfl⟩

end IClaustron.Config.ClusterReader
