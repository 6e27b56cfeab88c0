import IClaustron.Lib.Firsts
import IClaustron.Protocol.Messages

/-!
# Bootstrap.CopyConfigIni — config.ini for every process controller

Model of copy_config_ini in bootstrap/ic_bootstrap.c. The common nodes of the grid come
first, under the cluster id -1, and the nodes of the clusters after them. A node is passed
over if a node before it has the same process controller.

* `distributes_iff` — the distribution is right exactly if `ret_code` has the value 0 by chance in
  every such cluster that is come to.
* `same_host_stops` — a grid with one data server on the host of its cluster server.

Scope limits: node_config has no node 0, since the node ids that are accepted start at 1.
-/

namespace IClaustron.Bootstrap.CopyConfigIni

open Lib Protocol List

/-! ## Model -/

/-- The process controller of a node, `pcntrl_hostname` and `pcntrl_port`. -/
structure NodeConfig where
  pcntrlHostname : Bytes
  pcntrlPort : UInt32
  deriving DecidableEq

/-- IC_CLUSTER_CONFIG. -/
structure ClusterConfig where
  maxNodeId : Nat
  nodeConfig : Nat → Option NodeConfig
  noNodeZero : nodeConfig 0 = none

/-- The scan of `check_for_same_pcntrl_hostname` over the nodes up to `maxNodeId`. -/
def ClusterConfig.hasPcntrl (cluConf : ClusterConfig) (maxNodeId : Nat) (dsConf : NodeConfig) :
    Bool :=
  (List.range' 1 maxNodeId).any fun j =>
    match cluConf.nodeConfig j with
    | none => false
    | some checkDsConf =>
      checkDsConf.pcntrlHostname == dsConf.pcntrlHostname &&
        checkDsConf.pcntrlPort == dsConf.pcntrlPort

/-- `glob_grid_cluster`, `glob_clusters` and `glob_num_clusters`. -/
structure Grid where
  gridCluster : Option ClusterConfig
  clusters : Nat → Option ClusterConfig
  numClusters : Nat

namespace Grid

variable (g : Grid)

/-- The configuration with this cluster id, -1 for the common nodes. -/
def cluConf (clusterId : Int) : Option ClusterConfig :=
  if clusterId < 0 then g.gridCluster else g.clusters clusterId.toNat

/-- `check_for_same_pcntrl_hostname`. -/
def checkForSamePcntrlHostname (clusterId : Int) (nodeId : Nat) (dsConf : NodeConfig) : Bool :=
  (List.range (clusterId + 2).toNat).any fun k : Nat =>
    let i : Int := k - 1
    match g.cluConf i with
    | none => false
    | some cluConf =>
      let maxNodeId := if i ≠ clusterId then cluConf.maxNodeId else nodeId - 1
      cluConf.hasPcntrl maxNodeId dsConf

/-- `node_copy_config_ini` on each node: its return code. -/
abbrev Transfer := NodeConfig → Int

/-- The loop of `cluster_copy_config_ini` on the node ids that are left, with `ret_code` and the
process controllers that it has turned to. -/
def copyLoop (transfer : Transfer) (clusterId : Int) (cluConf : ClusterConfig) :
    List Nat → Int × List NodeConfig → Int × List NodeConfig
  | [], s => s
  | i :: ids, (retCode, contacts) =>
    match cluConf.nodeConfig i with
    | none => copyLoop transfer clusterId cluConf ids (retCode, contacts)
    | some dsConf =>
      if g.checkForSamePcntrlHostname clusterId i dsConf then
        copyLoop transfer clusterId cluConf ids (retCode, contacts)
      else
        let retCode := transfer dsConf
        let contacts := contacts ++ [dsConf]
        if retCode ≠ 0 then (retCode, contacts)
        else copyLoop transfer clusterId cluConf ids (retCode, contacts)

/-- `cluster_copy_config_ini`. `stale` is what its variable `ret_code` has at the start. -/
def clusterCopyConfigIni (transfer : Transfer) (stale : Int → Int) (clusterId : Int)
    (contacts : List NodeConfig) : Int × List NodeConfig :=
  match g.cluConf clusterId with
  | none => (0, contacts)
  | some cluConf =>
    g.copyLoop transfer clusterId cluConf (List.range (cluConf.maxNodeId + 1))
      (stale clusterId, contacts)

/-- The calls of `cluster_copy_config_ini` for `left` cluster ids from `clusterId` on. -/
def clustersLoop (transfer : Transfer) (stale : Int → Int) :
    Nat → Int → Int × List NodeConfig → Int × List NodeConfig
  | 0, _, s => s
  | left + 1, clusterId, (_, contacts) =>
    let (retCode, contacts) := g.clusterCopyConfigIni transfer stale clusterId contacts
    if retCode ≠ 0 then (retCode, contacts)
    else clustersLoop transfer stale left (clusterId + 1) (retCode, contacts)

/-- `copy_config_ini`, with the process controllers that it has turned to. -/
def copyConfigIni (transfer : Transfer) (stale : Int → Int) : Int × List NodeConfig :=
  let (retCode, contacts) := g.clusterCopyConfigIni transfer stale (-1) []
  if retCode ≠ 0 then (retCode, contacts)
  else g.clustersLoop transfer stale g.numClusters 0 (retCode, contacts)

end Grid

/-! ## Process controllers -/

namespace ClusterConfig

/-- The process controllers of the nodes, in the order of the node ids. -/
def pcntrls (c : ClusterConfig) : List NodeConfig :=
  (List.range (c.maxNodeId + 1)).filterMap c.nodeConfig

end ClusterConfig

namespace Grid

variable (g : Grid)

/-- The process controllers under a cluster id. -/
def pcntrls (clusterId : Int) : List NodeConfig :=
  match g.cluConf clusterId with
  | none => []
  | some c => c.pcntrls

/-- The process controllers under the cluster ids before `clusterId`. -/
def pcntrlsBefore (clusterId : Int) : List NodeConfig :=
  (List.range (clusterId + 1).toNat).flatMap fun k : Nat => g.pcntrls ((k : Int) - 1)

/-- A process controller of one of the nodes. -/
def Occurs (p : NodeConfig) : Prop :=
  ∃ clusterId : Int, -1 ≤ clusterId ∧ clusterId < g.numClusters ∧ p ∈ g.pcntrls clusterId

/-- What the return code and the process controllers it has turned to have to be. -/
structure Distributes (transfer : Transfer) (r : Int × List NodeConfig) : Prop where
  succeeds : (∀ p ∈ r.2, transfer p = 0) →
    r.1 = 0 ∧ r.2.Nodup ∧ ∀ p, p ∈ r.2 ↔ g.Occurs p
  fails : ∀ p ∈ r.2, transfer p ≠ 0 →
    r.1 = transfer p ∧ ∃ before, r.2 = before ++ [p] ∧ ∀ q ∈ before, transfer q = 0

/-- In a cluster in which every node is passed over, `ret_code` is 0 by chance; or a transfer
before it fails. -/
def CodeSet (transfer : Transfer) (stale : Int → Int) (clusterId : Int) : Prop :=
  (g.cluConf clusterId).isSome → (∀ p ∈ g.pcntrls clusterId, p ∈ g.pcntrlsBefore clusterId) →
    stale clusterId = 0 ∨ ∃ p ∈ g.pcntrlsBefore clusterId, transfer p ≠ 0

end Grid

/-! ## Scan -/

theorem ClusterConfig.hasPcntrl_iff (c : ClusterConfig) (maxNodeId : Nat) (p : NodeConfig) :
    c.hasPcntrl maxNodeId p = true ↔ p ∈ (List.range (maxNodeId + 1)).filterMap c.nodeConfig := by
  have hIds : List.range (maxNodeId + 1) = 0 :: List.range' 1 maxNodeId := by
    rw [range_eq_range', range'_succ]
  rw [hIds, filterMap_cons, c.noNodeZero, hasPcntrl, any_eq_true, mem_filterMap]
  constructor
  · rintro ⟨j, hj, hSame⟩
    refine ⟨j, hj, ?_⟩
    cases hNode : c.nodeConfig j with
    | none => simp [hNode] at hSame
    | some q =>
      rcases q with ⟨hostname, port⟩
      rcases p with ⟨hostname', port'⟩
      simpa [hNode] using hSame
  · rintro ⟨j, hj, hNode⟩
    exact ⟨j, hj, by simp [hNode]⟩

namespace Grid

variable {g : Grid} {clusterId : Int}

theorem pcntrlsBefore_succ (h : -1 ≤ clusterId) :
    g.pcntrlsBefore (clusterId + 1) = g.pcntrlsBefore clusterId ++ g.pcntrls clusterId := by
  have hCount : (clusterId + 1 + 1).toNat = (clusterId + 1).toNat + 1 := by omega
  have hLast : (((clusterId + 1).toNat : Int) - 1) = clusterId := by omega
  rw [pcntrlsBefore, hCount, range_succ, flatMap_append, flatMap_singleton, hLast]
  rfl

theorem mem_pcntrlsBefore {p : NodeConfig} :
    p ∈ g.pcntrlsBefore clusterId ↔ ∃ i : Int, -1 ≤ i ∧ i < clusterId ∧ p ∈ g.pcntrls i := by
  rw [pcntrlsBefore, mem_flatMap]
  constructor
  · rintro ⟨k, hk, hp⟩
    have hk := mem_range.mp hk
    exact ⟨k - 1, by omega, by omega, hp⟩
  · rintro ⟨i, hLow, hHigh, hp⟩
    have hIndex : (((i + 1).toNat : Int) - 1) = i := by omega
    refine ⟨(i + 1).toNat, mem_range.mpr (by omega), ?_⟩
    rwa [hIndex]

/-- The scan looks at the nodes that come before. -/
theorem checkForSame_iff (h : -1 ≤ clusterId) {c : ClusterConfig}
    (hConf : g.cluConf clusterId = some c) (nodeId : Nat) (p : NodeConfig) :
    g.checkForSamePcntrlHostname clusterId nodeId p = true ↔
      p ∈ g.pcntrlsBefore clusterId ++ (List.range nodeId).filterMap c.nodeConfig := by
  have hCount : (clusterId + 2).toNat = (clusterId + 1).toNat + 1 := by omega
  have hLast : (((clusterId + 1).toNat : Int) - 1) = clusterId := by omega
  rw [checkForSamePcntrlHostname, hCount, range_succ, any_append, Bool.or_eq_true,
    mem_append]
  apply or_congr
  · rw [any_eq_true, pcntrlsBefore, mem_flatMap]
    refine exists_congr fun k => and_congr_right fun hk => ?_
    have hk := mem_range.mp hk
    have hne : ((k : Int) - 1) ≠ clusterId := by omega
    dsimp only
    rw [pcntrls]
    cases g.cluConf ((k : Int) - 1) with
    | none => simp
    | some c' =>
      dsimp only
      rw [if_pos hne]
      exact c'.hasPcntrl_iff c'.maxNodeId p
  · rw [any_cons, any_nil, Bool.or_false, hLast]
    dsimp only
    rw [hConf]
    dsimp only
    rw [if_neg (not_not.mpr rfl), c.hasPcntrl_iff]
    -- the bound wraps around only for the node id 0, which is not taken
    cases nodeId with
    | zero => simp [c.noNodeZero]
    | succ nodeId => simp

variable (transfer : Transfer)

/-- The loop sends to the process controllers that did not occur before. -/
theorem copyLoop_eq (h : -1 ≤ clusterId) {c : ClusterConfig}
    (hConf : g.cluConf clusterId = some c) (n i : Nat) (retCode : Int)
    (contacts : List NodeConfig) :
    g.copyLoop transfer clusterId c (List.range' i n) (retCode, contacts) =
      let r := sendEach transfer retCode
        (firsts (g.pcntrlsBefore clusterId ++ (List.range i).filterMap c.nodeConfig)
          ((List.range' i n).filterMap c.nodeConfig))
      (r.1, contacts ++ r.2) := by
  induction n generalizing i retCode contacts with
  | zero => simp [copyLoop, firsts, sendEach]
  | succ n ih =>
    have hSeen : (List.range (i + 1)).filterMap c.nodeConfig =
        (List.range i).filterMap c.nodeConfig ++ (c.nodeConfig i).toList := by
      rw [range_succ, filterMap_append]
      cases hNode : c.nodeConfig i with
      | none => simp [hNode]
      | some p => simp [hNode]
    rw [range'_succ, copyLoop, filterMap_cons]
    cases hNode : c.nodeConfig i with
    | none =>
      rw [hNode, Option.toList_none, append_nil] at hSeen
      have hRest := ih (i + 1) retCode contacts
      rw [hSeen] at hRest
      exact hRest
    | some p =>
      rw [hNode, Option.toList_some] at hSeen
      have hCheck := checkForSame_iff h hConf i p
      dsimp only
      rw [firsts]
      by_cases hOld : p ∈ g.pcntrlsBefore clusterId ++ (List.range i).filterMap c.nodeConfig
      · have hRest := ih (i + 1) retCode contacts
        rw [hSeen, ← append_assoc] at hRest
        rw [if_pos (hCheck.mpr hOld), if_pos hOld]
        exact hRest
      · rw [if_neg fun hFound => hOld (hCheck.mp hFound), if_neg hOld, sendEach]
        by_cases hFail : transfer p = 0
        · have hRest := ih (i + 1) (transfer p) (contacts ++ [p])
          rw [hSeen, ← append_assoc] at hRest
          rw [if_neg (not_not.mpr hFail), if_neg (not_not.mpr hFail), hRest, hFail]
          simp
        · rw [if_pos hFail, if_pos hFail]

/-- The value of `ret_code` when the loop starts; 0 is returned when there is no cluster. -/
def startCode (g : Grid) (stale : Int → Int) (clusterId : Int) : Int :=
  if (g.cluConf clusterId).isSome then stale clusterId else 0

theorem clusterCopyConfigIni_eq (stale : Int → Int) (h : -1 ≤ clusterId)
    (contacts : List NodeConfig) :
    g.clusterCopyConfigIni transfer stale clusterId contacts =
      let r := sendEach transfer (g.startCode stale clusterId)
        (firsts (g.pcntrlsBefore clusterId) (g.pcntrls clusterId))
      (r.1, contacts ++ r.2) := by
  rw [clusterCopyConfigIni, startCode, pcntrls]
  cases hConf : g.cluConf clusterId with
  | none => simp [firsts, sendEach]
  | some c =>
    have hLoop := copyLoop_eq transfer h hConf (c.maxNodeId + 1) 0 (stale clusterId) contacts
    simpa [ClusterConfig.pcntrls, range_eq_range'] using hLoop

/-! ## Result code -/

variable {transfer} {stale : Int → Int}

theorem copyConfigIni_eq :
    g.copyConfigIni transfer stale = g.clustersLoop transfer stale (g.numClusters + 1) (-1) (0, []) :=
  rfl

theorem occurs_iff {p : NodeConfig} : g.Occurs p ↔ p ∈ g.pcntrlsBefore g.numClusters :=
  mem_pcntrlsBefore.symm

/-- The result when the calls have come to `clusterId` and all transfers have succeeded. -/
theorem distributes_end (hOk : ∀ p ∈ g.pcntrlsBefore g.numClusters, transfer p = 0) :
    g.Distributes transfer (0, firsts [] (g.pcntrlsBefore g.numClusters)) where
  succeeds _ := by
    refine ⟨rfl, nodup_firsts _ _, fun p => ?_⟩
    rw [occurs_iff, mem_firsts]
    simp
  fails p hp hFail := absurd (hOk p (mem_firsts.mp hp).1) hFail

/-- The result when a transfer has failed. -/
theorem distributes_failed {before : List NodeConfig} {p : NodeConfig}
    (hOk : ∀ q ∈ before, transfer q = 0) (hFail : transfer p ≠ 0) :
    g.Distributes transfer (transfer p, before ++ [p]) where
  succeeds h := absurd (h p (mem_append_right _ (mem_singleton_self p))) hFail
  fails q hq hFail' := by
    rcases mem_append.mp hq with hq | hq
    · exact absurd (hOk q hq) hFail'
    · rw [mem_singleton.mp hq]
      exact ⟨rfl, before, rfl, hOk⟩

/-- The calls from `clusterId` on. -/
theorem clustersLoop_iff (left : Nat) (clusterId : Int) (h : -1 ≤ clusterId)
    (hEnd : clusterId + left = g.numClusters)
    (hOk : ∀ p ∈ g.pcntrlsBefore clusterId, transfer p = 0) :
    g.Distributes transfer
        (g.clustersLoop transfer stale left clusterId (0, firsts [] (g.pcntrlsBefore clusterId))) ↔
      ∀ i, clusterId ≤ i → i < g.numClusters → g.CodeSet transfer stale i := by
  induction left generalizing clusterId with
  | zero =>
    have hEq : clusterId = g.numClusters := by omega
    subst hEq
    rw [clustersLoop]
    exact ⟨fun _ i hLow hHigh => absurd hHigh (by omega), fun _ => distributes_end hOk⟩
  | succ left ih =>
    have hContacts : firsts [] (g.pcntrlsBefore (clusterId + 1)) =
        firsts [] (g.pcntrlsBefore clusterId) ++
          firsts (g.pcntrlsBefore clusterId) (g.pcntrls clusterId) := by
      rw [pcntrlsBefore_succ h, firsts_append, nil_append]
    rw [clustersLoop, clusterCopyConfigIni_eq transfer stale h]
    dsimp only
    by_cases hFails : ∃ p ∈ firsts (g.pcntrlsBefore clusterId) (g.pcntrls clusterId), transfer p ≠ 0
    · -- a transfer of this cluster fails, and the clusters behind it are not come to
      rcases sendEach_failed hFails (g.startCode stale clusterId) with
        ⟨sent, p, hSend, hFail, hp, hSent, -⟩
      rw [hSend]
      dsimp only
      rw [if_pos hFail, ← append_assoc]
      constructor
      · intro _ i hLow _ _ hOld
        rcases Int.lt_or_eq_of_le hLow with hLater | rfl
        · refine .inr ⟨p, ?_, hFail⟩
          exact mem_pcntrlsBefore.mpr ⟨clusterId, h, hLater, (mem_firsts.mp hp).1⟩
        · exact absurd (hOld p (mem_firsts.mp hp).1) (mem_firsts.mp hp).2
      · intro _
        refine distributes_failed (fun q hq => ?_) hFail
        rcases mem_append.mp hq with hq | hq
        · exact hOk q (mem_firsts.mp hq).1
        · exact hSent q hq
    · have hFails : ∀ p ∈ firsts (g.pcntrlsBefore clusterId) (g.pcntrls clusterId),
          transfer p = 0 := fun p hp => not_not.mp fun hne => hFails ⟨p, hp, hne⟩
      rw [sendEach_ok hFails]
      dsimp only
      have hOk' : ∀ p ∈ g.pcntrlsBefore (clusterId + 1), transfer p = 0 := by
        intro p hp
        by_cases hOld : p ∈ g.pcntrlsBefore clusterId
        · exact hOk p hOld
        · rw [pcntrlsBefore_succ h] at hp
          exact hFails p (mem_firsts.mpr ⟨(mem_append.mp hp).resolve_left hOld, hOld⟩)
      have hSet : g.CodeSet transfer stale clusterId ↔
          (if firsts (g.pcntrlsBefore clusterId) (g.pcntrls clusterId) = [] then
            g.startCode stale clusterId else 0) = 0 := by
        rw [CodeSet, ← firsts_eq_nil, startCode]
        have hNone : ¬ ∃ p ∈ g.pcntrlsBefore clusterId, transfer p ≠ 0 :=
          fun ⟨p, hp, hne⟩ => hne (hOk p hp)
        by_cases hSome : (g.cluConf clusterId).isSome
        · simp [hSome, hNone]
        · simp [hSome]
      by_cases hCode : (if firsts (g.pcntrlsBefore clusterId) (g.pcntrls clusterId) = [] then
          g.startCode stale clusterId else 0) = 0
      · rw [if_neg (not_not.mpr hCode), hCode, ← hContacts, ih (clusterId + 1) (by omega) (by omega)
          hOk']
        constructor
        · intro hRest i hLow hHigh
          rcases Int.lt_or_eq_of_le hLow with hLater | rfl
          · exact hRest i hLater hHigh
          · exact hSet.mpr hCode
        · intro hAll i hLow hHigh
          exact hAll i (by omega) hHigh
      · -- the code is the one that the variable happened to have
        rw [if_pos hCode, ← hContacts]
        constructor
        · intro hDist
          have hAll : ∀ p ∈ firsts [] (g.pcntrlsBefore (clusterId + 1)), transfer p = 0 :=
            fun p hp => hOk' p (mem_firsts.mp hp).1
          exact absurd (hDist.succeeds hAll).1 hCode
        · intro hAll
          exact absurd (hSet.mp (hAll clusterId (Int.le_refl _) (by omega))) hCode

/-- The distribution is right exactly if no `ret_code` that is not set ends it. -/
theorem distributes_iff (g : Grid) (transfer : Transfer) (stale : Int → Int) :
    g.Distributes transfer (g.copyConfigIni transfer stale) ↔
      ∀ clusterId : Int, -1 ≤ clusterId → clusterId < g.numClusters →
        g.CodeSet transfer stale clusterId := by
  have hNone : g.pcntrlsBefore (-1) = [] := rfl
  have hLoop := @clustersLoop_iff g transfer stale (g.numClusters + 1) (-1) (Int.le_refl _)
    (by omega) (by rw [hNone]; simp)
  rw [hNone] at hLoop
  rw [copyConfigIni_eq]
  exact hLoop

/-! ## A cluster on one host -/

/-- A cluster server, and a data server with the same process controller. -/
def sameHost : Grid where
  gridCluster := some {
    maxNodeId := 1
    nodeConfig := fun i => if i = 1 then some ⟨ascii "localhost", 10004⟩ else none
    noNodeZero := rfl }
  clusters := fun i =>
    if i = 0 then some {
      maxNodeId := 2
      nodeConfig := fun i =>
        if i = 1 ∨ i = 2 then some ⟨ascii "localhost", 10004⟩ else none
      noNodeZero := rfl }
    else none
  numClusters := 1

/-- All transfers succeed, and what the variable had is returned. -/
theorem same_host_stops :
    ¬ sameHost.Distributes (fun _ => 0) (sameHost.copyConfigIni (fun _ => 0) fun _ => 1) := by
  intro h
  have hCode : (sameHost.copyConfigIni (fun _ => 0) fun _ => 1).1 = 1 := by decide
  have hZero := (h.succeeds fun _ _ => rfl).1
  rw [hCode] at hZero
  cases hZero

end Grid

end IClaustron.Bootstrap.CopyConfigIni
