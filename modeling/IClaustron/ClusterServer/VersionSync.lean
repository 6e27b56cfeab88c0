import IClaustron.ClusterServer.StartThreads
import IClaustron.Lib.Run

/-!
# ClusterServer.VersionSync — the configuration is brought up to date

check_if_cs_started_thread_func alone, with every file operation and the fetch
succeeding: then it is a program without choices, and where it ends depends on the
versions and states of the servers only.

* `committedVersion` — the version that all servers have to come to;
* `Synchronised` — the function ends as its caller expects;
* `version_sync_iff` — when it does. When all servers agree after the repair (or
  before it) the thread waits for its own mutex, a server that is behind gives up
  just because its fetch succeeds, a server that is neither busy nor prepared keeps
  its state, and one that goes back to version 0 writes it as version 1.
-/

namespace IClaustron.ClusterServer.Start

open Lib List

/-! ## The run -/

/-- The outcome of a call that succeeds. -/
def succeed : Pc → Act
  | .checkCreated => .startup true
  | .rollBack _ | .commit => .writeVersion 0
  | .reread => .reread 0 false true
  | .fetch _ => .fetch true 0
  | .writeConfig _ _ => .writeConfig 0
  | _ => .go

/-- The thread and the state it works on; `jumps` counts the jumps to `beginning`. -/
structure Check where
  rc : RcState
  pc : Pc
  jumps : Nat
deriving DecidableEq

def isJump : Pc → Pc → Bool
  | .reread, .beginning | .commit, .beginning => true
  | _, _ => false

/-- One step, if there is one. -/
def advance (c : Check) : Check :=
  match checkStep c.rc c.pc (succeed c.pc) with
  | some out => ⟨out.rc, out.pc, c.jumps + if isJump c.pc out.pc then 1 else 0⟩
  | none => c

/-- The thread as `check_if_cs_started` starts it. -/
def startCheck (s : RcState) : Check :=
  ⟨{ s with csStarted := false, checkIfCsStartedRetCode := none }, .checkCreated, 0⟩

/-! ## What the caller expects -/

/-- The largest version of these servers. -/
def maxVersion (l : List InfoCs) : Nat := l.foldl (fun v info => max v info.configVersionNumber) 0

def busyServers (s : RcState) : List InfoCs := s.csServers.filter (·.state = configStateBusy)

/-- The largest version of a server that is busy, or the largest version minus one if
none is. -/
def committedVersion (s : RcState) : Nat :=
  if busyServers s = [] then maxVersion s.csServers - 1 else maxVersion (busyServers s)

/-- The thread has ended, and this server is at `version` and busy. -/
structure EndsAt (version : Nat) (c : Check) : Prop where
  ended : c.pc = .checkStopped
  jumps : c.jumps ≤ 1
  retCode : c.rc.checkIfCsStartedRetCode = some 0
  started : c.rc.csStarted = true
  my_version : c.rc.my.configVersionNumber = version
  my_state : c.rc.my.state = configStateBusy

def Synchronised (s : RcState) : Prop :=
  ∃ n, EndsAt (committedVersion s) (advance^[n] (startCheck s))

/-- The condition on the versions and states. -/
structure NeedsNoFetch (s : RcState) : Prop where
  /-- not all servers agree -/
  differ : outOfSynch s = true
  not_behind : committedVersion s ≤ s.my.configVersionNumber
  busy_or_prepared : s.my.configVersionNumber = committedVersion s →
    s.my.state = configStateBusy ∨ s.my.state = configStatePrepareUpdate
  /-- nor will they when this server is up to date -/
  differ_after : ∃ info ∈ s.others,
    ¬ (info.configVersionNumber = committedVersion s ∧ info.state = configStateBusy)
  /-- version 0 counts as committed only before anybody has got beyond version 1, and this server
  stays at it only when it is there already -/
  not_initial : committedVersion s = 0 → s.my.configVersionNumber = 0 ∧
    (∀ info ∈ s.csServers, info.configVersionNumber ≤ 1) ∧
      ∃ info ∈ s.others, 0 < info.configVersionNumber

/-! ## The largest versions -/

theorem foldl_max_le_iff (l : List InfoCs) (v n : Nat) :
    l.foldl (fun v info => max v info.configVersionNumber) v ≤ n ↔
      v ≤ n ∧ ∀ info ∈ l, info.configVersionNumber ≤ n := by
  induction l generalizing v with
  | nil => simp
  | cons info l ih =>
    rw [foldl_cons, ih, Nat.max_le, forall_mem_cons, and_assoc]

variable {l : List InfoCs} {c q : Check}

theorem maxVersion_le_iff {n : Nat} :
    maxVersion l ≤ n ↔ ∀ info ∈ l, info.configVersionNumber ≤ n := by
  unfold maxVersion
  rw [foldl_max_le_iff]
  exact and_iff_right (Nat.zero_le n)

theorem le_maxVersion {info : InfoCs} (h : info ∈ l) :
    info.configVersionNumber ≤ maxVersion l := maxVersion_le_iff.mp (Nat.le_refl _) info h

/-- The loop of `find_max_committed_version`. -/
theorem foldl_busy_eq (l : List InfoCs) (v : Nat) :
    l.foldl (fun v info => if info.state = configStateBusy ∧ v < info.configVersionNumber then
        info.configVersionNumber else v) v =
      (l.filter (·.state = configStateBusy)).foldl
        (fun v info => max v info.configVersionNumber) v := by
  induction l generalizing v with
  | nil => rfl
  | cons info l ih =>
    rw [foldl_cons, ih, filter_cons]
    by_cases hbusy : info.state = configStateBusy
    · rw [if_pos (decide_eq_true hbusy), foldl_cons]
      congr 1
      split_ifs with hlt
      · exact (Nat.max_eq_right (Nat.le_of_lt hlt.2)).symm
      · exact (Nat.max_eq_left (Nat.le_of_not_lt fun hlt' => hlt ⟨hbusy, hlt'⟩)).symm
    · rw [if_neg (fun hno => hbusy hno.1), if_neg (fun hno => hbusy (of_decide_eq_true hno))]

theorem findMaxVersion_eq (s : RcState) :
    findMaxVersion s = if 0 < maxVersion s.csServers then some (maxVersion s.csServers) else none :=
  rfl

theorem findMaxCommittedVersion_eq (s : RcState) :
    findMaxCommittedVersion s =
      if maxVersion (busyServers s) = 0 then (findMaxVersion s).map (· - 1)
      else some (maxVersion (busyServers s)) := by
  unfold findMaxCommittedVersion maxVersion busyServers
  rw [foldl_busy_eq]

theorem maxVersion_cons (info : InfoCs) (l : List InfoCs) :
    maxVersion (info :: l) = max info.configVersionNumber (maxVersion l) := by
  apply Nat.le_antisymm
  · rw [maxVersion_le_iff, forall_mem_cons]
    refine ⟨Nat.le_max_left _ _, fun info' hmem => ?_⟩
    exact Nat.le_trans (le_maxVersion hmem) (Nat.le_max_right _ _)
  · rw [Nat.max_le, maxVersion_le_iff]
    refine ⟨le_maxVersion mem_cons_self, fun info' hmem => ?_⟩
    exact le_maxVersion (mem_cons_of_mem _ hmem)

theorem maxVersion_busy_le (s : RcState) : maxVersion (busyServers s) ≤ maxVersion s.csServers :=
  maxVersion_le_iff.mpr fun _ hmem => le_maxVersion (mem_filter.mp hmem).1

/-- `find_max_committed_version` finds the committed version, unless there is no
version at all, or version 0 is committed and there are versions beyond 1. -/
theorem findMaxCommittedVersion_cases (s : RcState) :
    (findMaxCommittedVersion s = none ∧ maxVersion s.csServers = 0) ∨
    (findMaxCommittedVersion s = some (committedVersion s) ∧ 0 < maxVersion s.csServers ∧
      (committedVersion s = 0 → maxVersion s.csServers = 1) ∧
      maxVersion (busyServers s) ≤ committedVersion s) ∨
    (∃ version, findMaxCommittedVersion s = some version ∧ 0 < version ∧
      committedVersion s = 0 ∧ 1 < maxVersion s.csServers) := by
  rw [findMaxCommittedVersion_eq, findMaxVersion_eq]
  have hle := maxVersion_busy_le s
  unfold committedVersion
  by_cases hzero : maxVersion (busyServers s) = 0
  · rw [if_pos hzero]
    by_cases hpos : 0 < maxVersion s.csServers
    · rw [if_pos hpos]
      by_cases hnone : busyServers s = []
      · -- nobody is busy
        rw [if_pos hnone]
        exact .inr (.inl ⟨rfl, hpos, by omega, by omega⟩)
      · -- the busy servers are at version 0
        rw [if_neg hnone, hzero]
        by_cases hone : maxVersion s.csServers = 1
        · exact .inr (.inl ⟨by rw [hone]; rfl, hpos, fun _ => hone, Nat.le_refl 0⟩)
        · exact .inr (.inr ⟨maxVersion s.csServers - 1, rfl, by omega, rfl, by omega⟩)
    · rw [if_neg hpos]
      exact .inl ⟨rfl, by omega⟩
  · have hsome : busyServers s ≠ [] := by
      intro hnone
      rw [hnone] at hzero
      exact hzero rfl
    rw [if_neg hzero, if_neg hsome]
    exact .inr (.inl ⟨rfl, by omega, fun h => absurd h hzero, Nat.le_refl _⟩)

/-! ## After the repair -/

section Repaired

variable {s : RcState}

theorem outOfSynch_repaired {version : Nat} :
    outOfSynch (s.setMyVersion version configStateBusy) = true ↔
      ∃ info ∈ s.others, ¬ (info.configVersionNumber = version ∧ info.state = configStateBusy) := by
  unfold outOfSynch
  rw [any_eq_true]
  constructor
  · rintro ⟨info, hmem, hdiff⟩
    refine ⟨info, hmem, fun hsame => ?_⟩
    rcases of_decide_eq_true hdiff with hver | hstate
    · exact hver hsame.1
    · exact hstate hsame.2
  · rintro ⟨info, hmem, hdiff⟩
    exact ⟨info, hmem, decide_eq_true (not_and_or.mp hdiff)⟩

/-- This server gets a version that no busy server is beyond. -/
theorem maxVersion_busy_repaired {version : Nat} (hbusy : maxVersion (busyServers s) ≤ version) :
    maxVersion (busyServers (s.setMyVersion version configStateBusy)) = version := by
  have hothers : maxVersion (s.others.filter (·.state = configStateBusy)) ≤ version := by
    rw [maxVersion_le_iff] at hbusy ⊢
    intro info hmem
    apply hbusy info
    rw [mem_filter] at hmem
    exact mem_filter.mpr ⟨mem_cons_of_mem _ hmem.1, hmem.2⟩
  unfold busyServers RcState.csServers RcState.setMyVersion
  rw [filter_cons_of_pos (by simp), maxVersion_cons]
  exact Nat.max_eq_left hothers

theorem findMaxCommittedVersion_repaired {version : Nat}
    (hbusy : maxVersion (busyServers s) ≤ version) (hpos : 0 < version) :
    findMaxCommittedVersion (s.setMyVersion version configStateBusy) = some version := by
  rw [findMaxCommittedVersion_eq, maxVersion_busy_repaired hbusy, if_neg (Nat.ne_of_gt hpos)]

/-- The version may be 0 as long as another server has version 1. -/
theorem findMaxCommittedVersion_repaired_zero (hbusy : maxVersion (busyServers s) = 0)
    (hone : maxVersion s.csServers = 1) :
    findMaxCommittedVersion (s.setMyVersion 0 configStateBusy) =
      if maxVersion s.others = 0 then none else some 0 := by
  have hall : maxVersion (s.setMyVersion 0 configStateBusy).csServers = maxVersion s.others := by
    unfold RcState.csServers RcState.setMyVersion
    rw [maxVersion_cons]
    exact Nat.zero_max _
  have hle : maxVersion s.others ≤ 1 := by
    unfold RcState.csServers at hone
    rw [maxVersion_cons] at hone
    omega
  rw [findMaxCommittedVersion_eq, maxVersion_busy_repaired (Nat.le_of_eq hbusy), if_pos rfl,
    findMaxVersion_eq, hall]
  by_cases hothers : maxVersion s.others = 0
  · rw [if_neg (by omega), if_pos hothers]
    rfl
  · rw [if_pos (by omega), if_neg hothers, show maxVersion s.others = 1 by omega]
    rfl

end Repaired

/-! ## Where the thread ends -/

/-- The thread comes from `c` to `q`, and takes no step there. -/
def Settles (c q : Check) : Prop := (∃ n, advance^[n] c = q) ∧ advance q = q

theorem Settles.stop (h : advance c = c) : Settles c c := ⟨⟨0, rfl⟩, h⟩

theorem Settles.step (h : Settles (advance c) q) : Settles c q := by
  rcases h with ⟨⟨n, hn⟩, hq⟩
  exact ⟨⟨n + 1, by rw [Function.iterate_succ_apply]; exact hn⟩, hq⟩

theorem Settles.ends_iff (h : Settles c q) (version : Nat) :
    (∃ n, EndsAt version (advance^[n] c)) ↔ EndsAt version q := by
  rcases h with ⟨⟨n, hn⟩, hq⟩
  apply Run.exists_iterate_iff hn hq
  rintro ⟨rc, pc, jumps⟩ hend
  cases hend.ended
  rfl

theorem advance_beginning (s : RcState) (jumps : Nat) :
    advance ⟨s, .beginning, jumps⟩ = ⟨s, (checkVersions s).pc, jumps⟩ := by
  change Check.mk (checkVersions s).rc _ _ = _
  rw [checkVersions_rc]
  rfl

theorem settles_of_synch {s : RcState} {jumps : Nat} (h : outOfSynch s = false) :
    Settles ⟨s, .beginning, jumps⟩ ⟨s, .blocked, jumps⟩ := by
  apply Settles.step
  rw [advance_beginning]
  unfold checkVersions
  rw [h, if_neg Bool.false_ne_true]
  exact Settles.stop rfl

theorem settles_of_none {s : RcState} {jumps : Nat} (h : outOfSynch s = true)
    (hnone : findMaxCommittedVersion s = none) :
    Settles ⟨s, .beginning, jumps⟩ ⟨s, .aborted, jumps⟩ := by
  apply Settles.step
  rw [advance_beginning]
  unfold checkVersions
  rw [if_pos h, hnone]
  exact Settles.stop rfl

theorem writeFirstVersion_of_pos {s : RcState} {version state : Nat} (hpos : 0 < version) :
    (s.setMyVersion version state).writeFirstVersion = s.setMyVersion version state :=
  if_neg (Nat.ne_of_gt hpos)

section Found

variable {s : RcState} {jumps version : Nat} (h : outOfSynch s = true)
  (hfound : findMaxCommittedVersion s = some version)

include h hfound

/-- The server is behind: the fetch succeeds, and that is taken for an error. -/
theorem settles_of_behind (hlt : s.my.configVersionNumber < version) :
    Settles ⟨s, .beginning, jumps⟩
      ⟨{ s with checkIfCsStartedRetCode := some 0 }, .checkStopped, jumps⟩ := by
  apply Settles.step
  rw [advance_beginning]
  unfold checkVersions
  rw [if_pos h, hfound]
  dsimp only
  rw [if_neg (Nat.lt_asymm hlt), if_pos hlt]
  exact (Settles.stop rfl).step.step

/-- Nothing to repair. -/
theorem settles_of_equal (heq : s.my.configVersionNumber = version)
    (hstate : s.my.state ≠ configStatePrepareUpdate) :
    Settles ⟨s, .beginning, jumps⟩
      ⟨{ s with csStarted := true, csStarting := false, checkIfCsStartedRetCode := some 0 },
        .checkStopped, jumps⟩ := by
  apply Settles.step
  rw [advance_beginning]
  unfold checkVersions
  rw [if_pos h, hfound]
  dsimp only
  rw [if_neg (by omega), if_neg (by omega), if_neg hstate]
  exact (Settles.stop rfl).step

/-- The version was never committed: one version back, and to `beginning`. -/
theorem settles_of_rollBack (hlt : version < s.my.configVersionNumber)
    (hnext : Settles
      ⟨(s.setMyVersion version configStateBusy).writeFirstVersion, .beginning, jumps + 1⟩ q) :
    Settles ⟨s, .beginning, jumps⟩ q := by
  apply Settles.step
  rw [advance_beginning]
  unfold checkVersions
  rw [if_pos h, hfound]
  dsimp only
  rw [if_pos hlt]
  apply Settles.step
  apply Settles.step
  exact hnext

/-- The version is committed now. -/
theorem settles_of_commit (heq : s.my.configVersionNumber = version)
    (hstate : s.my.state = configStatePrepareUpdate)
    (hnext : Settles ⟨s.setMyVersion version configStateBusy, .beginning, jumps + 1⟩ q) :
    Settles ⟨s, .beginning, jumps⟩ q := by
  apply Settles.step
  rw [advance_beginning]
  unfold checkVersions
  rw [if_pos h, hfound]
  dsimp only
  rw [if_neg (by omega), if_neg (by omega), if_pos hstate]
  apply Settles.step
  rw [← heq] at hnext
  exact hnext

/-- The version changes, and not to version 0. -/
theorem settles_of_repair (hrepair : version < s.my.configVersionNumber ∨
      (s.my.configVersionNumber = version ∧ s.my.state = configStatePrepareUpdate))
    (hkeeps : version < s.my.configVersionNumber → 0 < version)
    (hnext : Settles ⟨s.setMyVersion version configStateBusy, .beginning, jumps + 1⟩ q) :
    Settles ⟨s, .beginning, jumps⟩ q := by
  rcases hrepair with hlt | ⟨heq, hstate⟩
  · apply settles_of_rollBack h hfound hlt
    rw [writeFirstVersion_of_pos (hkeeps hlt)]
    exact hnext
  · exact settles_of_commit h hfound heq hstate hnext

end Found

/-- The second round, with this server at a version that no busy server is beyond. -/
theorem second_round {s : RcState} (version jumps : Nat)
    (hbusy : maxVersion (busyServers s) ≤ version)
    (hone : version = 0 → maxVersion s.csServers = 1) :
    ∃ q, Settles ⟨s.setMyVersion version configStateBusy, .beginning, jumps⟩ q ∧
      q.rc.my.configVersionNumber = version ∧
      (jumps ≤ 1 → (EndsAt version q ↔
        (∃ info ∈ s.others,
          ¬ (info.configVersionNumber = version ∧ info.state = configStateBusy)) ∧
        ¬ (version = 0 ∧ maxVersion s.others = 0))) := by
  rw [← outOfSynch_repaired]
  have hfound : findMaxCommittedVersion (s.setMyVersion version configStateBusy) =
      if version = 0 ∧ maxVersion s.others = 0 then none else some version := by
    rcases Nat.eq_zero_or_pos version with rfl | hpos
    · rw [findMaxCommittedVersion_repaired_zero (Nat.le_zero.mp hbusy) (hone rfl)]
      simp only [true_and]
    · rw [findMaxCommittedVersion_repaired hbusy hpos, if_neg (by omega)]
  by_cases hsynch : outOfSynch (s.setMyVersion version configStateBusy) = true
  · by_cases hinit : version = 0 ∧ maxVersion s.others = 0
    · rw [if_pos hinit] at hfound
      refine ⟨_, settles_of_none hsynch hfound, rfl, fun _ => ?_⟩
      constructor
      · intro hend
        cases hend.ended
      · intro hno
        exact absurd hinit hno.2
    · rw [if_neg hinit] at hfound
      have hstate : configStateBusy ≠ configStatePrepareUpdate := by decide
      refine ⟨_, settles_of_equal hsynch hfound rfl hstate, rfl, fun hjumps => ?_⟩
      constructor
      · exact fun _ => ⟨hsynch, hinit⟩
      · exact fun _ => ⟨rfl, hjumps, rfl, rfl, rfl, rfl⟩
  · refine ⟨_, settles_of_synch (Bool.eq_false_iff.mpr hsynch), rfl, fun _ => ?_⟩
    constructor
    · intro hend
      cases hend.ended
    · intro hno
      exact absurd hno.1 hsynch

/-! ## The result -/

theorem committedVersion_le (s : RcState) : committedVersion s ≤ maxVersion s.csServers := by
  unfold committedVersion
  split_ifs
  · exact Nat.sub_le _ _
  · exact maxVersion_busy_le s

theorem exists_pos_iff : (∃ info ∈ l, 0 < info.configVersionNumber) ↔ maxVersion l ≠ 0 := by
  rw [← Nat.pos_iff_ne_zero, ← not_iff_not, Nat.not_lt, maxVersion_le_iff]
  constructor
  · intro h info hmem
    exact Nat.le_of_not_lt fun hpos => h ⟨info, hmem, hpos⟩
  · rintro h ⟨info, hmem, hpos⟩
    exact Nat.not_lt_of_le (h info hmem) hpos

/-- Without another server beyond version 0, version 0 is no start. -/
theorem NeedsNoFetch.others {s : RcState} (h : NeedsNoFetch s) :
    ¬ (committedVersion s = 0 ∧ maxVersion s.others = 0) := by
  rintro ⟨hzero, hothers⟩
  exact exists_pos_iff.mp (h.not_initial hzero).2.2 hothers

theorem NeedsNoFetch.maxVersion_eq {s : RcState} (h : NeedsNoFetch s) :
    0 < maxVersion s.csServers ∧ (committedVersion s = 0 → maxVersion s.csServers = 1) := by
  have hle := committedVersion_le s
  have hcons : maxVersion s.csServers = max s.my.configVersionNumber (maxVersion s.others) :=
    maxVersion_cons _ _
  by_cases hzero : committedVersion s = 0
  · have hall : maxVersion s.csServers ≤ 1 := maxVersion_le_iff.mpr (h.not_initial hzero).2.1
    have hpos : maxVersion s.others ≠ 0 := fun hno => h.others ⟨hzero, hno⟩
    omega
  · omega

/-- A repair is needed, and `find_max_committed_version` finds the committed version. -/
theorem needsNoFetch_of_repair {s : RcState} (h : outOfSynch s = true)
    (hone : committedVersion s = 0 → maxVersion s.csServers = 1)
    (hrepair : committedVersion s < s.my.configVersionNumber ∨
      (s.my.configVersionNumber = committedVersion s ∧ s.my.state = configStatePrepareUpdate))
    (hkeeps : committedVersion s < s.my.configVersionNumber → 0 < committedVersion s) :
    NeedsNoFetch s ↔
      (∃ info ∈ s.others,
        ¬ (info.configVersionNumber = committedVersion s ∧ info.state = configStateBusy)) ∧
      ¬ (committedVersion s = 0 ∧ maxVersion s.others = 0) := by
  constructor
  · exact fun hneeds => ⟨hneeds.differ_after, hneeds.others⟩
  · rintro ⟨hafter, hothers⟩
    refine ⟨h, ?_, ?_, hafter, fun hzero => ⟨by omega, ?_, ?_⟩⟩
    · rcases hrepair with hlt | ⟨heq, -⟩
      · exact Nat.le_of_lt hlt
      · exact Nat.le_of_eq heq.symm
    · intro heq
      rcases hrepair with hlt | ⟨-, hstate⟩
      · omega
      · exact .inr hstate
    · exact maxVersion_le_iff.mp (Nat.le_of_eq (hone hzero))
    · exact exists_pos_iff.mpr fun hno => hothers ⟨hzero, hno⟩

/-- Nothing to repair. -/
theorem needsNoFetch_of_equal {s : RcState} (h : outOfSynch s = true)
    (hone : committedVersion s = 0 → maxVersion s.csServers = 1)
    (heq : s.my.configVersionNumber = committedVersion s)
    (hstate : s.my.state ≠ configStatePrepareUpdate) :
    NeedsNoFetch s ↔ s.my.state = configStateBusy := by
  constructor
  · intro hneeds
    rcases hneeds.busy_or_prepared heq with hbusy | hprepared
    · exact hbusy
    · exact absurd hprepared hstate
  · intro hbusy
    refine ⟨h, Nat.le_of_eq heq.symm, fun _ => .inl hbusy, ?_,
      fun hzero => ⟨heq.trans hzero, ?_, ?_⟩⟩
    · rw [← outOfSynch_repaired, ← heq, ← hbusy]
      exact h
    · exact maxVersion_le_iff.mp (Nat.le_of_eq (hone hzero))
    · -- this server is at version 0, so another one is at version 1
      have hcons := hone hzero
      unfold RcState.csServers at hcons
      rw [maxVersion_cons, heq, hzero] at hcons
      rw [exists_pos_iff]
      omega

/-- The server goes back to version 0, and the reread makes version 1 of it. -/
theorem first_round_initial {s : RcState} (hsynch : outOfSynch s = true)
    (hfound : findMaxCommittedVersion s = some (committedVersion s))
    (hlt : committedVersion s < s.my.configVersionNumber) (hzero : committedVersion s = 0)
    (hbusy : maxVersion (busyServers s) ≤ committedVersion s) :
    ∃ q, Settles ⟨s, .beginning, 0⟩ q ∧ (EndsAt (committedVersion s) q ↔ NeedsNoFetch s) := by
  have hwritten : (s.setMyVersion (committedVersion s) configStateBusy).writeFirstVersion =
      s.setMyVersion 1 configStateBusy := by
    rw [hzero]
    rfl
  rcases second_round (s := s) 1 1 (by omega) (fun hno => absurd hno (by decide)) with
    ⟨q, hq, hmy, -⟩
  rw [← hwritten] at hq
  refine ⟨q, settles_of_rollBack hsynch hfound hlt hq, ?_⟩
  constructor
  · intro hend
    have hversion := hend.my_version
    omega
  · intro hneeds
    have hown := (hneeds.not_initial hzero).1
    omega

/-- Where the thread ends, from `beginning` and before any jump. -/
theorem first_round {s : RcState} (hstarted : s.csStarted = false) :
    ∃ q, Settles ⟨s, .beginning, 0⟩ q ∧ (EndsAt (committedVersion s) q ↔ NeedsNoFetch s) := by
  by_cases hsynch : outOfSynch s = true
  swap
  · refine ⟨_, settles_of_synch (Bool.eq_false_iff.mpr hsynch), ?_⟩
    constructor
    · intro hend
      cases hend.ended
    · intro hneeds
      exact absurd hneeds.differ hsynch
  rcases findMaxCommittedVersion_cases s with
    ⟨hnone, hmax⟩ | ⟨hfound, -, hone, hbusy⟩ | ⟨version, hfound, hpos, hzero, hmax⟩
  · -- no version at all
    refine ⟨_, settles_of_none hsynch hnone, ?_⟩
    constructor
    · intro hend
      cases hend.ended
    · intro hneeds
      exact absurd hmax (Nat.ne_of_gt hneeds.maxVersion_eq.1)
  · rcases Nat.lt_or_ge s.my.configVersionNumber (committedVersion s) with hlt | hge
    · -- this server is behind
      refine ⟨_, settles_of_behind hsynch hfound hlt, ?_⟩
      constructor
      · intro hend
        have hno : s.csStarted = true := hend.started
        rw [hstarted] at hno
        cases hno
      · intro hneeds
        exact absurd hneeds.not_behind (Nat.not_le_of_lt hlt)
    -- ahead, or prepared at the committed version: a repair, and a second round
    by_cases hrepair : committedVersion s < s.my.configVersionNumber ∨
        (s.my.configVersionNumber = committedVersion s ∧ s.my.state = configStatePrepareUpdate)
    · by_cases hinitial : committedVersion s < s.my.configVersionNumber ∧ committedVersion s = 0
      · exact first_round_initial hsynch hfound hinitial.1 hinitial.2 hbusy
      have hkeeps : committedVersion s < s.my.configVersionNumber → 0 < committedVersion s := by
        omega
      rcases second_round _ 1 hbusy hone with ⟨q, hq, -, hends⟩
      refine ⟨q, settles_of_repair hsynch hfound hrepair hkeeps hq, ?_⟩
      rw [hends (Nat.le_refl 1), needsNoFetch_of_repair hsynch hone hrepair hkeeps]
    · -- the committed version is here already
      rw [not_or, not_and] at hrepair
      have heq : s.my.configVersionNumber = committedVersion s := by omega
      have hstate := hrepair.2 heq
      refine ⟨_, settles_of_equal hsynch hfound heq hstate, ?_⟩
      rw [needsNoFetch_of_equal hsynch hone heq hstate]
      constructor
      · exact fun hend => hend.my_state
      · exact fun hbusy => ⟨rfl, Nat.zero_le 1, rfl, rfl, heq, hbusy⟩
  · -- version 0 is committed, and the code takes a later one for it
    have hnot : ¬ NeedsNoFetch s := by
      intro hneeds
      have hmax' := hneeds.maxVersion_eq.2 hzero
      omega
    -- no way out of the later version leads back to 0
    have hends : ∀ q : Check, q.rc.my.configVersionNumber = version →
        (EndsAt (committedVersion s) q ↔ NeedsNoFetch s) := by
      intro q hq
      constructor
      · intro hend
        have hversion := hend.my_version
        omega
      · exact fun hneeds => absurd hneeds hnot
    have hbusy : maxVersion (busyServers s) ≤ version := by
      rw [findMaxCommittedVersion_eq] at hfound
      split_ifs at hfound with hno
      · omega
      · cases hfound
        exact Nat.le_refl _
    rcases Nat.lt_or_ge s.my.configVersionNumber version with hlt | hge
    · refine ⟨_, settles_of_behind hsynch hfound hlt, ?_⟩
      constructor
      · intro hend
        have hno : s.csStarted = true := hend.started
        rw [hstarted] at hno
        cases hno
      · exact fun hneeds => absurd hneeds hnot
    by_cases hrepair : version < s.my.configVersionNumber ∨
        (s.my.configVersionNumber = version ∧ s.my.state = configStatePrepareUpdate)
    · rcases second_round _ 1 hbusy (fun hno => absurd hno (Nat.ne_of_gt hpos)) with ⟨q, hq, hmy, -⟩
      exact ⟨q, settles_of_repair hsynch hfound hrepair (fun _ => hpos) hq, hends q hmy⟩
    · rw [not_or, not_and] at hrepair
      have heq : s.my.configVersionNumber = version := by omega
      exact ⟨_, settles_of_equal hsynch hfound heq (hrepair.2 heq), hends _ heq⟩

/-- With every file operation and the fetch succeeding, the thread ends as expected
exactly if the versions and states meet `NeedsNoFetch`. -/
theorem version_sync_iff (s : RcState) : Synchronised s ↔ NeedsNoFetch s := by
  -- the flags of the start play no part in the condition
  have hsame : NeedsNoFetch { s with csStarted := false, checkIfCsStartedRetCode := none } ↔
      NeedsNoFetch s := by
    constructor
    · exact fun h => ⟨h.differ, h.not_behind, h.busy_or_prepared, h.differ_after, h.not_initial⟩
    · exact fun h => ⟨h.differ, h.not_behind, h.busy_or_prepared, h.differ_after, h.not_initial⟩
  rcases first_round (s := { s with csStarted := false, checkIfCsStartedRetCode := none }) rfl with
    ⟨q, hq, hends⟩
  unfold Synchronised
  rw [(Settles.step hq : Settles (startCheck s) q).ends_iff, ← hsame]
  exact hends

/-- Two servers in version 3, both busy: there is nothing to do, and the thread never
ends. -/
theorem servers_in_synch_block :
    let info (nodeId : Nat) : InfoCs :=
      ⟨nodeId, true, true, false, true, false, 3, configStateBusy, 2, [1, 2, 0, 0]⟩
    ¬ Synchronised ⟨info 1, [info 2], 0, true, false, 0, none⟩ := by
  intro info hsync
  have hsettles : Settles (startCheck ⟨info 1, [info 2], 0, true, false, 0, none⟩)
      ⟨⟨info 1, [info 2], 0, true, false, 0, none⟩, .blocked, 0⟩ :=
    Settles.step (settles_of_synch (by decide))
  have hend := (hsettles.ends_iff _).mp hsync
  cases hend.ended

end IClaustron.ClusterServer.Start
