import IClaustron.ClusterServer.StartThreads
import IClaustron.Lib.Run

/-!
# ClusterServer.StartLocks — use of `protect_state` during the start

A thread of the start runs against whatever state it finds: the other threads change
it between two sections, so each step comes with a state of its own. The thread has
to be without the mutex at every program point, since they all lie outside the
sections.

* `Balanced` — the rule for a thread;
* `Unbalanced` — the steps that break it. The loop of wait_for_enough_connections is
  left by two `goto error` and a `break` with the mutex held, and not every way from
  there unlocks it once; check_if_cs_started_thread_func leaves its loop with the
  mutex, and unlocks a prepared version twice;
* `start_locks_balanced_iff` — nothing else goes wrong.
-/

namespace IClaustron.ClusterServer.Start

open Lib

/-- A thread with its view of the mutex. -/
structure Caller where
  pc : Pc
  lock : LockState
deriving DecidableEq

/-- One step of the thread for entry `t`, on the state it finds. -/
def callerStep (t : Nat) (c : Caller) (l : RcState × Act) : Option Caller :=
  (localStep l.1 t c.pc l.2).map fun out => ⟨out.pc, c.lock.run out.locks⟩

/-- The thread is without the mutex, unless the process has been stopped, and has not
made a wrong call. -/
def Balanced (c : Caller) : Prop :=
  c.lock ≠ .broken ∧ (c.pc ≠ .aborted → c.lock = .free)

/-! ## The steps that go wrong -/

/-- Not all servers are connected, and too few threads try to. -/
def TooFewThreads (s : RcState) : Prop :=
  getCountConnectedClusterServers s + 1 ≠ s.numClusterServers ∧
    (getCountActiveStartThreads s + 1 < s.numClusterServers ∨
      (getCountActiveStartThreads s = 1 ∧ s.numClusterServers = 2))

/-- The loop of `wait_for_enough_connections` comes to its `break`. -/
def Proceeds (s : RcState) (haveWaited : Bool) : Prop :=
  getCountConnectedClusterServers s + 1 = s.numClusterServers ∨
    (¬ TooFewThreads s ∧
      if getCountActiveStartThreads s + 1 = s.numClusterServers ∧ 2 < s.numClusterServers then
        haveWaited = true
      else getCountConnectedClusterServers s = getCountActiveStartThreads s)

/-- A round of `wait_for_enough_connections` ends with the mutex, or locks it twice. -/
def KeepsMutex (s : RcState) (haveWaited stop stop' : Bool) : Prop :=
  stop = true ∨ TooFewThreads s ∨ (Proceeds s haveWaited ∧ (stop' = true ∨ s.csStarted = true))

def Unbalanced (s : RcState) : Pc → Act → Prop
  | .connected, .wake stop stop' => KeepsMutex s false stop stop'
  | .waitConnections haveWaited, .wake stop stop' => KeepsMutex s haveWaited stop stop'
  | .beginning, .go => outOfSynch s = false
  | .removeOld _ _, .go => s.my.state = configStatePrepareUpdate
  | _, _ => False

/-! ## The sections -/

/-- What a step does to the mutex: it is left alone, or kept by a process that stops. -/
def Out.Closed (out : Out) : Prop :=
  Sections out.locks ∨ (out.pc = .aborted ∧ out.locks = [.lock])

theorem closed_goto (s : RcState) (pc : Pc) : (Out.goto s pc).Closed := .inl Sections.nil

theorem closed_section (s : RcState) (pc : Pc) : (Out.section s pc).Closed := .inl Sections.one

theorem Heartbeat.locks_sections (h : Heartbeat) : Sections h.locks := by
  rcases h with _ | _ | ok | ok
  · exact Sections.nil
  · exact Sections.one
  all_goals
    cases ok
    · exact Sections.one.append Sections.one
    · exact Sections.one

section

variable (s : RcState)

include s

/-- The round ends by one of its two `goto error`. -/
theorem connectionsRound_error_iff (haveWaited stop : Bool) :
    connectionsRound s haveWaited stop = .error ↔ stop = true ∨ TooFewThreads s := by
  unfold connectionsRound TooFewThreads
  constructor
  · intro h
    dsimp only at h
    split_ifs at h with hstop hall hfew
    · exact .inl hstop
    · exact .inr ⟨hall, hfew⟩
  · rintro (hstop | ⟨hall, hfew⟩)
    · rw [if_pos hstop]
    · dsimp only
      split_ifs
      · rfl
      · rfl

/-- The round ends by a `break`. -/
theorem connectionsRound_proceed_iff (haveWaited : Bool) {stop : Bool} (hstop : stop = false) :
    connectionsRound s haveWaited stop = .proceed ↔ Proceeds s haveWaited := by
  unfold connectionsRound Proceeds
  rw [hstop, if_neg Bool.false_ne_true]
  constructor
  · intro h
    split_ifs at h with hall hfew hquorum hwaited hactive
    · exact .inl hall
    · exact .inr ⟨fun hno => hfew hno.2, by rw [if_pos hquorum]; exact hwaited⟩
    · exact .inr ⟨fun hno => hfew hno.2, by rw [if_neg hquorum]; exact hactive⟩
  · rintro (hall | ⟨hfew, hready⟩)
    · exact if_pos hall
    · by_cases hall : getCountConnectedClusterServers s + 1 = s.numClusterServers
      · exact if_pos hall
      · rw [if_neg hall, if_neg (fun hno => hfew ⟨hall, hno⟩)]
        split_ifs at hready ⊢
        · rfl
        · rfl

theorem waitForEnoughConnections_locks (haveWaited stop stop' : Bool) :
    ((waitForEnoughConnections s haveWaited stop stop').Closed ∧
        ¬ KeepsMutex s haveWaited stop stop') ∨
      (¬ Balanced ⟨(waitForEnoughConnections s haveWaited stop stop').pc,
          LockState.free.run (waitForEnoughConnections s haveWaited stop stop').locks⟩ ∧
        KeepsMutex s haveWaited stop stop') := by
  unfold waitForEnoughConnections KeepsMutex
  rcases hround : connectionsRound s haveWaited stop with _ | _ | haveWaited'
  · -- `goto error`
    have herr := (connectionsRound_error_iff s haveWaited stop).mp hround
    refine .inr ⟨?_, ?_⟩
    · rintro ⟨-, hfree⟩
      cases hfree Pc.noConfusion
    · rcases herr with hstop | hfew
      · exact .inl hstop
      · exact .inr (.inl hfew)
  · -- `break`
    have hno : ¬ (stop = true ∨ TooFewThreads s) := by
      rw [← connectionsRound_error_iff s haveWaited stop, hround]
      exact Round.noConfusion
    rw [not_or, Bool.not_eq_true] at hno
    have hproceeds := (connectionsRound_proceed_iff s haveWaited hno.1).mp hround
    dsimp only
    unfold quorumReached
    split_ifs with hstop' hstarted
    · refine .inr ⟨?_, .inr (.inr ⟨hproceeds, .inl hstop'⟩)⟩
      rintro ⟨-, hfree⟩
      cases hfree Pc.noConfusion
    · refine .inr ⟨?_, .inr (.inr ⟨hproceeds, .inr hstarted⟩)⟩
      rintro ⟨hbroken, -⟩
      exact hbroken rfl
    · refine .inl ⟨?_, ?_⟩
      · split
        · exact .inr ⟨rfl, rfl⟩
        · split_ifs
          · apply closed_section
          · apply closed_section
          · apply closed_section
      · rintro (hstop | hfew | ⟨-, hlate | hlate⟩)
        · rw [hno.1] at hstop
          cases hstop
        · exact hno.2 hfew
        · exact hstop' hlate
        · exact hstarted hlate
  · -- the timed wait
    refine .inl ⟨closed_section _ _, ?_⟩
    have hno : ¬ (stop = true ∨ TooFewThreads s) := by
      rw [← connectionsRound_error_iff s haveWaited stop, hround]
      exact Round.noConfusion
    have hnot : ¬ Proceeds s haveWaited := by
      rw [not_or, Bool.not_eq_true] at hno
      rw [← connectionsRound_proceed_iff s haveWaited hno.1, hround]
      exact Round.noConfusion
    rintro (hstop | hfew | ⟨hproceeds, -⟩)
    · exact hno (.inl hstop)
    · exact hno (.inr hfew)
    · exact hnot hproceeds

theorem startedRound_closed : (startedRound s).Closed := by
  unfold startedRound
  split_ifs
  · apply closed_section
  · exact .inr ⟨rfl, rfl⟩
  · apply closed_section
  · apply closed_section

theorem checkAfterHeartbeat_closed (t : Nat) (h : Heartbeat) :
    (checkAfterHeartbeat s t h).Closed := by
  have hlocks : Sections (h.locks ++ [.lock, .unlock]) := h.locks_sections.append Sections.one
  unfold checkAfterHeartbeat
  dsimp only
  split_ifs
  · exact .inl hlocks
  · split
    · exact .inl hlocks
    · exact .inl hlocks

theorem getCsConnection_closed (t : Nat) (info : InfoCs) (stop ok : Bool) :
    (getCsConnection s t info stop ok).Closed := by
  unfold getCsConnection serverConnect
  split_ifs
  · apply closed_goto
  · apply closed_section
  · apply closed_goto
  · apply closed_section
  · apply closed_section

theorem checkQuorumReached_closed (stop : Bool) : (checkQuorumReached s stop).Closed := by
  unfold checkQuorumReached
  split_ifs
  · apply closed_goto
  · apply closed_section
  · apply closed_section

theorem waitForReady_closed (stop : Bool) : (waitForReady s stop).Closed := by
  unfold waitForReady
  split_ifs
  · apply closed_section
  · apply closed_section
  · apply closed_section

theorem waitForEnoughStartedNodes_closed : (waitForEnoughStartedNodes s).Closed := by
  unfold waitForEnoughStartedNodes
  split_ifs
  · apply closed_section
  · exact startedRound_closed s

theorem checkWaited_closed : (checkWaited s).Closed := by
  unfold checkWaited
  split
  · apply closed_section
  · apply closed_section

end

/-- A start thread keeps the mutex only in `wait_for_enough_connections`. -/
theorem startStep_locks {s : RcState} {t : Nat} {info : InfoCs} {pc : Pc} {a : Act} {out : Out}
    (h : startStep s t info pc a = some out) :
    (out.Closed ∧ ¬ Unbalanced s pc a) ∨
      (¬ Balanced ⟨out.pc, LockState.free.run out.locks⟩ ∧ Unbalanced s pc a) := by
  cases pc with
  | connected =>
    cases a with
    | wake stop stop' =>
      cases h
      exact waitForEnoughConnections_locks s false stop stop'
    | _ => cases h
  | waitConnections haveWaited =>
    cases a with
    | wake stop stop' =>
      cases h
      exact waitForEnoughConnections_locks s haveWaited stop stop'
    | _ => cases h
  | created | checkIfStarted =>
    cases a <;> cases h
    exact .inl ⟨closed_goto _ _, id⟩
  | waitServer | startProtocol | waitStarted | checkReset | release | earlyEnd =>
    cases a <;> cases h
    exact .inl ⟨closed_section _ _, id⟩
  | firstHeartbeat | startedHeartbeat | heartbeats =>
    cases a with
    | heartbeat beat stop =>
      cases h
      exact .inl ⟨.inl beat.locks_sections, id⟩
    | _ => cases h
  | connecting =>
    cases a <;> cases h
    exact .inl ⟨getCsConnection_closed _ _ _ _ _, id⟩
  | checkQuorum =>
    cases a <;> cases h
    exact .inl ⟨checkQuorumReached_closed _ _, id⟩
  | waitReady =>
    cases a <;> cases h
    exact .inl ⟨waitForReady_closed _ _, id⟩
  | startedNodes =>
    cases a <;> cases h
    exact .inl ⟨waitForEnoughStartedNodes_closed _, id⟩
  | startedLoop =>
    cases a <;> cases h
    exact .inl ⟨startedRound_closed _, id⟩
  | waitCheck =>
    cases a <;> cases h
    exact .inl ⟨checkWaited_closed _, id⟩
  | checkHeartbeat =>
    cases a <;> cases h
    exact .inl ⟨checkAfterHeartbeat_closed _ _ _, id⟩
  | checkReturned ret =>
    cases a with
    | go =>
      unfold startStep at h
      dsimp only at h
      split_ifs at h
      · cases h
        exact .inl ⟨closed_goto _ _, id⟩
      · cases h
        exact .inl ⟨closed_section _ _, id⟩
    | _ => cases h
  | _ => cases a <;> cases h

/-- The thread that checks the versions locks twice when all servers are in synch, and
unlocks twice after a failed fetch on a prepared version. -/
theorem checkStep_locks {s : RcState} {pc : Pc} {a : Act} {out : Out}
    (h : checkStep s pc a = some out) :
    (out.Closed ∧ ¬ Unbalanced s pc a) ∨
      (¬ Balanced ⟨out.pc, LockState.free.run out.locks⟩ ∧ Unbalanced s pc a) := by
  cases pc with
  | beginning =>
    cases a with
    | go =>
      cases h
      unfold checkVersions
      by_cases hsynch : outOfSynch s = true
      · rw [if_pos hsynch]
        refine .inl ⟨?_, fun hno => ?_⟩
        · split
          · exact .inr ⟨rfl, rfl⟩
          · split_ifs
            · apply closed_section
            · apply closed_section
            · apply closed_section
            · apply closed_section
        · rw [show outOfSynch s = false from hno] at hsynch
          cases hsynch
      · rw [if_neg hsynch]
        refine .inr ⟨?_, Bool.eq_false_iff.mpr hsynch⟩
        rintro ⟨hbroken, -⟩
        exact hbroken rfl
    | _ => cases h
  | removeOld version apic =>
    cases a with
    | go =>
      cases h
      unfold removeOldConfig
      split_ifs with hstate
      · refine .inr ⟨?_, hstate⟩
        rintro ⟨hbroken, -⟩
        exact hbroken rfl
      · exact .inl ⟨closed_section _ _, hstate⟩
    | _ => cases h
  | checkCreated | fetch version =>
    cases a <;> cases h
    exact .inl ⟨closed_goto _ _, id⟩
  | inSynch | failed ret =>
    cases a <;> cases h
    exact .inl ⟨closed_section _ _, id⟩
  | rollBack version | commit =>
    cases a with
    | writeVersion ret =>
      unfold checkStep at h
      dsimp only at h
      split_ifs at h
      · cases h
        exact .inl ⟨closed_goto _ _, id⟩
      · cases h
        exact .inl ⟨closed_section _ _, id⟩
    | _ => cases h
  | reread =>
    cases a with
    | reread ret inLoad loaded =>
      unfold checkStep at h
      dsimp only at h
      split_ifs at h
      · cases h
        exact .inl ⟨closed_section _ _, id⟩
      all_goals
        cases h
        exact .inl ⟨closed_goto _ _, id⟩
    | _ => cases h
  | writeConfig version apic =>
    cases a with
    | writeConfig ret =>
      unfold checkStep at h
      dsimp only at h
      split_ifs at h
      · cases h
        exact .inl ⟨closed_goto _ _, id⟩
      · cases h
        exact .inl ⟨closed_section _ _, id⟩
      · cases h
        exact .inl ⟨closed_goto _ _, id⟩
    | _ => cases h
  | _ => cases a <;> cases h

theorem localStep_locks {s : RcState} {t : Nat} {pc : Pc} {a : Act} {out : Out}
    (h : localStep s t pc a = some out) :
    (out.Closed ∧ ¬ Unbalanced s pc a) ∨
      (¬ Balanced ⟨out.pc, LockState.free.run out.locks⟩ ∧ Unbalanced s pc a) := by
  unfold localStep at h
  split at h
  · rename_i out' hout
    cases h
    exact checkStep_locks hout
  · rcases Option.bind_eq_some_iff.mp h with ⟨info, -, hout⟩
    exact startStep_locks hout

/-! ## Whole runs -/

theorem Out.Closed.balanced {out : Out} (h : out.Closed) :
    Balanced ⟨out.pc, LockState.free.run out.locks⟩ := by
  rcases h with hsections | ⟨hpc, hlocks⟩
  · rw [show LockState.free.run out.locks = .free from hsections]
    exact ⟨LockState.noConfusion, fun _ => rfl⟩
  · rw [hpc, hlocks]
    exact ⟨LockState.noConfusion, fun hno => absurd rfl hno⟩

/-- A process that has been stopped takes no step. -/
theorem localStep_aborted (s : RcState) (t : Nat) (a : Act) : localStep s t .aborted a = none := by
  unfold localStep checkStep startStep
  cases s.others[t]? <;> rfl

theorem callerStep_eq_some {t : Nat} {c c' : Caller} {l : RcState × Act} (hbal : Balanced c)
    (h : callerStep t c l = some c') :
    ∃ out, localStep l.1 t c.pc l.2 = some out ∧ c' = ⟨out.pc, LockState.free.run out.locks⟩ := by
  rcases Option.map_eq_some_iff.mp h with ⟨out, hout, rfl⟩
  have hpc : c.pc ≠ .aborted := by
    intro hpc
    rw [hpc, localStep_aborted] at hout
    cases hout
  refine ⟨out, hout, ?_⟩
  rw [hbal.2 hpc]

/-- For a thread of the start at any point, in any states and with any outcomes: it is
without `protect_state` at every point it reaches, and has made no wrong call,
exactly if it never takes one of the steps `Unbalanced`. -/
theorem start_locks_balanced_iff (t : Nat) (pc : Pc) (steps : List (RcState × Act)) :
    Run.Always (callerStep t) Balanced ⟨pc, .free⟩ steps ↔
      Run.Along (callerStep t) (fun c l => ¬ Unbalanced l.1 c.pc l.2) ⟨pc, .free⟩ steps := by
  apply Run.always_iff_along (callerStep t) _ Balanced _ (fun _ h => h)
  · intro c l c' hok hstep hbal
    rcases callerStep_eq_some hbal hstep with ⟨out, hout, rfl⟩
    rcases localStep_locks hout with ⟨hclosed, -⟩ | ⟨-, hbad⟩
    · exact hclosed.balanced
    · exact absurd hbad hok
  · intro c l c' hno hstep hbal
    rcases callerStep_eq_some hbal hstep with ⟨out, hout, rfl⟩
    rcases localStep_locks hout with ⟨-, hok⟩ | ⟨hbad, -⟩
    · exact absurd hok hno
    · exact hbad
  · exact ⟨LockState.noConfusion, fun _ => rfl⟩

/-- Three servers, of which one start thread has given up: the other one, connected,
finds too few threads and returns with the mutex. -/
theorem too_few_threads_keeps_mutex :
    let info (nodeId : Nat) (conn active : Bool) : InfoCs :=
      ⟨nodeId, conn, true, false, active, false, 1, configStateBusy, 0, [0, 0, 0, 0]⟩
    ¬ Run.Always (callerStep 0) Balanced ⟨.connected, .free⟩
      [(⟨info 1 false false, [info 2 true true, info 3 false false], 1, false, false, 0, none⟩,
        .wake false false)] := by
  intro info hall
  have hend := hall _ ⟨.release, .held⟩ (List.prefix_refl _) rfl
  cases hend.2 Pc.noConfusion

end IClaustron.ClusterServer.Start
