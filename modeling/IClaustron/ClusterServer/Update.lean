import IClaustron.Lib.Run
import IClaustron.Lib.Threads

/-!
# ClusterServer.Update — one update at a time

Model of rc_start_update and rc_stop_update in api/ic_apic_run_cs.ic. Everything a
thread does between two waits for `protect_state` is one step. `ic_cond_signal`
wakes at least one of the threads that sleep in `ic_cond_wait`, and a thread may
also wake up without a signal; a thread that was woken still has to get the mutex,
and others may come first.

* `UpdateOk` — what the callers rely on;
* `Undisturbed` — the condition on a step: a thread that comes out of its wait
  finds things as it left them;
* `update_serialised_iff` — a run keeps `UpdateOk` exactly if its steps meet the
  condition.
-/

namespace IClaustron.ClusterServer.Update

open Lib List

/-- Where a thread is. `isMaster` is what `rc_start_update` will return, `atStart`
the state of the master when the update began. -/
inductive Pc where
  | outside
  /-- asleep in `ic_cond_wait` -/
  | waiting (isMaster : Bool)
  /-- woken, without the mutex -/
  | signalled (isMaster : Bool)
  /-- between `rc_start_update` and `rc_stop_update` -/
  | updating (isMaster atStart : Bool)
deriving DecidableEq

def Pc.isWaiting : Pc → Bool
  | .waiting _ => true
  | _ => false

def Pc.isUpdating : Pc → Bool
  | .updating _ _ => true
  | _ => false

/-- The thread is woken if it sleeps. -/
def Pc.wake : Pc → Pc
  | .waiting isMaster => .signalled isMaster
  | pc => pc

/-- The part of IC_RUN_CLUSTER_STATE that is used here, with the threads.
`failed`: an assertion has stopped the program. -/
structure RcState where
  updateState : Bool
  updateWaiters : Nat
  masterCsIndex : Nat
  threads : List Pc
  failed : Bool
deriving DecidableEq

/-- `is_cs_master`. -/
def isCsMaster (s : RcState) : Bool := s.masterCsIndex = 0

inductive Label where
  /-- `rc_start_update` up to the wait or to its end -/
  | startUpdate (t : Nat)
  /-- a woken thread gets the mutex -/
  | resume (t : Nat)
  /-- a thread wakes up without a signal -/
  | spurious (t : Nat)
  /-- `rc_stop_update`; the signal, if there is one, wakes these threads -/
  | stopUpdate (t : Nat) (woken : List Nat)
  /-- another server becomes master -/
  | setMaster (index : Nat)
deriving DecidableEq

/-- The update begins. -/
def RcState.begin (s : RcState) (t : Nat) (isMaster : Bool) : RcState :=
  { s with
    updateState := true
    threads := s.threads.set t (.updating isMaster (isCsMaster s)) }

/-- `ic_cond_signal` may wake these threads. -/
def canWake (threads : List Pc) (woken : List Nat) : Bool :=
  woken.all (fun i => (threads[i]?.map Pc.isWaiting).getD false) &&
    (!woken.isEmpty || !threads.any Pc.isWaiting)

def wakeAll (threads : List Pc) (woken : List Nat) : List Pc :=
  threads.mapIdx fun i pc => if i ∈ woken then pc.wake else pc

def step (s : RcState) (l : Label) : Option RcState :=
  if s.failed then none
  else
    match l with
    | .startUpdate t =>
      if s.threads[t]? = some .outside then
        if s.updateState then
          some { s with
            updateWaiters := s.updateWaiters + 1
            threads := s.threads.set t (.waiting (isCsMaster s)) }
        else some (s.begin t (isCsMaster s))
      else none
    | .resume t =>
      match s.threads[t]? with
      | some (.signalled isMaster) =>
        -- `ic_assert(!rc_state->update_state)`
        if s.updateState then some { s with failed := true } else some (s.begin t isMaster)
      | _ => none
    | .spurious t =>
      match s.threads[t]? with
      | some (.waiting isMaster) => some { s with threads := s.threads.set t (.signalled isMaster) }
      | _ => none
    | .stopUpdate t woken =>
      match s.threads[t]? with
      | some (.updating _ _) =>
        if ¬ s.updateState then some { s with failed := true }
        else if 0 < s.updateWaiters then
          if canWake s.threads woken then
            some { s with
              updateState := false
              updateWaiters := s.updateWaiters - 1
              threads := wakeAll (s.threads.set t .outside) woken }
          else none
        else some { s with updateState := false, threads := s.threads.set t .outside }
      | _ => none
    | .setMaster index => some { s with masterCsIndex := index }

/-- `n` threads, and no update. -/
def start (n master : Nat) : RcState := ⟨false, 0, master, List.replicate n .outside, false⟩

/-! ## What the callers rely on -/

structure UpdateOk (s : RcState) : Prop where
  exclusive : ∀ (i j : Nat) a b a' b', s.threads[i]? = some (.updating a b) →
    s.threads[j]? = some (.updating a' b') → i = j
  /-- no assertion has failed -/
  asserted : s.failed = false
  /-- without an update, nobody sleeps unless a signal is on its way -/
  awake : s.updateState = false → (∃ (i : Nat) (m : Bool), s.threads[i]? = some (.waiting m)) →
    ∃ (j : Nat) (m : Bool), s.threads[j]? = some (.signalled m)
  /-- the result of `rc_start_update` is the state of the master when it begins -/
  master : ∀ (i : Nat) a b, s.threads[i]? = some (.updating a b) → a = b

/-- A thread that comes out of its wait finds no update running, and the same
master. -/
def Undisturbed (s : RcState) : Label → Prop
  | .resume t => s.updateState = false ∧
      ∀ m, s.threads[t]? = some (.signalled m) → m = isCsMaster s
  | _ => True

/-! ## Invariant -/

structure Inv (s : RcState) : Prop where
  not_failed : s.failed = false
  /-- `update_state` says whether a thread is updating -/
  updating : s.threads.countP Pc.isUpdating = if s.updateState then 1 else 0
  /-- every sleeping thread is counted -/
  counted : s.threads.countP Pc.isWaiting ≤ s.updateWaiters
  awake : s.updateState = false → (∃ (i : Nat) (m : Bool), s.threads[i]? = some (.waiting m)) →
    ∃ (j : Nat) (m : Bool), s.threads[j]? = some (.signalled m)
  master : ∀ (i : Nat) a b, s.threads[i]? = some (.updating a b) → a = b

variable {s s' : RcState} {t : Nat} {pc pc' : Pc}

theorem Inv.updateOk (h : Inv s) : UpdateOk s := by
  refine ⟨?_, h.not_failed, h.awake, h.master⟩
  intro i j a b a' b' hi hj
  have hcount : s.threads.countP Pc.isUpdating ≤ 1 := by
    rw [h.updating]
    split_ifs <;> decide
  exact Threads.eq_of_countP_le_one hcount hi rfl hj rfl

theorem get_set (hpc : s.threads[t]? = some pc) {i : Nat} {x : Pc}
    (hi : (s.threads.set t pc')[i]? = some x) : (i = t ∧ x = pc') ∨ (i ≠ t ∧ s.threads[i]? = some x) := by
  have hlt : t < s.threads.length := (List.getElem?_eq_some_iff.mp hpc).1
  by_cases hit : i = t
  · subst hit
    rw [List.getElem?_set_self hlt] at hi
    exact Or.inl ⟨rfl, (Option.some.inj hi).symm⟩
  · rw [List.getElem?_set_ne (Ne.symm hit)] at hi
    exact Or.inr ⟨hit, hi⟩

/-- A thread begins its update while none is running. -/
theorem Inv.begin (h : Inv s) (hpc : s.threads[t]? = some pc) (hupd : pc.isUpdating = false)
    (hfree : s.updateState = false) : Inv (s.begin t (isCsMaster s)) := by
  have hup := Threads.countP_set (p := Pc.isUpdating)
    (b := .updating (isCsMaster s) (isCsMaster s)) hpc
  have hwait := Threads.countP_set (p := Pc.isWaiting)
    (b := .updating (isCsMaster s) (isCsMaster s)) hpc
  have hcount := h.updating
  have hcounted := h.counted
  rw [hfree, if_neg Bool.false_ne_true] at hcount
  rw [hupd, hcount] at hup
  refine ⟨h.not_failed, ?_, ?_, nofun, ?_⟩
  · unfold RcState.begin
    rw [if_pos rfl]
    simpa [Pc.isUpdating] using hup
  · have hle : (s.threads.set t (.updating (isCsMaster s) (isCsMaster s))).countP Pc.isWaiting ≤
        s.threads.countP Pc.isWaiting := by
      have hnot : (Pc.updating (isCsMaster s) (isCsMaster s)).isWaiting = false := rfl
      rw [hnot, if_neg Bool.false_ne_true] at hwait
      omega
    exact Nat.le_trans hle hcounted
  · intro i a b hi
    rcases get_set hpc hi with ⟨-, hx⟩ | ⟨-, hold⟩
    · cases hx
      rfl
    · exact h.master i a b hold

theorem mem_wakeAll {threads : List Pc} {woken : List Nat} {i : Nat} {x : Pc}
    (h : (wakeAll threads woken)[i]? = some x) :
    ∃ y, threads[i]? = some y ∧ x = if i ∈ woken then y.wake else y := by
  unfold wakeAll at h
  rw [getElem?_mapIdx] at h
  rcases Option.map_eq_some_iff.mp h with ⟨y, hy, rfl⟩
  exact ⟨y, hy, rfl⟩

theorem Pc.wake_of_isUpdating {pc : Pc} : pc.wake.isUpdating = pc.isUpdating := by
  cases pc <;> rfl

theorem Pc.wake_not_waiting {pc : Pc} : pc.wake.isWaiting = false := by
  cases pc <;> rfl

/-- `rc_stop_update` with a signal. -/
theorem Inv.stopUpdate (h : Inv s) {a b : Bool} (hpc : s.threads[t]? = some (.updating a b))
    {woken : List Nat} (hup : s.updateState = true) (hwake : canWake s.threads woken = true) :
    Inv { s with
      updateState := false
      updateWaiters := s.updateWaiters - 1
      threads := wakeAll (s.threads.set t .outside) woken } := by
  have hcount := h.updating
  have hcounted := h.counted
  rw [hup, if_pos rfl] at hcount
  have hset := Threads.countP_set (p := Pc.isUpdating) (b := .outside) hpc
  have hsetW := Threads.countP_set (p := Pc.isWaiting) (b := .outside) hpc
  have hsleep : ∀ i x, (if i ∈ woken then Pc.wake x else x).isWaiting = true → x.isWaiting = true := by
    intro i x hx
    split_ifs at hx
    · rw [Pc.wake_not_waiting] at hx
      cases hx
    · exact hx
  have hupd : ∀ i x, (if i ∈ woken then Pc.wake x else x).isUpdating = true → x.isUpdating = true := by
    intro i x hx
    split_ifs at hx
    · rw [Pc.wake_of_isUpdating] at hx
      exact hx
    · exact hx
  simp only [Pc.isUpdating, Pc.isWaiting, if_true, Bool.false_eq_true, if_false, Nat.add_zero]
    at hset hsetW
  unfold canWake at hwake
  rw [Bool.and_eq_true] at hwake
  rcases hwake with ⟨hwoken, hone⟩
  refine ⟨h.not_failed, ?_, ?_, ?_, ?_⟩
  · have hle := Threads.countP_mapIdx_le (l := s.threads.set t .outside) hupd
    rw [if_neg Bool.false_ne_true]
    unfold wakeAll
    dsimp only
    omega
  · -- one less is counted, and one of the sleeping threads was woken
    unfold wakeAll
    cases woken with
    | nil =>
      have hnone : s.threads.countP Pc.isWaiting = 0 := by
        rw [countP_eq_zero]
        intro x hx hwait
        have hany : s.threads.any Pc.isWaiting = true := any_eq_true.mpr ⟨x, hx, hwait⟩
        rw [hany] at hone
        cases hone
      have hle := Threads.countP_mapIdx_le (l := s.threads.set t .outside) hsleep
      dsimp only
      omega
    | cons i woken =>
      rw [all_cons, Bool.and_eq_true] at hwoken
      rcases hi : s.threads[i]? with _ | x
      · rw [hi] at hwoken
        cases hwoken.1
      · rw [hi] at hwoken
        have hx : x.isWaiting = true := hwoken.1
        have hne : i ≠ t := by
          rintro rfl
          rw [hi] at hpc
          cases hpc
          cases hx
        have hget : (s.threads.set t .outside)[i]? = some x := by
          rw [getElem?_set_ne (Ne.symm hne)]
          exact hi
        have hlt := Threads.countP_mapIdx_lt hsleep hget hx (by
          rw [if_pos mem_cons_self]
          exact Pc.wake_not_waiting)
        dsimp only
        omega
  · rintro - ⟨i, m, hi⟩
    -- the thread that still sleeps slept before, so somebody was woken
    rcases mem_wakeAll hi with ⟨y, hy, hym⟩
    have hyw : y.isWaiting = true := hsleep i y (by rw [← hym]; rfl)
    have hold : ∃ x ∈ s.threads, Pc.isWaiting x = true := by
      rcases get_set hpc hy with ⟨-, rfl⟩ | ⟨-, hold⟩
      · cases hyw
      · exact ⟨y, mem_of_getElem? hold, hyw⟩
    have hany : s.threads.any Pc.isWaiting = true := any_eq_true.mpr hold
    rw [hany] at hone
    cases woken with
    | nil => cases hone
    | cons k woken =>
      rw [all_cons, Bool.and_eq_true] at hwoken
      rcases hk : s.threads[k]? with _ | x
      · rw [hk] at hwoken
        cases hwoken.1
      · rw [hk] at hwoken
        cases x with
        | waiting m' =>
          have hne : k ≠ t := by
            rintro rfl
            rw [hk] at hpc
            cases hpc
          refine ⟨k, m', ?_⟩
          unfold wakeAll
          rw [getElem?_mapIdx, getElem?_set_ne (Ne.symm hne), hk, Option.map_some,
            if_pos mem_cons_self]
          rfl
        | _ => cases hwoken.1
  · intro i a' b' hi
    rcases mem_wakeAll hi with ⟨y, hy, hym⟩
    have hyu : y = .updating a' b' := by
      split_ifs at hym
      · cases y with
        | updating a'' b'' => exact hym.symm
        | _ => cases hym
      · exact hym.symm
    subst hyu
    rcases get_set hpc hy with ⟨-, hx⟩ | ⟨-, hold⟩
    · cases hx
    · exact h.master i a' b' hold

/-- `rc_stop_update` when nobody is counted as waiting. -/
theorem Inv.stopQuietly (h : Inv s) {a b : Bool} (hpc : s.threads[t]? = some (.updating a b))
    (hup : s.updateState = true) (hnone : s.updateWaiters = 0) :
    Inv { s with updateState := false, threads := s.threads.set t .outside } := by
  have hcount := h.updating
  have hcounted := h.counted
  rw [hup, if_pos rfl] at hcount
  have hset := Threads.countP_set (p := Pc.isUpdating) (b := .outside) hpc
  have hsetW := Threads.countP_set (p := Pc.isWaiting) (b := .outside) hpc
  simp only [Pc.isUpdating, Pc.isWaiting, if_true, Bool.false_eq_true, if_false, Nat.add_zero]
    at hset hsetW
  refine ⟨h.not_failed, ?_, ?_, ?_, ?_⟩
  · rw [if_neg Bool.false_ne_true]
    dsimp only
    omega
  · dsimp only
    omega
  · rintro - ⟨i, m, hi⟩
    have hpos : 0 < (s.threads.set t .outside).countP Pc.isWaiting :=
      Threads.countP_pos_of_get hi rfl
    omega
  · intro i a' b' hi
    rcases get_set hpc hi with ⟨-, hx⟩ | ⟨-, hold⟩
    · cases hx
    · exact h.master i a' b' hold

/-- A thread goes to sleep while an update is running. -/
theorem Inv.sleep (h : Inv s) (hpc : s.threads[t]? = some .outside) (hup : s.updateState = true)
    (m : Bool) :
    Inv { s with
      updateWaiters := s.updateWaiters + 1
      threads := s.threads.set t (.waiting m) } := by
  have hcounted := h.counted
  have hset := Threads.countP_set (p := Pc.isUpdating) (b := .waiting m) hpc
  have hsetW := Threads.countP_set (p := Pc.isWaiting) (b := .waiting m) hpc
  simp only [Pc.isUpdating, Pc.isWaiting, if_true, Bool.false_eq_true, if_false, Nat.add_zero]
    at hset hsetW
  refine ⟨h.not_failed, ?_, ?_, ?_, ?_⟩
  · rw [← h.updating]
    exact hset
  · dsimp only
    omega
  · intro hfree
    rw [show s.updateState = false from hfree] at hup
    cases hup
  · intro i a b hi
    rcases get_set hpc hi with ⟨-, hx⟩ | ⟨-, hold⟩
    · cases hx
    · exact h.master i a b hold

/-- A thread wakes up without a signal; it stays counted. -/
theorem Inv.spurious (h : Inv s) {m : Bool} (hpc : s.threads[t]? = some (.waiting m)) :
    Inv { s with threads := s.threads.set t (.signalled m) } := by
  have hcounted := h.counted
  have hset := Threads.countP_set (p := Pc.isUpdating) (b := .signalled m) hpc
  have hsetW := Threads.countP_set (p := Pc.isWaiting) (b := .signalled m) hpc
  simp only [Pc.isUpdating, Pc.isWaiting, if_true, Bool.false_eq_true, if_false, Nat.add_zero]
    at hset hsetW
  refine ⟨h.not_failed, ?_, ?_, ?_, ?_⟩
  · rw [← h.updating]
    exact hset
  · dsimp only
    omega
  · intro _ _
    have hlt : t < s.threads.length := (List.getElem?_eq_some_iff.mp hpc).1
    exact ⟨t, m, List.getElem?_set_self hlt⟩
  · intro i a b hi
    rcases get_set hpc hi with ⟨-, hx⟩ | ⟨-, hold⟩
    · cases hx
    · exact h.master i a b hold

/-! ## One step -/

theorem step_keeps (s : RcState) (l : Label) (s' : RcState) (hok : Undisturbed s l)
    (h : step s l = some s') (hinv : Inv s) : Inv s' := by
  unfold step at h
  rw [if_neg (Bool.not_eq_true _ ▸ hinv.not_failed)] at h
  cases l with
  | startUpdate t =>
    dsimp only at h
    split_ifs at h with hpc hup
    · cases h
      exact hinv.sleep hpc hup _
    · cases h
      exact hinv.begin hpc rfl (Bool.not_eq_true _ ▸ hup)
  | resume t =>
    dsimp only at h
    split at h
    · rename_i m hpc
      rw [hok.1, if_neg Bool.false_ne_true] at h
      cases h
      rw [hok.2 m hpc]
      exact hinv.begin hpc rfl hok.1
    · cases h
  | spurious t =>
    dsimp only at h
    split at h
    · rename_i m hpc
      cases h
      exact hinv.spurious hpc
    · cases h
  | stopUpdate t woken =>
    dsimp only at h
    split at h
    · rename_i a b hpc
      -- the thread that updates has set the flag
      have hup : s.updateState = true := by
        have hpos : 0 < s.threads.countP Pc.isUpdating := Threads.countP_pos_of_get hpc rfl
        rw [hinv.updating] at hpos
        by_contra hno
        rw [if_neg hno] at hpos
        exact Nat.lt_irrefl 0 hpos
      rw [if_neg (not_not.mpr hup)] at h
      split_ifs at h with hpos hwake
      · cases h
        exact hinv.stopUpdate hpc hup hwake
      · cases h
        exact hinv.stopQuietly hpc hup (Nat.eq_zero_of_not_pos hpos)
    · cases h
  | setMaster index =>
    cases h
    exact ⟨hinv.not_failed, hinv.updating, hinv.counted, hinv.awake, hinv.master⟩

/-- A thread that comes out of its wait and finds an update fails the assertion;
one that finds another master returns an old answer. -/
theorem step_breaks (s : RcState) (l : Label) (s' : RcState) (hno : ¬ Undisturbed s l)
    (h : step s l = some s') (hinv : Inv s) : ¬ UpdateOk s' := by
  cases l with
  | resume t =>
    unfold step at h
    rw [if_neg (Bool.not_eq_true _ ▸ hinv.not_failed)] at h
    dsimp only at h
    split at h
    · rename_i m hpc
      split_ifs at h with hup
      · cases h
        intro hgood
        cases hgood.asserted
      · cases h
        intro hgood
        have hlt : t < s.threads.length := (List.getElem?_eq_some_iff.mp hpc).1
        have hm : m = isCsMaster s := hgood.master t m (isCsMaster s) (List.getElem?_set_self hlt)
        refine hno ⟨Bool.not_eq_true _ ▸ hup, fun m' hm' => ?_⟩
        rw [hpc] at hm'
        cases hm'
        exact hm
    · cases h
  | _ => exact absurd trivial hno

theorem start_inv (n master : Nat) : Inv (start n master) := by
  have hall : ∀ (i : Nat) x, (List.replicate n Pc.outside)[i]? = some x → x = .outside := by
    intro i x hi
    exact eq_of_mem_replicate (mem_of_getElem? hi)
  refine ⟨rfl, ?_, ?_, ?_, ?_⟩
  · rw [start, countP_replicate]
    rfl
  · rw [start, countP_replicate]
    exact Nat.le_refl 0
  · rintro - ⟨i, m, hi⟩
    cases hall i _ hi
  · intro i a b hi
    cases hall i _ hi

/-- For any number of threads, in any order: the updates are serialised exactly if
no thread that comes out of its wait finds an update running or another master. -/
theorem update_serialised_iff (n master : Nat) (labels : List Label) :
    Run.Always step UpdateOk (start n master) labels ↔
      Run.Along step Undisturbed (start n master) labels :=
  Run.always_iff_along step Undisturbed Inv UpdateOk (fun _ h => h.updateOk) step_keeps step_breaks
    labels (start_inv n master)

/-- A waiter is signalled, and a new caller gets the mutex before it. -/
theorem overtaken_waiter_fails :
    ∃ s, Run.exec step (start 3 0)
        [.startUpdate 0, .startUpdate 1, .stopUpdate 0 [1], .startUpdate 2, .resume 1] = some s ∧
      ¬ UpdateOk s := by
  refine ⟨_, rfl, fun hgood => ?_⟩
  cases hgood.asserted

end IClaustron.ClusterServer.Update
