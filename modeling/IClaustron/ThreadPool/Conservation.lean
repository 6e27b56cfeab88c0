import IClaustron.ThreadPool.Pool

/-!
# ThreadPool.Conservation — every thread id is in one place

* `act_good` — what an orderly step keeps, and that no assertion fails in it.
* `pool_conserved` — the runs in which no id is lost or freed twice.
-/

namespace IClaustron.ThreadPool

open Lib List Function

variable {s s' : State} {free stopped : List Nat} {id : Nat}

/-! ## Lists -/

/-- The links stand for these two lists. -/
structure Lists (s : State) (free stopped : List Nat) : Prop where
  freeList : Chain s.next s.firstFree free
  stopList : Dll s.next s.prev s.firstStopped stopped
  numFree : s.numFree = free.length
  numStopped : s.numStopped = stopped.length
  free_iff : ∀ i, s.free i = true ↔ i ∈ free
  stopped_iff : ∀ i, s.stopped i = true ↔ i ∈ stopped

/-- The rest of the state does not matter. -/
theorem Lists.congr (h : Lists s free stopped) (hnext : s'.next = s.next) (hprev : s'.prev = s.prev)
    (hfree : s'.free = s.free) (hstop : s'.stopped = s.stopped) (hff : s'.firstFree = s.firstFree)
    (hfs : s'.firstStopped = s.firstStopped) (hnf : s'.numFree = s.numFree)
    (hns : s'.numStopped = s.numStopped) : Lists s' free stopped := by
  constructor
  · rw [hnext, hff]
    exact h.freeList
  · rw [hnext, hprev, hfs]
    exact h.stopList
  · rw [hnf]
    exact h.numFree
  · rw [hns]
    exact h.numStopped
  · rw [hfree]
    exact h.free_iff
  · rw [hstop]
    exact h.stopped_iff

variable {k n : Nat} {c d : Call} {cs : List Call} {e : Option Call}

theorem inc_eq (h : n + 1 < 2 ^ 32) : inc n = n + 1 := Nat.mod_eq_of_lt h

theorem dec_succ (h : n + 1 < 2 ^ 32) : dec (n + 1) = n := by
  unfold dec
  omega

theorem Lists.takeFree (h : Lists s (id :: free) stopped) (hid : id ∉ stopped)
    (hlen : free.length + 1 < 2 ^ 32) : Lists (takeFree s id) free stopped := by
  have hfree : id ∉ free := (nodup_cons.mp h.freeList.nodup).1
  refine ⟨Seg.update hfree h.freeList.2, h.stopList.congr ?_ (fun _ _ => rfl), ?_, h.numStopped,
    ?_, h.stopped_iff⟩
  · intro y hy
    refine (update_of_ne ?_ _ _).symm
    rintro rfl
    exact hid hy
  · change dec s.numFree = _
    rw [h.numFree, length_cons, dec_succ hlen]
  · intro i
    change update s.free id false i = true ↔ _
    by_cases hi : i = id
    · simp [hi, hfree]
    · simp [hi, h.free_iff]

theorem Lists.freeThreadId (h : Lists s free stopped) (hfree : id ∉ free) (hid : id ∉ stopped)
    (hlen : free.length + 1 < 2 ^ 32) : Lists (freeThreadId s id) (id :: free) stopped := by
  refine ⟨⟨rfl, ?_⟩, h.stopList.congr ?_ (fun _ _ => rfl), ?_, h.numStopped, ?_, h.stopped_iff⟩
  · change Seg (update s.next id s.firstFree) (update s.next id s.firstFree id) free none
    rw [update_self]
    exact Seg.update hfree h.freeList
  · intro y hy
    refine (update_of_ne ?_ _ _).symm
    rintro rfl
    exact hid hy
  · change inc s.numFree = _
    rw [h.numFree, length_cons, inc_eq hlen]
  · intro i
    change update s.free id true i = true ↔ _
    rw [mem_cons, ← h.free_iff i]
    by_cases hi : i = id
    · simp [hi]
    · simp [hi]

theorem Lists.insertStoppedList (h : Lists s free stopped) (hfree : id ∉ free) (hid : id ∉ stopped)
    (hlen : stopped.length + 1 < 2 ^ 32) : Lists (insertStoppedList s id) free (id :: stopped) := by
  refine ⟨Seg.update hfree h.freeList, h.stopList.push hid, h.numFree, ?_, h.free_iff, ?_⟩
  · change inc s.numStopped = _
    rw [h.numStopped, length_cons, inc_eq hlen]
  · intro i
    change update s.stopped id true i = true ↔ _
    rw [mem_cons, ← h.stopped_iff i]
    by_cases hi : i = id
    · simp [hi]
    · simp [hi]

theorem Lists.removeStoppedList (h : Lists s free stopped) (hdis : List.Disjoint free stopped)
    (hid : id ∈ stopped) (hlen : stopped.length < 2 ^ 32) :
    Lists (removeStoppedList s id) free (stopped.erase id) := by
  have hpos : stopped.length = (stopped.erase id).length + 1 := by
    rw [length_erase_of_mem hid]
    have := length_pos_of_mem hid
    omega
  refine ⟨h.freeList.congr ?_, h.stopList.erase hid, h.numFree, ?_, h.free_iff, ?_⟩
  · -- The cell before the removed one is on the stop list.
    intro y hy
    refine (setLink_of_ne ?_).symm
    intro hprev
    exact hdis hy (h.stopList.prev_mem hid hprev)
  · change dec s.numStopped = _
    rw [h.numStopped, hpos, dec_succ (by omega)]
  · intro i
    change update s.stopped id false i = true ↔ _
    rw [h.stopList.nodup.mem_erase_iff, ← h.stopped_iff i]
    by_cases hi : i = id
    · simp [hi]
    · simp [hi]

/-! ## Calls -/

theorem count_heldIds_cons (c : Call) (cs : List Call) (i : Nat) :
    (heldIds (c :: cs)).count i =
      (if c.holds = true ∧ c.id = i then 1 else 0) + (heldIds cs).count i := by
  unfold heldIds
  rw [filter_cons]
  by_cases hc : c.holds = true
  · rw [if_pos hc, map_cons, count_cons, Nat.add_comm]
    simp [hc]
  · rw [if_neg hc]
    simp [hc]

theorem count_heldIds_erase (hc : c ∈ cs) (i : Nat) :
    (heldIds cs).count i =
      (if c.holds = true ∧ c.id = i then 1 else 0) + (heldIds (cs.erase c)).count i := by
  rw [← count_heldIds_cons]
  exact (((perm_cons_erase hc).filter _).map _).count_eq i

/-- Two calls about the same id are the same. -/
theorem call_eq_of_id (h : (cs.map Call.id).Nodup) (hc : c ∈ cs) (hd : d ∈ cs) (hid : c.id = d.id) :
    c = d :=
  inj_on_of_nodup_map h hc hd hid

theorem mem_erase_call (h : (cs.map Call.id).Nodup) (hc : c ∈ cs) :
    d ∈ cs.erase c ↔ d ∈ cs ∧ d.id ≠ c.id := by
  have hnodup : cs.Nodup := h.of_map
  rw [hnodup.mem_erase_iff]
  constructor
  · rintro ⟨hne, hd⟩
    exact ⟨hd, fun hid => hne (call_eq_of_id h hd hc hid)⟩
  · rintro ⟨hd, hne⟩
    exact ⟨fun heq => hne (congrArg Call.id heq), hd⟩

/-! ## Threads -/

/-- The id has a thread that was not joined. -/
def Live (s : State) (i : Nat) : Prop := ∃ k, s.thread i = some k ∧ k ∉ s.joined

/-- Every thread that was not joined runs or is on the stop list. -/
structure ThreadsOk (s : State) (stopped : List Nat) : Prop where
  thread_lt : ∀ i k, s.thread i = some k → k < s.created
  thread_inj : ∀ i j k, s.thread i = some k → s.thread j = some k → i = j
  running_thread : ∀ i k, (i, k) ∈ s.running → s.thread i = some k
  running_unjoined : ∀ i k, (i, k) ∈ s.running → k ∉ s.joined
  stopped_thread : ∀ i ∈ stopped, ∃ k, s.thread i = some k
  joined_nodup : s.joined.Nodup
  joined_lt : ∀ k ∈ s.joined, k < s.created
  kept : ∀ k, k < s.created → k ∈ s.joined ∨
    ∃ i, s.thread i = some k ∧ ((i, k) ∈ s.running ∨ i ∈ stopped)

section

variable (h : ThreadsOk s stopped)

include h

theorem ThreadsOk.congr (hthread : s'.thread = s.thread) (hrun : s'.running = s.running)
    (hcreated : s'.created = s.created) (hjoined : s'.joined = s.joined) :
    ThreadsOk s' stopped := by
  constructor <;> simp only [hthread, hrun, hcreated, hjoined]
  exacts [h.thread_lt, h.thread_inj, h.running_thread, h.running_unjoined, h.stopped_thread,
    h.joined_nodup, h.joined_lt, h.kept]

/-- A thread that has ended and was not joined is on the stop list. -/
theorem ThreadsOk.mem_stopped {i : Nat} (hi : s.thread i = some k) (hk : k ∉ s.joined)
    (hend : Ended s i) : i ∈ stopped := by
  rcases h.kept k (h.thread_lt i k hi) with hjoined | ⟨j, hj, hrun | hstop⟩
  · exact absurd hjoined hk
  · exact absurd hrun (hend k hi j)
  · cases h.thread_inj i j k hi hj
    exact hstop

/-- The thread state of an id without a thread is cleared. -/
theorem ThreadsOk.clear (hstop : id ∉ stopped) (hrun : ∀ k, (id, k) ∉ s.running) :
    ThreadsOk { s with thread := update s.thread id none } stopped := by
  have hne : ∀ i k, update s.thread id none i = some k → i ≠ id ∧ s.thread i = some k := by
    intro i k hk
    by_cases hi : i = id
    · subst hi
      simp at hk
    · exact ⟨hi, by simpa [hi] using hk⟩
  have hkeep : ∀ i, i ≠ id → update s.thread id none i = s.thread i := by
    intro i hi
    simp [hi]
  refine ⟨?_, ?_, ?_, h.running_unjoined, ?_, h.joined_nodup, h.joined_lt, ?_⟩
  · intro i k hk
    exact h.thread_lt i k (hne i k hk).2
  · intro i j k hi hj
    exact h.thread_inj i j k (hne i k hi).2 (hne j k hj).2
  · intro i k hik
    have hi : i ≠ id := by
      rintro rfl
      exact hrun k hik
    exact (hkeep i hi).trans (h.running_thread i k hik)
  · intro i hi
    have hi' : i ≠ id := by
      rintro rfl
      exact hstop hi
    obtain ⟨k, hk⟩ := h.stopped_thread i hi
    exact ⟨k, (hkeep i hi').trans hk⟩
  · intro k hk
    rcases h.kept k hk with hjoined | ⟨i, hi, hor⟩
    · exact .inl hjoined
    · have hi' : i ≠ id := by
        rintro rfl
        rcases hor with hor | hor
        · exact hrun k hor
        · exact hstop hor
      exact .inr ⟨i, (hkeep i hi').trans hi, hor⟩

/-- A new thread. -/
theorem ThreadsOk.create (hstop : id ∉ stopped) (hrun : ∀ k, (id, k) ∉ s.running) :
    ThreadsOk { s with
      thread := update s.thread id (some s.created)
      running := (id, s.created) :: s.running
      created := s.created + 1 } stopped := by
  have hnew : ∀ i k, update s.thread id (some s.created) i = some k →
      (i = id ∧ k = s.created) ∨ (i ≠ id ∧ s.thread i = some k) := by
    intro i k hk
    by_cases hi : i = id
    · subst hi
      exact .inl ⟨rfl, by simpa using hk.symm⟩
    · exact .inr ⟨hi, by simpa [hi] using hk⟩
  have hkeep : ∀ i, i ≠ id → update s.thread id (some s.created) i = s.thread i := by
    intro i hi
    simp [hi]
  refine ⟨?_, ?_, ?_, ?_, ?_, h.joined_nodup, ?_, ?_⟩
  · intro i k hk
    change k < s.created + 1
    rcases hnew i k hk with ⟨-, rfl⟩ | ⟨-, hk⟩
    · omega
    · have := h.thread_lt i k hk
      omega
  · intro i j k hi hj
    rcases hnew i k hi with ⟨rfl, rfl⟩ | ⟨-, hi⟩
    · rcases hnew j _ hj with ⟨rfl, -⟩ | ⟨-, hj⟩
      · rfl
      · exact absurd (h.thread_lt j _ hj) (Nat.lt_irrefl _)
    · rcases hnew j k hj with ⟨-, rfl⟩ | ⟨-, hj⟩
      · exact absurd (h.thread_lt i _ hi) (Nat.lt_irrefl _)
      · exact h.thread_inj i j k hi hj
  · intro i k hik
    rcases mem_cons.mp hik with heq | hold
    · cases heq
      simp
    · have hi : i ≠ id := by
        rintro rfl
        exact hrun k hold
      exact (hkeep i hi).trans (h.running_thread i k hold)
  · intro i k hik hk
    rcases mem_cons.mp hik with heq | hik
    · cases heq
      exact absurd (h.joined_lt _ hk) (Nat.lt_irrefl _)
    · exact h.running_unjoined i k hik hk
  · intro i hi
    have hi' : i ≠ id := by
      rintro rfl
      exact hstop hi
    obtain ⟨k, hk⟩ := h.stopped_thread i hi
    exact ⟨k, (hkeep i hi').trans hk⟩
  · intro k hk
    exact Nat.lt_succ_of_lt (h.joined_lt k hk)
  · intro k hk
    rcases Nat.lt_succ_iff_lt_or_eq.mp hk with hk | rfl
    · rcases h.kept k hk with hjoined | ⟨i, hi, hor⟩
      · exact .inl hjoined
      · have hi' : i ≠ id := by
          rintro rfl
          rcases hor with hor | hor
          · exact hrun k hor
          · exact hstop hor
        exact .inr ⟨i, (hkeep i hi').trans hi, hor.imp_left (mem_cons_of_mem _)⟩
    · exact .inr ⟨id, by simp, .inl mem_cons_self⟩

/-- A thread comes to its end. -/
theorem ThreadsOk.stop (hk : (id, k) ∈ s.running) :
    ThreadsOk { s with running := s.running.erase (id, k) } (id :: stopped) := by
  refine ⟨h.thread_lt, h.thread_inj, ?_, ?_, ?_, h.joined_nodup, h.joined_lt, ?_⟩
  · intro i k' hik
    exact h.running_thread i k' (mem_of_mem_erase hik)
  · intro i k' hik
    exact h.running_unjoined i k' (mem_of_mem_erase hik)
  · intro i hi
    rcases mem_cons.mp hi with rfl | hi
    · exact ⟨k, h.running_thread i k hk⟩
    · exact h.stopped_thread i hi
  · intro k' hk'
    rcases h.kept k' hk' with hjoined | ⟨i, hi, hrun | hstop⟩
    · exact .inl hjoined
    · refine .inr ⟨i, hi, ?_⟩
      by_cases heq : (i, k') = (id, k)
      · cases heq
        exact .inr mem_cons_self
      · exact .inl ((mem_erase_of_ne heq).mpr hrun)
    · exact .inr ⟨i, hi, .inr (mem_cons_of_mem _ hstop)⟩

/-- A thread that has ended is joined. -/
theorem ThreadsOk.join (hid : s.thread id = some k) (hk : k ∉ s.joined) (hend : Ended s id) :
    ThreadsOk (gThreadJoin s id) stopped := by
  have hjoined : (gThreadJoin s id).joined = k :: s.joined := by
    simp [gThreadJoin, hid]
  refine ⟨h.thread_lt, h.thread_inj, h.running_thread, ?_, h.stopped_thread, ?_, ?_, ?_⟩
  · intro i k' hik hmem
    rw [hjoined] at hmem
    rcases mem_cons.mp hmem with rfl | hmem
    · exact hend k' hid i hik
    · exact h.running_unjoined i k' hik hmem
  · rw [hjoined]
    exact nodup_cons.mpr ⟨hk, h.joined_nodup⟩
  · intro k' hk'
    rw [hjoined] at hk'
    rcases mem_cons.mp hk' with rfl | hk'
    · exact h.thread_lt id k' hid
    · exact h.joined_lt k' hk'
  · intro k' hk'
    rw [hjoined]
    exact (h.kept k' hk').imp_left (mem_cons_of_mem k)

/-- A thread that was joined leaves the stop list. -/
theorem ThreadsOk.remove (hid : s.thread id = some k) (hk : k ∈ s.joined) (hnodup : stopped.Nodup) :
    ThreadsOk s (stopped.erase id) := by
  refine ⟨h.thread_lt, h.thread_inj, h.running_thread, h.running_unjoined, ?_, h.joined_nodup,
    h.joined_lt, ?_⟩
  · intro i hi
    exact h.stopped_thread i (mem_of_mem_erase hi)
  · intro k' hk'
    rcases h.kept k' hk' with hjoined | ⟨i, hi, hrun | hstop⟩
    · exact .inl hjoined
    · exact .inr ⟨i, hi, .inl hrun⟩
    · by_cases hid' : i = id
      · subst hid'
        cases hid.symm.trans hi
        exact .inl hk
      · exact .inr ⟨i, hi, .inr (hnodup.mem_erase_iff.mpr ⟨hid', hstop⟩)⟩

end

/-! ## The invariant -/

/-- What is known about a call in progress. -/
def CallOk (s : State) (stopped : List Nat) : Call → Prop
  | .held _ | .acquired _ => True
  | .synchWait i _ | .waiting i => Live s i
  | .joining i inStart => inStart = false ∧ Live s i
  | .joined i inStart => inStart = false ∧ i ∈ stopped ∧ ∃ k ∈ s.joined, s.thread i = some k
  | .removed _ inStart => inStart = false
  | .failed _ => False

structure Inv (s : State) (free stopped : List Nat) : Prop where
  size_lt : s.size < 2 ^ 32
  lists : Lists s free stopped
  perm : (free ++ stopped ++ s.inUse).Perm (List.range s.size)
  threads : ThreadsOk s stopped
  calls_nodup : (s.calls.map Call.id).Nodup
  calls_ok : ∀ c ∈ s.calls, CallOk s stopped c
  stopped_live : ∀ i ∈ stopped, NoCall s i → Live s i

section

variable (h : Inv s free stopped)

include h

theorem Inv.nodup : (free ++ stopped ++ s.inUse).Nodup :=
  h.perm.nodup_iff.mpr nodup_range

theorem Inv.disjoint : List.Disjoint free stopped :=
  disjoint_of_nodup_append (nodup_append.mp h.nodup).1

theorem Inv.length_lt : free.length + stopped.length + s.inUse.length < 2 ^ 32 := by
  have hlen := h.perm.length_eq
  rw [length_append, length_append, length_range] at hlen
  rw [hlen]
  exact h.size_lt

/-- An id in use is on no list. -/
theorem Inv.not_mem_of_inUse (hid : id ∈ s.inUse) : id ∉ free ∧ id ∉ stopped := by
  have hdis := disjoint_of_nodup_append h.nodup
  exact ⟨fun hf => hdis (mem_append_left _ hf) hid, fun hs => hdis (mem_append_right _ hs) hid⟩

end

theorem mem_heldIds (hc : c ∈ cs) (hholds : c.holds = true) : c.id ∈ heldIds cs :=
  mem_map_of_mem (mem_filter.mpr ⟨hc, hholds⟩)

/-- An id that a call has is on no list and has no running thread. -/
theorem Inv.held (h : Inv s free stopped) (hc : c ∈ s.calls) (hholds : c.holds = true) :
    c.id ∉ free ∧ c.id ∉ stopped ∧ ∀ k, (c.id, k) ∉ s.running := by
  have hmem := mem_heldIds hc hholds
  obtain ⟨hfree, hstop⟩ := h.not_mem_of_inUse (mem_append_left _ hmem)
  refine ⟨hfree, hstop, ?_⟩
  intro k hk
  have hnodup : s.inUse.Nodup := (nodup_append.mp h.nodup).2.1
  exact (disjoint_of_nodup_append hnodup) hmem (mem_map_of_mem hk)

/-- An id with a running thread is on no list. -/
theorem Inv.run (h : Inv s free stopped) (hk : (id, k) ∈ s.running) : id ∉ free ∧ id ∉ stopped :=
  h.not_mem_of_inUse (mem_append_right _ (mem_map_of_mem hk))

/-- The call of an id, when the thread state of other ids may have changed. -/
theorem CallOk.frame {stopped' : List Nat} (h : CallOk s stopped c)
    (hthread : s'.thread c.id = s.thread c.id)
    (hjoined : ∀ k, s.thread c.id = some k → (k ∈ s'.joined ↔ k ∈ s.joined))
    (hstop : c.id ∈ stopped → c.id ∈ stopped') : CallOk s' stopped' c := by
  have hlive : Live s c.id → Live s' c.id := by
    rintro ⟨k, hk, hnot⟩
    exact ⟨k, hthread.trans hk, fun hmem => hnot ((hjoined k hk).mp hmem)⟩
  cases c with
  | held i => trivial
  | acquired i => trivial
  | synchWait i b => exact hlive h
  | joining i b => exact ⟨h.1, hlive h.2⟩
  | joined i b =>
    obtain ⟨hb, hi, k, hk, hth⟩ := h
    exact ⟨hb, hstop hi, k, (hjoined k hth).mpr hk, hthread.trans hth⟩
  | removed i b => exact h
  | waiting i => exact hlive h
  | failed i => exact h

/-! ## One id changes -/

/-- A step that is about the id `t` leaves all others as they were. -/
structure OnlyAt (t : Nat) (s s' : State) (stopped stopped' : List Nat) : Prop where
  size : s'.size = s.size
  calls : ∀ d : Call, d.id ≠ t → (d ∈ s'.calls ↔ d ∈ s.calls)
  thread : ∀ i, i ≠ t → s'.thread i = s.thread i
  joined : ∀ i, i ≠ t → ∀ k, s.thread i = some k → (k ∈ s'.joined ↔ k ∈ s.joined)
  stopped_iff : ∀ i, i ≠ t → (i ∈ stopped' ↔ i ∈ stopped)

/-- The rest of the invariant follows from what holds for the id itself. -/
theorem Inv.frame {free' stopped' : List Nat} {t : Nat} (h : Inv s free stopped)
    (hat : OnlyAt t s s' stopped stopped') (hlists : Lists s' free' stopped')
    (hperm : (free' ++ stopped' ++ s'.inUse).Perm (List.range s.size))
    (hthreads : ThreadsOk s' stopped') (hnodup : (s'.calls.map Call.id).Nodup)
    (hself : ∀ d ∈ s'.calls, d.id = t → CallOk s' stopped' d)
    (hlive : t ∈ stopped' → NoCall s' t → Live s' t) : Inv s' free' stopped' := by
  refine ⟨hat.size ▸ h.size_lt, hlists, hat.size ▸ hperm, hthreads, hnodup, ?_, ?_⟩
  · intro d hd
    by_cases ht : d.id = t
    · exact hself d hd ht
    · refine (h.calls_ok d ((hat.calls d ht).mp hd)).frame (hat.thread _ ht) (hat.joined _ ht) ?_
      exact (hat.stopped_iff _ ht).mpr
  · intro i hi hno
    by_cases ht : i = t
    · subst ht
      exact hlive hi hno
    · have hno' : NoCall s i := by
        intro d hd hdi
        have hdt : d.id ≠ t := hdi ▸ ht
        exact hno d ((hat.calls d hdt).mpr hd) hdi
      obtain ⟨k, hk, hnot⟩ := h.stopped_live i ((hat.stopped_iff i ht).mp hi) hno'
      exact ⟨k, (hat.thread i ht).trans hk, fun hmem => hnot ((hat.joined i ht k hk).mp hmem)⟩

theorem nodup_move (h : (cs.map Call.id).Nodup) (hc : c ∈ cs) (hid : ∀ d ∈ e, d.id = c.id) :
    ((e.toList ++ cs.erase c).map Call.id).Nodup := by
  have hperm := (perm_cons_erase hc).map Call.id
  have hnodup : ((c :: cs.erase c).map Call.id).Nodup := hperm.nodup_iff.mp h
  cases e with
  | none => exact (nodup_cons.mp hnodup).2
  | some d =>
    have hd := hid d rfl
    simpa [hd] using hnodup

theorem mem_move_iff (h : (cs.map Call.id).Nodup) (hc : c ∈ cs) (hid : ∀ d ∈ e, d.id = c.id)
    (hd : d.id ≠ c.id) : d ∈ e.toList ++ cs.erase c ↔ d ∈ cs := by
  rw [mem_append, mem_erase_call h hc]
  constructor
  · rintro (hmem | hmem)
    · exact absurd (hid d (by simpa using hmem)) hd
    · exact hmem.1
  · intro hmem
    exact .inr ⟨hmem, hd⟩

/-- The only call about the id is the new one. -/
theorem eq_of_mem_move (h : (cs.map Call.id).Nodup) (hc : c ∈ cs) (hd : d ∈ e.toList ++ cs.erase c)
    (hid : d.id = c.id) : d ∈ e := by
  rcases mem_append.mp hd with hd | hd
  · simpa using hd
  · exact absurd hid ((mem_erase_call h hc).mp hd).2

theorem nodup_add (h : (s.calls.map Call.id).Nodup) (hno : NoCall s c.id) :
    ((c :: s.calls).map Call.id).Nodup := by
  rw [map_cons, nodup_cons]
  refine ⟨?_, h⟩
  intro hmem
  obtain ⟨d, hd, hid⟩ := mem_map.mp hmem
  exact hno d hd hid

theorem mem_add_iff (hd : d.id ≠ c.id) : d ∈ c :: cs ↔ d ∈ cs := by
  rw [mem_cons, or_iff_right]
  rintro rfl
  exact hd rfl

theorem eq_of_mem_add (hno : NoCall s c.id) (hd : d ∈ c :: s.calls) (hid : d.id = c.id) :
    d = c := by
  rcases mem_cons.mp hd with heq | hd
  · exact heq
  · exact absurd hid (hno d hd)

/-! ## Counting -/

theorem count_cons_id (l : List Nat) (id i : Nat) :
    (id :: l).count i = (if id = i then 1 else 0) + l.count i := by
  rw [count_cons, Nat.add_comm]
  simp

theorem count_erase_id {l : List Nat} (h : id ∈ l) (i : Nat) :
    l.count i = (if id = i then 1 else 0) + (l.erase id).count i := by
  rw [← count_cons_id]
  exact (perm_cons_erase h).count_eq i

theorem count_erase_running {running : List (Nat × Nat)} (h : (id, k) ∈ running) (i : Nat) :
    (running.map Prod.fst).count i =
      (if id = i then 1 else 0) + ((running.erase (id, k)).map Prod.fst).count i := by
  rw [← count_cons_id]
  exact ((perm_cons_erase h).map Prod.fst).count_eq i

theorem count_move (hc : c ∈ cs) (i : Nat) :
    (heldIds (e.toList ++ cs.erase c)).count i + (if c.holds = true ∧ c.id = i then 1 else 0) =
      (heldIds e.toList).count i + (heldIds cs).count i := by
  rw [count_heldIds_erase hc i]
  cases e with
  | none =>
    simp [heldIds]
    omega
  | some d =>
    simp only [Option.toList_some, singleton_append, count_heldIds_cons]
    simp [heldIds]
    omega

theorem Inv.count (h : Inv s free stopped) (i : Nat) :
    free.count i + stopped.count i + ((heldIds s.calls).count i + (s.running.map Prod.fst).count i) =
      (List.range s.size).count i := by
  have hcount := h.perm.count_eq i
  rw [count_append, count_append, State.inUse, count_append] at hcount
  exact hcount

theorem perm_of_count (hcount : ∀ i, free.count i + stopped.count i +
      ((heldIds s.calls).count i + (s.running.map Prod.fst).count i) = (List.range n).count i) :
    (free ++ stopped ++ s.inUse).Perm (List.range n) := by
  rw [perm_iff_count]
  intro i
  rw [count_append, count_append, State.inUse, count_append]
  exact hcount i

/-! ## Steps -/

/-- The flags do not matter. -/
theorem Inv.flags (h : Inv s free stopped) (started synchStartup : Nat → Bool)
    (clearing : List (Nat × Bool)) (aborted : Bool) :
    Inv { s with started, synchStartup, clearing, aborted } free stopped :=
  ⟨h.size_lt, h.lists.congr rfl rfl rfl rfl rfl rfl rfl rfl, h.perm, h.threads.congr rfl rfl rfl rfl,
    h.calls_nodup,
    fun c hc => (h.calls_ok c hc).frame rfl (fun _ _ => Iff.rfl) fun hmem => hmem, h.stopped_live⟩

/-- No call is about an id on the free list. -/
theorem Inv.noCall_of_free (h : Inv s free stopped) (hid : id ∈ free) : NoCall s id := by
  have hlive : ¬ Live s id := by
    rintro ⟨k, hk, hnot⟩
    rcases h.threads.kept k (h.threads.thread_lt id k hk) with hjoined | ⟨j, hj, hrun | hstop⟩
    · exact hnot hjoined
    · cases h.threads.thread_inj id j k hk hj
      exact (h.run hrun).1 hid
    · cases h.threads.thread_inj id j k hk hj
      exact h.disjoint hid hstop
  rintro c hc rfl
  have hok := h.calls_ok c hc
  cases c with
  | held i | acquired i | removed i b => exact (h.held hc rfl).1 hid
  | synchWait i b => exact hlive hok
  | joining i b => exact hlive hok.2
  | joined i b => exact h.disjoint hid hok.2.1
  | waiting i => exact hlive hok
  | failed i => exact hok

theorem Inv.getFreeThreadId (h : Inv s (id :: free) stopped) (hc : c.id = id)
    (hholds : c.holds = true) (hok : CallOk s stopped c) :
    Inv { takeFree s id with calls := c :: s.calls } free stopped := by
  have hno : NoCall s c.id := hc ▸ h.noCall_of_free mem_cons_self
  have hstop : id ∉ stopped := h.disjoint mem_cons_self
  have hlen := h.length_lt
  rw [length_cons] at hlen
  have hlists := h.lists.takeFree hstop (by omega)
  refine h.frame (t := id) ⟨rfl, ?_, fun _ _ => rfl, fun _ _ _ _ => Iff.rfl, fun _ _ => Iff.rfl⟩
    (hlists.congr rfl rfl rfl rfl rfl rfl rfl rfl) ?_ (h.threads.congr rfl rfl rfl rfl)
    (nodup_add h.calls_nodup hno) ?_ ?_
  · intro d hd
    exact mem_add_iff (hc ▸ hd)
  · refine perm_of_count fun i => ?_
    have hcount := h.count i
    rw [count_cons_id] at hcount
    change _ + _ + ((heldIds (c :: s.calls)).count i + (s.running.map Prod.fst).count i) = _
    rw [count_heldIds_cons, hc]
    simp only [hholds, true_and]
    omega
  · intro d hd hid
    cases eq_of_mem_add hno hd (hid.trans hc.symm)
    exact hok.frame rfl (fun _ _ => Iff.rfl) fun hmem => hmem
  · intro hmem
    exact absurd hmem hstop

section

variable (h : Inv s free stopped)

include h

/-- A call that has its id frees it. -/
theorem Inv.freeThreadId (hc : c ∈ s.calls) (hholds : c.holds = true) :
    Inv (freeThreadId (moveCall s c none) c.id) (c.id :: free) stopped := by
  obtain ⟨hfree, hstop, -⟩ := h.held hc hholds
  have hlen := h.length_lt
  have hused : 0 < s.inUse.length :=
    length_pos_of_mem (mem_append_left _ (mem_heldIds hc hholds))
  have hlists : Lists (moveCall s c none) free stopped := h.lists.congr rfl rfl rfl rfl rfl rfl rfl rfl
  refine h.frame (t := c.id) ⟨rfl, ?_, fun _ _ => rfl, fun _ _ _ _ => Iff.rfl, fun _ _ => Iff.rfl⟩
    (hlists.freeThreadId hfree hstop (by omega)) ?_ (h.threads.congr rfl rfl rfl rfl)
    (nodup_move h.calls_nodup hc nofun) ?_ ?_
  · intro d hd
    exact mem_move_iff (e := none) h.calls_nodup hc nofun hd
  · refine perm_of_count fun i => ?_
    have hcount := h.count i
    have hmove := count_move (e := none) hc i
    simp only [hholds, true_and] at hmove
    rw [count_cons_id]
    change _ + _ + ((heldIds (Option.toList none ++ s.calls.erase c)).count i +
      (s.running.map Prod.fst).count i) = _
    simp only [heldIds, Option.toList_none, nil_append, filter_nil, map_nil,
      count_nil] at *
    omega
  · intro d hd hid
    exact absurd (eq_of_mem_move h.calls_nodup hc hd hid) nofun
  · intro hmem
    exact absurd hmem hstop

/-- The thread state is cleared before. -/
theorem Inv.freeThread (hc : c ∈ s.calls) (hholds : c.holds = true) (inStart : Bool) :
    Inv (freeThread (moveCall s c none) c.id inStart) (c.id :: free) stopped := by
  obtain ⟨hfree, hstop, hrun⟩ := h.held hc hholds
  have h' := h.freeThreadId hc hholds
  have hthreads := h'.threads.clear hstop hrun
  refine h'.frame (t := c.id) ⟨rfl, fun _ _ => Iff.rfl, ?_, fun _ _ _ _ => Iff.rfl, fun _ _ => Iff.rfl⟩
    (h'.lists.congr rfl rfl rfl rfl rfl rfl rfl rfl) h'.perm (hthreads.congr rfl rfl rfl rfl)
    h'.calls_nodup ?_ ?_
  · intro i hi
    exact update_of_ne hi _ _
  · intro d hd hid
    exact absurd (eq_of_mem_move h.calls_nodup hc hd hid) nofun
  · intro hmem
    exact absurd hmem hstop

/-- A thread is created. -/
theorem Inv.createThread (hc : c ∈ s.calls) (hholds : c.holds = true) (hid : c.id = id)
    (synch inStart : Bool) :
    Inv { moveCall s c (if synch then some (.synchWait id inStart) else none) with
      thread := update s.thread id (some s.created)
      running := (id, s.created) :: s.running
      created := s.created + 1 } free stopped := by
  subst hid
  obtain ⟨hfree, hstop, hrun⟩ := h.held hc hholds
  have hnew : ∀ d ∈ (if synch then some (Call.synchWait c.id inStart) else none),
      d = .synchWait c.id inStart := by
    intro d hd
    cases synch with
    | false => cases hd
    | true => exact (Option.some.inj hd).symm
  have hnewId : ∀ d ∈ (if synch then some (Call.synchWait c.id inStart) else none), d.id = c.id := by
    intro d hd
    rw [hnew d hd]
    rfl
  refine h.frame (t := c.id) ⟨rfl, ?_, ?_, fun _ _ _ _ => Iff.rfl, fun _ _ => Iff.rfl⟩
    (h.lists.congr rfl rfl rfl rfl rfl rfl rfl rfl) ?_ ((h.threads.create hstop hrun).congr rfl rfl rfl rfl)
    (nodup_move h.calls_nodup hc hnewId) ?_ ?_
  · intro d hd
    exact mem_move_iff h.calls_nodup hc hnewId hd
  · intro i hi
    exact update_of_ne hi _ _
  · refine perm_of_count fun i => ?_
    have hcount := h.count i
    have hmove := count_move (e := if synch then some (Call.synchWait c.id inStart) else none) hc i
    simp only [hholds, true_and] at hmove
    have hzero : (heldIds (if synch then some (Call.synchWait c.id inStart) else none).toList).count i
        = 0 := by
      cases synch <;> rfl
    change _ + _ + ((heldIds (Option.toList _ ++ s.calls.erase c)).count i +
      ((c.id, s.created) :: s.running |>.map Prod.fst).count i) = _
    rw [map_cons, count_cons_id]
    dsimp only
    omega
  · intro d hd hid
    rw [hnew d (eq_of_mem_move h.calls_nodup hc hd hid)]
    refine ⟨s.created, update_self _ _ _, ?_⟩
    intro hmem
    exact Nat.lt_irrefl _ (h.threads.joined_lt _ hmem)
  · intro hmem
    exact absurd hmem hstop

/-- A call that has no id goes on, or ends. -/
theorem Inv.moved (hc : c ∈ s.calls) (hholds : c.holds = false)
    (hid : ∀ d ∈ e, d.id = c.id ∧ d.holds = false ∧ CallOk s stopped d) (hlive : Live s c.id) :
    Inv (moveCall s c e) free stopped := by
  refine h.frame (t := c.id) ⟨rfl, ?_, fun _ _ => rfl, fun _ _ _ _ => Iff.rfl, fun _ _ => Iff.rfl⟩
    (h.lists.congr rfl rfl rfl rfl rfl rfl rfl rfl) ?_ (h.threads.congr rfl rfl rfl rfl)
    (nodup_move h.calls_nodup hc fun d hd => (hid d hd).1) ?_ (fun _ _ => hlive)
  · intro d hd
    exact mem_move_iff h.calls_nodup hc (fun d hd => (hid d hd).1) hd
  · refine perm_of_count fun i => ?_
    have hcount := h.count i
    have hmove := count_move (e := e) hc i
    have hzero : (heldIds e.toList).count i = 0 := by
      cases e with
      | none => rfl
      | some d => simp [heldIds, (hid d rfl).2.1]
    simp only [hholds, Bool.false_eq_true, false_and, if_false] at hmove
    change _ + _ + ((heldIds (e.toList ++ s.calls.erase c)).count i +
      (s.running.map Prod.fst).count i) = _
    omega
  · intro d hd hdc
    have hok := (hid d (eq_of_mem_move h.calls_nodup hc hd hdc)).2.2
    exact hok.frame rfl (fun _ _ => Iff.rfl) fun hmem => hmem

/-- A call about a thread that nobody is about to join. -/
theorem Inv.addCall (hno : NoCall s c.id) (hholds : c.holds = false) (hok : CallOk s stopped c) :
    Inv { s with calls := c :: s.calls } free stopped := by
  refine h.frame (t := c.id) ⟨rfl, fun d hd => mem_add_iff hd, fun _ _ => rfl,
    fun _ _ _ _ => Iff.rfl, fun _ _ => Iff.rfl⟩ (h.lists.congr rfl rfl rfl rfl rfl rfl rfl rfl) ?_
    (h.threads.congr rfl rfl rfl rfl) (nodup_add h.calls_nodup hno) ?_ ?_
  · refine perm_of_count fun i => ?_
    have hcount := h.count i
    change _ + _ + ((heldIds (c :: s.calls)).count i + (s.running.map Prod.fst).count i) = _
    rw [count_heldIds_cons]
    simp only [hholds, Bool.false_eq_true, false_and, if_false]
    omega
  · intro d hd hid
    cases eq_of_mem_add hno hd hid
    exact hok.frame rfl (fun _ _ => Iff.rfl) fun hmem => hmem
  · intro _ hnone
    exact absurd rfl (hnone c mem_cons_self)

theorem Inv.threadStops (hk : (id, k) ∈ s.running) :
    Inv (insertStoppedList { s with running := s.running.erase (id, k) } id) free (id :: stopped) := by
  obtain ⟨hfree, hstop⟩ := h.run hk
  have hlen := h.length_lt
  have hused : 0 < s.inUse.length :=
    length_pos_of_mem (mem_append_right _ (mem_map_of_mem hk))
  have hlists : Lists { s with running := s.running.erase (id, k) } free stopped :=
    h.lists.congr rfl rfl rfl rfl rfl rfl rfl rfl
  refine h.frame (t := id) ⟨rfl, fun _ _ => Iff.rfl, fun _ _ => rfl, fun _ _ _ _ => Iff.rfl, ?_⟩
    (hlists.insertStoppedList hfree hstop (by omega)) ?_
    ((h.threads.stop hk).congr rfl rfl rfl rfl) h.calls_nodup ?_ ?_
  · intro i hi
    rw [mem_cons, or_iff_right hi]
  · refine perm_of_count fun i => ?_
    have hcount := h.count i
    rw [count_erase_running hk] at hcount
    rw [count_cons_id]
    change _ + _ + ((heldIds s.calls).count i + ((s.running.erase (id, k)).map Prod.fst).count i) = _
    omega
  · intro d hd _
    exact (h.calls_ok d hd).frame rfl (fun _ _ => Iff.rfl) fun hmem => mem_cons_of_mem _ hmem
  · intro _ _
    exact ⟨k, h.threads.running_thread id k hk, h.threads.running_unjoined id k hk⟩

end

/-- Joining the thread of one id does not join that of another. -/
theorem ThreadsOk.joined_iff (h : ThreadsOk s stopped) {i : Nat} (hi : i ≠ id)
    (hk : s.thread i = some k) : k ∈ (gThreadJoin s id).joined ↔ k ∈ s.joined := by
  unfold gThreadJoin
  rw [mem_append, or_iff_right]
  intro hmem
  have hid : s.thread id = some k := by simpa using hmem
  exact hi (h.thread_inj i id k hk hid)

/-- `join_thread` joins the thread. -/
theorem Inv.joins (h : Inv s free stopped) {inStart : Bool} (hc : .joining id inStart ∈ s.calls)
    (hend : Ended s id) :
    Inv (gThreadJoin (moveCall s (.joining id inStart) (some (.joined id inStart))) id) free stopped := by
  obtain ⟨hin, k, hk, hnot⟩ := h.calls_ok _ hc
  have hstop := h.threads.mem_stopped hk hnot hend
  have hmem : k ∈ (gThreadJoin s id).joined := by
    simp [gThreadJoin, hk]
  have hid : ∀ d ∈ some (Call.joined id inStart), d.id = (Call.joining id inStart).id := by
    intro d hd
    cases hd
    rfl
  refine h.frame (t := id) ⟨rfl, ?_, fun _ _ => rfl, ?_, fun _ _ => Iff.rfl⟩
    (h.lists.congr rfl rfl rfl rfl rfl rfl rfl rfl) ?_ ((h.threads.join hk hnot hend).congr rfl rfl rfl rfl)
    (nodup_move h.calls_nodup hc hid) ?_ ?_
  · intro d hd
    exact mem_move_iff h.calls_nodup hc hid hd
  · intro i hi k' hk'
    exact h.threads.joined_iff hi hk'
  · refine perm_of_count fun i => ?_
    have hcount := h.count i
    have hmove := count_move (e := some (Call.joined id inStart)) hc i
    simp only [Call.holds, Bool.false_eq_true, false_and, if_false] at hmove
    have hzero : (heldIds (some (Call.joined id inStart)).toList).count i = 0 := rfl
    change _ + _ + ((heldIds (Option.toList _ ++ s.calls.erase _)).count i +
      (s.running.map Prod.fst).count i) = _
    omega
  · intro d hd hdc
    cases eq_of_mem_move h.calls_nodup hc hd hdc
    exact ⟨hin, hstop, k, hmem, hk⟩
  · intro _ hnone
    exact absurd rfl (hnone (.joined id inStart) mem_cons_self)

/-- The id leaves the stop list; the call that removes it has it now. -/
theorem Inv.removes (h : Inv s free stopped) {inStart : Bool} (hc : .joined id inStart ∈ s.calls) :
    Inv (removeStoppedList (moveCall s (.joined id inStart) (some (.removed id inStart))) id) free
      (stopped.erase id) := by
  obtain ⟨hin, hstop, k, hmem, hk⟩ := h.calls_ok _ hc
  have hlen := h.length_lt
  have hid : ∀ d ∈ some (Call.removed id inStart), d.id = (Call.joined id inStart).id := by
    intro d hd
    cases hd
    rfl
  have hlists : Lists (moveCall s (.joined id inStart) (some (.removed id inStart))) free stopped :=
    h.lists.congr rfl rfl rfl rfl rfl rfl rfl rfl
  have hnodup := h.lists.stopList.nodup
  refine h.frame (t := id) ⟨rfl, ?_, fun _ _ => rfl, fun _ _ _ _ => Iff.rfl, ?_⟩
    (hlists.removeStoppedList h.disjoint hstop (by omega)) ?_
    ((h.threads.remove hk hmem hnodup).congr rfl rfl rfl rfl) (nodup_move h.calls_nodup hc hid) ?_ ?_
  · intro d hd
    exact mem_move_iff h.calls_nodup hc hid hd
  · intro i hi
    exact mem_erase_of_ne hi
  · refine perm_of_count fun i => ?_
    have hcount := h.count i
    rw [count_erase_id hstop] at hcount
    have hmove := count_move (e := some (Call.removed id inStart)) hc i
    simp only [Call.holds, Bool.false_eq_true, false_and, if_false, Option.toList_some,
      count_heldIds_cons, Call.id, true_and, singleton_append] at hmove
    change _ + _ + ((heldIds (Call.removed id inStart :: s.calls.erase _)).count i +
      (s.running.map Prod.fst).count i) = _
    simp only [count_heldIds_cons, Call.holds, Call.id, true_and]
    simp only [heldIds, filter_nil, map_nil, count_nil] at *
    omega
  · intro d hd hdc
    cases eq_of_mem_move h.calls_nodup hc hd hdc
    exact hin
  · intro hmem'
    exact absurd hmem' hnodup.not_mem_erase

/-- The stop list is locked: a thread on it is joined and leaves the list in one step. -/
theorem Inv.joinsLocked {calls : List Call} (h : Inv s free stopped) (hstop : id ∈ stopped)
    (hlive : Live s id) (hend : Ended s id)
    (hnodup : ((.removed id false :: calls).map Call.id).Nodup)
    (hcalls : ∀ d : Call, d.id ≠ id → (d ∈ calls ↔ d ∈ s.calls))
    (hcount : ∀ i, (heldIds calls).count i = (heldIds s.calls).count i) :
    Inv { joinLocked s id with calls := .removed id false :: calls } free (stopped.erase id) := by
  obtain ⟨k, hk, hnot⟩ := hlive
  have hlen := h.length_lt
  have hlists : Lists (gThreadJoin s id) free stopped := h.lists.congr rfl rfl rfl rfl rfl rfl rfl rfl
  have hmem : k ∈ (gThreadJoin s id).joined := by
    simp [gThreadJoin, hk]
  have hthreads := (h.threads.join hk hnot hend).remove hk hmem h.lists.stopList.nodup
  refine h.frame (t := id) ⟨rfl, ?_, fun _ _ => rfl, ?_, ?_⟩
    ((hlists.removeStoppedList h.disjoint hstop (by omega)).congr rfl rfl rfl rfl rfl rfl rfl rfl) ?_
    (hthreads.congr rfl rfl rfl rfl) hnodup ?_ ?_
  · intro d hd
    rw [← hcalls d hd]
    exact mem_add_iff hd
  · intro i hi k' hk'
    exact h.threads.joined_iff hi hk'
  · intro i hi
    exact mem_erase_of_ne hi
  · refine perm_of_count fun i => ?_
    have hold := h.count i
    rw [count_erase_id hstop] at hold
    change _ + _ + ((heldIds (Call.removed id false :: calls)).count i +
      (s.running.map Prod.fst).count i) = _
    simp only [count_heldIds_cons, Call.holds, Call.id, true_and, hcount]
    omega
  · intro d hd hid
    rcases mem_cons.mp hd with rfl | hd
    · rfl
    · rw [map_cons, nodup_cons] at hnodup
      exact absurd (mem_map.mpr ⟨d, hd, hid⟩) hnodup.1
  · intro hmem'
    exact absurd hmem' h.lists.stopList.nodup.not_mem_erase

/-- An id that a call has is not marked as free. -/
theorem Inv.free_false (h : Inv s free stopped) (hc : c ∈ s.calls) (hholds : c.holds = true) :
    s.free c.id = false := by
  rw [Bool.eq_false_iff]
  exact fun hfree => (h.held hc hholds).1 ((h.lists.free_iff _).mp hfree)

/-! ### Flags -/

/-- No assertion has failed, a thread whose start is not done runs, and `free_thread` clears the
flags of ids without a thread. -/
structure Flags (s : State) : Prop where
  not_aborted : s.aborted = false
  synch_running : ∀ i, s.synchStartup i = true → ∃ k, (i, k) ∈ s.running
  clearing_idle : ∀ r ∈ s.clearing, r.2 = false ∧ ∀ k, (r.1, k) ∉ s.running

section

variable (h : Inv s free stopped) (hflags : Flags s)

include hflags

/-- Only an assertion is made. -/
theorem Flags.congr (hsynch : s'.synchStartup = s.synchStartup) (hclear : s'.clearing = s.clearing)
    (hrun : s'.running = s.running) (habort : s'.aborted = s.aborted) : Flags s' := by
  constructor
  · rw [habort]
    exact hflags.not_aborted
  · rw [hsynch, hrun]
    exact hflags.synch_running
  · rw [hclear, hrun]
    exact hflags.clearing_idle

/-- The start of a thread is done, or its thread has ended. -/
theorem Flags.clearSynch (id : Nat) {running : List (Nat × Nat)}
    (hrun : ∀ i k, i ≠ id → (i, k) ∈ s.running → (i, k) ∈ running)
    (hsub : ∀ r ∈ running, r ∈ s.running) (started : Nat → Bool) :
    Flags { s with synchStartup := update s.synchStartup id false, running, started } := by
  refine ⟨hflags.not_aborted, fun i hi => ?_, fun r hr => ?_⟩
  · have hne : i ≠ id := by
      rintro rfl
      simp at hi
    dsimp only at hi
    rw [update_of_ne hne] at hi
    obtain ⟨k, hk⟩ := hflags.synch_running i hi
    exact ⟨k, hrun i k hne hk⟩
  · obtain ⟨hin, hidle⟩ := hflags.clearing_idle r hr
    exact ⟨hin, fun k hk => hidle k (hsub _ hk)⟩

include h

/-- The flags of an id that `free_thread` frees are cleared next. -/
theorem Flags.freeThread (hc : c ∈ s.calls) (hholds : c.holds = true) :
    Flags (freeThread (moveCall s c none) c.id false) := by
  refine ⟨?_, hflags.synch_running, fun r hr => ?_⟩
  · change (s.aborted || s.free c.id) = false
    rw [hflags.not_aborted, h.free_false hc hholds]
    rfl
  · rcases mem_cons.mp hr with rfl | hr
    · exact ⟨rfl, (h.held hc hholds).2.2⟩
    · exact hflags.clearing_idle r hr

/-- A thread that was joined leaves the stop list. -/
theorem Flags.removeStopped (hstop : id ∈ stopped) (calls : List Call) (joined : List Nat) :
    Flags { removeStoppedList s id with calls, joined } := by
  refine hflags.congr rfl rfl rfl ?_
  change (s.aborted || !s.stopped id) = s.aborted
  rw [(h.lists.stopped_iff id).mpr hstop, Bool.not_true, Bool.or_false]

end

/-! ## Runs -/

/-- What holds along an orderly run. -/
def Good (s : State) : Prop := Flags s ∧ ∃ free stopped, Inv s free stopped

/-- A thread is started with an id that the call has. -/
theorem act_startThread {inStart synch created : Bool}
    (hok : Orderly s (.startThread id inStart synch created))
    (hstep : act s (.startThread id inStart synch created) = some s') (hflags : Flags s)
    (h : Inv s free stopped) : Good s' := by
  have hid : (if inStart then Call.acquired id else .held id).id = id := by
    cases inStart <;> rfl
  have hholds : (if inStart then Call.acquired id else .held id).holds = true := by
    cases inStart <;> rfl
  simp only [act] at hstep
  by_cases hc : (if inStart then Call.acquired id else .held id) ∈ s.calls
  · rw [if_pos hc] at hstep
    have hfree := h.free_false hc hholds
    rw [hid] at hfree
    have hsame : (s.aborted || s.free id) = s.aborted := by
      rw [hfree, Bool.or_false]
    have h' := h.flags s.started (update s.synchStartup id synch) s.clearing (s.aborted || s.free id)
    cases created with
    | true =>
      cases hstep
      -- the flag that is raised belongs to the new thread
      refine ⟨⟨hsame.trans hflags.not_aborted, fun i hi => ?_, fun r hr => ?_⟩, free, stopped,
        h'.createThread hc hholds hid synch inStart⟩
      · by_cases hne : i = id
        · rw [hne]
          exact ⟨s.created, mem_cons_self⟩
        · change update s.synchStartup id synch i = true at hi
          rw [update_of_ne hne] at hi
          obtain ⟨k, hk⟩ := hflags.synch_running i hi
          exact ⟨k, mem_cons_of_mem _ hk⟩
      · obtain ⟨hin, hidle⟩ := hflags.clearing_idle r hr
        refine ⟨hin, fun k hk => ?_⟩
        rcases mem_cons.mp hk with heq | hk
        · cases heq
          exact hok.1 (mem_map_of_mem hr)
        · exact hidle k hk
    | false =>
      -- no thread: the id is freed here, and the caller does not free it again
      obtain ⟨rfl, rfl⟩ := hok.2 rfl
      cases hstep
      have hclear := hflags.clearSynch id (fun _ _ _ hk => hk) (fun _ hr => hr) s.started
      have hflags' : Flags { s with
          synchStartup := update s.synchStartup id false, aborted := s.aborted || s.free id } :=
        hclear.congr rfl rfl rfl hsame
      exact ⟨hflags'.freeThread h' hc rfl, _, _, h'.freeThread hc rfl false⟩
  · rw [if_neg hc] at hstep
    cases hstep

/-- A thread that is on the stop list is joined by the call that waits for it. -/
theorem Inv.stopThreadJoin (h : Inv s free stopped) (hc : .waiting id ∈ s.calls)
    (hflag : s.stopped id = true) (hend : Ended s id) :
    Inv { joinLocked s id with calls := .removed id false :: s.calls.erase (.waiting id) } free
      (stopped.erase id) := by
  have hnodup : ((.removed id false :: s.calls.erase (.waiting id)).map Call.id).Nodup :=
    nodup_move (e := some (.removed id false)) h.calls_nodup hc (by simp [Call.id])
  refine h.joinsLocked ((h.lists.stopped_iff id).mp hflag) (h.calls_ok _ hc) hend hnodup ?_ ?_
  · intro d hd
    rw [mem_erase_call h.calls_nodup hc]
    exact and_iff_left hd
  · intro i
    have hcount := count_heldIds_erase hc i
    simp only [Call.holds, Bool.false_eq_true, false_and, if_false] at hcount
    omega

/-- An orderly step keeps the invariant, and no assertion fails in it. -/
theorem act_good {a : Label} (hok : Orderly s a) (hstep : act s a = some s') (hflags : Flags s)
    (h : Inv s free stopped) : Good s' := by
  cases a with
  | startThread id inStart synch created => exact act_startThread hok hstep hflags h
  | getFreeThreadId inStart =>
    simp only [act] at hstep
    split at hstep
    · cases hstep
      exact ⟨hflags, free, stopped, h⟩
    · rename_i id hfirst
      cases hstep
      obtain ⟨rest, rfl⟩ := (hfirst ▸ h.lists.freeList : Chain s.next (some id) free).eq_cons
      refine ⟨hflags.congr rfl rfl rfl ?_, rest, stopped, ?_⟩
      · change (s.aborted || !s.free id) = s.aborted
        rw [(h.lists.free_iff id).mpr mem_cons_self, Bool.not_true, Bool.or_false]
      · cases inStart with
        | false => exact h.getFreeThreadId rfl rfl trivial
        | true => exact h.getFreeThreadId rfl rfl trivial
  | checkThreads =>
    simp only [act] at hstep
    split at hstep
    · cases hstep
      exact ⟨hflags, free, stopped, h⟩
    · rename_i id hfirst
      split_ifs at hstep with hc
      cases hstep
      have hmem : id ∈ stopped := (h.lists.stopped_iff id).mp hc.1
      have hno : NoCall s id := hok id hfirst
      have hnodup := nodup_add (c := .removed id false) h.calls_nodup hno
      exact ⟨hflags.removeStopped h hmem _ _, free, _, h.joinsLocked hmem (h.stopped_live id hmem hno)
        hc.2 hnodup (fun _ _ => Iff.rfl) fun _ => rfl⟩
  | synchDone id inStart stop =>
    simp only [act] at hstep
    by_cases hcond : Call.synchWait id inStart ∈ s.calls ∧ (stop = true ∨ s.started id = true)
    · rw [if_pos hcond] at hstep
      cases hstep
      have hc := hcond.1
      have hlive : Live s id := h.calls_ok _ hc
      refine ⟨hflags.congr rfl rfl rfl rfl, free, stopped, h.moved hc rfl ?_ hlive⟩
      intro d hd
      cases stop with
      | false => cases hd
      | true =>
        -- the condition leaves a stop flag to the calls with an id of their own
        cases hd
        have hin : inStart = false := by
          cases inStart with
          | false => rfl
          | true => exact absurd (hok rfl) (by simp)
        exact ⟨rfl, rfl, hin, hlive⟩
    · rw [if_neg hcond] at hstep
      cases hstep
  | freeThreadId id =>
    simp only [act] at hstep
    split_ifs at hstep with hc
    cases hstep
    have hfree : s.free id = false := h.free_false hc rfl
    refine ⟨hflags.congr rfl rfl rfl ?_, _, _, h.freeThreadId hc rfl⟩
    change (s.aborted || s.free id) = s.aborted
    rw [hfree, Bool.or_false]
  | threadStarted id k =>
    simp only [act] at hstep
    split_ifs at hstep
    cases hstep
    exact ⟨hflags.congr rfl rfl rfl rfl, free, stopped, h.flags _ _ _ _⟩
  | startupDone id k =>
    simp only [act] at hstep
    split_ifs at hstep
    cases hstep
    have hclear := hflags.clearSynch id (fun _ _ _ hk => hk) (fun _ hr => hr) s.started
    refine ⟨hclear.congr rfl rfl rfl ?_, free, stopped, h.flags _ _ _ _⟩
    change (s.aborted || !s.synchStartup id) = s.aborted
    rw [hok, Bool.not_true, Bool.or_false]
  | threadStops id k =>
    simp only [act] at hstep
    split_ifs at hstep with hk
    cases hstep
    have hkeep : ∀ i j, i ≠ id → (i, j) ∈ s.running → (i, j) ∈ s.running.erase (id, k) := by
      intro i j hne hj
      exact (mem_erase_of_ne fun heq => hne (congrArg Prod.fst heq)).mpr hj
    have hclear := hflags.clearSynch id hkeep (fun _ hr => mem_of_mem_erase hr)
      (update s.started id false)
    refine ⟨hclear.congr rfl rfl rfl ?_, _, _, (h.threadStops hk).flags _ _ _ _⟩
    change (s.aborted || s.stopped id || !s.started id) = s.aborted
    -- a thread that runs is not on the stop list
    have hnot : s.stopped id = false := by
      rw [Bool.eq_false_iff]
      exact fun hstop => (h.run hk).2 ((h.lists.stopped_iff id).mp hstop)
    rw [hok, hnot, Bool.not_true, Bool.or_false, Bool.or_false]
  | joinThread id =>
    simp only [act] at hstep
    split_ifs at hstep
    cases hstep
    obtain ⟨hno, k, hk, hnot⟩ := hok
    exact ⟨hflags.congr rfl rfl rfl rfl, free, stopped, h.addCall hno rfl ⟨rfl, k, hk, hnot⟩⟩
  | gThreadJoin id inStart =>
    simp only [act] at hstep
    split_ifs at hstep with hc
    cases hstep
    exact ⟨hflags.congr rfl rfl rfl rfl, _, _, h.joins hc.1 hc.2⟩
  | removeStopped id inStart =>
    simp only [act] at hstep
    split_ifs at hstep with hc
    cases hstep
    exact ⟨hflags.removeStopped h (h.calls_ok _ hc).2.1 _ _, _, _, h.removes hc⟩
  | freeThread id inStart =>
    simp only [act] at hstep
    split_ifs at hstep with hc
    cases hstep
    obtain rfl : inStart = false := h.calls_ok _ hc
    exact ⟨hflags.freeThread h hc rfl, _, _, h.freeThread hc rfl false⟩
  | clearFlags id inStart =>
    simp only [act] at hstep
    split_ifs at hstep with hc
    cases hstep
    obtain ⟨hin, hidle⟩ := hflags.clearing_idle _ hc
    obtain rfl : inStart = false := hin
    -- a raised flag would belong to a thread that runs, and this id has none
    have hsynch : s.synchStartup id = false := by
      rw [Bool.eq_false_iff]
      intro hsynch
      obtain ⟨k, hk⟩ := hflags.synch_running id hsynch
      exact hidle k hk
    have hclear := hflags.clearSynch id (fun _ _ _ hk => hk) (fun _ hr => hr) s.started
    refine ⟨⟨?_, hclear.synch_running, fun r hr => hflags.clearing_idle r (mem_of_mem_erase hr)⟩,
      free, stopped, h.flags _ _ _ _⟩
    change (s.aborted || s.synchStartup id) = false
    rw [hflags.not_aborted, hsynch]
    rfl
  | freeAgain id =>
    simp only [act] at hstep
    split_ifs at hstep with hc
    -- only a failed `start_thread` frees again
    exact (h.calls_ok _ hc).elim
  | stopThreadWait id =>
    simp only [act] at hstep
    split_ifs at hstep
    cases hstep
    obtain ⟨hno, k, hk, hnot⟩ := hok
    exact ⟨hflags.congr rfl rfl rfl rfl, free, stopped, h.addCall hno rfl ⟨k, hk, hnot⟩⟩
  | stopThreadJoin id =>
    simp only [act] at hstep
    split_ifs at hstep with hc
    cases hstep
    exact ⟨hflags.removeStopped h ((h.lists.stopped_iff id).mp hc.2.1) _ _, free, _,
      h.stopThreadJoin hc.1 hc.2.1 hc.2.2⟩

theorem step_inv (s : State) (a : Label) (s' : State) (hok : Orderly s a) (hstep : step s a = some s')
    (h : Good s) : Good s' := by
  obtain ⟨hflags, free, stopped, hinv⟩ := h
  unfold step at hstep
  split_ifs at hstep
  exact act_good hok hstep hflags hinv

theorem Inv.conserved (h : Inv s free stopped) (hflags : Flags s) : Conserved s where
  not_aborted := hflags.not_aborted
  lists := ⟨free, stopped, h.lists.freeList, h.lists.stopList.chain, h.lists.numFree,
    h.lists.numStopped, h.perm⟩
  joined_once := h.threads.joined_nodup
  not_lost := by
    intro k hk
    rcases h.threads.kept k hk with hjoined | ⟨i, hi, hrun | hstop⟩
    · exact .inl hjoined
    · exact .inr ⟨i, .inl hrun⟩
    · exact .inr ⟨i, .inr ⟨(h.lists.stopped_iff i).mpr hstop, hi⟩⟩

/-- The ids are put on the free list one by one. -/
theorem freeThreads_spec {size : Nat} (hn : n < 2 ^ 32) :
    let pool := (List.range n).foldl (fun s id => clearFlags (freeThread s id false) id false)
      (zeroPool size)
    Lists pool (List.range n).reverse [] ∧
      pool = { zeroPool size with
        next := pool.next
        free := pool.free
        firstFree := pool.firstFree
        numFree := pool.numFree } := by
  induction n with
  | zero =>
    refine ⟨⟨rfl, ⟨rfl, trivial⟩, rfl, rfl, ?_, ?_⟩, rfl⟩
    · intro i
      simp [zeroPool]
    · intro i
      simp [zeroPool]
  | succ n ih =>
    dsimp only at ih ⊢
    obtain ⟨hlists, heq⟩ := ih (by omega)
    rw [range_succ, foldl_append, reverse_append]
    generalize (List.range n).foldl (fun s id => clearFlags (freeThread s id false) id false)
      (zeroPool size) = s at hlists heq
    have hnew : s.free n = false := by
      rw [Bool.eq_false_iff]
      exact fun hfree => absurd ((hlists.free_iff n).mp hfree) (by simp)
    constructor
    · have hfree : Lists (freeThreadId s n) (n :: (List.range n).reverse) [] :=
        hlists.freeThreadId (by simp) (by simp) (by simpa using hn)
      exact hfree.congr rfl rfl rfl rfl rfl rfl rfl rfl
    · rw [heq] at hnew ⊢
      dsimp only at hnew
      simp [clearFlags, freeThread, freeThreadId, zeroPool, afterError, hnew]

theorem createThreadpool_inv {size : Nat} (hsize : size < 2 ^ 32) :
    Inv (createThreadpool size) (List.range size).reverse [] := by
  obtain ⟨hlists, heq⟩ : Lists (createThreadpool size) _ [] ∧ createThreadpool size = _ :=
    freeThreads_spec hsize
  have hcalls : (createThreadpool size).calls = [] := congrArg State.calls heq
  have hrun : (createThreadpool size).running = [] := congrArg State.running heq
  have hthread : (createThreadpool size).thread = fun _ => none := congrArg State.thread heq
  have hcreated : (createThreadpool size).created = 0 := congrArg State.created heq
  have hjoined : (createThreadpool size).joined = [] := congrArg State.joined heq
  have hpool : (createThreadpool size).size = size := congrArg State.size heq
  refine ⟨by rwa [hpool], hlists, ?_, ?_, ?_, ?_, ?_⟩
  · rw [State.inUse, hcalls, hrun, hpool]
    simp [heldIds]
  · constructor <;> simp [hthread, hrun, hjoined, hcreated]
  · simp [hcalls]
  · simp [hcalls]
  · simp

theorem createThreadpool_good {size : Nat} (hsize : size < 2 ^ 32) :
    Good (createThreadpool size) := by
  have hinv := createThreadpool_inv hsize
  obtain ⟨-, heq⟩ : Lists (createThreadpool size) _ [] ∧ createThreadpool size = _ :=
    freeThreads_spec hsize
  refine ⟨⟨?_, ?_, ?_⟩, _, _, hinv⟩
  · rw [heq]
    rfl
  · rw [heq]
    intro i hi
    cases hi
  · rw [heq]
    intro r hr
    cases hr

/-- In every orderly run of a pool of any size no assertion fails, every id is on the free list, on the
stop list or in use by one call or thread, the counters are right, and every thread is joined once. -/
theorem pool_conserved {size : Nat} (hsize : size < 2 ^ 32) (as : List Label)
    (hok : Run.Along step Orderly (createThreadpool size) as) :
    Run.Always step Conserved (createThreadpool size) as := by
  intro pre s' hpre hrun
  obtain ⟨rest, rfl⟩ := hpre
  have hokpre := (Run.along_of_append step hrun hok).1
  obtain ⟨hflags, free, stopped, h⟩ := Run.invariant_along step Orderly Good step_inv hokpre hrun
    (createThreadpool_good hsize)
  exact h.conserved hflags

/-- A thread with a synchronous start is joined by `join_thread`, and one started by
`start_thread` by `check_threads`. -/
def twoThreads : List Label :=
  [.getFreeThreadId false, .startThread 1 false true true, .threadStarted 1 0,
    .synchDone 1 false false, .startupDone 1 0, .threadStops 1 0, .joinThread 1, .gThreadJoin 1 false,
    .removeStopped 1 false, .freeThread 1 false, .clearFlags 1 false, .getFreeThreadId true,
    .startThread 1 true false true, .threadStarted 1 1, .threadStops 1 1, .checkThreads,
    .freeThread 1 false, .clearFlags 1 false]

theorem pool_conserved_two_threads :
    Run.Along step Orderly (createThreadpool 2) twoThreads ∧
      (Run.exec step (createThreadpool 2) twoThreads).isSome = true ∧
      Run.Always step Conserved (createThreadpool 2) twoThreads := by
  have hok : Run.Along step Orderly (createThreadpool 2) twoThreads := by decide
  exact ⟨hok, by decide, pool_conserved (by decide) twoThreads hok⟩

/-- The thread cannot be created: its id is freed by `start_thread_with_thread_id`, and again by
`start_thread` when another caller has it. -/
theorem freed_twice :
    ¬ Run.Always step Conserved (createThreadpool 1)
      [.getFreeThreadId true, .startThread 0 true false false, .clearFlags 0 true,
        .getFreeThreadId false, .freeAgain 0] := by
  intro h
  obtain ⟨free, stopped, -, -, hfree, -, hperm⟩ := (h _ _ List.prefix_rfl rfl).lists
  -- the only id is in use, and the counter has one free id
  have hone : 1 = free.length := hfree
  have hlength := hperm.length_eq
  rw [List.length_append, List.length_append, List.length_range] at hlength
  change _ + 1 = 1 at hlength
  omega

end IClaustron.ThreadPool
