import IClaustron.Pcntrl.Ownership

/-!
# Pcntrl.ProcessTable — the process table along whole runs

`TableOk` is what the commands and the check thread rely on whenever the mutex is
free: hash table and pointer array hold the same objects, each once and none of
them freed, with one object per key, and the program has not been stopped by one
of its own checks or by a second `free`. `RemovesOwn` says of a step that it takes
an entry with a flag out of the table only when its own thread has set the flag.

`table_ok` proves both for every run whose steps meet `Safe`.
-/

namespace IClaustron.Pcntrl

open Lib DynArray Option

/-- The object is at index `i` of the pointer array; index 0 is the list head. -/
def AtIndex (w : World) (i : Nat) (p : Ptr) : Prop :=
  0 < i ∧ i < getMaxIndex w.array ∧ getPtr w.array i = some (0, p)

/-- What holds whenever the mutex is free. -/
structure TableOk (s : Sys) : Prop where
  /-- no `ic_require` has failed, nothing was used after it was freed or freed
  twice -/
  not_stopped : s.stopped = none
  same : ∀ p, InTable s.world p ↔ ∃ i, AtIndex s.world i p
  once_hash : (s.world.hash.map Prod.snd).Nodup
  once_array : ∀ i j p, AtIndex s.world i p → AtIndex s.world j p → i = j
  one_per_key : (s.world.hash.map Prod.fst).Nodup
  /-- an object in the table is not freed, and knows its key and its index -/
  entry : ∀ k p, (k, p) ∈ s.world.hash →
    ∃ c, s.world.pcs.cells p = some c ∧ c.key = k ∧ AtIndex s.world c.dynTransIndex p

/-- An entry that the step takes out of the table has a flag only if the thread
of the step has set it. -/
def RemovesOwn (s : Sys) (t : Nat) (s' : Sys) : Prop :=
  ∀ q c φ, InTable s.world q → ¬ InTable s'.world q → s.world.pcs.cells q = some c →
    c.flag φ = true → ∃ pc, s.threads[t]? = some pc ∧ pc.sets φ q

/-- The condition on the steps of a run. -/
def Safe (s : Sys) : Label → Prop
  | .act t a => ∀ pc, s.threads[t]? = some pc → SafeAct s.world pc a
  | _ => True

def Inv (s : Sys) : Prop :=
  s.stopped = none ∧ (∃ slots, WorldInv s.world slots) ∧ ThreadInv s.world s.threads

/-! ## The table -/

variable {w : World} {slots : List Nat}

theorem WorldInv.max_index (h : WorldInv w slots) : getMaxIndex w.array = slots.length := by
  unfold getMaxIndex
  rw [h.stored.total]
  exact Nat.mul_div_cancel_left _ (by decide)

theorem WorldInv.atIndex_iff (h : WorldInv w slots) {i : Nat} {p : Ptr} :
    AtIndex w i p ↔ ∃ c, w.pcs.cells p = some c ∧ (c.key, p) ∈ w.hash ∧ c.dynTransIndex = i := by
  unfold AtIndex
  rw [h.max_index]
  constructor
  · rintro ⟨hpos, hlt, hget⟩
    obtain ⟨v, hv⟩ : ∃ v, slots[i]? = some v := ⟨_, List.getElem?_eq_getElem hlt⟩
    rcases h.slot i v hpos hv with rfl | ⟨c, hc, hmem, hi⟩
    · rw [getPtr_spec h.stored hv highestBitSet_lt h.fits, if_pos le_rfl] at hget
      cases hget
    · have hhigh := (h.address v c hc).2.2
      rw [getPtr_spec h.stored hv (hhigh.trans highestBitSet_lt) h.fits,
        if_neg (Nat.not_le.mpr hhigh)] at hget
      cases hget
      exact ⟨c, hc, hmem, hi⟩
  · rintro ⟨c, hc, hmem, rfl⟩
    obtain ⟨c', hc', -, hpos, hslot⟩ := h.entry _ _ hmem
    rw [hc] at hc'
    cases hc'
    have hhigh := (h.address p c hc).2.2
    refine ⟨hpos, (List.getElem?_eq_some_iff.mp hslot).1, ?_⟩
    rw [getPtr_spec h.stored hslot (hhigh.trans highestBitSet_lt) h.fits,
      if_neg (Nat.not_le.mpr hhigh)]

theorem WorldInv.hash_nodup (h : WorldInv w slots) : (w.hash.map Prod.snd).Nodup := by
  refine (List.nodup_map_iff_inj_on (List.Nodup.of_map _ h.keys)).mpr ?_
  rintro ⟨k, p⟩ hmem ⟨k', p'⟩ hmem' rfl
  obtain ⟨c, hc, rfl, -⟩ := h.entry k p hmem
  obtain ⟨c', hc', rfl, -⟩ := h.entry k' p hmem'
  rw [hc] at hc'
  cases hc'
  rfl

variable {s : Sys} {a : DynamicArray}

theorem Inv.tableOk (h : Inv s) : TableOk s := by
  obtain ⟨hstop, ⟨slots, hw⟩, -⟩ := h
  refine ⟨hstop, ?_, hw.hash_nodup, ?_, hw.keys, ?_⟩
  · intro p
    constructor
    · intro hin
      obtain ⟨c, hc, hmem⟩ := hw.live hin
      exact ⟨_, hw.atIndex_iff.mpr ⟨c, hc, hmem, rfl⟩⟩
    · rintro ⟨i, hat⟩
      obtain ⟨c, -, hmem, -⟩ := hw.atIndex_iff.mp hat
      exact ⟨_, hmem⟩
  · intro i j p hi hj
    obtain ⟨c, hc, -, rfl⟩ := hw.atIndex_iff.mp hi
    obtain ⟨c', hc', -, rfl⟩ := hw.atIndex_iff.mp hj
    rw [hc] at hc'
    cases hc'
    rfl
  · intro k p hmem
    obtain ⟨c, hc, rfl, -⟩ := hw.entry k p hmem
    exact ⟨c, hc, rfl, hw.atIndex_iff.mpr ⟨c, hc, hmem, rfl⟩⟩

/-! ## Runs -/

theorem start_world (ha : createPtrArray (fun _ => true) Heap.empty = some a) :
    WorldInv (start a).world [0] := by
  obtain ⟨a', ha', h⟩ := createPtrArray_spec
  rw [ha] at ha'
  cases ha'
  refine ⟨h.stored, h.head, h.fits, ?_, Nat.one_pos, List.nodup_nil, ?_, ?_⟩
  · intro p c hc
    cases hc
  · intro k p hmem
    cases hmem
  · intro i v hi hv
    rw [List.getElem?_eq_none (show [0].length ≤ i from hi)] at hv
    cases hv

theorem start_inv (ha : createPtrArray (fun _ => true) Heap.empty = some a) : Inv (start a) := by
  refine ⟨rfl, ⟨[0], start_world ha⟩, ?_, ?_, ?_, ?_, ?_⟩
  · intro t pc ht p r hown
    cases t with
    | zero =>
      cases ht
      cases hown
    | succ t => cases ht
  · intro t t' pc pc' ht ht' p r r' hown
    cases t with
    | zero =>
      cases ht
      cases hown
    | succ t => cases ht
  · intro t pc ht
    cases t with
    | zero =>
      cases ht
      exact List.nodup_nil
    | succ t => cases ht
  · rintro φ q ⟨⟨k, hmem⟩, -⟩
    cases hmem
  · intro t pc ht _
    cases t with
    | zero => rfl
    | succ t => cases ht

/-- A command begins: the table is as it was. -/
theorem spawn_inv (h : Inv s) {pc : Pc} (hown : pc.owns = []) (hkind : pc.isCheck = false) :
    Inv (s.spawn pc) := by
  obtain ⟨hstop, hw, hth⟩ := h
  refine ⟨hstop, hw, hth.spawn (fun q => Or.inl ⟨rfl, Iff.rfl⟩) ?_ ?_ (fun _ _ hq => hq) hkind⟩
  · intro q r hmem
    rw [hown] at hmem
    cases hmem
  · rw [hown]
    exact List.nodup_nil

theorem start_command_inv (h : Inv s) (m : StartMessage) (hlt : s.world.pcs.fresh < highestBitSet) :
    Inv ({ s with world := { s.world with
      pcs := { s.world.pcs.set s.world.pcs.fresh m.toPcStart with
        fresh := s.world.pcs.fresh + 1 } } }.spawn (.received s.world.pcs.fresh)) := by
  obtain ⟨hstop, ⟨slots, hw⟩, hth⟩ := h
  have hnew : s.world.pcs.cells s.world.pcs.fresh = none := by
    cases hc : s.world.pcs.cells s.world.pcs.fresh with
    | none => rfl
    | some c => exact absurd (hw.address _ c hc).2.1 (Nat.lt_irrefl _)
  have hfree := hth.unowned_of_free hnew
  have hout : ¬ InTable s.world s.world.pcs.fresh := by
    intro hin
    obtain ⟨c, hc, -⟩ := hw.live hin
    rw [hnew] at hc
    cases hc
  have hother : ∀ q, q ≠ s.world.pcs.fresh → Untouched s.world
      { s.world with pcs := { s.world.pcs.set s.world.pcs.fresh m.toPcStart with
        fresh := s.world.pcs.fresh + 1 } } q := by
    intro q hq
    exact ⟨Heap.set_of_ne _ _ hq, Iff.rfl⟩
  refine ⟨hstop, ⟨slots, hw.create hlt _⟩, hth.spawn ?_ ?_ (List.nodup_singleton _) ?_ rfl⟩
  · intro q
    by_cases hq : q = s.world.pcs.fresh
    · rw [hq]
      exact Or.inr hfree
    · exact Or.inl (hother q hq)
  · intro q r hmem
    cases List.mem_singleton.mp hmem
    exact ⟨⟨_, Heap.set_self _ _ _, hout, rfl, rfl, rfl⟩, hfree⟩
  · intro φ q hq
    have hne : q ≠ s.world.pcs.fresh := by
      rintro rfl
      exact hout hq.1
    exact hq.of_untouched (hother q hne)

theorem step_act {s' : Sys} {t : Nat} {a : Act} (h : step s (.act t a) = some s') :
    s.stopped = none ∧ ∃ pc r, s.threads[t]? = some pc ∧ localStep s.world pc a = some r ∧
      ((∃ e, r = .error e ∧ s' = { s with stopped := some e }) ∨
        ∃ out mutex, r = .ok out ∧
          s' = { s with world := out.world, threads := s.threads.set t out.pc, mutex := mutex }) := by
  unfold step at h
  split_ifs at h with hstop
  rw [not_not] at hstop
  dsimp only at h
  obtain ⟨pc, hpc, h⟩ := bind_eq_some_iff.mp h
  split_ifs at h
  obtain ⟨r, hr, h⟩ := bind_eq_some_iff.mp h
  refine ⟨hstop, pc, r, hpc, hr, ?_⟩
  cases r with
  | error e => exact Or.inl ⟨e, rfl, (Option.some.inj h).symm⟩
  | ok out => exact Or.inr ⟨out, _, rfl, (Option.some.inj h).symm⟩

theorem step_inv (s : Sys) (l : Label) (s' : Sys) (hsafe : Safe s l) (h : step s l = some s')
    (hinv : Inv s) : Inv s' := by
  cases l with
  | act t a =>
    obtain ⟨hstop, pc, r, hpc, hr, hs'⟩ := step_act h
    obtain ⟨-, ⟨slots, hw⟩, hth⟩ := hinv
    obtain ⟨out, slots', rfl, hw', hth'⟩ := localStep_inv hw hth hpc (hsafe pc hpc) hr
    rcases hs' with ⟨e, he, -⟩ | ⟨out', mutex, hout, rfl⟩
    · cases he
    · cases hout
      exact ⟨hstop, ⟨slots', hw'⟩, hth'⟩
  | start m =>
    unfold step at h
    split_ifs at h with hstop
    dsimp only at h
    split_ifs at h with hlt
    cases h
    exact start_command_inv hinv m hlt
  | stop key killFlag | list find listFull =>
    unfold step at h
    split_ifs at h
    cases h
    exact spawn_inv hinv rfl rfl
  | exit i =>
    unfold step at h
    split_ifs at h
    obtain ⟨q, -, h⟩ := bind_eq_some_iff.mp h
    cases h
    obtain ⟨hstop, ⟨slots, hw⟩, hth⟩ := hinv
    refine ⟨hstop, ⟨slots, hw.congr rfl rfl rfl⟩, ?_⟩
    exact ⟨hth.role, hth.alone, hth.apart, hth.flagged, hth.checker⟩

/-- A flag belongs to the thread that has set it. If that is another one, it still
has the entry after the step. -/
theorem step_removesOwn {s' : Sys} {t : Nat} {a : Act} (hinv : Inv s) (hsafe : Safe s (.act t a))
    (h : step s (.act t a) = some s') : RemovesOwn s t s' := by
  intro q c φ hin hout hc hflag
  have hth := hinv.2.2
  have hth' := (step_inv s _ s' hsafe h hinv).2.2
  obtain ⟨u, pc, hu, hsets⟩ := hth.flagged φ q ⟨hin, c, hc, hflag⟩
  by_cases hut : u = t
  · exact ⟨pc, hut ▸ hu, hsets⟩
  · exfalso
    have hu' : s'.threads[u]? = some pc := by
      obtain ⟨-, pct, r, -, -, hs'⟩ := step_act h
      rcases hs' with ⟨e, -, rfl⟩ | ⟨out, mutex, -, rfl⟩
      · exact hu
      · exact (List.getElem?_set_ne (Ne.symm hut)).trans hu
    cases φ with
    | kill =>
      obtain ⟨known, hmem⟩ := hsets
      obtain ⟨d, -, hin', -⟩ := hth'.role u pc hu' q _ hmem
      exact hout hin'
    | check =>
      obtain ⟨d, -, hin', -⟩ := hth'.role u pc hu' q _ hsets
      exact hout hin'

/-- In every run of commands and rounds of the check thread whose steps are safe,
the table is in order in every state, and the next safe step of a thread takes an
entry that is being killed or checked out of the table only if it is the thread
that does so. -/
theorem table_ok {a : DynamicArray} (ha : createPtrArray (fun _ => true) Heap.empty = some a)
    {labels : List Label} {s : Sys} (hsafe : Run.Along step Safe (start a) labels)
    (hrun : Run.exec step (start a) labels = some s) :
    TableOk s ∧
      ∀ t act s', Safe s (.act t act) → step s (.act t act) = some s' → RemovesOwn s t s' := by
  have hinv : Inv s := Run.invariant_along step Safe Inv step_inv hsafe hrun (start_inv ha)
  exact ⟨hinv.tableOk, fun t act s' hsafe' hstep => step_removesOwn hinv hsafe' hstep⟩

/-! ## One start command -/

/-- The table when the first start message of a run has come in. -/
def firstReceived (m : StartMessage) (a : DynamicArray) : World :=
  ⟨⟨Function.update (fun _ => none) 1 (some m.toPcStart), 2⟩, [], a, 1, []⟩

/-- The table when the first start command has booked its entry. -/
def firstBooked (m : StartMessage) (a : DynamicArray) : World :=
  { firstReceived m a with
    pcs := (firstReceived m a).pcs.set 1 { m.toPcStart with dynTransIndex := 1 }
    hash := [(m.key, 1)] }

/-- `insert_process` of an object whose key is not in the table. -/
theorem insertProcess_entered {slots : List Nat} {p : Ptr} {c : PcStart} (hw : WorldInv w slots)
    (hout : ¬ InTable w p) (hc : w.pcs.cells p = some c) (hs : hashSearch w c.key = none)
    (hroom : entrySize * (slots.length + 1) ≤ 2 ^ 64) (isDaemon : Bool) :
    ∃ a', localStep w (.inserting p isDaemon 0 0) (.insertProcess none .ok) =
        some (.ok (.section { w with
          pcs := w.pcs.set p { c with dynTransIndex := slots.length }
          hash := (c.key, p) :: w.hash
          array := a' } (.booked p isDaemon))) ∧
      WorldInv { w with
        pcs := w.pcs.set p { c with dynTransIndex := slots.length }
        hash := (c.key, p) :: w.hash
        array := a' } (slots ++ [p]) := by
  have hok : allocOk none w.array.mem.fresh = fun _ => true := by
    funext n
    simp [allocOk]
  obtain ⟨a', hins, hstored⟩ := insertOrdered_slot hw.stored p
  have hptr : insertPtr (allocOk none w.array.mem.fresh) w.array p = some (a', 0, slots.length) := by
    rw [hok, insertPtr_eq hw.stored hw.head, hins]
    rfl
  refine ⟨a', ?_, hw.append hout hc (Assoc.not_mem_of_search hs) hstored hroom⟩
  have hroom' : w.array.totalSizeInBytes + entrySize ≤ 2 ^ 64 := by
    rw [hw.stored.total]
    exact hroom
  rw [localStep_insertProcess, if_pos hroom']
  unfold insertProcess insertPcEntry
  rw [Result.bind_of_ok (follow_of_cell hc)]
  simp only [hs]
  rw [Result.bind_of_ok (follow_of_cell hc), hptr]
  rfl

/-- A complete section of one thread. -/
theorem step_section {t : Nat} {pc pc' : Pc} {a : Act} {w' : World} (hstop : s.stopped = none)
    (hmutex : s.mutex = none) (hpc : s.threads[t]? = some pc)
    (h : localStep s.world pc a = some (.ok (.section w' pc'))) :
    step s (.act t a) = some { s with world := w', threads := s.threads.set t pc' } := by
  have hlocks : LockState.free.run (Out.section w' pc').locks = .free := rfl
  simp only [step, hstop, hmutex, hpc, h, hlocks, bind_eq_bind, bind_some, ne_eq,
    not_true_eq_false, and_false, if_false, if_true]
  rfl

/-- The labels of a first start command up to `insert_process`. -/
def bookLabels (m : StartMessage) (isDaemon : Bool) : List Label :=
  [.start m, .act 1 (.prepare 0 (some isDaemon)), .act 1 (.insertProcess none .ok)]

theorem exec_firstBooked (ha : createPtrArray (fun _ => true) Heap.empty = some a)
    (m : StartMessage) (isDaemon : Bool) :
    ∃ a', Run.exec step (start a) (bookLabels m isDaemon) =
        some ⟨firstBooked m a', [.scanning 0 none, .booked 1 isDaemon], none, none⟩ ∧
      WorldInv (firstBooked m a') [0, 1] ∧
      Run.Along step Safe (start a) (bookLabels m isDaemon) := by
  have hone : 1 < highestBitSet := by decide
  have hw : WorldInv (firstReceived m a) [0] := (start_world ha).create hone m.toPcStart
  obtain ⟨a', hins, hw'⟩ := insertProcess_entered hw (p := 1) (fun ⟨_, h⟩ => nomatch h) rfl rfl
    (by decide) isDaemon
  have h₁ : step (start a) (.start m) =
      some ⟨firstReceived m a, [.scanning 0 none, .received 1], none, none⟩ := rfl
  have h₂ : step ⟨firstReceived m a, [.scanning 0 none, .received 1], none, none⟩
      (.act 1 (.prepare 0 (some isDaemon))) =
        some ⟨firstReceived m a, [.scanning 0 none, .inserting 1 isDaemon 0 0], none, none⟩ := rfl
  have h₃ : step ⟨firstReceived m a, [.scanning 0 none, .inserting 1 isDaemon 0 0], none, none⟩
      (.act 1 (.insertProcess none .ok)) =
        some ⟨firstBooked m a', [.scanning 0 none, .booked 1 isDaemon], none, none⟩ :=
    step_section rfl rfl rfl hins
  refine ⟨a', ?_, hw', ?_⟩
  · unfold bookLabels
    simp only [Run.exec_cons, h₁, h₂, h₃, bind_some, Run.exec_nil]
  · refine (Run.along_cons step h₁).mpr ⟨trivial, (Run.along_cons step h₂).mpr ⟨?_,
      (Run.along_cons step h₃).mpr ⟨?_, trivial⟩⟩⟩
    · rintro pc ⟨⟩
      exact trivial
    · rintro pc ⟨⟩
      refine ⟨fun hfail => ?_, nofun, ?_⟩
      · obtain ⟨-, j, -, hj⟩ := hfail
        cases hj
      · rintro c f found ⟨⟩ hs
        cases hs

/-- The labels of a second start command up to `insert_process`. -/
def againLabels (m : StartMessage) (isDaemon : Bool) : List Label :=
  [.start m, .act 2 (.prepare 0 (some isDaemon)), .act 2 (.insertProcess none .ok)]

/-- The table when the second start message has come in. -/
def World.received (w : World) (m : StartMessage) : World :=
  { w with pcs := { w.pcs.set 2 m.toPcStart with fresh := 3 } }

theorem exec_again (w : World) (pc : Pc) (m : StartMessage) (isDaemon : Bool) {w' : World} {pc' : Pc}
    (hfresh : w.pcs.fresh = 2) (hroom : w.array.totalSizeInBytes + entrySize ≤ 2 ^ 64)
    (h : insertProcess (w.received m) 2 isDaemon 0 0 none .ok = .ok (.section w' pc')) :
    Run.exec step ⟨w, [.scanning 0 none, pc], none, none⟩ (againLabels m isDaemon) =
        some ⟨w', [.scanning 0 none, pc, pc'], none, none⟩ ∧
      (SafeAct (w.received m) (.inserting 2 isDaemon 0 0) (.insertProcess none .ok) →
        Run.Along step Safe ⟨w, [.scanning 0 none, pc], none, none⟩ (againLabels m isDaemon)) := by
  obtain ⟨⟨cells, fresh⟩, hash, array, glob, procs⟩ := w
  subst hfresh
  set w : World := ⟨⟨cells, 2⟩, hash, array, glob, procs⟩
  have h₁ : step ⟨w, [.scanning 0 none, pc], none, none⟩ (.start m) =
      some ⟨w.received m, [.scanning 0 none, pc, .received 2], none, none⟩ := rfl
  have h₂ : step ⟨w.received m, [.scanning 0 none, pc, .received 2], none, none⟩
      (.act 2 (.prepare 0 (some isDaemon))) =
        some ⟨w.received m, [.scanning 0 none, pc, .inserting 2 isDaemon 0 0], none, none⟩ := rfl
  have h₃ : step ⟨w.received m, [.scanning 0 none, pc, .inserting 2 isDaemon 0 0], none, none⟩
      (.act 2 (.insertProcess none .ok)) =
        some ⟨w', [.scanning 0 none, pc, pc'], none, none⟩ :=
    step_section rfl rfl rfl ((if_pos hroom).trans (congrArg some h))
  refine ⟨?_, fun hsafe => (Run.along_cons step h₁).mpr ⟨trivial, (Run.along_cons step h₂).mpr ⟨?_,
    (Run.along_cons step h₃).mpr ⟨?_, trivial⟩⟩⟩⟩
  · unfold againLabels
    simp only [Run.exec_cons, h₁, h₂, h₃, bind_some, Run.exec_nil]
  · rintro pc ⟨⟩
    exact trivial
  · rintro pc ⟨⟩
    exact hsafe

/-- A start message, for a process that needs no files. -/
def sampleStart : StartMessage := ⟨⟨[103], [99], [110]⟩, [105], [49], [], false⟩

/-- Behind the first start command of a daemon, whose files can be set up, a second one comes in
for its key. -/
def daemonLabels : List Label :=
  bookLabels sampleStart true ++ ([.act 1 (.files 0), .act 1 (.files 0)] ++
    (againLabels sampleStart true ++ [.act 2 .free]))

/-- The second command is refused, and the table is in order. -/
theorem table_ok_daemon :
    ∃ a s, createPtrArray (fun _ => true) Heap.empty = some a ∧
      Run.exec step (start a) daemonLabels = some s ∧
      s.threads = [.scanning 0 none, .launching 1, .returned errorStartAlreadyOngoing] ∧
      TableOk s := by
  obtain ⟨a, ha, -⟩ := createPtrArray_spec
  obtain ⟨a', hrun, hw, hsafe⟩ := exec_firstBooked ha sampleStart true
  have hroom : a'.totalSizeInBytes + entrySize ≤ 2 ^ 64 := by
    rw [show a'.totalSizeInBytes = _ from hw.stored.total]
    decide
  have hfiles : Run.exec step
      ⟨firstBooked sampleStart a', [.scanning 0 none, .booked 1 true], none, none⟩
      [.act 1 (.files 0), .act 1 (.files 0)] =
        some ⟨firstBooked sampleStart a', [.scanning 0 none, .launching 1], none, none⟩ := rfl
  obtain ⟨hagain, hsafe₂⟩ := exec_again (firstBooked sampleStart a') (.launching 1) sampleStart
    true rfl hroom rfl
  set w := (firstBooked sampleStart a').received sampleStart
  have hexec : Run.exec step (start a) daemonLabels =
      some ⟨{ w with pcs := w.pcs.free 2 },
        [.scanning 0 none, .launching 1, .returned errorStartAlreadyOngoing], none, none⟩ := by
    unfold daemonLabels
    rw [Run.exec_append, hrun, bind_some, Run.exec_append, hfiles, bind_some, Run.exec_append,
      hagain, bind_some]
    rfl
  refine ⟨a, _, ha, hexec, rfl, (table_ok ha ?_ hexec).1⟩
  refine Run.along_append step _ hrun hsafe (Run.along_append step _ hfiles ?_
    (Run.along_append step _ hagain (hsafe₂ ?_) ((Run.along_cons step rfl).mpr ⟨?_, trivial⟩)))
  · refine (Run.along_cons step rfl).mpr ⟨?_, (Run.along_cons step rfl).mpr ⟨?_, trivial⟩⟩
    · rintro pc ⟨⟩
      exact trivial
    · rintro pc ⟨⟩
      rfl
  · refine ⟨fun hfail => ?_, nofun, ?_⟩
    · obtain ⟨-, j, -, hj⟩ := hfail
      cases hj
    · -- the first process is not launched yet
      rintro c f found ⟨⟩ ⟨⟩ ⟨⟩ hpid
      exact absurd rfl hpid
  · rintro pc ⟨⟩
    exact trivial

/-- The pid file of a daemon cannot be named after its entry was booked: the
object is freed and stays in the table. -/
theorem booked_entry_freed :
    ∃ a s, createPtrArray (fun _ => true) Heap.empty = some a ∧
      Run.exec step (start a) (bookLabels sampleStart true ++
        [.act 1 (.files 0), .act 1 (.files errorMemAlloc), .act 1 .free]) = some s ∧
      ¬ TableOk s := by
  obtain ⟨a, ha, -⟩ := createPtrArray_spec
  obtain ⟨a', hrun, -⟩ := exec_firstBooked ha sampleStart true
  refine ⟨a, ⟨{ firstBooked sampleStart a' with
    pcs := (firstBooked sampleStart a').pcs.free 1 },
    [.scanning 0 none, .returned errorMemAlloc], none, none⟩, ha, ?_, fun hok => ?_⟩
  · exact (Run.exec_append step (start a) _ _).trans (congrArg (Option.bind · _) hrun)
  · obtain ⟨c, hc, -⟩ := hok.entry _ _ (List.mem_singleton_self _)
    cases hc

end IClaustron.Pcntrl
