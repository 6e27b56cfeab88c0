import IClaustron.Lib.Forall2
import IClaustron.Pcntrl.ProcessTable

/-!
# Pcntrl.History — sequences of successful start and stop commands

Commands that come one after the other: each runs to its end before the next one
is read, and each succeeds. What the clients know of the process controller after
such a sequence is the list of the processes they have started and not stopped;
a start for a key that is still controlled succeeds when the old process is dead,
and takes its place.

* `startPoint_step` and `stopPoint_step` — what holds at each point of a start and of a
  stop command;
* `History.table` — the live entries of the pointer array are the controlled
  processes, in the order of their start, and an entry was removed if and only if
  some command has named a controlled key.
-/

namespace IClaustron.Pcntrl

open Lib DynArray List Result Heap

/-! ## Commands -/

/-- A process as its client knows it. -/
structure ProcInfo where
  message : StartMessage
  startId : Nat
  pid : Nat
deriving DecidableEq

def ProcInfo.key (e : ProcInfo) : Key := e.message.key

/-- A thread that runs alone, through the steps `acts`. -/
def runThread : World → Pc → List Act → Option (World × Pc)
  | w, pc, [] => some (w, pc)
  | w, pc, a :: acts =>
    match localStep w pc a with
    | some (.ok out) => runThread out.world out.pc acts
    | _ => none

/-- The object of a start message that has come in. -/
def received (w : World) (m : StartMessage) : World :=
  { w with pcs := { w.pcs.set w.pcs.fresh m.toPcStart with fresh := w.pcs.fresh + 1 } }

/-- A command, with the steps it takes. -/
inductive Command where
  | start (m : StartMessage) (acts : List Act)
  | stop (key : Key) (killFlag : Bool) (acts : List Act)

def Command.key : Command → Key
  | .start m _ => m.key
  | .stop key _ _ => key

def without (k : Key) (cs : List ProcInfo) : List ProcInfo := cs.filter (·.key ≠ k)

/-- A command that succeeds: a start command publishes its process, a stop command
returns 0. -/
inductive Succeeds (w : World) (cs : List ProcInfo) :
    Command → World → List ProcInfo → Prop where
  | start {m : StartMessage} {acts : List Act} {w₁ : World} {pid : Nat} {out : Out} :
    w.pcs.fresh < highestBitSet →
    runThread (received w m) (.received w.pcs.fresh) acts =
      some (w₁, .publishing w.pcs.fresh pid) →
    publish w₁ w.pcs.fresh pid = .ok out →
    Succeeds w cs (.start m acts) out.world (without m.key cs ++ [⟨m, w₁.globStartId, pid⟩])
  | stop {key : Key} {killFlag : Bool} {acts : List Act} {w' : World} :
    runThread w (.deleting key killFlag 0) acts = some (w', .returned 0) →
    Succeeds w cs (.stop key killFlag acts) w' (without key cs)

/-- The commands that a new process controller has executed, the table they leave and
the processes that are controlled then. -/
inductive History (a : DynamicArray) : List Command → World → List ProcInfo → Prop where
  | nil : History a [] (start a).world []
  | snoc {cmds : List Command} {w w' : World} {cs cs' : List ProcInfo} {cmd : Command} :
    History a cmds w cs → Succeeds w cs cmd w' cs' → History a (cmds ++ [cmd]) w' cs'

/-- What a command that succeeds does to the keys that are controlled. -/
def keysStep (ks : List Key) : Command → List Key
  | .start m _ => ks.filter (· ≠ m.key) ++ [m.key]
  | .stop key _ _ => ks.filter (· ≠ key)

def keysAfter (cmds : List Command) : List Key := cmds.foldl keysStep []

/-- No command names a key that is controlled when it comes. -/
def FreshKeys (cmds : List Command) : Prop :=
  ∀ done cmd rest, cmds = done ++ cmd :: rest → cmd.key ∉ keysAfter done

/-! ## Entries that show a process -/

/-- The parameters after `ic_start_process` has taken blanks off. -/
def strippedParameters (params : List Str) (behind : Nat → Str) : List Str :=
  params.mapIdx fun i s => stripLeadingBlanks s (behind i)

/-- The object of a start message that is not yet published. -/
structure Holds (c : PcStart) (m : StartMessage) (params : List Str) : Prop where
  key : c.key = m.key
  programName : c.programName = m.programName
  versionString : c.versionString = m.versionString
  parameters : c.parameters = params

/-- The object of a controlled process. -/
structure Shows (c : PcStart) (e : ProcInfo) : Prop where
  holds : ∃ behind, Holds c e.message (strippedParameters e.message.parameters behind)
  startId : c.startId = e.startId
  pid : c.pid = e.pid

theorem Shows.key {c : PcStart} {e : ProcInfo} (h : Shows c e) : c.key = e.key := by
  rcases h.holds with ⟨behind, hc⟩
  exact hc.key

/-- The entries of the pointer array that are in use, without the list head. -/
def liveSlots (slots : List Nat) : List Nat := slots.tail.filter (· ≠ highestBitSet)

/-- The entries `slots` show the processes `cs`, in this order. -/
def Shown (w : World) (slots : List Nat) (cs : List ProcInfo) : Prop :=
  List.Forall₂ (fun p e => ∃ c, w.pcs.cells p = some c ∧ Shows c e) (liveSlots slots) cs

/-- Some entry was removed. -/
def Marked (slots : List Nat) : Prop := highestBitSet ∈ slots

variable {w w' : World} {slots : List Nat} {cs : List ProcInfo} {p : Ptr} {c : PcStart}

theorem mem_liveSlots_iff (hw : WorldInv w slots) : p ∈ liveSlots slots ↔ InTable w p := by
  unfold liveSlots
  rw [mem_filter]
  constructor
  · rintro ⟨hmem, hlive⟩
    rcases mem_iff_getElem?.mp hmem with ⟨i, hi⟩
    rw [getElem?_tail] at hi
    rcases hw.slot (i + 1) p (Nat.succ_pos i) hi with hmark | ⟨c, -, hc, -⟩
    · simp [hmark] at hlive
    · exact ⟨c.key, hc⟩
  · rintro ⟨k, hk⟩
    rcases hw.entry k p hk with ⟨c, hc, -, hpos, hslot⟩
    have hlt := (hw.address p c hc).2.2
    constructor
    · apply mem_iff_getElem?.mpr
      refine ⟨c.dynTransIndex - 1, ?_⟩
      rw [getElem?_tail, Nat.sub_add_cancel hpos]
      exact hslot
    · simpa using Nat.ne_of_lt hlt

theorem liveSlots_append (hne : slots ≠ []) (hp : p < highestBitSet) :
    liveSlots (slots ++ [p]) = liveSlots slots ++ [p] := by
  have hlive : p ≠ highestBitSet := Nat.ne_of_lt hp
  unfold liveSlots
  rw [tail_append_of_ne_nil hne, filter_append, filter_cons_of_pos (by simpa using hlive)]
  rfl

section

variable (h : Shown w slots cs)

include h

/-- The live entries keep what they show when their objects do. -/
theorem Shown.congr (hcell : ∀ p ∈ liveSlots slots, ∀ c e, w.pcs.cells p = some c → Shows c e →
      ∃ c', w'.pcs.cells p = some c' ∧ Shows c' e) : Shown w' slots cs := by
  refine forall₂_imp_mem h ?_
  rintro p hp e - ⟨c, hc, hshows⟩
  exact hcell p hp c e hc hshows

/-- Objects outside of the table do not matter. -/
theorem Shown.congr_cells (hcell : ∀ p ∈ liveSlots slots, w'.pcs.cells p = w.pcs.cells p) :
    Shown w' slots cs := by
  apply h.congr
  intro p hp c e hc hshows
  exact ⟨c, by rw [hcell p hp, hc], hshows⟩

/-- Writing an object without a change of what it shows. -/
theorem Shown.store (hc : w.pcs.cells p = some c) {c' : PcStart}
    (hsame : ∀ e, Shows c e → Shows c' e) : Shown (store w p c') slots cs := by
  apply h.congr
  intro q hq d e hd hshows
  by_cases hqp : q = p
  · subst hqp
    rw [hc] at hd
    cases hd
    exact ⟨c', set_self _ _ _, hsame e hshows⟩
  · exact ⟨d, by rw [← hd]; exact set_of_ne _ _ hqp, hshows⟩

/-! ## Keys -/

theorem Shown.key_mem_iff (hw : WorldInv w slots) (k : Key) :
    k ∈ cs.map ProcInfo.key ↔ ∃ f, (k, f) ∈ w.hash := by
  constructor
  · intro hk
    rcases mem_map.mp hk with ⟨e, he, rfl⟩
    rcases forall₂_mem_right h he with ⟨f, hf, c, hc, hshows⟩
    have hin := (mem_liveSlots_iff hw).mp hf
    refine ⟨f, ?_⟩
    rw [← hshows.key]
    exact hw.mem_hash hin hc
  · rintro ⟨f, hf⟩
    have hlive := (mem_liveSlots_iff hw).mpr ⟨k, hf⟩
    rcases forall₂_mem_left h hlive with ⟨e, he, c, hc, hshows⟩
    rcases hw.entry k f hf with ⟨d, hd, hdk, -⟩
    rw [hc] at hd
    cases hd
    exact mem_map.mpr ⟨e, he, by rw [← hshows.key, hdk]⟩

theorem Shown.not_mem_of_search (hw : WorldInv w slots) {k : Key} (hs : hashSearch w k = none) :
    k ∉ cs.map ProcInfo.key := by
  rw [h.key_mem_iff hw]
  rintro ⟨f, hf⟩
  exact Assoc.not_mem_of_search hs f hf

end

theorem without_of_not_mem {k : Key} (h : k ∉ cs.map ProcInfo.key) : without k cs = cs := by
  apply filter_eq_self.mpr
  intro e he
  have hne : e.key ≠ k := by
    rintro rfl
    exact h (mem_map_of_mem he)
  simpa using hne

/-! ## Removing an entry -/

theorem marked_set {i : Nat} (hi : i < slots.length) : Marked (slots.set i highestBitSet) :=
  mem_iff_getElem?.mpr ⟨i, (slot_set_iff hi _ _ _).mpr (Or.inl ⟨rfl, rfl⟩)⟩

/-- A value that stands at one place only is overwritten by the mark. -/
theorem filter_set_mark (xs : List Nat) {p mark : Nat} (hmark : p ≠ mark) : ∀ i,
    xs[i]? = some p → (∀ j, xs[j]? = some p → j = i) →
    (xs.set i mark).filter (· ≠ mark) = (xs.filter (· ≠ mark)).filter (· ≠ p) := by
  induction xs with
  | nil =>
    intro i hi
    cases hi
  | cons x xs ih =>
    intro i hi honce
    cases i with
    | zero =>
      cases hi
      have hnot : ∀ y ∈ xs.filter (· ≠ mark), decide (y ≠ p) = true := by
        intro y hy
        apply decide_eq_true
        rintro rfl
        rcases mem_iff_getElem?.mp (mem_filter.mp hy).1 with ⟨j, hj⟩
        exact absurd (honce (j + 1) hj) (Nat.succ_ne_zero j)
      rw [set_cons_zero, filter_cons_of_neg (by simp),
        filter_cons_of_pos (by simpa using hmark), filter_cons_of_neg (by simp),
        filter_eq_self.mpr hnot]
    | succ i =>
      have hx : x ≠ p := by
        rintro rfl
        exact absurd (honce 0 rfl) (Nat.succ_ne_zero i).symm
      have ih' := ih i hi fun j hj => Nat.succ.inj (honce (j + 1) hj)
      rw [set_cons_succ]
      by_cases hxm : x = mark
      · rw [filter_cons_of_neg (by simpa using hxm), filter_cons_of_neg (by simpa using hxm)]
        exact ih'
      · rw [filter_cons_of_pos (by simpa using hxm), filter_cons_of_pos (by simpa using hxm),
          filter_cons_of_pos (by simpa using hx), ih']

theorem liveSlots_set (hw : WorldInv w slots) (hp : InTable w p) (hc : w.pcs.cells p = some c) :
    c.dynTransIndex < slots.length ∧
      liveSlots (slots.set c.dynTransIndex highestBitSet) = (liveSlots slots).filter (· ≠ p) := by
  rcases hw.entry _ _ (hw.mem_hash hp hc) with ⟨d, hd, -, hpos, hslot⟩
  rw [hc] at hd
  cases hd
  have hmark : p ≠ highestBitSet := Nat.ne_of_lt (hw.address p c hc).2.2
  refine ⟨(List.getElem?_eq_some_iff.mp hslot).1, ?_⟩
  -- the list head is left aside
  rcases slots with _ | ⟨first, xs⟩
  · exact absurd hw.head (by simp)
  · rcases Nat.exists_eq_succ_of_ne_zero (Nat.ne_of_gt hpos) with ⟨i, hi⟩
    rw [hi] at hslot ⊢
    apply filter_set_mark xs hmark i hslot
    intro j hj
    rcases hw.slot (j + 1) p (Nat.succ_pos j) hj with hfree | ⟨d, hd, -, hdi⟩
    · exact absurd hfree hmark
    · rw [hc] at hd
      cases hd
      omega

/-- The entry of `p` is marked, and its process is no longer shown. -/
theorem Shown.remove (h : Shown w slots cs) (hw : WorldInv w slots) (hp : InTable w p)
    (hc : w.pcs.cells p = some c) (hpcs : w'.pcs = w.pcs) :
    Shown w' (slots.set c.dynTransIndex highestBitSet) (without c.key cs) := by
  unfold Shown
  rw [(liveSlots_set hw hp hc).2, hpcs]
  apply forall₂_filter h
  -- an entry other than that of `p` has another key
  rintro q hq e - ⟨d, hd, hshows⟩
  have hkey : q = p ↔ e.key = c.key := by
    rw [← hshows.key]
    constructor
    · rintro rfl
      rw [hc] at hd
      cases hd
      rfl
    · intro heq
      have hqmem := hw.mem_hash ((mem_liveSlots_iff hw).mp hq) hd
      rw [heq] at hqmem
      exact hw.keys.unique hqmem (hw.mem_hash hp hc)
  simp [hkey]

/-! ## Entering an object -/

variable {failAt : Option Nat} {hash : HashInsert} {out : Out} {pc : Pc} {act : Act} {pid : Nat}

theorem insertPtr_failsIndex (hw : WorldInv w slots) (hfail : FailsIndex w.array failAt)
    {r : DynamicArray × Nat × Nat}
    (h : insertPtr (allocOk failAt w.array.mem.fresh) w.array p = some r)
    : r.2.1 ≠ 0 := by
  have hne : slots ≠ [] := by
    rintro rfl
    exact absurd hw.head (by simp)
  rcases hfail with ⟨hneed, j, hj, rfl⟩
  have hlen : (toBytes entrySize p).length ≤ bufSize := by
    rw [length_toBytes]
    decide
  have hbuf : allocOk (some (j + 1)) w.array.mem.fresh w.array.mem.fresh = true := by
    simp [allocOk]
  have hnode : allocOk (some (j + 1)) w.array.mem.fresh (w.array.mem.fresh + 1 + j) = false := by
    simp only [allocOk, decide_eq_false_iff_not, not_not]
    congr 1
    omega
  rw [insertPtr_eq hw.stored hw.head] at h
  rcases Option.map_eq_some_iff.mp h with ⟨⟨a, ret⟩, hrun, h⟩
  have hret := (insertOrdered_indexFails hw.stored hlen
    ((hw.stored.needsBuf_iff hne p).mpr hneed) hbuf hj hnode hrun).1
  rw [if_pos hret] at h
  rw [← h]
  show errorMemAlloc ≠ 0
  decide

/-- `insert_pc_entry` that succeeds. -/
theorem insertPcEntry_entered (hw : WorldInv w slots) (hout : ¬ InTable w p)
    (hc : w.pcs.cells p = some c) (hkey : ∀ q, (c.key, q) ∉ w.hash)
    (hroom : w.array.totalSizeInBytes + entrySize ≤ 2 ^ 64)
    (h : insertPcEntry w p failAt hash = .ok (w', 0)) :
    w'.pcs = w.pcs.set p { c with dynTransIndex := slots.length } ∧ WorldInv w' (slots ++ [p]) := by
  have hfit : entrySize * (slots.length + 1) ≤ 2 ^ 64 := by
    rw [hw.stored.total] at hroom
    exact hroom
  unfold insertPcEntry at h
  rw [bind_of_ok (follow_of_cell hc)] at h
  by_cases hidx : FailsIndex w.array failAt
  · -- the index node that is missing makes the call fail
    split at h
    · cases h
    · rename_i a ret index hins
      have hret : ret ≠ 0 := insertPtr_failsIndex hw hidx hins
      rw [if_pos hret] at h
      injection h with h
      exact absurd (Prod.mk.inj h).2 hret
  · rcases insertPtr_spec hw.stored hw.head p hidx with ⟨a₁, hins, h₁⟩ | ⟨a₁, hins, -⟩
    · rw [hins] at h
      cases hash with
      | ok =>
        cases h
        exact ⟨rfl, hw.append hout hc hkey h₁ hfit⟩
      | realloc => cases h
      | noMemory =>
        dsimp only at h
        rw [if_neg (by simp)] at h
        split at h
        · cases h
        · injection h with h
          exact absurd (Prod.mk.inj h).2 (by decide)
    · rw [hins] at h
      injection h with h
      exact absurd (Prod.mk.inj h).2 (by decide)

/-! ## The points of a start command -/

/-- Before the object `p` of the message `m` is entered: the table is as the command
has found it. -/
structure Waiting (w : World) (slots : List Nat) (cs : List ProcInfo) (p : Ptr)
    (m : StartMessage) : Prop where
  inv : WorldInv w slots
  shown : Shown w slots cs
  outside : ¬ InTable w p
  cell : w.pcs.cells p = some m.toPcStart

/-- After the object `p` is entered behind the entries `slots`. -/
structure Booked (w : World) (slots : List Nat) (cs : List ProcInfo) (p : Ptr)
    (m : StartMessage) (params : List Str) : Prop where
  inv : WorldInv w (slots ++ [p])
  shown : Shown w slots cs
  cell : ∃ c, w.pcs.cells p = some c ∧ Holds c m params

/-- The entries that a start or stop command for `k` leaves of those it has found. -/
def Left (slots₀ : List Nat) (cs : List ProcInfo) (k : Key) (slots : List Nat) : Prop :=
  Marked slots ↔ Marked slots₀ ∨ k ∈ cs.map ProcInfo.key

/-- What holds at the points of a start command on its way to a success. -/
def StartPoint (slots₀ : List Nat) (cs : List ProcInfo) (p : Ptr) (m : StartMessage) (w : World) :
    Pc → Prop
  | .received q | .inserting q _ _ _ | .foundOld q _ _ _ _ => q = p ∧ Waiting w slots₀ cs p m
  | .replaced q _ f ret =>
    q = p ∧ (ret = 0 → (∃ d, w.pcs.cells f = some d) ∧ ¬ InTable w f ∧
      ∃ slots, Left slots₀ cs m.key slots ∧
        Booked w slots (without m.key cs) p m m.parameters)
  | .booked q _ | .daemonFiles q | .launching q =>
    q = p ∧ ∃ slots, Left slots₀ cs m.key slots ∧
      Booked w slots (without m.key cs) p m m.parameters
  | .verifying q _ | .publishing q _ =>
    q = p ∧ ∃ slots behind, Left slots₀ cs m.key slots ∧
      Booked w slots (without m.key cs) p m (strippedParameters m.parameters behind)
  -- a command that has come here does not publish its process
  | .lateError _ _ | .startError _ _ | .returned _ => True
  | _ => False

variable {slots₀ : List Nat} {m : StartMessage} {params : List Str}

theorem Shown.of_untouched (h : Shown w slots cs) (hw : WorldInv w slots) (hout : ¬ InTable w p)
    (hcell : ∀ q, q ≠ p → w'.pcs.cells q = w.pcs.cells q) : Shown w' slots cs := by
  apply h.congr_cells
  intro q hq
  apply hcell
  rintro rfl
  exact hout ((mem_liveSlots_iff hw).mp hq)

theorem Waiting.enter (h : Waiting w slots cs p m) (hkey : ∀ q, (m.key, q) ∉ w.hash)
    (hroom : w.array.totalSizeInBytes + entrySize ≤ 2 ^ 64)
    (hins : insertPcEntry w p failAt hash = .ok (w', 0)) : Booked w' slots cs p m m.parameters := by
  rcases insertPcEntry_entered h.inv h.outside h.cell hkey hroom hins with ⟨hpcs, hinv⟩
  refine ⟨hinv, ?_, ?_⟩
  · apply h.shown.of_untouched h.inv h.outside
    intro q hq
    rw [hpcs]
    exact set_of_ne _ _ hq
  · refine ⟨_, by rw [hpcs]; exact set_self _ _ _, ?_⟩
    exact ⟨rfl, rfl, rfl, rfl⟩

/-- The entry of a dead process is taken out before the new one is entered. -/
theorem Waiting.remove (h : Waiting w slots cs p m) {f : Ptr} {found : PcStart}
    (hf : w.pcs.cells f = some found) (hin : InTable w f) (hkey : found.key = m.key)
    (hrem : removePcEntry w f = .ok w') :
    Waiting w' (slots.set found.dynTransIndex highestBitSet) (without m.key cs) p m ∧
      (∀ q, (m.key, q) ∉ w'.hash) ∧ ¬ InTable w' f ∧ w'.pcs = w.pcs ∧
      w'.array.totalSizeInBytes = w.array.totalSizeInBytes := by
  rcases removePcEntry_spec h.inv hin hf with ⟨a', hrun, hinv⟩
  rw [hrem] at hrun
  cases hrun
  have hshown : Shown { w with hash := Assoc.remove w.hash found.key, array := a' }
      (slots.set found.dynTransIndex highestBitSet) (without found.key cs) :=
    h.shown.remove h.inv hin hf rfl
  rw [hkey] at hshown hinv ⊢
  refine ⟨⟨hinv, hshown, ?_, h.cell⟩, ?_, ?_, rfl, ?_⟩
  · intro hp
    exact h.outside ((inTable_remove h.inv hin hf (by rw [hkey])).mp hp).1
  · intro q hq
    exact ((Assoc.mem_remove h.inv.keys).mp hq).2 rfl
  · intro hf'
    exact ((inTable_remove h.inv hin hf (by rw [hkey])).mp hf').2 rfl
  · rw [hinv.stored.total, h.inv.stored.total, length_set]

/-- The mark that a command for `k` leaves. -/
theorem Left.of_not_mem {k : Key} (h : k ∉ cs.map ProcInfo.key) : Left slots cs k slots := by
  unfold Left
  constructor
  · exact Or.inl
  · rintro (hm | hk)
    · exact hm
    · exact absurd hk h

theorem Left.of_set {k : Key} {i : Nat} (h : k ∈ cs.map ProcInfo.key) (hi : i < slots.length) :
    Left slots cs k (slots.set i highestBitSet) := by
  unfold Left
  constructor
  · exact fun _ => Or.inr h
  · exact fun _ => marked_set hi

/-- `insert_process`: the command goes on with the table as it was, or it has entered
its object. -/
theorem insertProcess_point {isDaemon : Bool} {prev retry : Nat} (h : Waiting w slots₀ cs p m)
    (hroom : w.array.totalSizeInBytes + entrySize ≤ 2 ^ 64)
    (hrun : insertProcess w p isDaemon prev retry failAt hash = .ok out) :
    StartPoint slots₀ cs p m out.world out.pc := by
  unfold insertProcess at hrun
  rw [bind_of_ok (follow_of_cell h.cell)] at hrun
  split at hrun
  · -- the key is new
    rename_i hs
    have hnew : m.key ∉ cs.map ProcInfo.key := h.shown.not_mem_of_search h.inv hs
    rcases bind_eq_ok.mp hrun with ⟨⟨w', ret⟩, hins, hrun⟩
    cases hrun
    dsimp only [Out.section]
    split_ifs with hret
    · subst hret
      refine ⟨rfl, slots₀, Left.of_not_mem hnew, ?_⟩
      rw [without_of_not_mem hnew]
      exact h.enter (Assoc.not_mem_of_search hs) hroom hins
    · trivial
  · rename_i f hs
    rcases h.inv.search hs with ⟨found, hf, hkey, hmem⟩
    rw [bind_of_ok (follow_of_cell hf)] at hrun
    split_ifs at hrun with hpid hflag hretry hid
    · cases hrun
      trivial
    · cases hrun
      trivial
    · cases hrun
      exact ⟨rfl, h⟩
    · -- the old process is dead, and its entry makes room
      rcases bind_eq_ok.mp hrun with ⟨w₁, hrem, hrun⟩
      rcases bind_eq_ok.mp hrun with ⟨⟨w₂, ret⟩, hins, hrun⟩
      cases hrun
      refine ⟨rfl, ?_⟩
      rintro rfl
      rcases h.remove hf ⟨_, hmem⟩ hkey hrem with ⟨hwait, hfree, hout, hpcs, htotal⟩
      have hbooked := hwait.enter hfree (by rw [htotal]; exact hroom) hins
      have hold : m.key ∈ cs.map ProcInfo.key := (h.shown.key_mem_iff h.inv _).mpr ⟨f, hmem⟩
      have hlt := (liveSlots_set h.inv ⟨_, hmem⟩ hf).1
      have hfp : f ≠ p := by
        rintro rfl
        exact h.outside ⟨_, hmem⟩
      rcases insertPcEntry_eq_ok hins with ⟨c, i, a, hc, rfl⟩
      rw [hwait.cell] at hc
      cases hc
      refine ⟨⟨found, ?_⟩, ?_, _, Left.of_set hold hlt, hbooked⟩
      · show (w₁.pcs.set p _).cells f = _
        rw [set_of_ne _ _ hfp, hpcs, hf]
      · rw [inTable_cons rfl]
        rintro (rfl | hin)
        · exact hfp rfl
        · exact hout hin
    · cases hrun
      exact ⟨rfl, h⟩

section

variable (h : Booked w slots cs p m params)

include h

theorem Booked.slots_ne_nil : slots ≠ [] := by
  rintro rfl
  rcases h.cell with ⟨c, hc, -⟩
  have hpos := (h.inv.address p c hc).1
  have hzero := h.inv.head
  rw [nil_append, getElem?_cons_zero] at hzero
  exact Nat.ne_of_gt hpos (Option.some.inj hzero)

/-- The entries before the new one are other ones, and they are in the table. -/
theorem Booked.mem_liveSlots {q : Ptr} (hq : q ∈ liveSlots slots) : InTable w q ∧ q ≠ p := by
  rcases h.cell with ⟨c, hc, -⟩
  have hlt := (h.inv.address p c hc).2.2
  constructor
  · apply (mem_liveSlots_iff h.inv).mp
    rw [liveSlots_append h.slots_ne_nil hlt]
    exact List.mem_append_left _ hq
  · rintro rfl
    -- one object cannot have two indexes
    have hlast : ∀ i, 0 < i → (slots ++ [q])[i]? = some q → c.dynTransIndex = i := by
      intro i hi hslot
      rcases h.inv.slot i q hi hslot with hmark | ⟨d, hd, -, hdi⟩
      · exact absurd hmark (Nat.ne_of_lt hlt)
      · rw [hc] at hd
        cases hd
        exact hdi
    rcases List.mem_iff_getElem?.mp (List.mem_filter.mp hq).1 with ⟨i, hi⟩
    rw [List.getElem?_tail] at hi
    have hilt := (List.getElem?_eq_some_iff.mp hi).1
    have hfirst := hlast (i + 1) (Nat.succ_pos i) (by rw [List.getElem?_append_left hilt]; exact hi)
    have hsecond := hlast slots.length (by omega) (by simp)
    omega

theorem Booked.write {c' : PcStart} {params' : List Str}
    (hc' : ∀ c, w.pcs.cells p = some c → Holds c m params →
      Holds c' m params' ∧ c'.dynTransIndex = c.dynTransIndex) :
    Booked (store w p c') slots cs p m params' := by
  rcases h.cell with ⟨c, hc, hholds⟩
  rcases hc' c hc hholds with ⟨hholds', hidx⟩
  refine ⟨h.inv.store hc c' (hholds'.key.trans hholds.key.symm) fun _ => hidx, ?_,
    c', set_self _ _ _, hholds'⟩
  apply h.shown.congr_cells
  intro q hq
  exact set_of_ne _ _ (h.mem_liveSlots hq).2

theorem Booked.release {f : Ptr} (hout : ¬ InTable w f) (hrel : release w f = .ok w') :
    Booked w' slots cs p m params := by
  rcases release_eq_ok hrel with ⟨⟨d, hd⟩, rfl⟩
  rcases h.cell with ⟨c, hc, hholds⟩
  have hp : InTable w p := by
    apply (mem_liveSlots_iff h.inv).mp
    rw [liveSlots_append h.slots_ne_nil (h.inv.address p c hc).2.2]
    exact mem_append_right _ (mem_singleton_self p)
  have hcell : ∀ q, InTable w q → (w.pcs.free f).cells q = w.pcs.cells q := by
    intro q hq
    apply free_of_ne
    rintro rfl
    exact hout hq
  refine ⟨(h.inv.release hout hd).2, ?_, c, (hcell p hp).trans hc, hholds⟩
  apply h.shown.congr_cells
  intro q hq
  exact hcell q (h.mem_liveSlots hq).1

theorem Booked.congr (hpcs : w'.pcs = w.pcs) (hhash : w'.hash = w.hash)
    (harray : w'.array = w.array) : Booked w' slots cs p m params := by
  refine ⟨h.inv.congr hpcs hhash harray, ?_, ?_⟩
  · apply h.shown.congr_cells
    intro q _
    rw [hpcs]
  · rw [hpcs]
    exact h.cell

end

theorem startProcess_point {l : Launch} {behind : Nat → Str}
    (h : StartPoint slots₀ cs p m w (.launching p)) (hrun : startProcess w p l behind = .ok out) :
    StartPoint slots₀ cs p m out.world out.pc := by
  rcases h with ⟨-, slots, hleft, hb⟩
  unfold startProcess at hrun
  rcases bind_eq_ok.mp hrun with ⟨c, hc, hrun⟩
  rw [follow_eq_ok] at hc
  have hstripped : Booked (store w p (c.stripped behind)) slots (without m.key cs) p m
      (strippedParameters m.parameters behind) := by
    apply hb.write
    intro d hd hholds
    rw [hc] at hd
    cases hd
    refine ⟨⟨hholds.key, hholds.programName, hholds.versionString, ?_⟩, rfl⟩
    unfold strippedParameters
    rw [← hholds.parameters]
    rfl
  cases l with
  | notSpawned ret =>
    cases hrun
    trivial
  | noPidFile ret pid =>
    cases hrun
    trivial
  | spawned pid =>
    cases hrun
    exact ⟨rfl, slots, behind, hleft, hstripped.congr rfl rfl rfl⟩

theorem startPoint_step (h : StartPoint slots₀ cs p m w pc)
    (hrun : localStep w pc act = some (.ok out)) : StartPoint slots₀ cs p m out.world out.pc := by
  cases pc with
  | received q =>
    cases act with
    | prepare ret isDaemon =>
      cases isDaemon with
      | none =>
        cases hrun
        trivial
      | some isDaemon =>
        cases hrun
        exact h
    | _ => nomatch hrun
  | inserting q isDaemon prev retry =>
    cases act with
    | insertProcess failAt hash =>
      rcases h with ⟨rfl, hwait⟩
      rw [localStep_insertProcess] at hrun
      split_ifs at hrun with hroom
      exact insertProcess_point hwait hroom (Option.some.inj hrun)
    | _ => nomatch hrun
  | foundOld q isDaemon pid prev retry =>
    cases act with
    | isAlive answer =>
      cases hrun
      cases answer with
      | alive => trivial
      | notAlive => exact h
      | scriptError => trivial
    | _ => nomatch hrun
  | replaced q isDaemon f ret =>
    cases act with
    | free =>
      rcases h with ⟨rfl, hb⟩
      rcases bind_eq_ok.mp (Option.some.inj hrun) with ⟨w', hrel, hout⟩
      cases hout
      dsimp only [Out.goto]
      split_ifs with hret
      · rcases hb hret with ⟨-, hf, slots, hleft, hb⟩
        exact ⟨rfl, slots, hleft, hb.release hf hrel⟩
      · trivial
    | _ => nomatch hrun
  | booked q isDaemon =>
    cases act with
    | files ret =>
      cases hrun
      dsimp only [Out.goto]
      split_ifs
      · trivial
      · exact h
      · exact h
    | _ => nomatch hrun
  | daemonFiles q =>
    cases act with
    | files ret =>
      cases hrun
      dsimp only [Out.goto]
      split_ifs
      · trivial
      · exact h
    | _ => nomatch hrun
  | launching q =>
    cases act with
    | startProcess l behind =>
      rcases h with ⟨rfl, hb⟩
      exact startProcess_point ⟨rfl, hb⟩ (Option.some.inj hrun)
    | _ => nomatch hrun
  | verifying q pid =>
    cases act with
    | isAlive answer =>
      cases hrun
      dsimp only [Out.goto]
      split_ifs
      · exact h
      · trivial
    | _ => nomatch hrun
  | publishing q pid =>
    cases act with
    | publish =>
      rcases bind_eq_ok.mp (Option.some.inj hrun) with ⟨c, -, hout⟩
      cases hout
      trivial
    | _ => nomatch hrun
  | lateError q ret =>
    cases act with
    | removeEntry =>
      rcases bind_eq_ok.mp (Option.some.inj hrun) with ⟨w', -, hout⟩
      cases hout
      trivial
    | _ => nomatch hrun
  | startError q ret =>
    cases act with
    | free =>
      rcases bind_eq_ok.mp (Option.some.inj hrun) with ⟨w', -, hout⟩
      cases hout
      trivial
    | _ => nomatch hrun
  | returned ret => cases act <;> nomatch hrun
  | _ => exact h.elim

theorem runThread_cons (h : localStep w pc act = some (.ok out)) (acts : List Act) :
    runThread w pc (act :: acts) = runThread out.world out.pc acts := by
  rw [runThread, h]

/-- What each step of a thread keeps holds when the thread has run. -/
theorem runThread_induct {P : World → Pc → Prop}
    (hstep : ∀ w pc act out, P w pc → localStep w pc act = some (.ok out) → P out.world out.pc)
    {acts : List Act} {pc' : Pc} (hrun : runThread w pc acts = some (w', pc')) (h : P w pc) :
    P w' pc' := by
  induction acts generalizing w pc with
  | nil =>
    cases hrun
    exact h
  | cons act acts ih =>
    unfold runThread at hrun
    split at hrun
    · rename_i out hout
      exact ih hrun (hstep w pc act out h hout)
    · cases hrun

/-- A start command that succeeds shows its process behind the others. -/
theorem start_table {acts : List Act} {w₁ : World} (hw : WorldInv w slots)
    (hshown : Shown w slots cs) (hfresh : w.pcs.fresh < highestBitSet)
    (hrun : runThread (received w m) (.received w.pcs.fresh) acts =
      some (w₁, .publishing w.pcs.fresh pid)) (hpub : publish w₁ w.pcs.fresh pid = .ok out) :
    ∃ slots', WorldInv out.world slots' ∧
      Shown out.world slots' (without m.key cs ++ [⟨m, w₁.globStartId, pid⟩]) ∧
      Left slots cs m.key slots' := by
  have hout : ¬ InTable (received w m) w.pcs.fresh := by
    rintro ⟨k, hk⟩
    rcases hw.entry k _ hk with ⟨c, hc, -⟩
    exact Nat.lt_irrefl _ (hw.address _ c hc).2.1
  have hwait : Waiting (received w m) slots cs w.pcs.fresh m := by
    refine ⟨hw.create hfresh m.toPcStart, ?_, hout, set_self _ _ _⟩
    apply hshown.of_untouched hw hout
    intro q hq
    exact set_of_ne _ _ hq
  have hpoint : StartPoint slots cs w.pcs.fresh m w₁ (.publishing w.pcs.fresh pid) :=
    runThread_induct (fun w pc act out h hstep => startPoint_step h hstep) hrun ⟨rfl, hwait⟩
  rcases hpoint with ⟨-, slots', behind, hleft, hb⟩
  rcases bind_eq_ok.mp hpub with ⟨c, hc, hpub⟩
  rw [follow_eq_ok] at hc
  cases hpub
  have hbooked : Booked (store w₁ w.pcs.fresh { c with pid := pid, startId := w₁.globStartId })
      slots' (without m.key cs) w.pcs.fresh m (strippedParameters m.parameters behind) := by
    apply hb.write
    intro d hd hholds
    rw [hc] at hd
    cases hd
    exact ⟨⟨hholds.key, hholds.programName, hholds.versionString, hholds.parameters⟩, rfl⟩
  refine ⟨slots' ++ [w.pcs.fresh], hbooked.inv.congr rfl rfl rfl, ?_, ?_⟩
  · unfold Shown
    rw [liveSlots_append hbooked.slots_ne_nil hfresh]
    apply rel_append hbooked.shown
    refine List.Forall₂.cons ?_ List.Forall₂.nil
    rcases hbooked.cell with ⟨d, hd, hholds⟩
    have hself : d = { c with pid := pid, startId := w₁.globStartId } :=
      Option.some.inj (hd.symm.trans (set_self _ _ _))
    exact ⟨d, hd, ⟨behind, hholds⟩, by rw [hself], by rw [hself]⟩
  · unfold Left Marked at hleft ⊢
    rw [mem_append, hleft, mem_singleton]
    constructor
    · rintro (hm | heq)
      · exact hm
      · omega
    · exact Or.inl

/-! ## The points of a stop command -/

/-- The table after a command that has taken the key `k` out. -/
def Stopped (slots₀ : List Nat) (cs : List ProcInfo) (k : Key) (w : World) (slots : List Nat) : Prop :=
  Left slots₀ cs k slots ∧ WorldInv w slots ∧ Shown w slots (without k cs)

/-- What holds at the points of a stop command on its way to a success. -/
def StopPoint (slots₀ : List Nat) (cs : List ProcInfo) (k : Key) (w : World) : Pc → Prop
  | .deleting key _ _ | .killing key _ _ _ _ | .retryKillCheck key _ _ _ _ | .killed key _ _ _ =>
    key = k ∧ WorldInv w slots₀ ∧ Shown w slots₀ cs
  | .killError _ ret => ret ≠ 0
  | .killRemoved f => ¬ InTable w f ∧ ∃ slots, Stopped slots₀ cs k w slots
  | .returned ret => ret = 0 → ∃ slots, Stopped slots₀ cs k w slots
  | _ => False

variable {k : Key}

theorem deleteProcess_point {killFlag : Bool} {loopCount : Nat} (hw : WorldInv w slots₀)
    (hshown : Shown w slots₀ cs) (hrun : deleteProcess w k killFlag loopCount = .ok out) :
    StopPoint slots₀ cs k out.world out.pc := by
  unfold deleteProcess at hrun
  split at hrun
  · -- there is nothing to stop
    rename_i hs
    cases hrun
    have hnew : k ∉ cs.map ProcInfo.key := hshown.not_mem_of_search hw hs
    intro _
    refine ⟨slots₀, Left.of_not_mem hnew, hw, ?_⟩
    rw [without_of_not_mem hnew]
    exact hshown
  · rename_i f hs
    rcases bind_eq_ok.mp hrun with ⟨c, hc, hrun⟩
    rw [follow_eq_ok] at hc
    split_ifs at hrun with hbusy hloop hkill
    · cases hrun
      intro hret
      exact absurd hret (by decide)
    · cases hrun
      exact ⟨rfl, hw, hshown⟩
    · cases hrun
      intro hret
      exact absurd hret (by decide)
    · cases hrun
      refine ⟨rfl, hw.store hc _ rfl fun _ => rfl, hshown.store hc ?_⟩
      intro e he
      rcases he.holds with ⟨behind, hholds⟩
      exact ⟨⟨behind, hholds.key, hholds.programName, hholds.versionString, hholds.parameters⟩,
        he.startId, he.pid⟩

theorem removeKilled_point {startId : Nat} (hw : WorldInv w slots₀) (hshown : Shown w slots₀ cs)
    (hrun : removeKilled w k pid startId = .ok out) : StopPoint slots₀ cs k out.world out.pc := by
  unfold removeKilled at hrun
  split at hrun
  · cases hrun
  · rename_i f hs
    rcases hw.search hs with ⟨c, hc, rfl, hmem⟩
    rw [bind_of_ok (follow_of_cell hc)] at hrun
    split_ifs at hrun with hsame
    · rcases bind_eq_ok.mp hrun with ⟨w', hrem, hrun⟩
      cases hrun
      rcases removePcEntry_spec hw ⟨_, hmem⟩ hc with ⟨a', hok, hinv⟩
      rw [hrem] at hok
      cases hok
      have hold : c.key ∈ cs.map ProcInfo.key := (hshown.key_mem_iff hw _).mpr ⟨f, hmem⟩
      have hlt := (liveSlots_set hw ⟨_, hmem⟩ hc).1
      refine ⟨?_, _, Left.of_set hold hlt, hinv, hshown.remove hw ⟨_, hmem⟩ hc rfl⟩
      intro hin
      exact ((inTable_remove hw ⟨_, hmem⟩ hc rfl).mp hin).2 rfl

theorem killCheck_point {f : Ptr} {startId loopCount : Nat}
    (h : StopPoint slots₀ cs k w (.retryKillCheck k f pid startId loopCount)) (answer : Alive) :
    StopPoint slots₀ cs k w (killCheck k f pid startId loopCount answer) := by
  cases answer with
  | alive =>
    unfold killCheck
    split_ifs
    · show errorFailedToStopProcess ≠ 0
      decide
    · exact h
  | notAlive => exact h
  | scriptError =>
    show errorCheckProcessScript ≠ 0
    decide

theorem stopPoint_step (h : StopPoint slots₀ cs k w pc) (hrun : localStep w pc act = some (.ok out))
    : StopPoint slots₀ cs k out.world out.pc := by
  cases pc with
  | deleting key killFlag loopCount =>
    cases act with
    | deleteProcess =>
      rcases h with ⟨rfl, hw, hshown⟩
      exact deleteProcess_point hw hshown (Option.some.inj hrun)
    | _ => nomatch hrun
  | killing key killFlag f pid startId =>
    cases act with
    | kill =>
      cases hrun
      rcases h with ⟨rfl, hw, hshown⟩
      exact ⟨rfl, hw.congr rfl rfl rfl, hshown.congr_cells fun _ _ => rfl⟩
    | _ => nomatch hrun
  | retryKillCheck key f pid startId loopCount =>
    cases act with
    | isAlive answer =>
      cases hrun
      rcases h with ⟨rfl, hw, hshown⟩
      exact killCheck_point ⟨rfl, hw, hshown⟩ answer
    | _ => nomatch hrun
  | killed key f pid startId =>
    cases act with
    | removeKilled =>
      rcases h with ⟨rfl, hw, hshown⟩
      exact removeKilled_point hw hshown (Option.some.inj hrun)
    | _ => nomatch hrun
  | killError f ret =>
    cases act with
    | clearKill =>
      rcases bind_eq_ok.mp (Option.some.inj hrun) with ⟨c, -, hout⟩
      cases hout
      intro hret
      exact absurd hret h
    | _ => nomatch hrun
  | killRemoved f =>
    cases act with
    | free =>
      rcases bind_eq_ok.mp (Option.some.inj hrun) with ⟨w', hrel, hout⟩
      cases hout
      rcases h with ⟨hf, slots, hleft, hw, hshown⟩
      rcases release_eq_ok hrel with ⟨⟨c, hc⟩, rfl⟩
      intro _
      refine ⟨slots, hleft, (hw.release hf hc).2, hshown.of_untouched hw hf ?_⟩
      intro q hq
      exact free_of_ne _ hq
    | _ => nomatch hrun
  | returned ret => cases act <;> nomatch hrun
  | _ => exact h.elim

/-! ## The table after a history -/

variable {cmds : List Command} {a : DynamicArray}

theorem map_key_without (k : Key) (cs : List ProcInfo) :
    (without k cs).map ProcInfo.key = (cs.map ProcInfo.key).filter (· ≠ k) := by
  unfold without
  rw [filter_map]
  rfl

/-- One command: the entries that are left, and the keys. -/
theorem Succeeds.table {cmd : Command} {cs' : List ProcInfo} (h : Succeeds w cs cmd w' cs')
    (hw : WorldInv w slots) (hshown : Shown w slots cs) :
    (∃ slots', WorldInv w' slots' ∧ Shown w' slots' cs' ∧ Left slots cs cmd.key slots') ∧
      cs'.map ProcInfo.key = keysStep (cs.map ProcInfo.key) cmd := by
  cases h with
  | start hfresh hrun hpub =>
    refine ⟨start_table hw hshown hfresh hrun hpub, ?_⟩
    rw [map_append, map_key_without]
    rfl
  | @stop key killFlag acts w' hrun =>
    have hpoint : StopPoint slots cs key w' (.returned 0) :=
      runThread_induct (fun w pc act out h hstep => stopPoint_step h hstep) hrun ⟨rfl, hw, hshown⟩
    rcases hpoint rfl with ⟨slots', hleft, hw', hshown'⟩
    exact ⟨⟨slots', hw', hshown', hleft⟩, map_key_without key cs⟩

theorem keysAfter_snoc (cmds : List Command) (cmd : Command) :
    keysAfter (cmds ++ [cmd]) = keysStep (keysAfter cmds) cmd := by
  unfold keysAfter
  rw [foldl_append]
  rfl

theorem freshKeys_snoc (cmds : List Command) (cmd : Command) :
    FreshKeys (cmds ++ [cmd]) ↔ FreshKeys cmds ∧ cmd.key ∉ keysAfter cmds := by
  constructor
  · intro h
    constructor
    · rintro done c rest rfl
      exact h done c (rest ++ [cmd]) (by simp)
    · exact h cmds cmd [] rfl
  · rintro ⟨h, hlast⟩ done c rest heq
    -- the command is the last one, or one of those before it
    rcases eq_nil_or_concat rest with rfl | ⟨rest', last, rfl⟩
    · rcases append_inj' heq rfl with ⟨rfl, hc⟩
      cases hc
      exact hlast
    · have heq' : cmds ++ [cmd] = (done ++ c :: rest') ++ [last] := by
        rw [heq]
        simp
      rcases append_inj' heq' rfl with ⟨hcmds, -⟩
      exact h done c rest' hcmds

/-- The table that a history leaves. -/
theorem History.table (ha : createPtrArray (fun _ => true) empty = some a)
    (h : History a cmds w cs) :
    (∃ slots, WorldInv w slots ∧ Shown w slots cs ∧ (Marked slots ↔ ¬ FreshKeys cmds)) ∧
      keysAfter cmds = cs.map ProcInfo.key := by
  induction h with
  | nil =>
    refine ⟨⟨[0], start_world ha, List.Forall₂.nil, ?_⟩, rfl⟩
    constructor
    · intro hm
      exact absurd (mem_singleton.mp hm) (by decide)
    · intro hfresh
      refine absurd ?_ hfresh
      rintro done cmd rest heq
      simp at heq
  | @snoc cmds w w' cs cs' cmd _ hcmd ih =>
    rcases ih with ⟨⟨slots, hw, hshown, hmarked⟩, hkeys⟩
    rcases hcmd.table hw hshown with ⟨⟨slots', hw', hshown', hleft⟩, hkeys'⟩
    refine ⟨⟨slots', hw', hshown', ?_⟩, ?_⟩
    · unfold Left at hleft
      rw [hleft, hmarked, freshKeys_snoc, hkeys]
      tauto
    · rw [keysAfter_snoc, hkeys, hkeys']

end IClaustron.Pcntrl
