import IClaustron.Lib.Result
import IClaustron.Lib.Run
import IClaustron.Pcntrl.ProcessTable

/-!
# Pcntrl.SingleProcess — one running process per key

The entry of a process protects its key: `insert_process` does not book a second
one as long as the first is in the table. So what matters is that an entry leaves
the table only when its process has ended. A thread that takes an entry out has
learnt so from a liveness check made without the mutex; what it remembers, the
start id, still means the same entry afterwards.

* `ProcInv` — entries, start ids and the processes that live;
* `Facts` — what a thread knows at each program point;
* `Evolves` — what the other threads can do to it, with `Facts.stable`;
* `localStep_sound` — one step, `one_process` — whole runs.

Nothing is assumed about the table invariant here: a program that uses a freed
entry is stopped, and launches nothing more.
-/

namespace IClaustron.Pcntrl

open Lib DynArray List Result Heap

/-! ## Liveness -/

/-- No process of the entry is alive. -/
def EntryDead (w : World) (x : Ptr) : Prop := ∀ q ∈ w.procs, q.entry = x → q.alive = false

/-- No process with the pid is alive. -/
def PidDead (w : World) (pid : Nat) : Prop := ∀ q ∈ w.procs, q.pid = pid → q.alive = false

/-- `ic_is_process_alive` does not call a living process dead. -/
def Truthful (w : World) : Pc → Act → Prop
  | .foundOld _ _ pid _ _, .isAlive .notAlive => PidDead w pid
  | .verifying _ pid, .isAlive .notAlive => PidDead w pid
  | .retryKillCheck _ _ pid _ _, .isAlive .notAlive => PidDead w pid
  | .checking _ f, .isAlive .notAlive => ∀ c, w.pcs.cells f = some c → PidDead w c.pid
  | _, _ => True

/-- The condition on a step: `handle_start` and the check thread get an answer
from the liveness check unless the process is dead, and `ic_start_process` does
not fail after the process was spawned. -/
def Certain (w : World) : Pc → Act → Prop
  | .launching _, .startProcess (.noPidFile _ _) _ => False
  | .verifying _ pid, .isAlive .scriptError => PidDead w pid
  | .checking _ f, .isAlive .scriptError => ∀ c, w.pcs.cells f = some c → PidDead w c.pid
  | _, _ => True

/-! ## Invariants -/

structure ProcInv (w : World) : Prop where
  bounded : ∀ x c, w.pcs.cells x = some c → x < w.pcs.fresh
  keyed : Assoc.Keyed w.hash
  hash_lt : ∀ k x, (k, x) ∈ w.hash → x < w.pcs.fresh
  hash_key : ∀ k x c, (k, x) ∈ w.hash → w.pcs.cells x = some c → c.key = k
  id_lt : ∀ x c, w.pcs.cells x = some c → c.startId < w.globStartId
  id_unique : ∀ x y c d, w.pcs.cells x = some c → w.pcs.cells y = some d → c.startId ≠ 0 →
    c.startId = d.startId → x = y
  published : ∀ x c, w.pcs.cells x = some c → c.pid ≠ 0 → c.startId ≠ 0
  entry_lt : ∀ q ∈ w.procs, q.entry < w.pcs.fresh
  once : (w.procs.map Proc.entry).Nodup
  /-- a living process has its entry, and the entry has its pid -/
  alive : ∀ q ∈ w.procs, q.alive = true → (q.key, q.entry) ∈ w.hash ∧
    ∃ c, w.pcs.cells q.entry = some c ∧ (c.startId ≠ 0 → c.pid = q.pid)

/-- The object of a start command that has not launched a process. -/
def Mine (w : World) (p : Ptr) : Prop :=
  (∃ c, w.pcs.cells p = some c ∧ c.startId = 0 ∧ c.pid = 0) ∧ ∀ q ∈ w.procs, q.entry ≠ p

/-- The object of a start command is in the table. -/
def Entered (w : World) (p : Ptr) : Prop :=
  ∃ c, w.pcs.cells p = some c ∧ c.startId = 0 ∧ c.pid = 0 ∧ (c.key, p) ∈ w.hash

/-- The entry with this start id, if it is still there, has this pid. -/
def KnownPid (w : World) (startId pid : Nat) : Prop :=
  startId ≠ 0 ∧ startId < w.globStartId ∧
    ∀ x c, w.pcs.cells x = some c → c.startId = startId → c.pid = pid

/-- The process of the entry with this start id has ended. -/
def KnownDead (w : World) (startId : Nat) : Prop :=
  startId < w.globStartId ∧
    (startId ≠ 0 → ∀ x c, w.pcs.cells x = some c → c.startId = startId → EntryDead w x)

/-- The entry of a finished start command, if it is still there. -/
def Old (w : World) (f : Ptr) : Prop :=
  f < w.pcs.fresh ∧ ∀ c, w.pcs.cells f = some c → c.startId ≠ 0

/-- What a thread knows. -/
def Facts (w : World) : Pc → Prop
  | .received p => Mine w p
  | .inserting p _ prevStartId _ => Mine w p ∧ KnownDead w prevStartId
  | .foundOld p _ pid prevStartId _ => Mine w p ∧ KnownPid w prevStartId pid
  | .replaced p _ f ret => Mine w p ∧ (ret = 0 → Entered w p) ∧ Old w f ∧ EntryDead w f
  | .booked p _ | .daemonFiles p | .launching p => Mine w p ∧ Entered w p
  | .verifying p pid | .publishing p pid =>
    Entered w p ∧ ∀ q ∈ w.procs, q.entry = p → q.pid = pid
  | .lateError p _ | .startError p _ =>
    (∃ c, w.pcs.cells p = some c ∧ c.startId = 0) ∧ EntryDead w p
  | .killing _ _ _ pid startId | .retryKillCheck _ _ pid startId _ => KnownPid w startId pid
  | .killed _ _ _ startId => startId ≠ 0 ∧ KnownDead w startId
  | .killRemoved f | .checkFailed _ f | .checkRemoved _ f => Old w f ∧ EntryDead w f
  | .checking _ f => Old w f
  | .deleting .. | .killError .. | .listing .. | .scanning .. | .returned _ => True

/-- The object that a start command has received. -/
def Pc.own : Pc → Option Ptr
  | .received p | .inserting p _ _ _ | .foundOld p _ _ _ _ | .replaced p _ _ _ | .booked p _
  | .daemonFiles p | .launching p | .verifying p _ | .publishing p _ | .lateError p _
  | .startError p _ => some p
  | _ => none

/-- What a step may do that leaves alone the start commands other than `own`. -/
structure Evolves (w w' : World) (own : Ptr → Prop) : Prop where
  fresh : w.pcs.fresh ≤ w'.pcs.fresh
  glob : w.globStartId ≤ w'.globStartId
  /-- start id and pid are given once -/
  back : ∀ x c', w'.pcs.cells x = some c' → x < w.pcs.fresh → ∃ c, w.pcs.cells x = some c ∧
    (c.startId ≠ 0 → c'.startId = c.startId ∧ c'.pid = c.pid) ∧
    (c.startId = 0 → c'.startId = 0 ∨ w.globStartId ≤ c'.startId)
  new : ∀ x c', w'.pcs.cells x = some c' → w.pcs.fresh ≤ x → c'.startId = 0
  keep : ∀ x c, ¬ own x → w.pcs.cells x = some c → c.startId = 0 →
    ∃ c', w'.pcs.cells x = some c' ∧ c'.startId = 0 ∧ c'.pid = c.pid ∧
      ((c.key, x) ∈ w.hash → (c'.key, x) ∈ w'.hash)
  procs : ∀ q' ∈ w'.procs,
    (∃ q ∈ w.procs, q.entry = q'.entry ∧ q.pid = q'.pid ∧ (q'.alive = true → q.alive = true)) ∨
      (own q'.entry ∧ ∃ c, w.pcs.cells q'.entry = some c ∧ c.startId = 0)

variable {w w' : World} {own : Ptr → Prop} {p f x : Ptr} {c c' : PcStart} {ret : Nat}

/-! ## Stability -/

variable {pid startId : Nat} {pc : Pc} {a : Act}

section

variable (h : Evolves w w' own)

include h

theorem Evolves.entryDead (hdead : EntryDead w x)
    (hx : ∀ c, own x → w.pcs.cells x = some c → c.startId ≠ 0) : EntryDead w' x := by
  rintro q' hq' rfl
  rcases h.procs q' hq' with ⟨q, hq, hentry, -, halive⟩ | ⟨hown, c, hc, hid⟩
  · have hq0 := hdead q hq hentry
    cases hq'a : q'.alive with
    | false => rfl
    | true =>
      rw [halive hq'a] at hq0
      cases hq0
  · exact absurd hid (hx c hown hc)

theorem Evolves.old (hold : Old w f) : Old w' f := by
  refine ⟨lt_of_lt_of_le hold.1 h.fresh, fun c' hc' => ?_⟩
  obtain ⟨c, hc, hsame, -⟩ := h.back f c' hc' hold.1
  have hid := hold.2 c hc
  rw [(hsame hid).1]
  exact hid

theorem Evolves.old_dead (hold : Old w f ∧ EntryDead w f) : Old w' f ∧ EntryDead w' f :=
  ⟨h.old hold.1, h.entryDead hold.2 fun c _ hc => hold.1.2 c hc⟩

/-- An object with an older start id had it before. -/
theorem Evolves.by_id (hne : startId ≠ 0) (hlt : startId < w.globStartId)
    (hc' : w'.pcs.cells x = some c') (hid : c'.startId = startId) :
    ∃ c, w.pcs.cells x = some c ∧ c.startId = startId ∧ c'.pid = c.pid := by
  rcases Nat.lt_or_ge x w.pcs.fresh with hx | hx
  · obtain ⟨c, hc, hsame, hnew⟩ := h.back x c' hc' hx
    by_cases hcid : c.startId = 0
    · rcases hnew hcid with h0 | hge
      · exact absurd (hid.symm.trans h0) hne
      · rw [hid] at hge
        exact absurd hlt (Nat.not_lt.mpr hge)
    · obtain ⟨hsid, hpid⟩ := hsame hcid
      exact ⟨c, hc, by rw [← hsid, hid], hpid⟩
  · exact absurd (hid.symm.trans (h.new x c' hc' hx)) hne

theorem Evolves.knownPid (hk : KnownPid w startId pid) : KnownPid w' startId pid := by
  obtain ⟨hne, hlt, hall⟩ := hk
  refine ⟨hne, lt_of_lt_of_le hlt h.glob, fun x c' hc' hid => ?_⟩
  obtain ⟨c, hc, hcid, hpid⟩ := h.by_id hne hlt hc' hid
  rw [hpid]
  exact hall x c hc hcid

theorem Evolves.knownDead (hk : KnownDead w startId) : KnownDead w' startId := by
  obtain ⟨hlt, hall⟩ := hk
  refine ⟨lt_of_lt_of_le hlt h.glob, fun hne x c' hc' hid => ?_⟩
  obtain ⟨c, hc, hcid, -⟩ := h.by_id hne hlt hc' hid
  refine h.entryDead (hall hne x c hc hcid) fun d _ hd => ?_
  rw [hc] at hd
  cases hd
  rw [hcid]
  exact hne

theorem Evolves.mine (hp : ¬ own p) (hm : Mine w p) : Mine w' p := by
  obtain ⟨⟨c, hc, hid, hpid⟩, hnone⟩ := hm
  obtain ⟨c', hc', hid', hpid', -⟩ := h.keep p c hp hc hid
  refine ⟨⟨c', hc', hid', by rw [hpid', hpid]⟩, ?_⟩
  rintro q' hq' rfl
  rcases h.procs q' hq' with ⟨q, hq, hentry, -, -⟩ | ⟨hown, -⟩
  · exact hnone q hq hentry
  · exact hp hown

theorem Evolves.entered (hp : ¬ own p) (he : Entered w p) : Entered w' p := by
  obtain ⟨c, hc, hid, hpid, hmem⟩ := he
  obtain ⟨c', hc', hid', hpid', hmem'⟩ := h.keep p c hp hc hid
  exact ⟨c', hc', hid', by rw [hpid', hpid], hmem' hmem⟩

end

/-- What a thread knows stays true when another one steps. -/
theorem Facts.stable (hf : Facts w pc) (h : Evolves w w' own)
    (hown : ∀ p, pc.own = some p → ¬ own p) : Facts w' pc := by
  cases pc with
  | received p => exact h.mine (hown p rfl) hf
  | inserting p d prev retry => exact ⟨h.mine (hown p rfl) hf.1, h.knownDead hf.2⟩
  | foundOld p d pid prev retry => exact ⟨h.mine (hown p rfl) hf.1, h.knownPid hf.2⟩
  | replaced p d f ret =>
    exact ⟨h.mine (hown p rfl) hf.1, fun hret => h.entered (hown p rfl) (hf.2.1 hret),
      h.old_dead hf.2.2⟩
  | booked p d | daemonFiles p | launching p =>
    exact ⟨h.mine (hown p rfl) hf.1, h.entered (hown p rfl) hf.2⟩
  | verifying p pid | publishing p pid =>
    refine ⟨h.entered (hown p rfl) hf.1, ?_⟩
    rintro q' hq' rfl
    rcases h.procs q' hq' with ⟨q, hq, hentry, hpid, -⟩ | ⟨ho, -⟩
    · rw [← hpid]
      exact hf.2 q hq hentry
    · exact absurd ho (hown _ rfl)
  | lateError p ret | startError p ret =>
    obtain ⟨⟨c, hc, hid⟩, hdead⟩ := hf
    obtain ⟨c', hc', hid', -⟩ := h.keep p c (hown p rfl) hc hid
    exact ⟨⟨c', hc', hid'⟩, h.entryDead hdead fun _ ho => absurd ho (hown p rfl)⟩
  | killing key k f pid sid | retryKillCheck key f pid sid n => exact h.knownPid hf
  | killed key f pid sid => exact ⟨hf.1, h.knownDead hf.2⟩
  | killRemoved f | checkFailed n f | checkRemoved n f => exact h.old_dead hf
  | checking n f => exact h.old hf
  | deleting key k n | killError f ret | listing find full | scanning n f | returned ret =>
    exact trivial

/-! ## Operations -/

theorem ProcInv.congr (h : ProcInv w) (hpcs : w'.pcs = w.pcs) (hhash : w'.hash = w.hash)
    (hglob : w'.globStartId = w.globStartId) (hprocs : w'.procs = w.procs) : ProcInv w' := by
  cases w
  cases w'
  cases hpcs
  cases hhash
  cases hglob
  cases hprocs
  exact ⟨h.bounded, h.keyed, h.hash_lt, h.hash_key, h.id_lt, h.id_unique, h.published, h.entry_lt,
    h.once, h.alive⟩

/-- No object is written. -/
theorem ProcInv.evolves (h : ProcInv w) (hfresh : w'.pcs.fresh = w.pcs.fresh)
    (hglob : w'.globStartId = w.globStartId)
    (hget : ∀ x d, w'.pcs.cells x = some d → w.pcs.cells x = some d)
    (hkeep : ∀ x d, ¬ own x → w.pcs.cells x = some d → d.startId = 0 →
      w'.pcs.cells x = some d ∧ ((d.key, x) ∈ w.hash → (d.key, x) ∈ w'.hash))
    (hprocs : ∀ q' ∈ w'.procs,
      (∃ q ∈ w.procs, q.entry = q'.entry ∧ q.pid = q'.pid ∧ (q'.alive = true → q.alive = true)) ∨
        (own q'.entry ∧ ∃ c, w.pcs.cells q'.entry = some c ∧ c.startId = 0)) :
    Evolves w w' own := by
  refine ⟨hfresh.ge, hglob.ge, ?_, ?_, ?_, hprocs⟩
  · intro x d hd _
    exact ⟨d, hget x d hd, fun _ => ⟨rfl, rfl⟩, .inl⟩
  · intro x d hd hx
    exact absurd (h.bounded x d (hget x d hd)) (Nat.not_lt.mpr hx)
  · intro x d hx hd h0
    obtain ⟨hd', hmem⟩ := hkeep x d hx hd h0
    exact ⟨d, hd', h0, rfl, hmem⟩

theorem Evolves.of_same (hpcs : w'.pcs = w.pcs) (hhash : w'.hash = w.hash)
    (hglob : w'.globStartId = w.globStartId) (hprocs : w'.procs = w.procs) (hw : ProcInv w) :
    Evolves w w' own := by
  refine hw.evolves (by rw [hpcs]) hglob ?_ ?_ ?_
  · rw [hpcs]
    exact fun _ _ => id
  · rw [hpcs, hhash]
    exact fun _ _ _ hd _ => ⟨hd, id⟩
  · rw [hprocs]
    exact fun q' hq' => .inl ⟨q', hq', rfl, rfl, id⟩

section

variable (h : ProcInv w)

include h

section

variable (hc : w.pcs.cells p = some c)

include hc

/-- A write that leaves key, pid and start id alone. -/
theorem ProcInv.write (c' : PcStart) (hkey : c'.key = c.key) (hid : c'.startId = c.startId)
    (hpid : c'.pid = c.pid) : ProcInv (store w p c') ∧ Evolves w (store w p c') own := by
  have hget : ∀ x d', (store w p c').pcs.cells x = some d' →
      ∃ d, w.pcs.cells x = some d ∧ d'.key = d.key ∧ d'.startId = d.startId ∧ d'.pid = d.pid := by
    intro x d' hd'
    by_cases hx : x = p
    · subst hx
      cases Option.some.inj ((set_self _ _ _).symm.trans hd')
      exact ⟨c, hc, hkey, hid, hpid⟩
    · exact ⟨d', (set_of_ne _ _ hx).symm.trans hd', rfl, rfl, rfl⟩
  have hput : ∀ x d, w.pcs.cells x = some d → ∃ d', (store w p c').pcs.cells x = some d' ∧
      d'.key = d.key ∧ d'.startId = d.startId ∧ d'.pid = d.pid := by
    intro x d hd
    by_cases hx : x = p
    · subst hx
      rw [hc] at hd
      cases hd
      exact ⟨c', set_self _ _ _, hkey, hid, hpid⟩
    · exact ⟨d, (set_of_ne _ _ hx).trans hd, rfl, rfl, rfl⟩
  constructor
  · refine ⟨?_, h.keyed, h.hash_lt, ?_, ?_, ?_, ?_, h.entry_lt, h.once, ?_⟩
    · intro x d' hd'
      obtain ⟨d, hd, -⟩ := hget x d' hd'
      exact h.bounded x d hd
    · intro k x d' hmem hd'
      obtain ⟨d, hd, hdk, -⟩ := hget x d' hd'
      rw [hdk]
      exact h.hash_key k x d hmem hd
    · intro x d' hd'
      obtain ⟨d, hd, -, hdid, -⟩ := hget x d' hd'
      rw [hdid]
      exact h.id_lt x d hd
    · intro x y d' e' hd' he' hne heq
      obtain ⟨d, hd, -, hdid, -⟩ := hget x d' hd'
      obtain ⟨e, he, -, heid, -⟩ := hget y e' he'
      rw [hdid] at hne heq
      rw [heid] at heq
      exact h.id_unique x y d e hd he hne heq
    · intro x d' hd' hne
      obtain ⟨d, hd, -, hdid, hdpid⟩ := hget x d' hd'
      rw [hdid]
      exact h.published x d hd (by rw [← hdpid]; exact hne)
    · intro q hq halive
      obtain ⟨hmem, d, hd, hdpid⟩ := h.alive q hq halive
      obtain ⟨d', hd', -, hid', hpid'⟩ := hput _ d hd
      exact ⟨hmem, d', hd', by rw [hid', hpid']; exact hdpid⟩
  · refine ⟨le_rfl, le_rfl, ?_, ?_, ?_, fun q' hq' => .inl ⟨q', hq', rfl, rfl, id⟩⟩
    · intro x d' hd' _
      obtain ⟨d, hd, -, hdid, hdpid⟩ := hget x d' hd'
      exact ⟨d, hd, fun _ => ⟨hdid, hdpid⟩, fun h0 => .inl (hdid.trans h0)⟩
    · intro x d' hd' hx
      obtain ⟨d, hd, -⟩ := hget x d' hd'
      exact absurd (h.bounded x d hd) (Nat.not_lt.mpr hx)
    · intro x d _ hd h0
      obtain ⟨d', hd', hkey', hid', hpid'⟩ := hput x d hd
      exact ⟨d', hd', hid'.trans h0, hpid', by rw [hkey']; exact id⟩

/-- An entry whose process is dead leaves the table. -/
theorem ProcInv.remove (hs : hashSearch w c.key = some p) (hdead : EntryDead w p)
    (hown : own p ∨ c.startId ≠ 0) (a : DynamicArray) :
    ProcInv { w with hash := Assoc.remove w.hash c.key, array := a } ∧
      Evolves w { w with hash := Assoc.remove w.hash c.key, array := a } own := by
  have hmem : (c.key, p) ∈ w.hash := Assoc.mem_of_search hs
  -- only the entry itself goes
  have hother : ∀ k x, (k, x) ∈ w.hash → x ≠ p → (k, x) ∈ Assoc.remove w.hash c.key := by
    intro k x hx hne
    refine (Assoc.mem_remove h.keyed).mpr ⟨hx, ?_⟩
    rintro rfl
    exact hne (h.keyed.unique hx hmem)
  constructor
  · refine ⟨h.bounded, h.keyed.remove _, ?_, ?_, h.id_lt, h.id_unique, h.published, h.entry_lt, h.once, ?_⟩
    · intro k x hx
      exact h.hash_lt k x ((Assoc.mem_remove h.keyed).mp hx).1
    · intro k x d hx hd
      exact h.hash_key k x d ((Assoc.mem_remove h.keyed).mp hx).1 hd
    · intro q hq halive
      obtain ⟨hqmem, hd⟩ := h.alive q hq halive
      refine ⟨hother _ _ hqmem ?_, hd⟩
      intro heq
      rw [hdead q hq heq] at halive
      cases halive
  · refine h.evolves rfl rfl (fun _ _ => id) ?_ fun q' hq' => .inl ⟨q', hq', rfl, rfl, id⟩
    intro x d hx hd h0
    refine ⟨hd, fun hdmem => hother _ _ hdmem ?_⟩
    rintro rfl
    rw [hc] at hd
    cases hd
    rcases hown with ho | hne
    · exact hx ho
    · exact hne h0

/-- The object of a start command enters the table. -/
theorem ProcInv.enter (hkey : ∀ x, (c.key, x) ∉ w.hash) (i : Nat) (a : DynamicArray) :
    ProcInv { w with
      pcs := w.pcs.set p { c with dynTransIndex := i }
      hash := (c.key, p) :: w.hash
      array := a } ∧
    Evolves w { w with
      pcs := w.pcs.set p { c with dynTransIndex := i }
      hash := (c.key, p) :: w.hash
      array := a } own := by
  obtain ⟨h₁, hev⟩ : ProcInv (store w p { c with dynTransIndex := i }) ∧
      Evolves w (store w p { c with dynTransIndex := i }) own := h.write hc _ rfl rfl rfl
  constructor
  · refine ⟨h₁.bounded, h.keyed.cons hkey, ?_, ?_, h₁.id_lt, h₁.id_unique, h₁.published, h₁.entry_lt,
      h₁.once, ?_⟩
    · intro k x hx
      rcases mem_cons.mp hx with heq | hx
      · cases heq
        exact h.bounded p c hc
      · exact h.hash_lt k x hx
    · intro k x d hx hd
      rcases mem_cons.mp hx with heq | hold
      · cases heq
        cases Option.some.inj ((set_self _ _ _).symm.trans hd)
        rfl
      · exact h₁.hash_key k x d hold hd
    · intro q hq halive
      obtain ⟨hmem, hd⟩ := h₁.alive q hq halive
      exact ⟨mem_cons_of_mem _ hmem, hd⟩
  · refine ⟨hev.fresh, hev.glob, hev.back, hev.new, ?_, hev.procs⟩
    intro x d hx hd h0
    obtain ⟨d', hd', hid', hpid', hmem⟩ := hev.keep x d hx hd h0
    exact ⟨d', hd', hid', hpid', fun hdmem => mem_cons_of_mem _ (hmem hdmem)⟩

/-- An object without a living process is freed. -/
theorem ProcInv.free (hdead : EntryDead w p) (hown : own p ∨ c.startId ≠ 0) :
    ProcInv { w with pcs := w.pcs.free p } ∧ Evolves w { w with pcs := w.pcs.free p } own := by
  have hget : ∀ x d, (w.pcs.free p).cells x = some d → w.pcs.cells x = some d := by
    intro x d hd
    by_cases hx : x = p
    · subst hx
      rw [free_self] at hd
      cases hd
    · rw [free_of_ne _ hx] at hd
      exact hd
  constructor
  · refine ⟨?_, h.keyed, h.hash_lt, ?_, ?_, ?_, ?_, h.entry_lt, h.once, ?_⟩
    · exact fun x d hd => h.bounded x d (hget x d hd)
    · exact fun k x d hmem hd => h.hash_key k x d hmem (hget x d hd)
    · exact fun x d hd => h.id_lt x d (hget x d hd)
    · exact fun x y d e hd he => h.id_unique x y d e (hget x d hd) (hget y e he)
    · exact fun x d hd => h.published x d (hget x d hd)
    · intro q hq halive
      obtain ⟨hmem, d, hd, hpid⟩ := h.alive q hq halive
      have hne : q.entry ≠ p := by
        intro heq
        rw [hdead q hq heq] at halive
        cases halive
      exact ⟨hmem, d, (free_of_ne _ hne).trans hd, hpid⟩
  · refine h.evolves rfl rfl hget ?_ fun q' hq' => .inl ⟨q', hq', rfl, rfl, id⟩
    intro x d hx hd h0
    have hne : x ≠ p := by
      rintro rfl
      rw [hc] at hd
      cases hd
      rcases hown with ho | hne
      · exact hx ho
      · exact hne h0
    exact ⟨(free_of_ne _ hne).trans hd, id⟩

end

/-- The processes change, but none is added and none comes back to life. -/
theorem ProcInv.setProcs {procs : List Proc}
    (hentry : procs.map Proc.entry = w.procs.map Proc.entry)
    (hold : ∀ q' ∈ procs, ∃ q ∈ w.procs, q.entry = q'.entry ∧ q.key = q'.key ∧ q.pid = q'.pid ∧
      (q'.alive = true → q.alive = true)) :
    ProcInv { w with procs := procs } ∧ Evolves w { w with procs := procs } own := by
  constructor
  · refine ⟨h.bounded, h.keyed, h.hash_lt, h.hash_key, h.id_lt, h.id_unique, h.published, ?_, ?_, ?_⟩
    · intro q' hq'
      obtain ⟨q, hq, heq, -⟩ := hold q' hq'
      rw [← heq]
      exact h.entry_lt q hq
    · unfold List.Nodup at *
      rw [hentry]
      exact h.once
    · intro q' hq' halive
      obtain ⟨q, hq, heq, hkey, hpid, hal⟩ := hold q' hq'
      rw [← heq, ← hkey, ← hpid]
      exact h.alive q hq (hal halive)
  · refine h.evolves rfl rfl (fun _ _ => id) (fun _ _ _ hd _ => ⟨hd, id⟩) ?_
    intro q' hq'
    obtain ⟨q, hq, heq, -, hpid, hal⟩ := hold q' hq'
    exact .inl ⟨q, hq, heq, hpid, hal⟩

/-- A start command that has booked its entry launches its process. -/
theorem ProcInv.launch (hc : w.pcs.cells p = some c) (hm : Mine w p) (he : Entered w p) (pid : Nat)
    (hown : own p) :
    ProcInv { w with procs := w.procs ++ [⟨p, c.key, pid, true, false⟩] } ∧
      Evolves w { w with procs := w.procs ++ [⟨p, c.key, pid, true, false⟩] } own := by
  obtain ⟨d, hd, hid, -, hmem⟩ := he
  rw [hc] at hd
  cases hd
  constructor
  · refine ⟨h.bounded, h.keyed, h.hash_lt, h.hash_key, h.id_lt, h.id_unique, h.published, ?_, ?_, ?_⟩
    · intro q hq
      rcases mem_append.mp hq with hq | hq
      · exact h.entry_lt q hq
      · cases mem_singleton.mp hq
        exact h.bounded p c hc
    · rw [map_append, nodup_append]
      refine ⟨h.once, nodup_singleton _, ?_⟩
      intro x hx y hy
      obtain ⟨q, hq, rfl⟩ := mem_map.mp hx
      cases mem_singleton.mp hy
      exact hm.2 q hq
    · intro q hq halive
      rcases mem_append.mp hq with hq | hq
      · exact h.alive q hq halive
      · cases mem_singleton.mp hq
        exact ⟨hmem, c, hc, fun hne => absurd hid hne⟩
  · refine h.evolves rfl rfl (fun _ _ => id) (fun _ _ _ hd _ => ⟨hd, id⟩) ?_
    intro q' hq'
    rcases mem_append.mp hq' with hq | hq
    · exact .inl ⟨q', hq, rfl, rfl, id⟩
    · cases mem_singleton.mp hq
      exact .inr ⟨hown, c, hc, hid⟩

/-- The entry gets the pid of its process and the next start id. -/
theorem ProcInv.publish (hc : w.pcs.cells p = some c) (he : Entered w p)
    (hpid : ∀ q ∈ w.procs, q.entry = p → q.pid = pid) (hown : own p) :
    ProcInv { store w p { c with pid := pid, startId := w.globStartId } with
      globStartId := w.globStartId + 1 } ∧
    Evolves w { store w p { c with pid := pid, startId := w.globStartId } with
      globStartId := w.globStartId + 1 } own := by
  obtain ⟨d, hd, hid, -, hmem⟩ := he
  rw [hc] at hd
  cases hd
  have hglob : w.globStartId ≠ 0 := Nat.ne_of_gt (Nat.zero_lt_of_lt (h.id_lt p c hc))
  have hget : ∀ x d', (store w p { c with pid := pid, startId := w.globStartId }).pcs.cells x = some d' →
      (x = p ∧ d' = { c with pid := pid, startId := w.globStartId }) ∨
        (x ≠ p ∧ w.pcs.cells x = some d') := by
    intro x d' hd'
    by_cases hx : x = p
    · subst hx
      exact .inl ⟨rfl, (Option.some.inj ((set_self _ _ _).symm.trans hd')).symm⟩
    · exact .inr ⟨hx, (set_of_ne _ _ hx).symm.trans hd'⟩
  constructor
  · refine ⟨?_, h.keyed, h.hash_lt, ?_, ?_, ?_, ?_, h.entry_lt, h.once, ?_⟩
    · intro x d' hd'
      rcases hget x d' hd' with ⟨rfl, -⟩ | ⟨-, hold⟩
      · exact h.bounded x c hc
      · exact h.bounded x d' hold
    · intro k x d' hx hd'
      rcases hget x d' hd' with ⟨rfl, rfl⟩ | ⟨-, hold⟩
      · exact h.hash_key k x c hx hc
      · exact h.hash_key k x d' hx hold
    · intro x d' hd'
      rcases hget x d' hd' with ⟨rfl, rfl⟩ | ⟨-, hold⟩
      · exact Nat.lt_succ_self _
      · exact Nat.lt_succ_of_lt (h.id_lt x d' hold)
    · -- the new start id is above all others
      intro x y d' e' hd' he' hne heq
      rcases hget x d' hd' with ⟨rfl, rfl⟩ | ⟨-, hx⟩ <;>
        rcases hget y e' he' with ⟨rfl, rfl⟩ | ⟨-, hy⟩
      · rfl
      · have heq' : w.globStartId = e'.startId := heq
        exact absurd heq'.symm (Nat.ne_of_lt (h.id_lt y e' hy))
      · have heq' : d'.startId = w.globStartId := heq
        exact absurd heq' (Nat.ne_of_lt (h.id_lt x d' hx))
      · exact h.id_unique x y d' e' hx hy hne heq
    · intro x d' hd' hne
      rcases hget x d' hd' with ⟨rfl, rfl⟩ | ⟨-, hold⟩
      · exact hglob
      · exact h.published x d' hold hne
    · intro q hq halive
      obtain ⟨hqmem, d, hd, hdpid⟩ := h.alive q hq halive
      refine ⟨hqmem, ?_⟩
      by_cases hx : q.entry = p
      · rw [hx]
        exact ⟨_, set_self _ _ _, fun _ => (hpid q hq hx).symm⟩
      · exact ⟨d, (set_of_ne _ _ hx).trans hd, hdpid⟩
  · refine ⟨le_rfl, Nat.le_succ _, ?_, ?_, ?_, fun q' hq' => .inl ⟨q', hq', rfl, rfl, id⟩⟩
    · intro x d' hd' _
      rcases hget x d' hd' with ⟨rfl, rfl⟩ | ⟨-, hold⟩
      · exact ⟨c, hc, fun hne => absurd hid hne, fun _ => .inr le_rfl⟩
      · exact ⟨d', hold, fun _ => ⟨rfl, rfl⟩, .inl⟩
    · intro x d' hd' hx
      rcases hget x d' hd' with ⟨rfl, -⟩ | ⟨-, hold⟩
      · exact absurd (h.bounded x c hc) (Nat.not_lt.mpr hx)
      · exact absurd (h.bounded x d' hold) (Nat.not_lt.mpr hx)
    · intro x d hx hd h0
      have hne : x ≠ p := by
        rintro rfl
        exact hx hown
      exact ⟨d, (set_of_ne _ _ hne).trans hd, h0, rfl, id⟩

/-- A start message has come in. -/
theorem ProcInv.create (hglob : w.globStartId ≠ 0) (m : StartMessage) :
    ProcInv { w with pcs := { w.pcs.set w.pcs.fresh m.toPcStart with fresh := w.pcs.fresh + 1 } } ∧
      Evolves w
        { w with pcs := { w.pcs.set w.pcs.fresh m.toPcStart with fresh := w.pcs.fresh + 1 } } own ∧
      Mine { w with pcs := { w.pcs.set w.pcs.fresh m.toPcStart with fresh := w.pcs.fresh + 1 } }
        w.pcs.fresh := by
  have hget : ∀ x d', (w.pcs.set w.pcs.fresh m.toPcStart).cells x = some d' →
      (x = w.pcs.fresh ∧ d' = m.toPcStart) ∨ (x ≠ w.pcs.fresh ∧ w.pcs.cells x = some d') := by
    intro x d' hd'
    by_cases hx : x = w.pcs.fresh
    · subst hx
      exact .inl ⟨rfl, (Option.some.inj ((set_self _ _ _).symm.trans hd')).symm⟩
    · exact .inr ⟨hx, (set_of_ne _ _ hx).symm.trans hd'⟩
  have hput : ∀ x d, w.pcs.cells x = some d → (w.pcs.set w.pcs.fresh m.toPcStart).cells x = some d :=
    fun x d hd => (set_of_ne _ _ (Nat.ne_of_lt (h.bounded x d hd))).trans hd
  refine ⟨⟨?_, h.keyed, ?_, ?_, ?_, ?_, ?_, ?_, h.once, ?_⟩, ⟨?_, le_rfl, ?_, ?_, ?_, ?_⟩, ?_⟩
  · intro x d' hd'
    rcases hget x d' hd' with ⟨rfl, -⟩ | ⟨-, hold⟩
    · exact Nat.lt_succ_self _
    · exact Nat.lt_succ_of_lt (h.bounded x d' hold)
  · exact fun k x hx => Nat.lt_succ_of_lt (h.hash_lt k x hx)
  · intro k x d' hx hd'
    rcases hget x d' hd' with ⟨rfl, -⟩ | ⟨-, hold⟩
    · exact absurd (h.hash_lt k _ hx) (Nat.lt_irrefl _)
    · exact h.hash_key k x d' hx hold
  · intro x d' hd'
    rcases hget x d' hd' with ⟨rfl, rfl⟩ | ⟨-, hold⟩
    · exact Nat.pos_of_ne_zero hglob
    · exact h.id_lt x d' hold
  · intro x y d' e' hd' he' hne heq
    rcases hget x d' hd' with ⟨rfl, rfl⟩ | ⟨-, hx⟩ <;>
      rcases hget y e' he' with ⟨rfl, rfl⟩ | ⟨-, hy⟩
    · rfl
    · exact absurd rfl hne
    · exact absurd heq hne
    · exact h.id_unique x y d' e' hx hy hne heq
  · intro x d' hd' hne
    rcases hget x d' hd' with ⟨rfl, rfl⟩ | ⟨-, hold⟩
    · exact absurd rfl hne
    · exact h.published x d' hold hne
  · exact fun q hq => Nat.lt_succ_of_lt (h.entry_lt q hq)
  · intro q hq halive
    obtain ⟨hmem, d, hd, hpid⟩ := h.alive q hq halive
    exact ⟨hmem, d, hput _ d hd, hpid⟩
  · exact Nat.le_succ _
  · intro x d' hd' hx
    rcases hget x d' hd' with ⟨rfl, -⟩ | ⟨-, hold⟩
    · exact absurd hx (Nat.lt_irrefl _)
    · exact ⟨d', hold, fun _ => ⟨rfl, rfl⟩, .inl⟩
  · intro x d' hd' hx
    rcases hget x d' hd' with ⟨rfl, rfl⟩ | ⟨-, hold⟩
    · rfl
    · exact absurd (h.bounded x d' hold) (Nat.not_lt.mpr hx)
  · exact fun x d _ hd h0 => ⟨d, hput x d hd, h0, rfl, id⟩
  · exact fun q hq => .inl ⟨q, hq, rfl, rfl, id⟩
  · exact ⟨⟨_, set_self _ _ _, rfl, rfl⟩, fun q hq => Nat.ne_of_lt (h.entry_lt q hq)⟩

end

/-- Two changes, of which the first gives no start id and adds no process. -/
theorem Evolves.after {w₁ : World} (h₁ : Evolves w w₁ own) (hw₁ : ProcInv w₁)
    (hfresh : w₁.pcs.fresh = w.pcs.fresh) (hglob : w₁.globStartId = w.globStartId)
    (hprocs : w₁.procs = w.procs) (h : Evolves w₁ w' own) : Evolves w w' own := by
  have hback : ∀ x c₁, w₁.pcs.cells x = some c₁ → ∃ c, w.pcs.cells x = some c ∧
      c₁.startId = c.startId ∧ (c.startId ≠ 0 → c₁.pid = c.pid) := by
    intro x c₁ hc₁
    obtain ⟨c, hc, hsame, hnew⟩ := h₁.back x c₁ hc₁ (hfresh ▸ hw₁.bounded x c₁ hc₁)
    refine ⟨c, hc, ?_, fun hne => (hsame hne).2⟩
    by_cases hid : c.startId = 0
    · rcases hnew hid with h0 | hge
      · rw [h0, hid]
      · rw [← hglob] at hge
        exact absurd (hw₁.id_lt x c₁ hc₁) (Nat.not_lt.mpr hge)
    · exact (hsame hid).1
  refine ⟨hfresh ▸ h.fresh, hglob ▸ h.glob, ?_, ?_, ?_, ?_⟩
  · intro x c' hc' hx
    obtain ⟨c₁, hc₁, hsame, hnew⟩ := h.back x c' hc' (hfresh ▸ hx)
    obtain ⟨c, hc, hid, hpid⟩ := hback x c₁ hc₁
    rw [hid] at hsame hnew
    refine ⟨c, hc, fun hne => ⟨(hsame hne).1, (hsame hne).2.trans (hpid hne)⟩, ?_⟩
    rw [← hglob]
    exact hnew
  · rw [← hfresh]
    exact h.new
  · intro x c hx hc h0
    obtain ⟨c₁, hc₁, h0₁, hpid₁, hmem₁⟩ := h₁.keep x c hx hc h0
    obtain ⟨c', hc', h0', hpid', hmem'⟩ := h.keep x c₁ hx hc₁ h0₁
    exact ⟨c', hc', h0', hpid'.trans hpid₁, fun hmem => hmem' (hmem₁ hmem)⟩
  · intro q' hq'
    rcases h.procs q' hq' with hold | ⟨hown, c₁, hc₁, h0⟩
    · rw [hprocs] at hold
      exact .inl hold
    · obtain ⟨c, hc, hid, -⟩ := hback _ c₁ hc₁
      exact .inr ⟨hown, c, hc, by rw [← hid, h0]⟩

/-! ## What is learnt from a liveness check -/

theorem ProcInv.entryDead (h : ProcInv w) (hf : Old w f)
    (hdead : ∀ c, w.pcs.cells f = some c → PidDead w c.pid) : EntryDead w f := by
  rintro q hq rfl
  cases halive : q.alive with
  | false => rfl
  | true =>
    obtain ⟨-, c, hc, hpid⟩ := h.alive q hq halive
    have hq0 := hdead c hc q hq (hpid (hf.2 c hc)).symm
    rw [halive] at hq0
    cases hq0

theorem ProcInv.old (h : ProcInv w) (hc : w.pcs.cells f = some c) (hid : c.startId ≠ 0) : Old w f := by
  refine ⟨h.bounded f c hc, fun d hd => ?_⟩
  rw [hc] at hd
  cases hd
  exact hid

theorem KnownPid.dead (hk : KnownPid w startId pid) (h : ProcInv w) (hdead : PidDead w pid) :
    KnownDead w startId := by
  refine ⟨hk.2.1, fun hne x c hc hid => ?_⟩
  refine h.entryDead (h.old hc (hid ▸ hne)) fun d hd => ?_
  rw [hc] at hd
  cases hd
  rw [hk.2.2 x c hc hid]
  exact hdead

/-- What `insert_process` and `delete_process` remember of an entry. -/
theorem ProcInv.knownPid (h : ProcInv w) (hc : w.pcs.cells f = some c) (hpid : c.pid ≠ 0) :
    KnownPid w c.startId c.pid := by
  have hid := h.published f c hc hpid
  refine ⟨hid, h.id_lt f c hc, fun x d hd heq => ?_⟩
  have hxf : f = x := h.id_unique f x c d hc hd hid heq.symm
  subst hxf
  rw [hc] at hd
  cases hd
  rfl

theorem Mine.error (hm : Mine w p) :
    (∃ c, w.pcs.cells p = some c ∧ c.startId = 0) ∧ EntryDead w p := by
  obtain ⟨⟨c, hc, hid, -⟩, hnone⟩ := hm
  exact ⟨⟨c, hc, hid⟩, fun q hq heq => absurd heq (hnone q hq)⟩

/-! ## One step -/

/-- What one step of a thread leaves. -/
structure Sound (w : World) (pc : Pc) (out : Out) : Prop where
  inv : ProcInv out.world
  evolves : Evolves w out.world fun x => pc.own = some x
  facts : Facts out.world out.pc
  own : out.pc.own = none ∨ out.pc.own = pc.own

section

variable (h : ProcInv w)

include h

/-- A step that leaves the table alone. -/
theorem ProcInv.stay {out : Out} (hw : out.world = w) (hf : Facts w out.pc)
    (hown : out.pc.own = none ∨ out.pc.own = pc.own) : Sound w pc out := by
  subst hw
  exact ⟨h, .of_same rfl rfl rfl rfl h, hf, hown⟩

theorem insertPcEntry_sound {failAt : Option Nat} {hash : HashInsert} {ret : Nat} (hm : Mine w p)
    (hs : ∀ c, w.pcs.cells p = some c → hashSearch w c.key = none)
    (hins : insertPcEntry w p failAt hash = .ok (w', ret)) :
    ProcInv w' ∧ Evolves w w' own ∧ Mine w' p ∧ (ret = 0 → Entered w' p) := by
  obtain ⟨c, i, a, hc, rfl⟩ := insertPcEntry_eq_ok hins
  obtain ⟨⟨d, hd, hid, hpid⟩, hnone⟩ := hm
  rw [hc] at hd
  cases hd
  have hmine : ∃ c', (w.pcs.set p { c with dynTransIndex := i }).cells p = some c' ∧
      c'.startId = 0 ∧ c'.pid = 0 := ⟨_, set_self _ _ _, hid, hpid⟩
  by_cases hret : ret = 0
  · rw [if_pos hret]
    obtain ⟨hinv, hev⟩ := h.enter hc (Assoc.not_mem_of_search (hs c hc)) i a
    exact ⟨hinv, hev, ⟨hmine, hnone⟩,
      fun _ => ⟨_, set_self _ _ _, hid, hpid, mem_cons_self⟩⟩
  · rw [if_neg hret]
    obtain ⟨hinv, hev⟩ := h.write hc { c with dynTransIndex := i } rfl rfl rfl
    exact ⟨hinv.congr rfl rfl rfl rfl, ⟨hev.fresh, hev.glob, hev.back, hev.new, hev.keep, hev.procs⟩,
      ⟨hmine, hnone⟩, fun h0 => absurd h0 hret⟩

theorem insertProcess_sound {d : Bool} {prev retry : Nat} {failAt : Option Nat} {hash : HashInsert}
    {out : Out} (hf : Facts w (.inserting p d prev retry))
    (hrun : insertProcess w p d prev retry failAt hash = .ok out) :
    Sound w (.inserting p d prev retry) out := by
  obtain ⟨hm, hk⟩ := hf
  unfold insertProcess at hrun
  obtain ⟨c, hc, hrun⟩ := bind_eq_ok.mp hrun
  rw [follow_eq_ok] at hc
  split at hrun
  · -- the key is free
    rename_i hs
    obtain ⟨⟨w', ret⟩, hins, hrun⟩ := bind_eq_ok.mp hrun
    cases hrun
    obtain ⟨hinv, hev, hm', hent⟩ := insertPcEntry_sound h hm
      (fun d hd => by rw [hc] at hd; cases hd; exact hs) hins
    refine ⟨hinv, hev, ?_, .inr ?_⟩
    · dsimp only [Out.section]
      split_ifs with hret
      · exact ⟨hm', hent hret⟩
      · exact hm'.error
    · dsimp only [Out.section]
      split_ifs <;> rfl
  · rename_i f hs
    obtain ⟨found, hfound, hrun⟩ := bind_eq_ok.mp hrun
    rw [follow_eq_ok] at hfound
    split_ifs at hrun with hpid hflags hretry hid
    · cases hrun
      exact h.stay rfl hm.error (.inr rfl)
    · cases hrun
      exact h.stay rfl hm.error (.inr rfl)
    · cases hrun
      exact h.stay rfl ⟨hm, hk⟩ (.inr rfl)
    · -- the entry whose process was found dead is still the one
      obtain ⟨w₁, hrem, hrun⟩ := bind_eq_ok.mp hrun
      obtain ⟨⟨w', ret⟩, hins, hrun⟩ := bind_eq_ok.mp hrun
      cases hrun
      have hpub : found.startId ≠ 0 := h.published f found hfound hpid
      have hdead : EntryDead w f := hk.2 (hid ▸ hpub) f found hfound hid
      obtain ⟨found', a, hfound', hs', rfl⟩ := removePcEntry_eq_ok hrem
      rw [hfound] at hfound'
      cases hfound'
      have hkey : found.key = c.key := h.hash_key _ _ _ (Assoc.mem_of_search hs) hfound
      obtain ⟨hinv₁, hev₁⟩ := h.remove hfound hs' hdead (.inr hpub) a
      obtain ⟨hinv, hev, hm', hent⟩ := insertPcEntry_sound hinv₁ hm (fun d hd => by
        rw [hc] at hd
        cases hd
        refine Assoc.search_of_not_mem fun v hv => ?_
        exact ((Assoc.mem_remove h.keyed).mp hv).2 hkey.symm) hins
      refine ⟨hinv, hev₁.after hinv₁ rfl rfl rfl hev, ⟨hm', hent, ?_⟩, .inr rfl⟩
      exact hev.old_dead ⟨h.old hfound hpub, hdead⟩
    · cases hrun
      exact h.stay rfl ⟨hm, h.knownPid hfound hpid⟩ (.inr rfl)

/-- The entry that the check thread is done with; `none` when it was removed. -/
theorem clearCheck_sound {f : Option Ptr} (hrun : clearCheck w f = .ok w') :
    ProcInv w' ∧ Evolves w w' own ∧ w'.pcs.fresh = w.pcs.fresh ∧ w'.globStartId = w.globStartId ∧
      w'.procs = w.procs := by
  cases f with
  | none =>
    cases hrun
    exact ⟨h, .of_same rfl rfl rfl rfl h, rfl, rfl, rfl⟩
  | some f =>
    obtain ⟨c, hc, hrun⟩ := bind_eq_ok.mp hrun
    cases hrun
    obtain ⟨hinv, hev⟩ := h.write (follow_eq_ok.mp hc) { c with checkOngoing := false } rfl rfl rfl
    exact ⟨hinv, hev, rfl, rfl, rfl⟩

/-- The check thread takes up entries that have a pid. -/
theorem scan_sound {t : Nat} {f next : Option Ptr} {out : Out}
    (hnext : ∀ g, next = some g → isDue w t g = true) (hrun : scan w t f next = .ok out) :
    Sound w (.scanning t f) out := by
  unfold scan at hrun
  obtain ⟨w₁, hclear, hrun⟩ := bind_eq_ok.mp hrun
  obtain ⟨hinv₁, hev₁, hfresh, hglob, hprocs⟩ := clearCheck_sound h hclear
  cases next with
  | none =>
    cases hrun
    exact ⟨hinv₁, hev₁, trivial, .inl rfl⟩
  | some g =>
    obtain ⟨c₁, hc₁, hrun⟩ := bind_eq_ok.mp hrun
    rw [follow_eq_ok] at hc₁
    cases hrun
    obtain ⟨hinv, hev⟩ := hinv₁.write hc₁ { c₁ with checkOngoing := true, checkTime := t } rfl rfl rfl
    refine ⟨hinv, hev₁.after hinv₁ hfresh hglob hprocs hev, ?_, .inl rfl⟩
    obtain ⟨c, hc, hsame, -⟩ := hev₁.back g c₁ hc₁ (hfresh ▸ hinv₁.bounded g c₁ hc₁)
    have hdue := hnext g rfl
    unfold isDue skipsCheck at hdue
    rw [hc] at hdue
    have hpid : c.pid ≠ 0 := by
      intro h0
      simp [h0] at hdue
    have hid : c.startId ≠ 0 := h.published g c hc hpid
    exact hev.old (hinv₁.old hc₁ (by rw [(hsame hid).1]; exact hid))

theorem startProcess_sound {l : Launch} {behind : Nat → Str} {out : Out}
    (hf : Facts w (.launching p)) (hcert : Certain w (.launching p) (.startProcess l behind))
    (hrun : startProcess w p l behind = .ok out) : Sound w (.launching p) out := by
  rcases hf with ⟨hm, he⟩
  unfold startProcess at hrun
  rcases bind_eq_ok.mp hrun with ⟨c, hc, hrun⟩
  rw [follow_eq_ok] at hc
  -- the arguments are written first
  have hwrite : ProcInv (store w p (c.stripped behind)) ∧
      Evolves w (store w p (c.stripped behind)) fun x => (Pc.launching p).own = some x :=
    h.write hc _ rfl rfl rfl
  rcases hwrite with ⟨h₁, hev₁⟩
  have hm₁ : Mine (store w p (c.stripped behind)) p := by
    rcases hm with ⟨⟨d, hd, hid, hpid⟩, hnone⟩
    rw [hc] at hd
    cases hd
    exact ⟨⟨_, set_self _ _ _, hid, hpid⟩, hnone⟩
  have he₁ : Entered (store w p (c.stripped behind)) p := by
    rcases he with ⟨d, hd, hid, hpid, hmem⟩
    rw [hc] at hd
    cases hd
    exact ⟨_, set_self _ _ _, hid, hpid, hmem⟩
  cases l with
  | notSpawned ret =>
    cases hrun
    exact ⟨h₁, hev₁, hm₁.error, .inr rfl⟩
  | noPidFile ret pid => exact absurd hcert id
  | spawned pid =>
    cases hrun
    have hlaunch : _ ∧ Evolves (store w p (c.stripped behind)) _ fun x => (Pc.launching p).own = some x :=
      h₁.launch (set_self _ _ _) hm₁ he₁ pid rfl
    rcases hlaunch with ⟨hinv, hev⟩
    refine ⟨hinv, hev₁.after h₁ rfl rfl rfl hev, ⟨he₁, ?_⟩, .inr rfl⟩
    intro q hq heq
    rcases mem_append.mp hq with hq | hq
    · exact absurd heq (hm.2 q hq)
    · cases mem_singleton.mp hq
      rfl

theorem deleteProcess_sound {key : Key} {killFlag : Bool} {loopCount : Nat} {out : Out}
    (hrun : deleteProcess w key killFlag loopCount = .ok out) :
    Sound w (.deleting key killFlag loopCount) out := by
  unfold deleteProcess at hrun
  split at hrun
  · cases hrun
    exact h.stay rfl trivial (.inl rfl)
  · rename_i f hs
    obtain ⟨c, hc, hrun⟩ := bind_eq_ok.mp hrun
    rw [follow_eq_ok] at hc
    split_ifs at hrun with hbusy hcount hkill
    · cases hrun
      exact h.stay rfl trivial (.inl rfl)
    · cases hrun
      exact h.stay rfl trivial (.inl rfl)
    · cases hrun
      exact h.stay rfl trivial (.inl rfl)
    · cases hrun
      obtain ⟨hinv, hev⟩ := h.write hc { c with killOngoing := true } rfl rfl rfl
      exact ⟨hinv, hev, hev.knownPid (h.knownPid hc fun h0 => hbusy (.inl h0)), .inl rfl⟩

theorem removeKilled_sound {key : Key} {out : Out} (hf : Facts w (.killed key f pid startId))
    (hrun : removeKilled w key pid startId = .ok out) :
    Sound w (.killed key f pid startId) out := by
  obtain ⟨hne, hk⟩ := hf
  unfold removeKilled at hrun
  split at hrun
  · cases hrun
  · rename_i g hs
    obtain ⟨c, hc, hrun⟩ := bind_eq_ok.mp hrun
    rw [follow_eq_ok] at hc
    split_ifs at hrun with hsame
    obtain ⟨w', hrem, hrun⟩ := bind_eq_ok.mp hrun
    cases hrun
    obtain ⟨d, a, hd, hs', rfl⟩ := removePcEntry_eq_ok hrem
    rw [hc] at hd
    cases hd
    have hid : c.startId ≠ 0 := hsame.2 ▸ hne
    have hdead : EntryDead w g := hk.2 hne g c hc hsame.2
    obtain ⟨hinv, hev⟩ := h.remove hc hs' hdead (.inr hid) a
    exact ⟨hinv, hev, hev.old_dead ⟨h.old hc hid, hdead⟩, .inl rfl⟩

/-- An entry that is out of the table, and whose process is dead, is freed. -/
theorem release_sound (hold : Old w f ∧ EntryDead w f) (hrun : release w f = .ok w') :
    ProcInv w' ∧ Evolves w w' own := by
  obtain ⟨⟨c, hc⟩, rfl⟩ := release_eq_ok hrun
  exact h.free hc hold.2 (.inr (hold.1.2 c hc))

/-- An entry whose process is dead leaves the table. -/
theorem removePcEntry_sound (hold : Old w f ∧ EntryDead w f) (hrun : removePcEntry w f = .ok w') :
    ProcInv w' ∧ Evolves w w' own := by
  obtain ⟨c, a, hc, hs, rfl⟩ := removePcEntry_eq_ok hrun
  exact h.remove hc hs hold.2 (.inr (hold.1.2 c hc)) a

theorem killProcess_sound (pid : Nat) :
    ProcInv (killProcess w pid) ∧ Evolves w (killProcess w pid) own := by
  refine h.setProcs ?_ fun q' hq' => ?_
  · rw [map_map]
    refine map_congr_left fun q _ => ?_
    dsimp only [Function.comp]
    split_ifs <;> rfl
  · obtain ⟨q, hq, rfl⟩ := mem_map.mp hq'
    refine ⟨q, hq, ?_⟩
    split_ifs <;> exact ⟨rfl, rfl, rfl, id⟩

/-- A process ends. -/
theorem exit_sound {i : Nat} {q : Proc} (hq : w.procs[i]? = some q) :
    ProcInv { w with procs := w.procs.set i { q with alive := false } } ∧
      Evolves w { w with procs := w.procs.set i { q with alive := false } } own := by
  refine h.setProcs ?_ fun q' hq' => ?_
  · obtain ⟨hlt, rfl⟩ := List.getElem?_eq_some_iff.mp hq
    rw [List.map_set]
    refine List.ext_getElem? fun j => ?_
    rw [List.getElem?_set]
    split_ifs with hij hj
    · subst hij
      rw [List.getElem?_map, hq]
      rfl
    · exact absurd (by rw [List.length_map]; exact hlt) hj
    · rfl
  · rcases List.mem_or_eq_of_mem_set hq' with hmem | rfl
    · exact ⟨q', hmem, rfl, rfl, rfl, id⟩
    · exact ⟨q, List.mem_of_getElem? hq, rfl, rfl, rfl, fun h => by cases h⟩

/-- The steps of a start command. -/
theorem localStep_start_sound {out : Out} (hf : Facts w pc) (htrue : Truthful w pc a)
    (hcert : Certain w pc a) (hpc : pc.own = some p) (hrun : localStep w pc a = some (.ok out)) :
    Sound w pc out := by
  cases pc with
  | received p =>
    cases a with
    | prepare ret isDaemon =>
      cases isDaemon with
      | none =>
        cases hrun
        exact h.stay rfl (Mine.error hf) (.inr rfl)
      | some isDaemon =>
        cases hrun
        have hmine : Mine w p := hf
        obtain ⟨c, hc, hid, -⟩ := hmine.1
        refine h.stay rfl ⟨hmine, ?_, fun hne => absurd rfl hne⟩ (.inr rfl)
        exact hid ▸ h.id_lt p c hc
    | _ => nomatch hrun
  | inserting p d prev retry =>
    cases a with
    | insertProcess failAt hash =>
      rw [localStep_insertProcess] at hrun
      split_ifs at hrun
      exact insertProcess_sound h hf (Option.some.inj hrun)
    | _ => nomatch hrun
  | foundOld p d pid prev retry =>
    cases a with
    | isAlive answer =>
      cases hrun
      obtain ⟨hm, hk⟩ := hf
      cases answer with
      | alive => exact h.stay rfl hm.error (.inr rfl)
      | notAlive => exact h.stay rfl ⟨hm, hk.dead h htrue⟩ (.inr rfl)
      | scriptError => exact h.stay rfl hm.error (.inr rfl)
    | _ => nomatch hrun
  | replaced p d f ret =>
    cases a with
    | free =>
      obtain ⟨w', hrel, hout⟩ := bind_eq_ok.mp (Option.some.inj hrun)
      cases hout
      obtain ⟨hm, he, hold⟩ := hf
      -- the entry is another one than the object of this command
      have hsafe : Evolves w w' fun _ => False := (release_sound h hold hrel).2
      obtain ⟨hinv, hev⟩ := release_sound h hold hrel
      refine ⟨hinv, hev, ?_, .inr ?_⟩
      · dsimp only [Out.goto]
        split_ifs with hret
        · exact ⟨hsafe.mine id hm, hsafe.entered id (he hret)⟩
        · exact (hsafe.mine id hm).error
      · dsimp only [Out.goto]
        split_ifs <;> rfl
    | _ => nomatch hrun
  | booked p d =>
    cases a with
    | files ret =>
      cases hrun
      refine h.stay rfl ?_ (.inr ?_)
      · dsimp only [Out.goto]
        split_ifs
        · exact hf.1.error
        · exact hf
        · exact hf
      · dsimp only [Out.goto]
        split_ifs <;> rfl
    | _ => nomatch hrun
  | daemonFiles p =>
    cases a with
    | files ret =>
      cases hrun
      refine h.stay rfl ?_ (.inr ?_)
      · dsimp only [Out.goto]
        split_ifs
        · exact hf.1.error
        · exact hf
      · dsimp only [Out.goto]
        split_ifs <;> rfl
    | _ => nomatch hrun
  | launching p =>
    cases a with
    | startProcess l behind => exact startProcess_sound h hf hcert (Option.some.inj hrun)
    | _ => nomatch hrun
  | verifying p pid =>
    cases a with
    | isAlive answer =>
      cases hrun
      obtain ⟨⟨c, hc, hid, hpid0, hmem⟩, hpid⟩ := hf
      have hdead : PidDead w pid → (∃ c, w.pcs.cells p = some c ∧ c.startId = 0) ∧ EntryDead w p :=
        fun hd => ⟨⟨c, hc, hid⟩, fun q hq heq => hd q hq (hpid q hq heq)⟩
      cases answer with
      | alive => exact h.stay rfl ⟨⟨c, hc, hid, hpid0, hmem⟩, hpid⟩ (.inr rfl)
      | notAlive => exact h.stay rfl (hdead htrue) (.inr rfl)
      | scriptError => exact h.stay rfl (hdead hcert) (.inr rfl)
    | _ => nomatch hrun
  | publishing p pid =>
    cases a with
    | publish =>
      obtain ⟨c, hc, hout⟩ := bind_eq_ok.mp (Option.some.inj hrun)
      cases hout
      obtain ⟨hinv, hev⟩ : _ ∧ Evolves w _ fun x => (Pc.publishing p pid).own = some x :=
        h.publish (follow_eq_ok.mp hc) hf.1 hf.2 rfl
      exact ⟨hinv, hev, trivial, .inl rfl⟩
    | _ => nomatch hrun
  | lateError p ret =>
    cases a with
    | removeEntry =>
      obtain ⟨w', hrem, hout⟩ := bind_eq_ok.mp (Option.some.inj hrun)
      cases hout
      obtain ⟨c, a, hc, hs, rfl⟩ := removePcEntry_eq_ok hrem
      obtain ⟨hinv, hev⟩ : _ ∧ Evolves w _ fun x => (Pc.lateError p ret).own = some x :=
        h.remove hc hs hf.2 (.inl (by rfl)) a
      exact ⟨hinv, hev, hf, .inr rfl⟩
    | _ => nomatch hrun
  | startError p ret =>
    cases a with
    | free =>
      obtain ⟨w', hrel, hout⟩ := bind_eq_ok.mp (Option.some.inj hrun)
      cases hout
      obtain ⟨⟨c, hc⟩, rfl⟩ := release_eq_ok hrel
      obtain ⟨hinv, hev⟩ : _ ∧ Evolves w _ fun x => (Pc.startError p ret).own = some x :=
        h.free hc hf.2 (.inl rfl)
      exact ⟨hinv, hev, trivial, .inl rfl⟩
    | _ => nomatch hrun
  | _ => nomatch hpc

/-- The steps of the other threads. -/
theorem localStep_other_sound {out : Out} (hf : Facts w pc) (htrue : Truthful w pc a)
    (hcert : Certain w pc a) (hpc : pc.own = none) (hrun : localStep w pc a = some (.ok out)) :
    Sound w pc out := by
  cases pc with
  | deleting key killFlag loopCount =>
    cases a with
    | deleteProcess => exact deleteProcess_sound h (Option.some.inj hrun)
    | _ => nomatch hrun
  | killing key killFlag f pid startId =>
    cases a with
    | kill =>
      cases hrun
      obtain ⟨hinv, hev⟩ := killProcess_sound h pid
      exact ⟨hinv, hev, hev.knownPid hf, .inl rfl⟩
    | _ => nomatch hrun
  | retryKillCheck key f pid startId loopCount =>
    cases a with
    | isAlive answer =>
      cases hrun
      have hk : KnownPid w startId pid := hf
      cases answer with
      | alive =>
        refine h.stay rfl ?_ (.inl ?_)
        · dsimp only [Out.goto, killCheck]
          split_ifs
          · exact trivial
          · exact hk
        · dsimp only [Out.goto, killCheck]
          split_ifs <;> rfl
      | notAlive => exact h.stay rfl ⟨hk.1, hk.dead h htrue⟩ (.inl rfl)
      | scriptError => exact h.stay rfl trivial (.inl rfl)
    | _ => nomatch hrun
  | killed key f pid startId =>
    cases a with
    | removeKilled => exact removeKilled_sound h hf (Option.some.inj hrun)
    | _ => nomatch hrun
  | killError f ret =>
    cases a with
    | clearKill =>
      obtain ⟨c, hc, hout⟩ := bind_eq_ok.mp (Option.some.inj hrun)
      cases hout
      obtain ⟨hinv, hev⟩ := h.write (follow_eq_ok.mp hc) { c with killOngoing := false } rfl rfl rfl
      exact ⟨hinv, hev, trivial, .inl rfl⟩
    | _ => nomatch hrun
  | killRemoved f | checkRemoved t f =>
    cases a with
    | free =>
      obtain ⟨w', hrel, hout⟩ := bind_eq_ok.mp (Option.some.inj hrun)
      cases hout
      obtain ⟨hinv, hev⟩ := release_sound h hf hrel
      exact ⟨hinv, hev, trivial, .inl rfl⟩
    | _ => nomatch hrun
  | listing find listFull =>
    cases a with
    | list copyOk =>
      obtain ⟨r, -, hout⟩ := bind_eq_ok.mp (Option.some.inj hrun)
      cases r with
      | error ret | ok entries =>
        cases hout
        exact h.stay rfl trivial (.inl rfl)
    | _ => nomatch hrun
  | scanning t f =>
    cases a with
    | scan next wild =>
      cases wild with
      | true => nomatch hrun
      | false =>
        cases next with
        | none => exact scan_sound h (fun g hg => by cases hg) (Option.some.inj hrun)
        | some g =>
          rw [localStep_scan] at hrun
          split_ifs at hrun with hdue
          refine scan_sound h ?_ (Option.some.inj hrun)
          rintro g' ⟨⟩
          exact hdue
    | _ => nomatch hrun
  | checking t f =>
    cases a with
    | isAlive answer =>
      cases hrun
      have hold : Old w f := hf
      cases answer with
      | alive => exact h.stay rfl trivial (.inl rfl)
      | notAlive => exact h.stay rfl ⟨hold, h.entryDead hold htrue⟩ (.inl rfl)
      | scriptError => exact h.stay rfl ⟨hold, h.entryDead hold hcert⟩ (.inl rfl)
    | _ => nomatch hrun
  | checkFailed t f =>
    cases a with
    | removeEntry =>
      obtain ⟨w', hrem, hout⟩ := bind_eq_ok.mp (Option.some.inj hrun)
      cases hout
      obtain ⟨hinv, hev⟩ := removePcEntry_sound h hf hrem
      exact ⟨hinv, hev, hev.old_dead hf, .inl rfl⟩
    | _ => nomatch hrun
  | returned ret => cases a <;> nomatch hrun
  | _ => nomatch hpc

theorem localStep_sound {out : Out} (hf : Facts w pc) (htrue : Truthful w pc a)
    (hcert : Certain w pc a) (hrun : localStep w pc a = some (.ok out)) : Sound w pc out := by
  cases hpc : pc.own with
  | none => exact localStep_other_sound h hf htrue hcert hpc hrun
  | some p => exact localStep_start_sound h hf htrue hcert hpc hrun

end

/-! ## Runs -/

/-- Everything the run keeps. -/
structure Controlled (s : Sys) : Prop where
  glob : s.world.globStartId ≠ 0
  inv : ProcInv s.world
  facts : ∀ (t : Nat) pc, s.threads[t]? = some pc → Facts s.world pc
  alone : ∀ (t t' : Nat) pc pc' p, s.threads[t]? = some pc → s.threads[t']? = some pc' →
    pc.own = some p → pc'.own = some p → t = t'

/-- The liveness check of a step, if there is one, is right. -/
def Honest (s : Sys) : Label → Prop
  | .act t a => ∀ pc, s.threads[t]? = some pc → Truthful s.world pc a
  | _ => True

/-- The liveness checks of a step are right, and it is not one that loses a living
process. -/
def Trusted (s : Sys) : Label → Prop
  | .act t a => ∀ pc, s.threads[t]? = some pc → Truthful s.world pc a ∧ Certain s.world pc a
  | _ => True

/-- A key has at most one living process, and a living process has its entry in the
table. -/
structure OneProcess (w : World) : Prop where
  unique : ∀ (i j : Nat) q q', w.procs[i]? = some q → w.procs[j]? = some q' → q.alive = true →
    q'.alive = true → q.key = q'.key → i = j
  entered : ∀ q ∈ w.procs, q.alive = true →
    (q.key, q.entry) ∈ w.hash ∧ ∃ c, w.pcs.cells q.entry = some c ∧ c.key = q.key

theorem ProcInv.oneProcess (h : ProcInv w) : OneProcess w := by
  constructor
  · intro i j q q' hi hj hq hq' hkey
    have hmem := (h.alive q (List.mem_of_getElem? hi) hq).1
    have hmem' := (h.alive q' (List.mem_of_getElem? hj) hq').1
    rw [hkey] at hmem
    have hentry : q.entry = q'.entry := h.keyed.unique hmem hmem'
    -- an entry has one process
    refine (List.getElem?_inj ?_ h.once).mp ?_
    · rw [List.length_map]
      exact (List.getElem?_eq_some_iff.mp hi).1
    · rw [List.getElem?_map, List.getElem?_map, hi, hj]
      exact congrArg some hentry
  · intro q hq halive
    obtain ⟨hmem, c, hc, -⟩ := h.alive q hq halive
    exact ⟨hmem, c, hc, h.hash_key _ _ _ hmem hc⟩

/-- A thread's own object is allocated. -/
theorem Facts.own_cell (hf : Facts w pc) (hown : pc.own = some p) :
    ∃ c, w.pcs.cells p = some c := by
  cases pc with
  | received p =>
    cases hown
    obtain ⟨⟨c, hc, -⟩, -⟩ := hf
    exact ⟨c, hc⟩
  | inserting p d prev retry | foundOld p d pid prev retry | replaced p d f ret | booked p d
  | daemonFiles p | launching p =>
    cases hown
    obtain ⟨⟨⟨c, hc, -⟩, -⟩, -⟩ := hf
    exact ⟨c, hc⟩
  | verifying p pid | publishing p pid | lateError p ret | startError p ret =>
    cases hown
    obtain ⟨⟨c, hc, -⟩, -⟩ := hf
    exact ⟨c, hc⟩
  | _ => nomatch hown

theorem Controlled.act {s : Sys} {t : Nat} {out : Out} {mutex : Option Nat} (h : Controlled s)
    (hpc : s.threads[t]? = some pc) (hsound : Sound s.world pc out) :
    Controlled { s with world := out.world, threads := s.threads.set t out.pc, mutex := mutex } := by
  obtain ⟨hinv, hev, hfacts, hown⟩ := hsound
  have hlt : t < s.threads.length := (List.getElem?_eq_some_iff.mp hpc).1
  have hget : ∀ u pc', (s.threads.set t out.pc)[u]? = some pc' →
      (u = t ∧ pc' = out.pc) ∨ (u ≠ t ∧ s.threads[u]? = some pc') := by
    intro u pc' hu
    by_cases hut : u = t
    · subst hut
      rw [List.getElem?_set_self hlt] at hu
      exact .inl ⟨rfl, (Option.some.inj hu).symm⟩
    · rw [List.getElem?_set_ne (Ne.symm hut)] at hu
      exact .inr ⟨hut, hu⟩
  -- whatever the thread has now, it had before
  have hhad : ∀ (u : Nat) (pc' : Pc) p, (s.threads.set t out.pc)[u]? = some pc' → pc'.own = some p →
      ∃ pc₀ : Pc, s.threads[u]? = some pc₀ ∧ pc₀.own = some p := by
    intro u pc' p hu hp
    rcases hget u pc' hu with ⟨rfl, rfl⟩ | ⟨-, hold⟩
    · rcases hown with hnone | hsame
      · rw [hnone] at hp
        cases hp
      · exact ⟨pc, hpc, hsame ▸ hp⟩
    · exact ⟨pc', hold, hp⟩
  refine ⟨?_, hinv, ?_, ?_⟩
  · exact Nat.ne_of_gt (lt_of_lt_of_le (Nat.pos_of_ne_zero h.glob) hev.glob)
  · intro u pc' hu
    rcases hget u pc' hu with ⟨rfl, rfl⟩ | ⟨hut, hold⟩
    · exact hfacts
    · exact (h.facts u pc' hold).stable hev fun p hp hpc' => hut (h.alone u t pc' pc p hold hpc hp hpc')
  · intro u v pc₁ pc₂ p hu hv hp₁ hp₂
    obtain ⟨pc₁', hu', hp₁'⟩ := hhad u pc₁ p hu hp₁
    obtain ⟨pc₂', hv', hp₂'⟩ := hhad v pc₂ p hv hp₂
    exact h.alone u v pc₁' pc₂' p hu' hv' hp₁' hp₂'

/-- A command begins. -/
theorem Controlled.spawn {s : Sys} (h : Controlled s) (hinv : ProcInv w)
    (hev : Evolves s.world w fun _ => False) (hf : Facts w pc)
    (hnew : ∀ p, pc.own = some p → s.world.pcs.cells p = none) :
    Controlled ({ s with world := w }.spawn pc) := by
  have hget : ∀ u pc', (s.threads ++ [pc])[u]? = some pc' →
      s.threads[u]? = some pc' ∨ (u = s.threads.length ∧ pc' = pc) := by
    intro u pc' hu
    rcases Nat.lt_or_ge u s.threads.length with hlt | hge
    · rw [getElem?_append_left hlt] at hu
      exact .inl hu
    · rw [getElem?_append_right hge, getElem?_singleton] at hu
      split_ifs at hu with h0
      exact .inr ⟨Nat.le_antisymm (Nat.le_of_sub_eq_zero h0) hge, (Option.some.inj hu).symm⟩
  have hfresh : ∀ (u : Nat) (pc' : Pc) p, s.threads[u]? = some pc' → pc'.own = some p → pc.own ≠ some p := by
    intro u pc' p hu hp hpc
    obtain ⟨c, hc⟩ := (h.facts u pc' hu).own_cell hp
    rw [hnew p hpc] at hc
    cases hc
  refine ⟨?_, hinv, ?_, ?_⟩
  · exact Nat.ne_of_gt (lt_of_lt_of_le (Nat.pos_of_ne_zero h.glob) hev.glob)
  · intro u pc' hu
    rcases hget u pc' hu with hold | ⟨-, rfl⟩
    · exact (h.facts u pc' hold).stable hev fun _ _ => id
    · exact hf
  · intro u v pc₁ pc₂ p hu hv hp₁ hp₂
    rcases hget u pc₁ hu with hu' | ⟨rfl, rfl⟩ <;> rcases hget v pc₂ hv with hv' | ⟨rfl, rfl⟩
    · exact h.alone u v pc₁ pc₂ p hu' hv' hp₁ hp₂
    · exact absurd hp₂ (hfresh u pc₁ p hu' hp₁)
    · exact absurd hp₁ (hfresh v pc₂ p hv' hp₂)
    · rfl

theorem step_controlled (s : Sys) (l : Label) (s' : Sys) (hok : Trusted s l) (h : step s l = some s')
    (hctl : Controlled s) : Controlled s' := by
  cases l with
  | act t a =>
    obtain ⟨-, pc, r, hpc, hr, hs'⟩ := step_act h
    rcases hs' with ⟨e, -, rfl⟩ | ⟨out, mutex, rfl, rfl⟩
    · exact ⟨hctl.glob, hctl.inv, hctl.facts, hctl.alone⟩
    · obtain ⟨htrue, hcert⟩ := hok pc hpc
      exact hctl.act hpc (localStep_sound hctl.inv (hctl.facts t pc hpc) htrue hcert hr)
  | start m =>
    unfold step at h
    split_ifs at h with hstop
    dsimp only at h
    split_ifs at h with hlt
    cases h
    obtain ⟨hinv, hev, hmine⟩ := hctl.inv.create hctl.glob m
    refine hctl.spawn hinv hev hmine ?_
    rintro p ⟨⟩
    cases hc : s.world.pcs.cells s.world.pcs.fresh with
    | none => rfl
    | some c => exact absurd (hctl.inv.bounded _ c hc) (Nat.lt_irrefl _)
  | stop key killFlag | list find listFull =>
    unfold step at h
    split_ifs at h
    cases h
    exact hctl.spawn hctl.inv (.of_same rfl rfl rfl rfl hctl.inv) trivial nofun
  | exit i =>
    unfold step at h
    split_ifs at h
    obtain ⟨q, hq, h⟩ := Option.bind_eq_some_iff.mp h
    cases h
    obtain ⟨hinv, hev⟩ : _ ∧ Evolves s.world _ fun _ => False :=
      exit_sound hctl.inv hq
    exact ⟨hctl.glob, hinv, fun t pc hpc => (hctl.facts t pc hpc).stable hev fun _ _ => id,
      hctl.alone⟩

theorem start_controlled (a : DynamicArray) : Controlled (start a) := by
  refine ⟨Nat.one_ne_zero, ⟨?_, nodup_nil, ?_, ?_, ?_, ?_, ?_, ?_, nodup_nil, ?_⟩, ?_, ?_⟩
  · intro x c hc
    cases hc
  · intro k x hmem
    cases hmem
  · intro k x c hmem
    cases hmem
  · intro x c hc
    cases hc
  · intro x y c d hc
    cases hc
  · intro x c hc
    cases hc
  · intro q hq
    cases hq
  · intro q hq
    cases hq
  · intro t pc ht
    cases t with
    | zero =>
      cases ht
      exact trivial
    | succ t => cases ht
  · intro t t' pc pc' p ht ht' hown
    cases t with
    | zero =>
      cases ht
      cases hown
    | succ t => cases ht

/-- In every run of commands and rounds of the check thread, under the condition
that no thread takes a living process for dead, a key never has two living
processes: none is launched while an earlier one lives. No entry leaves the table
while its process lives. -/
theorem one_process (a : DynamicArray) {labels : List Label} {s : Sys}
    (hok : Run.Along step Trusted (start a) labels)
    (hrun : Run.exec step (start a) labels = some s) : OneProcess s.world :=
  (Run.invariant_along step Trusted Controlled step_controlled hok hrun (start_controlled a)).inv.oneProcess

/-! ## Two start commands -/

theorem truthful_of_ne (h : a ≠ .isAlive .notAlive) : Truthful w pc a := by
  unfold Truthful
  split
  · exact absurd rfl h
  · exact absurd rfl h
  · exact absurd rfl h
  · exact absurd rfl h
  · exact trivial

theorem certain_of_ne (h : a ≠ .isAlive .scriptError)
    (hpid : ∀ ret pid behind, a ≠ .startProcess (.noPidFile ret pid) behind) : Certain w pc a := by
  unfold Certain
  split
  · exact absurd rfl (hpid _ _ _)
  · exact absurd rfl h
  · exact absurd rfl h
  · exact trivial

/-- Behind a start command a second one comes in for its key; the process of the first one is
found alive both times. -/
def startedLabels : List Label :=
  bookLabels sampleStart false ++
    ([.act 1 (.files 0), .act 1 (.startProcess (.spawned 7) fun _ => []), .act 1 (.isAlive .alive),
      .act 1 .publish] ++
      (againLabels sampleStart false ++ [.act 2 (.isAlive .alive), .act 2 .free]))

/-- The table with the entry of a process that was just launched. -/
def firstLaunched (a : DynamicArray) : World :=
  { store (firstBooked sampleStart a) 1 { sampleStart.toPcStart with dynTransIndex := 1 } with
    procs := [⟨1, sampleStart.key, 7, true, false⟩] }

theorem one_process_started :
    ∃ a s, createPtrArray (fun _ => true) Heap.empty = some a ∧
      Run.exec step (start a) startedLabels = some s ∧
      s.world.procs = [⟨1, sampleStart.key, 7, true, false⟩] ∧ OneProcess s.world := by
  obtain ⟨a, ha, -⟩ := createPtrArray_spec
  obtain ⟨a', hrun, hw, -⟩ := exec_firstBooked ha sampleStart false
  have hroom : a'.totalSizeInBytes + entrySize ≤ 2 ^ 64 := by
    rw [show a'.totalSizeInBytes = _ from hw.stored.total]
    decide
  -- the entry of the first command, with its start id
  set w : World := { store (firstLaunched a') 1
    { sampleStart.toPcStart with dynTransIndex := 1, pid := 7, startId := 1 } with globStartId := 2 }
  have hlaunch : Run.exec step
      ⟨firstBooked sampleStart a', [.scanning 0 none, .booked 1 false], none, none⟩
      [.act 1 (.files 0), .act 1 (.startProcess (.spawned 7) fun _ => []), .act 1 (.isAlive .alive),
        .act 1 .publish] = some ⟨w, [.scanning 0 none, .returned 0], none, none⟩ := rfl
  obtain ⟨hagain, -⟩ := exec_again w (.returned 0) sampleStart false rfl hroom rfl
  have hexec : Run.exec step (start a) startedLabels = some
      ⟨{ w.received sampleStart with pcs := (w.received sampleStart).pcs.free 2 },
        [.scanning 0 none, .returned 0, .returned errorProcessAlreadyRunning], none, none⟩ := by
    unfold startedLabels
    rw [Run.exec_append, hrun, Option.bind_some, Run.exec_append, hlaunch, Option.bind_some,
      Run.exec_append, hagain, Option.bind_some]
    rfl
  refine ⟨a, _, ha, hexec, rfl, one_process a (Run.along_of_forall step ?_ _) hexec⟩
  intro l hl s
  simp only [startedLabels, bookLabels, againLabels, List.cons_append, List.nil_append,
    List.mem_cons, List.not_mem_nil, or_false] at hl
  rcases hl with rfl | rfl | rfl | rfl | rfl | rfl | rfl | rfl | rfl | rfl | rfl | rfl
  all_goals first
    | exact trivial
    | exact fun pc _ => ⟨truthful_of_ne nofun, certain_of_ne nofun nofun⟩

/-- `late_error` of a start command whose entry is in the table. -/
theorem localStep_lateError {slots : List Nat} (hw : WorldInv w slots) (hp : InTable w p)
    (hc : w.pcs.cells p = some c) (ret : Nat) :
    ∃ a', localStep w (.lateError p ret) .removeEntry = some (.ok (.section
        { w with hash := Assoc.remove w.hash c.key, array := a' } (.startError p ret))) ∧
      WorldInv { w with hash := Assoc.remove w.hash c.key, array := a' }
        (slots.set c.dynTransIndex highestBitSet) := by
  obtain ⟨a', hrem, hw'⟩ := removePcEntry_spec hw hp hc
  exact ⟨a', congrArg some (bind_of_ok hrem _), hw'⟩

/-- The process runs, its entry is gone, and another start message has come in. -/
def secondReceived (a : DynamicArray) : World :=
  { firstLaunched a with
    pcs := { ((firstLaunched a).pcs.free 1).set 2 sampleStart.toPcStart with fresh := 3 }
    hash := [] }

def secondBooked (a : DynamicArray) : World :=
  { secondReceived a with
    pcs := (secondReceived a).pcs.set 2 { sampleStart.toPcStart with dynTransIndex := 2 }
    hash := [(sampleStart.key, 2)] }

/-- The run in which the entry of a living process is dropped. -/
def lostLabels : List Label :=
  bookLabels sampleStart false ++
    ([.act 1 (.files 0), .act 1 (.startProcess (.spawned 7) fun _ => []), .act 1 (.isAlive .scriptError)] ++
      .act 1 .removeEntry ::
        ([.act 1 .free, .start sampleStart, .act 2 (.prepare 0 (some false))] ++
          .act 2 (.insertProcess none .ok) ::
            [.act 2 (.files 0), .act 2 (.startProcess (.spawned 8) fun _ => [])]))

/-- The check after the start of a process fails with a script error: its entry is
dropped, and the next start command for the key launches a second process. All
answers of the liveness check are right. -/
theorem second_process_launched :
    ∃ a s, createPtrArray (fun _ => true) Heap.empty = some a ∧
      Run.Along step Honest (start a) lostLabels ∧ Run.exec step (start a) lostLabels = some s ∧
      s.world.procs =
        [⟨1, sampleStart.key, 7, true, false⟩, ⟨2, sampleStart.key, 8, true, false⟩] ∧
      ¬ OneProcess s.world := by
  obtain ⟨a, ha, -⟩ := createPtrArray_spec
  obtain ⟨a₁, hrun₁, hw₁, -⟩ := exec_firstBooked ha sampleStart false
  -- the first process runs, and its entry is taken out
  have hw₂ : WorldInv (firstLaunched a₁) [0, 1] :=
    (hw₁.store rfl _ rfl fun _ => rfl).congr rfl rfl rfl
  obtain ⟨a₂, hrem, hw₃⟩ := localStep_lateError hw₂ ⟨_, List.mem_singleton_self _⟩ rfl
    errorCheckProcessScript
  have h₁ : step ⟨firstLaunched a₁, [.scanning 0 none, .lateError 1 errorCheckProcessScript],
      none, none⟩ (.act 1 .removeEntry) = some
        ⟨{ firstLaunched a₁ with hash := [], array := a₂ },
          [.scanning 0 none, .startError 1 errorCheckProcessScript], none, none⟩ :=
    step_section rfl rfl rfl hrem
  -- the second one gets an entry
  have hlt : 2 < highestBitSet := by decide
  have hw₄ : WorldInv (secondReceived a₂) [0, highestBitSet] :=
    (hw₃.release (fun ⟨_, h⟩ => nomatch h) rfl).2.create hlt sampleStart.toPcStart
  obtain ⟨a₃, hins, -⟩ := insertProcess_entered hw₄ (p := 2) (fun ⟨_, h⟩ => nomatch h) rfl rfl
    (by decide) false
  have h₂ : step ⟨secondReceived a₂, [.scanning 0 none, .returned errorCheckProcessScript,
      .inserting 2 false 0 0], none, none⟩ (.act 2 (.insertProcess none .ok)) = some
        ⟨secondBooked a₃, [.scanning 0 none, .returned errorCheckProcessScript, .booked 2 false],
          none, none⟩ :=
    step_section rfl rfl rfl hins
  have hexec : Run.exec step (start a) lostLabels = some
      ⟨{ store (secondBooked a₃) 2 { sampleStart.toPcStart with dynTransIndex := 2 } with
          procs := [⟨1, sampleStart.key, 7, true, false⟩, ⟨2, sampleStart.key, 8, true, false⟩] },
        [.scanning 0 none, .returned errorCheckProcessScript, .verifying 2 8], none, none⟩ := by
    have hlaunch : Run.exec step
        ⟨firstBooked sampleStart a₁, [.scanning 0 none, .booked 1 false], none, none⟩
        [.act 1 (.files 0), .act 1 (.startProcess (.spawned 7) fun _ => []),
          .act 1 (.isAlive .scriptError)] =
          some ⟨firstLaunched a₁, [.scanning 0 none, .lateError 1 errorCheckProcessScript],
            none, none⟩ := rfl
    have hagain : Run.exec step ⟨{ firstLaunched a₁ with hash := [], array := a₂ },
        [.scanning 0 none, .startError 1 errorCheckProcessScript], none, none⟩
        [.act 1 .free, .start sampleStart, .act 2 (.prepare 0 (some false))] =
          some ⟨secondReceived a₂, [.scanning 0 none, .returned errorCheckProcessScript,
            .inserting 2 false 0 0], none, none⟩ := rfl
    unfold lostLabels
    rw [Run.exec_append, hrun₁, Option.bind_some, Run.exec_append, hlaunch, Option.bind_some,
      Run.exec_cons, h₁, Option.bind_some, Run.exec_append, hagain, Option.bind_some,
      Run.exec_cons, h₂, Option.bind_some]
    rfl
  refine ⟨a, _, ha, Run.along_of_forall step ?_ _, hexec, rfl, fun hone => ?_⟩
  · intro l hl s
    simp only [lostLabels, bookLabels, List.cons_append, List.nil_append, List.mem_cons,
      List.not_mem_nil, or_false] at hl
    rcases hl with rfl | rfl | rfl | rfl | rfl | rfl | rfl | rfl | rfl | rfl | rfl | rfl | rfl
    all_goals first | exact trivial | exact fun pc _ => truthful_of_ne nofun
  · exact absurd (hone.unique 0 1 _ _ rfl rfl rfl rfl rfl) Nat.zero_ne_one

end IClaustron.Pcntrl
