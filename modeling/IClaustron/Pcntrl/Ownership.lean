import IClaustron.Lib.Run
import IClaustron.Pcntrl.TableInv

/-!
# Pcntrl.Ownership — which thread may touch an entry

While a thread is outside the mutex it relies on one or two objects: its own
object before it is booked, the entry it has booked, is killing or is checking,
an object it has taken out of the table and is about to free. `Pc.owns` lists
them with their `Role`, and `ThreadInv` says that each is what its role says and
that no two threads have the same object.

* `isAlive_good`, `files_good`, `free_good`, `removeEntry_good`, `scan_act_good` —
  the actions of several points;
* `localStep_inv` — a step that meets `SafeAct` does not stop the program, and
  keeps the table and the roles;
* `table_ok` — so do whole runs.
-/

namespace IClaustron.Pcntrl

open Lib DynArray List Result Heap

/-! ## Roles -/

/-- What an object is to a thread. `killing` may know key, pid and start id of the
entry. -/
inductive Role where
  /-- the object of a start command that is not booked yet -/
  | own
  /-- an object to be freed -/
  | outside
  /-- the entry of a start command -/
  | booked
  | killing (known : Option (Key × Nat × Nat))
  | checking
deriving DecidableEq

/-- The object is what its role says. -/
def Fits (w : World) (p : Ptr) (c : PcStart) : Role → Prop
  | .own => ¬ InTable w p ∧ c.pid = 0 ∧ c.killOngoing = false ∧ c.checkOngoing = false
  | .outside => ¬ InTable w p
  | .booked => InTable w p ∧ c.pid = 0 ∧ c.killOngoing = false ∧ c.checkOngoing = false
  | .killing known =>
    InTable w p ∧ c.pid ≠ 0 ∧ c.killOngoing = true ∧ c.checkOngoing = false ∧
      ∀ x, known = some x → x = (c.key, c.pid, c.startId)
  | .checking => InTable w p ∧ c.pid ≠ 0 ∧ c.killOngoing = false ∧ c.checkOngoing = true

def RoleOk (w : World) (p : Ptr) (r : Role) : Prop := ∃ c, w.pcs.cells p = some c ∧ Fits w p c r

/-- The objects a thread relies on at a program point. -/
def Pc.owns : Pc → List (Ptr × Role)
  | .received p | .inserting p _ _ _ | .foundOld p _ _ _ _ => [(p, .own)]
  | .replaced p _ f ret => [(p, if ret = 0 then .booked else .own), (f, .outside)]
  | .booked p _ | .daemonFiles p | .launching p | .verifying p _ | .publishing p _
  | .lateError p _ => [(p, .booked)]
  | .startError p _ => [(p, .outside)]
  | .killing key _ f pid startId | .retryKillCheck key f pid startId _
  | .killed key f pid startId => [(f, .killing (some (key, pid, startId)))]
  | .killError f _ => [(f, .killing none)]
  | .killRemoved f | .checkRemoved _ f => [(f, .outside)]
  | .scanning _ (some f) | .checking _ f | .checkFailed _ f => [(f, .checking)]
  | .scanning _ none | .deleting .. | .listing .. | .returned _ => []

/-- The points of the check thread. -/
def Pc.isCheck : Pc → Bool
  | .scanning .. | .checking .. | .checkFailed .. | .checkRemoved .. => true
  | _ => false

/-- The flags `kill_ongoing` and `check_ongoing`. -/
inductive Flag where
  | kill
  | check

def PcStart.flag (c : PcStart) : Flag → Bool
  | .kill => c.killOngoing
  | .check => c.checkOngoing

/-- An entry that has the flag. -/
def Flagged (w : World) (φ : Flag) (q : Ptr) : Prop :=
  InTable w q ∧ ∃ c, w.pcs.cells q = some c ∧ c.flag φ = true

/-- The thread has set the flag of the entry and not cleared it. -/
def Pc.sets (pc : Pc) : Flag → Ptr → Prop
  | .kill, q => ∃ known, (q, .killing known) ∈ pc.owns
  | .check, q => (q, .checking) ∈ pc.owns

structure ThreadInv (w : World) (threads : List Pc) : Prop where
  role : ∀ (t : Nat) pc, threads[t]? = some pc → ∀ p r, (p, r) ∈ pc.owns → RoleOk w p r
  alone : ∀ (t t' : Nat) pc pc', threads[t]? = some pc → threads[t']? = some pc' →
    ∀ p r r', (p, r) ∈ pc.owns → (p, r') ∈ pc'.owns → t = t'
  apart : ∀ (t : Nat) pc, threads[t]? = some pc → (pc.owns.map Prod.fst).Nodup
  flagged : ∀ φ q, Flagged w φ q → ∃ (t : Nat), ∃ pc, threads[t]? = some pc ∧ pc.sets φ q
  checker : ∀ (t : Nat) pc, threads[t]? = some pc → pc.isCheck = true → t = 0

/-- No thread relies on the object. -/
def Unowned (threads : List Pc) (q : Ptr) : Prop :=
  ∀ (t : Nat) pc r, threads[t]? = some pc → (q, r) ∉ pc.owns

/-- Content and membership of the object are the same in both worlds. -/
def Untouched (w w' : World) (q : Ptr) : Prop :=
  w'.pcs.cells q = w.pcs.cells q ∧ (InTable w' q ↔ InTable w q)

variable {w w' : World} {slots : List Nat} {threads : List Pc} {t : Nat} {pc pc' : Pc} {q : Ptr}
  {r : Role} {c : PcStart}

variable {φ : Flag} {f p : Ptr} {failAt : Option Nat} {hash : HashInsert}
  {n pid prev ret retry : Nat} {d : Bool} {key : Key}

theorem Pc.owns_of_sets (h : pc.sets φ q) : ∃ r, (q, r) ∈ pc.owns := by
  cases φ with
  | kill =>
    obtain ⟨known, hmem⟩ := h
    exact ⟨_, hmem⟩
  | check => exact ⟨_, h⟩

theorem Pc.sets_congr (hown : pc'.owns = pc.owns) : pc'.sets φ q ↔ pc.sets φ q := by
  cases φ with
  | kill =>
    unfold Pc.sets
    rw [hown]
  | check =>
    unfold Pc.sets
    rw [hown]

theorem Pc.not_sets (hown : pc.owns = [(p, r)]) (hne : q ≠ p) : ¬ pc.sets φ q := by
  intro h
  obtain ⟨r', hmem⟩ := Pc.owns_of_sets h
  rw [hown] at hmem
  exact hne (Prod.mk.inj (mem_singleton.mp hmem)).1

theorem Flagged.of_untouched (h : Flagged w' φ q) (hu : Untouched w w' q) : Flagged w φ q := by
  obtain ⟨hin, c, hc, hset⟩ := h
  exact ⟨hu.2.mp hin, c, by rw [← hu.1]; exact hc, hset⟩

theorem Flagged.ne_of_unflagged (h : Flagged w φ q) (hc : w.pcs.cells p = some c)
    (hno : c.flag φ = false) : q ≠ p := by
  rintro rfl
  obtain ⟨-, d, hd, hset⟩ := h
  rw [hc] at hd
  cases hd
  rw [hno] at hset
  cases hset

theorem PcStart.flag_eq_false (hkill : c.killOngoing = false) (hcheck : c.checkOngoing = false)
    (φ : Flag) : c.flag φ = false := by
  cases φ with
  | kill => exact hkill
  | check => exact hcheck

theorem RoleOk.of_untouched (h : RoleOk w q r) (hu : Untouched w w' q) : RoleOk w' q r := by
  obtain ⟨c, hc, hfits⟩ := h
  refine ⟨c, by rw [hu.1, hc], ?_⟩
  cases r with
  | own => exact ⟨fun hin => hfits.1 (hu.2.mp hin), hfits.2⟩
  | outside => exact fun hin => hfits (hu.2.mp hin)
  | booked | killing known | checking => exact ⟨hu.2.mpr hfits.1, hfits.2⟩

section

variable (h : ThreadInv w threads)

include h

/-- A running process that nobody kills or checks is nobody's entry. -/
theorem ThreadInv.unowned (hin : InTable w q) (hc : w.pcs.cells q = some c) (hpid : c.pid ≠ 0)
    (hkill : c.killOngoing = false) (hcheck : c.checkOngoing = false) : Unowned threads q := by
  intro t pc r ht hown
  obtain ⟨c', hc', hfits⟩ := h.role t pc ht q r hown
  rw [hc] at hc'
  cases hc'
  cases r with
  | own => exact hfits.1 hin
  | outside => exact hfits hin
  | booked => exact hpid hfits.2.1
  | killing known =>
    have hset := hfits.2.2.1
    rw [hkill] at hset
    cases hset
  | checking =>
    have hset := hfits.2.2.2
    rw [hcheck] at hset
    cases hset

/-- Nor is an address where nothing is stored. -/
theorem ThreadInv.unowned_of_free (hc : w.pcs.cells q = none) : Unowned threads q := by
  intro t pc r ht hown
  obtain ⟨c', hc', -⟩ := h.role t pc ht q r hown
  rw [hc] at hc'
  cases hc'

/-- A thread steps: it changes only objects that it has or that nobody has. -/
theorem ThreadInv.step (ht : threads[t]? = some pc)
    (htouch : ∀ q, Untouched w w' q ∨ q ∈ pc.owns.map Prod.fst ∨ Unowned threads q)
    (hnew : ∀ q r, (q, r) ∈ pc'.owns →
      RoleOk w' q r ∧ (q ∈ pc.owns.map Prod.fst ∨ Unowned threads q))
    (hapart : (pc'.owns.map Prod.fst).Nodup)
    (hflag : ∀ φ q, Flagged w' φ q → pc'.sets φ q ∨ (Flagged w φ q ∧ ¬ pc.sets φ q))
    (hkind : pc'.isCheck = pc.isCheck) : ThreadInv w' (threads.set t pc') := by
  have hlt : t < threads.length := (List.getElem?_eq_some_iff.mp ht).1
  -- threads other than `t` are where they were
  have hget : ∀ (u : Nat) pcu, (threads.set t pc')[u]? = some pcu →
      (u = t ∧ pcu = pc') ∨ (u ≠ t ∧ threads[u]? = some pcu) := by
    intro u pcu hu
    by_cases hut : u = t
    · subst hut
      rw [List.getElem?_set_self hlt] at hu
      exact .inl ⟨rfl, (Option.some.inj hu).symm⟩
    · rw [List.getElem?_set_ne (Ne.symm hut)] at hu
      exact .inr ⟨hut, hu⟩
  -- what another thread has, `t` neither has nor takes
  have hforeign : ∀ (u : Nat) pcu q r, u ≠ t → threads[u]? = some pcu → (q, r) ∈ pcu.owns →
      ¬ (q ∈ pc.owns.map Prod.fst ∨ Unowned threads q) := by
    rintro u pcu q r hut hu hown (hmine | hnone)
    · obtain ⟨⟨q', r'⟩, hmem, rfl⟩ := List.mem_map.mp hmine
      exact hut (h.alone u t pcu pc hu ht q' r r' hown hmem)
    · exact hnone u pcu r hu hown
  refine ⟨?_, ?_, ?_, ?_, ?_⟩
  · intro u pcu hu q r hown
    rcases hget u pcu hu with ⟨rfl, rfl⟩ | ⟨hut, hu⟩
    · exact (hnew q r hown).1
    · have hsame := (htouch q).resolve_right (hforeign u pcu q r hut hu hown)
      exact (h.role u pcu hu q r hown).of_untouched hsame
  · intro u v pcu pcv hu hv q r r' hown hown'
    rcases hget u pcu hu with ⟨rfl, rfl⟩ | ⟨hut, hu₀⟩
    · rcases hget v pcv hv with ⟨rfl, -⟩ | ⟨hvt, hv₀⟩
      · rfl
      · exact absurd (hnew q r hown).2 (hforeign v pcv q r' hvt hv₀ hown')
    · rcases hget v pcv hv with ⟨rfl, rfl⟩ | ⟨hvt, hv₀⟩
      · exact absurd (hnew q r' hown').2 (hforeign u pcu q r hut hu₀ hown)
      · exact h.alone u v pcu pcv hu₀ hv₀ q r r' hown hown'
  · intro u pcu hu
    rcases hget u pcu hu with ⟨rfl, rfl⟩ | ⟨hut, hu⟩
    · exact hapart
    · exact h.apart u pcu hu
  · intro φ q hq
    rcases hflag φ q hq with hmine | ⟨hold, hno⟩
    · exact ⟨t, pc', List.getElem?_set_self hlt, hmine⟩
    · obtain ⟨u, pcu, hu, hown⟩ := h.flagged φ q hold
      have hut : u ≠ t := by
        rintro rfl
        rw [ht] at hu
        cases hu
        exact hno hown
      exact ⟨u, pcu, by rw [List.getElem?_set_ne (Ne.symm hut)]; exact hu, hown⟩
  · intro u pcu hu hcheck
    rcases hget u pcu hu with ⟨rfl, rfl⟩ | ⟨-, hu₀⟩
    · rw [hkind] at hcheck
      exact h.checker u pc ht hcheck
    · exact h.checker u pcu hu₀ hcheck

/-- A new thread comes with objects that nobody has. -/
theorem ThreadInv.spawn (htouch : ∀ q, Untouched w w' q ∨ Unowned threads q)
    (hnew : ∀ q r, (q, r) ∈ pc'.owns → RoleOk w' q r ∧ Unowned threads q)
    (hapart : (pc'.owns.map Prod.fst).Nodup) (hflag : ∀ φ q, Flagged w' φ q → Flagged w φ q)
    (hkind : pc'.isCheck = false) : ThreadInv w' (threads ++ [pc']) := by
  have hget : ∀ (u : Nat) pcu, (threads ++ [pc'])[u]? = some pcu →
      threads[u]? = some pcu ∨ (u = threads.length ∧ pcu = pc') := by
    intro u pcu hu
    rcases Nat.lt_trichotomy u threads.length with hlt | heq | hgt
    · rw [List.getElem?_append_left hlt] at hu
      exact .inl hu
    · subst heq
      rw [List.getElem?_concat_length] at hu
      exact .inr ⟨rfl, (Option.some.inj hu).symm⟩
    · rw [List.getElem?_eq_none (by rw [List.length_append, List.length_singleton]; omega)] at hu
      cases hu
  refine ⟨?_, ?_, ?_, ?_, ?_⟩
  · intro u pcu hu q r hown
    rcases hget u pcu hu with hu | ⟨-, rfl⟩
    · have hsame := (htouch q).resolve_right fun hnone => hnone u pcu r hu hown
      exact (h.role u pcu hu q r hown).of_untouched hsame
    · exact (hnew q r hown).1
  · intro u v pcu pcv hu hv q r r' hown hown'
    rcases hget u pcu hu with hu₀ | ⟨rfl, rfl⟩
    · rcases hget v pcv hv with hv₀ | ⟨-, rfl⟩
      · exact h.alone u v pcu pcv hu₀ hv₀ q r r' hown hown'
      · exact absurd hown ((hnew q r' hown').2 u pcu r hu₀)
    · rcases hget v pcv hv with hv₀ | ⟨rfl, -⟩
      · exact absurd hown' ((hnew q r hown).2 v pcv r' hv₀)
      · rfl
  · intro u pcu hu
    rcases hget u pcu hu with hu | ⟨-, rfl⟩
    · exact h.apart u pcu hu
    · exact hapart
  · intro φ q hq
    obtain ⟨u, pcu, hu, hown⟩ := h.flagged φ q (hflag φ q hq)
    have hlt : u < threads.length := (List.getElem?_eq_some_iff.mp hu).1
    exact ⟨u, pcu, by rw [List.getElem?_append_left hlt]; exact hu, hown⟩
  · intro u pcu hu hcheck
    rcases hget u pcu hu with hu₀ | ⟨-, rfl⟩
    · exact h.checker u pcu hu₀ hcheck
    · rw [hkind] at hcheck
      cases hcheck

end

/-! ## Membership -/

theorem inTable_congr (h : w'.hash = w.hash) : InTable w' q ↔ InTable w q := by
  unfold InTable
  rw [h]

theorem inTable_cons {k : Key} (h : w'.hash = (k, p) :: w.hash) :
    InTable w' q ↔ q = p ∨ InTable w q := by
  unfold InTable
  rw [h]
  constructor
  · rintro ⟨k', hmem⟩
    rcases mem_cons.mp hmem with heq | hmem
    · exact .inl (Prod.mk.inj heq).2
    · exact .inr ⟨k', hmem⟩
  · rintro (rfl | ⟨k', hmem⟩)
    · exact ⟨k, mem_cons_self⟩
    · exact ⟨k', mem_cons_of_mem _ hmem⟩

theorem inTable_remove (hw : WorldInv w slots) (hp : InTable w p) (hc : w.pcs.cells p = some c)
    (h : w'.hash = Assoc.remove w.hash c.key) : InTable w' q ↔ InTable w q ∧ q ≠ p := by
  have hmem := hw.mem_hash hp hc
  unfold InTable
  rw [h]
  constructor
  · rintro ⟨k, hk⟩
    rw [Assoc.mem_remove hw.keys] at hk
    refine ⟨⟨k, hk.1⟩, ?_⟩
    rintro rfl
    obtain ⟨d, hd, hdk, -⟩ := hw.entry k q hk.1
    rw [hc] at hd
    cases hd
    exact hk.2 hdk.symm
  · rintro ⟨⟨k, hk⟩, hne⟩
    refine ⟨k, (Assoc.mem_remove hw.keys).mpr ⟨hk, ?_⟩⟩
    rintro rfl
    exact hne (hw.keys.unique hk hmem)

theorem untouched_store (hne : q ≠ p) (c : PcStart) : Untouched w (store w p c) q :=
  ⟨set_of_ne _ _ hne, Iff.rfl⟩

theorem untouched_free (hne : q ≠ p) : Untouched w { w with pcs := w.pcs.free p } q :=
  ⟨free_of_ne _ hne, Iff.rfl⟩

theorem WorldInv.congr (h : WorldInv w slots) (hpcs : w'.pcs = w.pcs) (hhash : w'.hash = w.hash)
    (harray : w'.array = w.array) : WorldInv w' slots := by
  refine ⟨?_, h.head, h.fits, ?_, ?_, ?_, ?_, ?_⟩
  · rw [harray]
    exact h.stored
  · rw [hpcs]
    exact h.address
  · rw [hpcs]
    exact h.fresh_pos
  · rw [hhash]
    exact h.keys
  · rw [hpcs, hhash]
    exact h.entry
  · rw [hpcs, hhash]
    exact h.slot

/-! ## Steps -/

/-- The condition on a step. `insert_process` does not find the entry it has
verified as dead with a thread at it; the files of a daemon can be set up; the
check thread does not meet an entry that is being killed; an index node of the
pointer array is not the first allocation to fail; the hash table stays on its
memory. -/
def SafeAct (w : World) : Pc → Act → Prop
  | .inserting p _ prevStartId _, .insertProcess failAt hash =>
    ¬ FailsIndex w.array failAt ∧ hash ≠ .realloc ∧
      ∀ c f found, w.pcs.cells p = some c → hashSearch w c.key = some f →
        w.pcs.cells f = some found → found.pid ≠ 0 → found.startId = prevStartId →
        found.killOngoing = false ∧ found.checkOngoing = false
  | .daemonFiles _, .files ret => ret = 0
  | .scanning _ _, .scan next wild =>
    wild = false ∧
      ∀ g c, next = some g → w.pcs.cells g = some c → c.killOngoing = false
  | _, _ => True

/-- The step goes on, and table and roles are in order after it. -/
def Good (threads : List Pc) (t : Nat) (r : Except Stop Out) : Prop :=
  ∃ out slots, r = .ok out ∧ WorldInv out.world slots ∧ ThreadInv out.world (threads.set t out.pc)

/-- `insert_pc_entry` of the object of the thread, which is not in the table. -/
theorem insertPcEntry_touch (hw : WorldInv w slots) (hout : ¬ InTable w p)
    (hc : w.pcs.cells p = some c) (hkey : ∀ q, (c.key, q) ∉ w.hash)
    (hroom : w.array.totalSizeInBytes + entrySize ≤ 2 ^ 64) (hidx : ¬ FailsIndex w.array failAt)
    (hhash : hash ≠ .realloc) :
    ∃ w₂ ret slots₂ i, insertPcEntry w p failAt hash = .ok (w₂, ret) ∧ WorldInv w₂ slots₂ ∧
      w₂.pcs.cells p = some { c with dynTransIndex := i } ∧
      (InTable w₂ p ↔ ret = 0) ∧ ∀ q, q ≠ p → Untouched w w₂ q := by
  obtain ⟨ret, index, a', slots₂, hins, hw₂⟩ :=
    insertPcEntry_spec hw hout hc hkey hroom hidx hhash
  refine ⟨_, ret, slots₂, index, hins, hw₂, set_self _ _ _, ?_, ?_⟩
  · by_cases hret : ret = 0
    · simp only [hret, if_true, iff_true]
      exact ⟨c.key, mem_cons_self⟩
    · simp only [hret, if_false, iff_false]
      exact hout
  · intro q hq
    refine ⟨set_of_ne _ _ hq, ?_⟩
    by_cases hret : ret = 0
    · rw [inTable_cons (if_pos hret)]
      exact or_iff_right hq
    · exact inTable_congr (if_neg hret)

section

variable (hw : WorldInv w slots) (hth : ThreadInv w threads) (ht : threads[t]? = some pc)
include hw hth ht

/-- A step that leaves the objects alone; what the thread relies on afterwards, it
relied on before. -/
theorem good_keep (locks : List LockOp) (hpcs : w'.pcs = w.pcs) (hhash : w'.hash = w.hash)
    (harray : w'.array = w.array)
    (hnew : ∀ q r, (q, r) ∈ pc'.owns →
      ∃ r', (q, r') ∈ pc.owns ∧ ∀ c, Fits w q c r' → Fits w q c r)
    (hapart : (pc'.owns.map Prod.fst).Nodup)
    (hsets : ∀ φ q, pc.sets φ q → pc'.sets φ q)
    (hkind : pc'.isCheck = pc.isCheck) : Good threads t (.ok ⟨pc', w', locks⟩) := by
  have hsame : ∀ q, Untouched w w' q := fun q => ⟨by rw [hpcs], inTable_congr hhash⟩
  refine ⟨_, slots, rfl, hw.congr hpcs hhash harray,
    hth.step ht (fun q => .inl (hsame q)) ?_ hapart ?_ hkind⟩
  · intro q r hown
    obtain ⟨r', hold, himp⟩ := hnew q r hown
    refine ⟨?_, .inl (mem_map.mpr ⟨_, hold, rfl⟩)⟩
    obtain ⟨c, hc, hfits⟩ := hth.role t pc ht q r' hold
    have hrole : RoleOk w q r := ⟨c, hc, himp c hfits⟩
    exact hrole.of_untouched (hsame q)
  · intro φ q hq
    by_cases hmine : pc.sets φ q
    · exact .inl (hsets φ q hmine)
    · exact .inr ⟨hq.of_untouched (hsame q), hmine⟩

/-- A step to a point with the same objects. -/
theorem good_same (locks : List LockOp) (hpcs : w'.pcs = w.pcs) (hhash : w'.hash = w.hash)
    (harray : w'.array = w.array) (hown : pc'.owns = pc.owns) (hkind : pc'.isCheck = pc.isCheck) :
    Good threads t (.ok ⟨pc', w', locks⟩) := by
  refine good_keep hw hth ht locks hpcs hhash harray ?_ ?_ ?_ hkind
  · intro q r hmem
    rw [hown] at hmem
    exact ⟨r, hmem, fun _ => id⟩
  · rw [hown]
    exact hth.apart t pc ht
  · exact fun φ q hq => (Pc.sets_congr hown).mpr hq

/-- A start command gives up before its object is booked. -/
theorem good_give_up (locks : List LockOp) (hown : pc.owns = [(p, .own)])
    (hkind : pc.isCheck = false) : Good threads t (.ok ⟨.startError p ret, w, locks⟩) := by
  refine good_keep hw hth ht locks rfl rfl rfl ?_ ?_ ?_ hkind.symm
  · intro q r hmem
    cases mem_singleton.mp hmem
    rw [hown]
    exact ⟨.own, mem_singleton_self _, fun _ h => h.1⟩
  · exact nodup_singleton _
  · intro φ q hq
    cases φ <;> simp [Pc.sets, hown] at hq

/-- The object of the thread is freed; the rest of what it relies on stays. -/
theorem good_free (hp : (p, .outside) ∈ pc.owns) (hown : ∀ q r, (q, r) ∈ pc'.owns →
      q ≠ p ∧ ∃ r', (q, r') ∈ pc.owns ∧ ∀ c, Fits w q c r' → Fits w q c r)
    (hapart : (pc'.owns.map Prod.fst).Nodup) (hsets : ∀ φ q, ¬ pc.sets φ q)
    (hkind : pc'.isCheck = pc.isCheck) :
    Good threads t (do let w ← release w p; pure (Out.goto w pc')) := by
  obtain ⟨c, hc, hout⟩ := hth.role t pc ht p .outside hp
  obtain ⟨hrel, hw'⟩ := hw.release hout hc
  refine ⟨⟨pc', _, _⟩, slots, bind_of_ok hrel _, hw', hth.step ht ?_ ?_ hapart ?_ hkind⟩
  · intro q
    by_cases hq : q = p
    · right
      left
      rw [hq]
      exact mem_map.mpr ⟨_, hp, rfl⟩
    · exact .inl (untouched_free hq)
  · intro q r hmem
    obtain ⟨hne, r', hold, himp⟩ := hown q r hmem
    obtain ⟨d, hd, hfits⟩ := hth.role t pc ht q r' hold
    have hrole : RoleOk w q r := ⟨d, hd, himp d hfits⟩
    exact ⟨hrole.of_untouched (untouched_free hne), .inl (mem_map.mpr ⟨_, hold, rfl⟩)⟩
  · intro φ q hq
    have hne : q ≠ p := by
      rintro rfl
      exact hout hq.1
    exact .inr ⟨hq.of_untouched (untouched_free hne), hsets φ q⟩

/-- The entry of the thread leaves the table. -/
theorem good_remove (hown : ∃ r, pc.owns = [(p, r)]) (hin : InTable w p)
    (hown' : pc'.owns = [(p, .outside)]) (hkind : pc'.isCheck = pc.isCheck) :
    Good threads t (do let w ← removePcEntry w p; pure (Out.section w pc')) := by
  obtain ⟨r, hown⟩ := hown
  have hmine : p ∈ pc.owns.map Prod.fst := by
    rw [hown]
    exact mem_singleton_self _
  obtain ⟨c, hc, -⟩ := hw.live hin
  obtain ⟨a', hrem, hw'⟩ := removePcEntry_spec hw hin hc
  have hother : ∀ q, q ≠ p →
      Untouched w { w with hash := Assoc.remove w.hash c.key, array := a' } q := by
    intro q hq
    refine ⟨rfl, ?_⟩
    rw [inTable_remove hw hin hc rfl]
    exact and_iff_left hq
  refine ⟨⟨pc', _, _⟩, _, bind_of_ok hrem _, hw', hth.step ht ?_ ?_ ?_ ?_ hkind⟩
  · intro q
    by_cases hq : q = p
    · rw [hq]
      exact .inr (.inl hmine)
    · exact .inl (hother q hq)
  · intro q r hmem
    rw [hown'] at hmem
    cases mem_singleton.mp hmem
    refine ⟨⟨c, hc, fun hin' => ?_⟩, .inl hmine⟩
    exact ((inTable_remove hw hin hc rfl).mp hin').2 rfl
  · rw [hown']
    exact nodup_singleton _
  · intro φ q hq
    have hne : q ≠ p := ((inTable_remove hw hin hc rfl).mp hq.1).2
    exact .inr ⟨hq.of_untouched (hother q hne), Pc.not_sets hown hne⟩

/-- The thread writes its entry and lets go of it. -/
theorem good_let_go {c' : PcStart} {k : Nat} (locks : List LockOp) (hown : ∃ r, pc.owns = [(p, r)])
    (hc : w.pcs.cells p = some c) (hkey : c'.key = c.key)
    (hidx : c'.dynTransIndex = c.dynTransIndex) (hflag : ∀ φ, c'.flag φ = false)
    (hown' : pc'.owns = []) (hkind : pc'.isCheck = pc.isCheck) :
    Good threads t (.ok ⟨pc', { store w p c' with globStartId := k }, locks⟩) := by
  obtain ⟨r, hown⟩ := hown
  refine ⟨_, slots, rfl, (hw.store hc c' hkey fun _ => hidx).congr rfl rfl rfl,
    hth.step ht ?_ ?_ ?_ ?_ hkind⟩
  · intro q
    by_cases hq : q = p
    · rw [hq, hown]
      exact .inr (.inl (mem_singleton_self _))
    · exact .inl (untouched_store hq c')
  · intro q r hmem
    rw [hown'] at hmem
    cases hmem
  · rw [hown']
    exact nodup_nil
  · intro φ q hq
    have hne : q ≠ p := hq.ne_of_unflagged (set_self _ _ _) (hflag φ)
    exact .inr ⟨hq.of_untouched (untouched_store hne c'), Pc.not_sets hown hne⟩

end

/-! ### Start -/

section

variable (hw : WorldInv w slots) (hth : ThreadInv w threads)

include hw hth

/-- No entry of the key: the object is booked, or an error is returned. -/
theorem insert_new_good (ht : threads[t]? = some (.inserting p d prev retry))
    (hroom : w.array.totalSizeInBytes + entrySize ≤ 2 ^ 64) (hidx : ¬ FailsIndex w.array failAt)
    (hhash : hash ≠ .realloc) (hc : w.pcs.cells p = some c) (hfits : Fits w p c .own)
    (hs : hashSearch w c.key = none) :
    Good threads t (do
      let (w, ret) ← insertPcEntry w p failAt hash
      pure (.section w (if ret = 0 then .booked p d else .startError p ret))) := by
  obtain ⟨hout, hpid, hkill, hcheck⟩ := hfits
  obtain ⟨w₂, ret, slots₂, i, hins, hw₂, hc₂, hin₂, htouch⟩ :=
    insertPcEntry_touch hw hout hc (Assoc.not_mem_of_search hs) hroom hidx hhash
  have hmine : p ∈ (Pc.inserting p d prev retry).owns.map Prod.fst := mem_singleton_self _
  refine ⟨⟨if ret = 0 then .booked p d else .startError p ret, w₂, _⟩, slots₂,
    bind_of_ok hins _, hw₂, hth.step ht ?_ ?_ ?_ ?_ ?_⟩
  · intro q
    by_cases hq : q = p
    · rw [hq]
      exact .inr (.inl hmine)
    · exact .inl (htouch q hq)
  · intro q r hmem
    by_cases hret : ret = 0
    · rw [if_pos hret] at hmem
      cases mem_singleton.mp hmem
      exact ⟨⟨_, hc₂, hin₂.mpr hret, hpid, hkill, hcheck⟩, .inl hmine⟩
    · rw [if_neg hret] at hmem
      cases mem_singleton.mp hmem
      exact ⟨⟨_, hc₂, fun hin => hret (hin₂.mp hin)⟩, .inl hmine⟩
  · split_ifs
    · exact nodup_singleton _
    · exact nodup_singleton _
  · intro φ q hq
    have hne : q ≠ p := hq.ne_of_unflagged hc₂ (PcStart.flag_eq_false hkill hcheck φ)
    exact .inr ⟨hq.of_untouched (htouch q hne), Pc.not_sets rfl hne⟩
  · split_ifs
    · rfl
    · rfl

/-- The dead entry `f` of the key, which nobody kills or checks, is replaced. -/
theorem insert_replace_good {found : PcStart} (ht : threads[t]? = some (.inserting p d prev retry))
    (hroom : w.array.totalSizeInBytes + entrySize ≤ 2 ^ 64) (hidx : ¬ FailsIndex w.array failAt)
    (hhash : hash ≠ .realloc) (hc : w.pcs.cells p = some c) (hfits : Fits w p c .own)
    (hs : hashSearch w c.key = some f) (hf : w.pcs.cells f = some found) (hpidf : found.pid ≠ 0)
    (hkillf : found.killOngoing = false) (hcheckf : found.checkOngoing = false) :
    Good threads t (do
      let w ← removePcEntry w f
      let (w, ret) ← insertPcEntry w p failAt hash
      pure (.section w (.replaced p d f ret))) := by
  obtain ⟨hout, hpid, hkill, hcheck⟩ := hfits
  obtain ⟨found', hf', hkeyf, hmemf⟩ := hw.search hs
  rw [hf] at hf'
  cases hf'
  have hinf : InTable w f := ⟨_, hmemf⟩
  have hne : f ≠ p := by
    rintro rfl
    exact hout hinf
  have hfree : Unowned threads f := hth.unowned hinf hf hpidf hkillf hcheckf
  have hmine : p ∈ (Pc.inserting p d prev retry).owns.map Prod.fst := mem_singleton_self _
  obtain ⟨a₁, hrem, hw₁⟩ := removePcEntry_spec hw hinf hf
  have hrem₁ : ∀ q, InTable { w with hash := Assoc.remove w.hash found.key, array := a₁ } q ↔
      InTable w q ∧ q ≠ f := fun q => inTable_remove hw hinf hf rfl
  -- the write to the freed slot has not moved the index nodes
  have hindex : SameIndex w.array a₁ := by
    unfold removePcEntry at hrem
    rw [bind_of_ok (follow_of_cell hf)] at hrem
    split_ifs at hrem
    split at hrem
    · cases hrem
    · rename_i a' ret hptr
      cases hrem
      exact removePtr_sameIndex hptr
  have hkey₁ : ∀ q, (c.key, q) ∉ Assoc.remove w.hash found.key := by
    intro q hq
    exact ((Assoc.mem_remove hw.keys).mp hq).2 hkeyf.symm
  obtain ⟨w₂, ret, slots₂, i, hins, hw₂, hc₂, hin₂, htouch⟩ :=
    insertPcEntry_touch hw₁ (fun hin => hout ((hrem₁ p).mp hin).1) hc hkey₁
      (by rw [← hindex.total] at hroom; exact hroom) (mt hindex.failsIndex.mp hidx) hhash
  have hother : ∀ q, q ≠ p → q ≠ f → Untouched w w₂ q := by
    intro q hq hqf
    have hu := htouch q hq
    exact ⟨hu.1, hu.2.trans ((hrem₁ q).trans (and_iff_left hqf))⟩
  have hgone : ¬ InTable w₂ f := by
    intro hin
    exact ((hrem₁ f).mp ((htouch f hne).2.mp hin)).2 rfl
  refine ⟨⟨.replaced p d f ret, w₂, _⟩, slots₂,
    (bind_of_ok hrem _).trans (bind_of_ok hins _), hw₂, hth.step ht ?_ ?_ ?_ ?_ rfl⟩
  · intro q
    by_cases hq : q = p
    · rw [hq]
      exact .inr (.inl hmine)
    by_cases hqf : q = f
    · rw [hqf]
      exact .inr (.inr hfree)
    · exact .inl (hother q hq hqf)
  · intro q r hmem
    rcases mem_cons.mp hmem with heq | hmem
    · cases heq
      refine ⟨⟨_, hc₂, ?_⟩, .inl hmine⟩
      by_cases hret : ret = 0
      · rw [if_pos hret]
        exact ⟨hin₂.mpr hret, hpid, hkill, hcheck⟩
      · rw [if_neg hret]
        exact ⟨fun hin => hret (hin₂.mp hin), hpid, hkill, hcheck⟩
    · cases mem_singleton.mp hmem
      exact ⟨⟨found, by rw [(htouch f hne).1]; exact hf, hgone⟩, .inr hfree⟩
  · simp [Pc.owns, hne.symm]
  · intro φ q hq
    have hqp : q ≠ p := hq.ne_of_unflagged hc₂ (PcStart.flag_eq_false hkill hcheck φ)
    have hqf : q ≠ f := by
      rintro rfl
      exact hgone hq.1
    exact .inr ⟨hq.of_untouched (hother q hqp hqf), Pc.not_sets rfl hqp⟩

theorem insertProcess_good (ht : threads[t]? = some (.inserting p d prev retry))
    (hroom : w.array.totalSizeInBytes + entrySize ≤ 2 ^ 64)
    (hsafe : SafeAct w (.inserting p d prev retry) (.insertProcess failAt hash)) :
    Good threads t (insertProcess w p d prev retry failAt hash) := by
  obtain ⟨hidx, hhash, hflags⟩ := hsafe
  obtain ⟨c, hc, hfits⟩ := hth.role t _ ht p .own (mem_singleton_self _)
  -- the paths that return to the caller with an error
  have herror : ∀ ret, Good threads t (.ok (.section w (.startError p ret))) :=
    fun ret => good_give_up hw hth ht _ rfl rfl
  unfold insertProcess
  rw [bind_of_ok (follow_of_cell hc)]
  cases hs : hashSearch w c.key with
  | none => exact insert_new_good hw hth ht hroom hidx hhash hc hfits hs
  | some f =>
    obtain ⟨found, hf, -, -⟩ := hw.search hs
    dsimp only
    rw [bind_of_ok (follow_of_cell hf)]
    split_ifs with hpid hown hretry hid
    · exact herror _
    · exact herror _
    · exact good_same hw hth ht _ rfl rfl rfl rfl rfl
    · obtain ⟨hkill, hcheck⟩ := hflags c f found hc hs hf hpid hid
      exact insert_replace_good hw hth ht hroom hidx hhash hc hfits hs hf hpid hkill hcheck
    · exact good_same hw hth ht _ rfl rfl rfl rfl rfl

/-- A start command writes its booked object and keeps it. -/
theorem good_write_booked (c' : PcStart)
    (ht : threads[t]? = some pc) (hown : pc.owns = [(p, .booked)])
    (hown' : pc'.owns = [(p, .booked)]) (hc : w.pcs.cells p = some c) (hkey : c'.key = c.key)
    (hidx : c'.dynTransIndex = c.dynTransIndex) (hpid : c'.pid = c.pid)
    (hflag : ∀ φ, c'.flag φ = c.flag φ) (hkind : pc'.isCheck = pc.isCheck) (procs : List Proc)
    (locks : List LockOp) :
    Good threads t (.ok ⟨pc', { store w p c' with procs := procs }, locks⟩) := by
  rcases hth.role t pc ht p .booked (hown ▸ mem_singleton_self _) with ⟨d, hd, hin, hfits⟩
  rw [hc] at hd
  cases hd
  refine ⟨_, slots, rfl, (hw.store hc c' hkey fun _ => hidx).congr rfl rfl rfl,
    hth.step ht ?_ ?_ ?_ ?_ hkind⟩
  · intro q
    by_cases hq : q = p
    · rw [hq, hown]
      exact .inr (.inl (mem_singleton_self _))
    · exact .inl (untouched_store hq c')
  · intro q r hmem
    rw [hown'] at hmem
    cases mem_singleton.mp hmem
    refine ⟨⟨c', set_self _ _ _, hin, hpid.trans hfits.1, ?_, ?_⟩, .inl ?_⟩
    · exact (hflag .kill).trans hfits.2.1
    · exact (hflag .check).trans hfits.2.2
    · rw [hown]
      exact mem_singleton_self _
  · rw [hown']
    exact nodup_singleton _
  · intro φ q hq
    have hclear : c'.flag φ = false :=
      (hflag φ).trans (PcStart.flag_eq_false hfits.2.1 hfits.2.2 φ)
    have hne : q ≠ p := hq.ne_of_unflagged (set_self _ _ _) hclear
    exact .inr ⟨hq.of_untouched (untouched_store hne c'), Pc.not_sets hown hne⟩

theorem startProcess_good {l : Launch} {behind : Nat → Str}
    (ht : threads[t]? = some (.launching p)) : Good threads t (startProcess w p l behind) := by
  rcases hth.role t _ ht p .booked (mem_singleton_self _) with ⟨c, hc, -⟩
  unfold startProcess
  rw [bind_of_ok (follow_of_cell hc)]
  have hflag : ∀ φ, (c.stripped behind).flag φ = c.flag φ := by
    intro φ
    cases φ <;> rfl
  have hgood : ∀ pc' procs, pc'.owns = [(p, .booked)] → pc'.isCheck = false →
      Good threads t (.ok ⟨pc', { store w p (c.stripped behind) with procs := procs }, []⟩) :=
    fun pc' procs hown hkind =>
      good_write_booked hw hth (c.stripped behind) ht rfl hown hc rfl rfl rfl hflag hkind procs []
  cases l with
  | notSpawned ret => exact hgood (.lateError p ret) w.procs rfl rfl
  | noPidFile ret pid => exact hgood (.lateError p ret) _ rfl rfl
  | spawned pid => exact hgood (.verifying p pid) _ rfl rfl

theorem publish_good (ht : threads[t]? = some (.publishing p pid)) :
    Good threads t (publish w p pid) := by
  obtain ⟨c, hc, hfits⟩ := hth.role t _ ht p .booked (mem_singleton_self _)
  unfold publish
  rw [bind_of_ok (follow_of_cell hc)]
  exact good_let_go hw hth ht _ ⟨_, rfl⟩ hc rfl rfl
    (PcStart.flag_eq_false hfits.2.2.1 hfits.2.2.2) rfl rfl

/-! ### Stop -/

theorem deleteProcess_good {killFlag : Bool} (ht : threads[t]? = some (.deleting key killFlag n)) :
    Good threads t (deleteProcess w key killFlag n) := by
  unfold deleteProcess
  cases hs : hashSearch w key with
  | none => exact good_same hw hth ht _ rfl rfl rfl rfl rfl
  | some f =>
    obtain ⟨c, hc, hkey, hmem⟩ := hw.search hs
    dsimp only
    rw [bind_of_ok (follow_of_cell hc)]
    split_ifs with hbusy hn hkill
    · exact good_same hw hth ht _ rfl rfl rfl rfl rfl
    · exact good_same hw hth ht _ rfl rfl rfl rfl rfl
    · exact good_same hw hth ht _ rfl rfl rfl rfl rfl
    · -- the thread takes the entry
      rw [not_or, Bool.not_eq_true] at hbusy
      rw [Bool.not_eq_true] at hkill
      have hin : InTable w f := ⟨key, hmem⟩
      have hfree : Unowned threads f := hth.unowned hin hc hbusy.1 hkill hbusy.2
      refine ⟨⟨.killing key killFlag f c.pid c.startId, _, _⟩, slots, rfl,
        hw.store hc { c with killOngoing := true } rfl fun _ => rfl, hth.step ht ?_ ?_ ?_ ?_ rfl⟩
      · intro q
        by_cases hq : q = f
        · rw [hq]
          exact .inr (.inr hfree)
        · exact .inl (untouched_store hq _)
      · intro q r hown
        cases mem_singleton.mp hown
        refine ⟨⟨_, set_self _ _ _, hin, hbusy.1, rfl, hbusy.2, ?_⟩, .inr hfree⟩
        rintro x ⟨⟩
        rw [hkey]
      · exact nodup_singleton _
      · intro φ q hq
        by_cases hqf : q = f
        · subst hqf
          cases φ with
          | kill => exact .inl ⟨_, mem_singleton_self _⟩
          | check => exact absurd rfl (hq.ne_of_unflagged (set_self _ _ _) hbusy.2)
        · refine .inr ⟨hq.of_untouched (untouched_store hqf _), ?_⟩
          cases φ <;> simp [Pc.sets, Pc.owns]

/-- The entry is where the killer has left it. -/
theorem removeKilled_good {startId : Nat} (ht : threads[t]? = some (.killed key f pid startId)) :
    Good threads t (removeKilled w key pid startId) := by
  obtain ⟨c, hc, hin, -, -, -, hknown⟩ := hth.role t _ ht f _ (mem_singleton_self _)
  obtain ⟨rfl, rfl, rfl⟩ : key = c.key ∧ pid = c.pid ∧ startId = c.startId := by
    have heq := hknown _ rfl
    simpa using heq
  have hs : hashSearch w c.key = some f := hw.keys.search (hw.mem_hash hin hc)
  unfold removeKilled
  rw [hs]
  dsimp only
  rw [bind_of_ok (follow_of_cell hc), if_pos ⟨rfl, rfl⟩]
  exact good_remove hw hth ht ⟨_, rfl⟩ hin rfl rfl

theorem clearKill_good (ht : threads[t]? = some (.killError f ret)) :
    Good threads t (clearKill w f ret) := by
  obtain ⟨c, hc, hfits⟩ := hth.role t _ ht f _ (mem_singleton_self _)
  unfold clearKill
  rw [bind_of_ok (follow_of_cell hc)]
  exact good_let_go hw hth ht _ ⟨_, rfl⟩ hc rfl rfl
    (PcStart.flag_eq_false rfl hfits.2.2.2.1) rfl rfl

/-! ### List -/

omit hth in
/-- The slots lead to objects that are there. -/
theorem listEntries_ok (find : PcFind) (copyOk : Nat → Bool) (n index : Nat)
    (hn : index + n ≤ slots.length) : ∃ r, listEntries w find copyOk n index = .ok r := by
  induction n generalizing index with
  | zero => exact ⟨_, rfl⟩
  | succ n ih =>
    obtain ⟨rest, hrest⟩ := ih (index + 1) (by omega)
    obtain ⟨v, hv⟩ : ∃ v, slots[index]? = some v :=
      ⟨_, getElem?_eq_getElem (by omega)⟩
    unfold listEntries
    rcases Nat.eq_zero_or_pos index with rfl | hpos
    · -- the list head
      rw [hw.head] at hv
      cases hv
      rw [getPtr_spec hw.stored hw.head (by decide) hw.fits, if_neg (by decide)]
      exact ⟨rest, by simpa using hrest⟩
    · rcases hw.slot index v hpos hv with rfl | ⟨c, hc, -, -⟩
      · rw [getPtr_spec hw.stored hv highestBitSet_lt hw.fits, if_pos le_rfl]
        exact ⟨_, rfl⟩
      · obtain ⟨hvpos, -, hvlt⟩ := hw.address v c hc
        rw [getPtr_spec hw.stored hv (hvlt.trans highestBitSet_lt) hw.fits,
          if_neg (Nat.not_le.mpr hvlt)]
        dsimp only
        rw [if_neg (fun hne => hne rfl), if_neg (Nat.ne_of_gt hvpos),
          bind_of_ok (follow_of_cell hc)]
        split_ifs
        · exact ⟨_, bind_of_ok hrest _⟩
        · exact ⟨_, rfl⟩
        · exact ⟨rest, hrest⟩

theorem listSection_good {find : PcFind} {listFull : Bool} {copyOk : Nat → Bool}
    (ht : threads[t]? = some (.listing find listFull)) :
    Good threads t (listSection w find copyOk) := by
  have hmax : getMaxIndex w.array = slots.length := by
    unfold getMaxIndex
    rw [hw.stored.total]
    exact Nat.mul_div_cancel_left _ (by decide)
  obtain ⟨r, hr⟩ := listEntries_ok hw find copyOk (getMaxIndex w.array) 0 (by omega)
  unfold listSection
  rw [bind_of_ok hr]
  cases r with
  | error e => exact good_same hw hth ht _ rfl rfl rfl rfl rfl
  | ok l => exact good_same hw hth ht _ rfl rfl rfl rfl rfl

/-! ### Check thread -/

omit hw hth in
theorem isCheck_of_owns (h : (q, .checking) ∈ pc.owns) : pc.isCheck = true := by
  cases pc with
  | scanning n f | checking n f | checkFailed n f => rfl
  | replaced p d f ret =>
    by_cases hret : ret = 0 <;> simp [Pc.owns, hret] at h
  | _ => simp [Pc.owns] at h

/-- The check of `g` begins. -/
theorem scan_next_good {g : Ptr}
    (ht : threads[t]? = some (.scanning n none)) (hin : InTable w g) (hc : w.pcs.cells g = some c)
    (hpid : c.pid ≠ 0) (hkill : c.killOngoing = false) (hcheck : c.checkOngoing = false) :
    Good threads t (.ok (.section
      (store w g { c with checkOngoing := true, checkTime := n }) (.checking n g))) := by
  have hfree : Unowned threads g := hth.unowned hin hc hpid hkill hcheck
  refine ⟨⟨.checking n g, _, _⟩, slots, rfl, hw.store hc _ rfl fun _ => rfl, hth.step ht ?_ ?_ ?_ ?_ rfl⟩
  · intro q
    by_cases hq : q = g
    · rw [hq]
      exact .inr (.inr hfree)
    · exact .inl (untouched_store hq _)
  · intro q r hown
    cases mem_singleton.mp hown
    exact ⟨⟨_, set_self _ _ _, hin, hpid, hkill, rfl⟩, .inr hfree⟩
  · exact nodup_singleton _
  · intro φ q hq
    by_cases hqg : q = g
    · subst hqg
      cases φ with
      | kill => exact absurd rfl (hq.ne_of_unflagged (set_self _ _ _) hkill)
      | check => exact .inl (mem_singleton_self _)
    · refine .inr ⟨hq.of_untouched (untouched_store hqg _), ?_⟩
      cases φ <;> simp [Pc.sets, Pc.owns]

/-- The check of `f` is over. -/
theorem clearCheck_good {f : Option Ptr} (ht : threads[t]? = some (.scanning n f)) :
    ∃ w₁, clearCheck w f = .ok w₁ ∧ WorldInv w₁ slots ∧
      ThreadInv w₁ (threads.set t (.scanning n none)) ∧ w₁.hash = w.hash ∧
      ∀ q c₁, w₁.pcs.cells q = some c₁ → ∃ c, w.pcs.cells q = some c ∧ c₁.pid = c.pid ∧
        c₁.killOngoing = c.killOngoing ∧ (c₁.checkOngoing = true → c.checkOngoing = true) := by
  cases f with
  | none =>
    refine ⟨w, rfl, hw, ?_, rfl, fun q c hc => ⟨c, hc, rfl, rfl, id⟩⟩
    have hgood : Good threads t (.ok ⟨.scanning n none, w, []⟩) :=
      good_same hw hth ht [] rfl rfl rfl rfl rfl
    obtain ⟨out, slots', hout, -, hth'⟩ := hgood
    cases hout
    exact hth'
  | some f =>
    obtain ⟨c, hc, hfits⟩ := hth.role t _ ht f _ (mem_singleton_self _)
    have hgood : Good threads t
        (.ok ⟨.scanning n none, store w f { c with checkOngoing := false }, []⟩) :=
      good_let_go hw hth ht [] ⟨_, rfl⟩ hc rfl rfl (PcStart.flag_eq_false hfits.2.2.1 rfl) rfl rfl
    obtain ⟨out, slots', hout, -, hth'⟩ := hgood
    cases hout
    refine ⟨store w f { c with checkOngoing := false }, bind_of_ok (follow_of_cell hc) _,
      hw.store hc _ rfl fun _ => rfl, hth', rfl, ?_⟩
    intro q c₁ hc₁
    by_cases hq : q = f
    · subst hq
      have heq := Option.some.inj (hc₁.symm.trans (set_self _ _ _))
      subst heq
      exact ⟨c, hc, rfl, rfl, fun h => nomatch h⟩
    · refine ⟨c₁, ?_, rfl, rfl, id⟩
      rw [← set_of_ne w.pcs _ hq]
      exact hc₁

omit hw hth in
theorem Good.of_set {pc₁ : Pc} {r : Except Stop Out} (h : Good (threads.set t pc₁) t r) :
    Good threads t r := by
  obtain ⟨out, slots', hout, hw', hth'⟩ := h
  rw [set_set] at hth'
  exact ⟨out, slots', hout, hw', hth'⟩

omit hw hth in
theorem mem_of_isDue {g : Ptr} (h : isDue w n g = true) :
    InTable w g ∧ ∀ c, w.pcs.cells g = some c → c.pid ≠ 0 := by
  unfold isDue at h
  rw [Bool.and_eq_true, any_eq_true] at h
  obtain ⟨⟨⟨k, g'⟩, hmem, hg⟩, hdue⟩ := h
  have hg' : g' = g := by simpa using hg
  subst hg'
  refine ⟨⟨k, hmem⟩, fun c hc hpid => ?_⟩
  rw [hc] at hdue
  simp [skipsCheck, hpid] at hdue

/-- The check of `f` ends and that of the next entry begins. There is only one
check thread, so the next entry is not marked. -/
theorem scan_good {f next : Option Ptr}
    (ht : threads[t]? = some (.scanning n f)) (hdue : ∀ g, next = some g → isDue w n g = true)
    (hkill : ∀ g c, next = some g → w.pcs.cells g = some c → c.killOngoing = false) :
    Good threads t (scan w n f next) := by
  obtain ⟨w₁, hclear, hw₁, hth₁, hhash, hcells⟩ := clearCheck_good hw hth ht
  have hlt : t < threads.length := (List.getElem?_eq_some_iff.mp ht).1
  have ht₁ : (threads.set t (.scanning n none))[t]? = some (.scanning n none) :=
    List.getElem?_set_self hlt
  unfold scan
  rw [bind_of_ok hclear]
  apply Good.of_set
  cases next with
  | none => exact good_same hw₁ hth₁ ht₁ _ rfl rfl rfl rfl rfl
  | some g =>
    obtain ⟨hin, hpid⟩ := mem_of_isDue (hdue g rfl)
    have hin₁ : InTable w₁ g := (inTable_congr hhash).mpr hin
    obtain ⟨c₁, hc₁, -⟩ := hw₁.live hin₁
    obtain ⟨c, hc, hpid₁, hkill₁, -⟩ := hcells g c₁ hc₁
    dsimp only
    rw [bind_of_ok (follow_of_cell hc₁)]
    apply scan_next_good hw₁ hth₁ ht₁ hin₁ hc₁
    · rw [hpid₁]
      exact hpid c hc
    · rw [hkill₁]
      exact hkill g c rfl hc
    · -- a marked entry would be checked by this thread
      by_contra hcheck
      rw [Bool.not_eq_false] at hcheck
      obtain ⟨u, pcu, hu, hown⟩ := hth₁.flagged .check g ⟨hin₁, c₁, hc₁, hcheck⟩
      by_cases hut : u = t
      · rw [hut, ht₁] at hu
        cases hu
        cases hown
      · rw [List.getElem?_set_ne (Ne.symm hut)] at hu
        exact hut ((hth.checker u pcu hu (isCheck_of_owns hown)).trans (hth.checker t _ ht rfl).symm)

/-! ### All steps -/

theorem killCheck_good {startId : Nat} (answer : Alive)
    (ht : threads[t]? = some (.retryKillCheck key f pid startId n)) :
    Good threads t (.ok (.goto w (killCheck key f pid startId n answer))) := by
  have herror : ∀ ret, Good threads t (.ok (.goto w (.killError f ret))) := by
    intro ret
    refine good_keep hw hth ht _ rfl rfl rfl ?_ ?_ ?_ rfl
    · intro q r hmem
      cases mem_singleton.mp hmem
      refine ⟨_, mem_singleton_self _, fun c hfits => ?_⟩
      obtain ⟨hin, hpid, hkill, hcheck, -⟩ := hfits
      exact ⟨hin, hpid, hkill, hcheck, fun x hx => nomatch hx⟩
    · exact nodup_singleton _
    · intro φ q hq
      cases φ with
      | kill =>
        obtain ⟨known, hmem⟩ := hq
        cases mem_singleton.mp hmem
        exact ⟨none, mem_singleton_self _⟩
      | check => cases mem_singleton.mp hq
  cases answer with
  | alive =>
    unfold killCheck
    dsimp only
    split_ifs
    · exact herror _
    · exact good_same hw hth ht _ rfl rfl rfl rfl rfl
  | notAlive => exact good_same hw hth ht _ rfl rfl rfl rfl rfl
  | scriptError => exact herror _

/-- The object of the thread, its only one, is freed. -/
theorem good_free_only
    (ht : threads[t]? = some pc) (hown : pc.owns = [(p, .outside)]) (hown' : pc'.owns = [])
    (hkind : pc'.isCheck = pc.isCheck) :
    Good threads t (do let w ← release w p; pure (Out.goto w pc')) := by
  refine good_free hw hth ht ?_ ?_ ?_ ?_ hkind
  · rw [hown]
    exact mem_singleton_self _
  · intro q r hmem
    rw [hown'] at hmem
    cases hmem
  · rw [hown']
    exact nodup_nil
  · intro φ q hq
    cases φ <;> simp [Pc.sets, hown] at hq

/-- After a replacement the old object is freed. -/
theorem replaced_good (ht : threads[t]? = some (.replaced p d f ret)) :
    Good threads t (do
      let w ← release w f
      pure (Out.goto w (if ret = 0 then .booked p d else .startError p ret))) := by
  have hne : p ≠ f := by
    have hnodup := hth.apart t _ ht
    simpa [Pc.owns] using hnodup
  have hlast : (f, Role.outside) ∈ (Pc.replaced p d f ret).owns :=
    mem_cons_of_mem _ (mem_singleton_self _)
  by_cases hret : ret = 0
  · simp only [hret, if_true] at ht hlast ⊢
    refine good_free hw hth ht hlast ?_ ?_ ?_ rfl
    · intro q r hmem
      cases mem_singleton.mp hmem
      exact ⟨hne, .booked, mem_cons_self, fun _ h => h⟩
    · exact nodup_singleton _
    · intro φ q
      cases φ <;> simp [Pc.sets, Pc.owns]
  · simp only [hret, if_false]
    refine good_free hw hth ht hlast ?_ ?_ ?_ rfl
    · intro q r hmem
      cases mem_singleton.mp hmem
      exact ⟨hne, .own, by simp [Pc.owns, hret], fun _ h => h.1⟩
    · exact nodup_singleton _
    · intro φ q
      cases φ <;> simp [Pc.sets, Pc.owns, hret]

theorem isAlive_good {answer : Alive} {r : Except Stop Out} (ht : threads[t]? = some pc)
    (h : localStep w pc (.isAlive answer) = some r) : Good threads t r := by
  cases pc with
  | foundOld p d pid prev retry =>
    cases h
    cases answer with
    | notAlive => exact good_same hw hth ht _ rfl rfl rfl rfl rfl
    | alive => exact good_give_up hw hth ht _ rfl rfl
    | scriptError => exact good_give_up hw hth ht _ rfl rfl
  | verifying p pid | checking n f =>
    cases h
    split_ifs
    · exact good_same hw hth ht _ rfl rfl rfl rfl rfl
    · exact good_same hw hth ht _ rfl rfl rfl rfl rfl
  | retryKillCheck key f pid startId n =>
    cases h
    exact killCheck_good hw hth answer ht
  | _ => nomatch h

theorem files_good {r : Except Stop Out} (ht : threads[t]? = some pc)
    (hsafe : SafeAct w pc (.files ret)) (h : localStep w pc (.files ret) = some r) :
    Good threads t r := by
  cases pc with
  | booked p d =>
    cases h
    split_ifs
    · exact good_same hw hth ht _ rfl rfl rfl rfl rfl
    · exact good_same hw hth ht _ rfl rfl rfl rfl rfl
    · exact good_same hw hth ht _ rfl rfl rfl rfl rfl
  | daemonFiles p =>
    -- the entry stays booked
    have hret : ret = 0 := hsafe
    cases h
    rw [if_neg (not_not.mpr hret)]
    exact good_same hw hth ht _ rfl rfl rfl rfl rfl
  | _ => nomatch h

theorem free_good {r : Except Stop Out} (ht : threads[t]? = some pc)
    (h : localStep w pc .free = some r) : Good threads t r := by
  cases pc with
  | replaced p d f ret =>
    cases h
    exact replaced_good hw hth ht
  | startError p ret | killRemoved f | checkRemoved n f =>
    cases h
    exact good_free_only hw hth ht rfl rfl rfl
  | _ => nomatch h

theorem removeEntry_good {r : Except Stop Out} (ht : threads[t]? = some pc)
    (h : localStep w pc .removeEntry = some r) : Good threads t r := by
  cases pc with
  | lateError p ret =>
    cases h
    obtain ⟨c, -, hin, -⟩ := hth.role t _ ht p .booked (mem_singleton_self _)
    exact good_remove hw hth ht ⟨_, rfl⟩ hin rfl rfl
  | checkFailed n f =>
    cases h
    obtain ⟨c, -, hin, -⟩ := hth.role t _ ht f .checking (mem_singleton_self _)
    exact good_remove hw hth ht ⟨_, rfl⟩ hin rfl rfl
  | _ => nomatch h

theorem scan_act_good {next : Option Ptr} {wild : Bool} {r : Except Stop Out}
    (ht : threads[t]? = some pc) (hsafe : SafeAct w pc (.scan next wild))
    (h : localStep w pc (.scan next wild) = some r) : Good threads t r := by
  cases pc with
  | scanning n f =>
    obtain ⟨rfl, hkill⟩ := hsafe
    cases next with
    | none =>
      cases h
      exact scan_good hw hth ht (fun g hg => nomatch hg) hkill
    | some g =>
      rw [localStep_scan] at h
      split_ifs at h with hdue
      cases h
      exact scan_good hw hth ht (fun g' hg => by cases hg; exact hdue) hkill
  | _ => nomatch h

theorem localStep_inv {a : Act} {r : Except Stop Out} (ht : threads[t]? = some pc)
    (hsafe : SafeAct w pc a) (h : localStep w pc a = some r) : Good threads t r := by
  cases a with
  | prepare ret d =>
    cases pc with
    | received p =>
      cases d with
      | none =>
        cases h
        exact good_give_up hw hth ht _ rfl rfl
      | some d =>
        cases h
        exact good_same hw hth ht _ rfl rfl rfl rfl rfl
    | _ => nomatch h
  | insertProcess failAt hash =>
    cases pc with
    | inserting p d prev retry =>
      rw [localStep_insertProcess] at h
      split_ifs at h with hroom
      cases h
      exact insertProcess_good hw hth ht hroom hsafe
    | _ => nomatch h
  | isAlive answer => exact isAlive_good hw hth ht h
  | free => exact free_good hw hth ht h
  | files ret => exact files_good hw hth ht hsafe h
  | startProcess l behind =>
    cases pc with
    | launching p =>
      cases h
      exact startProcess_good hw hth ht
    | _ => nomatch h
  | publish =>
    cases pc with
    | publishing p pid =>
      cases h
      exact publish_good hw hth ht
    | _ => nomatch h
  | removeEntry => exact removeEntry_good hw hth ht h
  | deleteProcess =>
    cases pc with
    | deleting key killFlag n =>
      cases h
      exact deleteProcess_good hw hth ht
    | _ => nomatch h
  | kill =>
    cases pc with
    | killing key killFlag f pid startId =>
      cases h
      exact good_same hw hth ht _ rfl rfl rfl rfl rfl
    | _ => nomatch h
  | removeKilled =>
    cases pc with
    | killed key f pid startId =>
      cases h
      exact removeKilled_good hw hth ht
    | _ => nomatch h
  | clearKill =>
    cases pc with
    | killError f ret =>
      cases h
      exact clearKill_good hw hth ht
    | _ => nomatch h
  | list copyOk =>
    cases pc with
    | listing find listFull =>
      cases h
      exact listSection_good hw hth ht
    | _ => nomatch h
  | scan next wild => exact scan_act_good hw hth ht hsafe h

end

end IClaustron.Pcntrl
