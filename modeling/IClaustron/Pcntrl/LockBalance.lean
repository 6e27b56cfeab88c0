import IClaustron.DynArray.Slots
import IClaustron.Lib.Result
import IClaustron.Pcntrl.Commands

/-!
# Pcntrl.LockBalance — use of `pc_hash_mutex`

A command, or a round of the check thread, runs as one thread against whatever
table it finds: other threads change the table between its sections, so each
step of the thread comes with a table of its own.

Every program point lies outside the sections. So the mutex is used correctly if
the thread is without it at each point it reaches, and no call on the way was
made in the wrong state. Two functions leave a section with a `goto error` that
skips the unlock; `Leaks` says when, and `locks_balanced_iff` that nothing else
goes wrong.
-/

namespace IClaustron.Pcntrl

open Lib DynArray Result

/-- Entry `i` of the pointer array stops the loop of `handle_list`: it cannot be
read, or its copy fails. -/
def BadEntry (w : World) (find : PcFind) (copyOk : Nat → Bool) (i : Nat) : Prop :=
  ∃ ret p, getPtr w.array i = some (ret, p) ∧
    (ret ≠ 0 ∨
      (p ≠ 0 ∧ copyOk i = false ∧ ∃ c, w.pcs.cells p = some c ∧ isListMatch c find = true))

/-- The step leaves its section with the mutex: `delete_process` finds an entry
that another thread is killing, `handle_list` meets a bad entry. -/
def Leaks (w : World) : Pc → Act → Prop
  | .deleting key _ _, _ =>
    ∃ f c, hashSearch w key = some f ∧ w.pcs.cells f = some c ∧
      c.pid ≠ 0 ∧ c.checkOngoing = false ∧ c.killOngoing = true
  | .listing find _, .list copyOk => ∃ i, i < getMaxIndex w.array ∧ BadEntry w find copyOk i
  | _, _ => False

/-- A thread with its view of the mutex. -/
structure Caller where
  pc : Pc
  lock : LockState
deriving DecidableEq

/-- One step of the thread on the table it finds. -/
def callerStep (s : Caller) (l : World × Act) : Option Caller :=
  match localStep l.1 s.pc l.2 with
  | some (.ok out) => some ⟨out.pc, s.lock.run out.locks⟩
  | _ => none

/-! ## The loop of `handle_list` -/

theorem listEntries_error_iff (w : World) (find : PcFind) (copyOk : Nat → Bool) (n index : Nat)
    {r : Except Nat (List PcStart)} (h : listEntries w find copyOk n index = .ok r) :
    (∃ e, r = .error e) ↔ ∃ i, index ≤ i ∧ i < index + n ∧ BadEntry w find copyOk i := by
  induction n generalizing index r with
  | zero =>
    cases h
    constructor
    · rintro ⟨e, he⟩
      cases he
    · rintro ⟨i, hle, hlt, -⟩
      omega
  | succ n ih =>
    -- entry `index` is not bad, so the rest decides
    have hskip : ¬ BadEntry w find copyOk index →
        ((∃ i, index + 1 ≤ i ∧ i < index + 1 + n ∧ BadEntry w find copyOk i) ↔
          ∃ i, index ≤ i ∧ i < index + (n + 1) ∧ BadEntry w find copyOk i) := by
      intro hgood
      constructor
      · rintro ⟨i, hle, hlt, hbad⟩
        exact ⟨i, by omega, by omega, hbad⟩
      · rintro ⟨i, hle, hlt, hbad⟩
        rcases Nat.eq_or_lt_of_le hle with rfl | hlt'
        · exact absurd hbad hgood
        · exact ⟨i, hlt', by omega, hbad⟩
    have hhere : BadEntry w find copyOk index →
        ∃ i, index ≤ i ∧ i < index + (n + 1) ∧ BadEntry w find copyOk i :=
      fun hbad => ⟨index, le_rfl, by omega, hbad⟩
    unfold listEntries at h
    split at h
    · cases h
    · rename_i ret p hget
      by_cases hret : ret ≠ 0
      · -- the entry cannot be read
        rw [if_pos hret] at h
        cases h
        exact ⟨fun _ => hhere ⟨ret, p, hget, .inl hret⟩, fun _ => ⟨ret, rfl⟩⟩
      rw [if_neg hret] at h
      by_cases hp : p = 0
      · -- the list head
        rw [if_pos hp] at h
        have hgood : ¬ BadEntry w find copyOk index := by
          rintro ⟨ret', p', hget', hbad⟩
          rw [hget] at hget'
          cases hget'
          rcases hbad with hbad | ⟨hbad, -⟩
          · exact hret hbad
          · exact hbad hp
        rw [ih _ h, hskip hgood]
      · rw [if_neg hp] at h
        obtain ⟨c, hc, h⟩ := bind_eq_ok.mp h
        rw [follow_eq_ok] at hc
        have hgood : (isListMatch c find = true → copyOk index = true) →
            ¬ BadEntry w find copyOk index := by
          rintro hok ⟨ret', p', hget', hbad⟩
          rw [hget] at hget'
          cases hget'
          rcases hbad with hbad | ⟨-, hno, c', hc', hmatch⟩
          · exact hret hbad
          · rw [hc] at hc'
            cases hc'
            rw [hok hmatch] at hno
            cases hno
        split_ifs at h with hmatch hcopy
        · -- copied
          obtain ⟨rest, hrest, hr⟩ := bind_eq_ok.mp h
          cases hr
          rw [← hskip (hgood fun _ => hcopy), ← ih _ hrest]
          cases rest with
          | error e => simp [Except.map]
          | ok l => simp [Except.map]
        · -- the copy fails
          cases h
          refine ⟨fun _ => hhere ⟨ret, p, hget, .inr ⟨hp, ?_, c, hc, hmatch⟩⟩, fun _ => ⟨_, rfl⟩⟩
          simpa using hcopy
        · rw [ih _ h, hskip (hgood fun hm => absurd hm hmatch)]

variable {w : World} {out : Out}

theorem listSection_locks {find : PcFind} {copyOk : Nat → Bool}
    (h : listSection w find copyOk = .ok out) :
    (out.locks = [.lock, .unlock] ∧ ¬ ∃ i, i < getMaxIndex w.array ∧ BadEntry w find copyOk i) ∨
      (out.locks = [.lock] ∧ ∃ i, i < getMaxIndex w.array ∧ BadEntry w find copyOk i) := by
  obtain ⟨r, hr, h⟩ := bind_eq_ok.mp h
  have hbad := listEntries_error_iff w find copyOk _ _ hr
  simp only [Nat.zero_le, true_and, Nat.zero_add] at hbad
  rw [← hbad]
  cases r with
  | error e =>
    cases h
    exact .inr ⟨rfl, e, rfl⟩
  | ok l =>
    cases h
    refine .inl ⟨rfl, ?_⟩
    rintro ⟨e, he⟩
    cases he

/-! ## The sections -/

/-- A section, or a step without the mutex. -/
def Closed (locks : List LockOp) : Prop := locks = [] ∨ locks = [.lock, .unlock]

theorem closed_goto (w : World) (pc : Pc) : Closed (Out.goto w pc).locks := .inl rfl

theorem closed_section (w : World) (pc : Pc) : Closed (Out.section w pc).locks := .inr rfl

theorem insertProcess_closed {p : Ptr} {d : Bool} {prev retry : Nat} {failAt : Option Nat}
    {hash : HashInsert} (h : insertProcess w p d prev retry failAt hash = .ok out) :
    Closed out.locks := by
  unfold insertProcess at h
  obtain ⟨c, -, h⟩ := bind_eq_ok.mp h
  split at h
  · obtain ⟨r, -, h⟩ := bind_eq_ok.mp h
    cases h
    apply closed_section
  · obtain ⟨found, -, h⟩ := bind_eq_ok.mp h
    split_ifs at h
    · cases h
      apply closed_section
    · cases h
      apply closed_section
    · cases h
      apply closed_section
    · obtain ⟨w₁, -, h⟩ := bind_eq_ok.mp h
      obtain ⟨r, -, h⟩ := bind_eq_ok.mp h
      cases h
      apply closed_section
    · cases h
      apply closed_section

theorem startProcess_closed {p : Ptr} {l : Launch} {behind : Nat → Str}
    (h : startProcess w p l behind = .ok out) : Closed out.locks := by
  unfold startProcess at h
  obtain ⟨c, -, h⟩ := bind_eq_ok.mp h
  cases l <;> cases h <;> apply closed_goto

theorem removeKilled_closed {key : Key} {pid startId : Nat}
    (h : removeKilled w key pid startId = .ok out) : Closed out.locks := by
  unfold removeKilled at h
  split at h
  · cases h
  · obtain ⟨c, -, h⟩ := bind_eq_ok.mp h
    split_ifs at h
    obtain ⟨w₁, -, h⟩ := bind_eq_ok.mp h
    cases h
    apply closed_section

theorem scan_closed {t : Nat} {f next : Option Ptr} (h : scan w t f next = .ok out) :
    Closed out.locks := by
  unfold scan at h
  obtain ⟨w₁, -, h⟩ := bind_eq_ok.mp h
  split at h
  · cases h
    apply closed_section
  · obtain ⟨c, -, h⟩ := bind_eq_ok.mp h
    cases h
    apply closed_section

/-- `delete_process` keeps the mutex exactly when the entry is being killed. -/
theorem deleteProcess_locks {key : Key} {killFlag : Bool} {loopCount : Nat}
    (h : deleteProcess w key killFlag loopCount = .ok out) (a : Act) :
    (Closed out.locks ∧ ¬ Leaks w (.deleting key killFlag loopCount) a) ∨
      (out.locks = [.lock] ∧ Leaks w (.deleting key killFlag loopCount) a) := by
  unfold deleteProcess at h
  split at h
  · rename_i hnone
    cases h
    refine .inl ⟨closed_section _ _, ?_⟩
    rintro ⟨f, c, hsome, -⟩
    rw [hnone] at hsome
    cases hsome
  · rename_i f hsome
    obtain ⟨c, hc, h⟩ := bind_eq_ok.mp h
    rw [follow_eq_ok] at hc
    have hleak : Leaks w (.deleting key killFlag loopCount) a ↔
        c.pid ≠ 0 ∧ c.checkOngoing = false ∧ c.killOngoing = true := by
      constructor
      · rintro ⟨f', c', hf', hc', hcond⟩
        rw [hsome] at hf'
        cases hf'
        rw [hc] at hc'
        cases hc'
        exact hcond
      · exact fun hcond => ⟨f, c, hsome, hc, hcond⟩
    rw [hleak]
    split_ifs at h with hbusy hloop hkill
    · cases h
      refine .inl ⟨closed_section _ _, ?_⟩
      rintro ⟨hpid, hcheck, -⟩
      rcases hbusy with hbusy | hbusy
      · exact hpid hbusy
      · rw [hcheck] at hbusy
        cases hbusy
    · cases h
      refine .inl ⟨closed_section _ _, ?_⟩
      rintro ⟨hpid, hcheck, -⟩
      rcases hbusy with hbusy | hbusy
      · exact hpid hbusy
      · rw [hcheck] at hbusy
        cases hbusy
    · -- someone else is killing the process
      cases h
      rw [not_or, Bool.not_eq_true] at hbusy
      exact .inr ⟨rfl, hbusy.1, hbusy.2, hkill⟩
    · cases h
      exact .inl ⟨closed_section _ _, fun hcond => hkill hcond.2.2⟩

theorem release_goto_closed {f : Ptr} {pc : Pc}
    (h : (do let w ← release w f; pure (Out.goto w pc) : Except Stop Out) = .ok out) :
    Closed out.locks := by
  obtain ⟨w₁, -, h⟩ := bind_eq_ok.mp h
  cases h
  apply closed_goto

theorem remove_section_closed {f : Ptr} {pc : Pc}
    (h : (do let w ← removePcEntry w f; pure (Out.section w pc) : Except Stop Out) = .ok out) :
    Closed out.locks := by
  obtain ⟨w₁, -, h⟩ := bind_eq_ok.mp h
  cases h
  apply closed_section

/-- What a step does to the mutex. -/
theorem localStep_locks {pc : Pc} {a : Act} (h : localStep w pc a = some (.ok out)) :
    (Closed out.locks ∧ ¬ Leaks w pc a) ∨ (out.locks = [.lock] ∧ Leaks w pc a) := by
  cases pc with
  | deleting key killFlag loopCount =>
    cases a with
    | deleteProcess => exact deleteProcess_locks (Option.some.inj h) _
    | _ => nomatch h
  | listing find listFull =>
    cases a with
    | list copyOk =>
      rcases listSection_locks (Option.some.inj h) with ⟨hl, hno⟩ | hl
      · exact .inl ⟨.inr hl, hno⟩
      · exact .inr hl
    | _ => nomatch h
  | received p =>
    cases a with
    | prepare ret d => cases d <;> cases h <;> exact .inl ⟨closed_goto _ _, id⟩
    | _ => nomatch h
  | inserting p d prev retry =>
    cases a with
    | insertProcess failAt hash =>
      rw [localStep_insertProcess] at h
      split_ifs at h
      exact .inl ⟨insertProcess_closed (Option.some.inj h), id⟩
    | _ => nomatch h
  | foundOld p d pid prev retry | booked p d | daemonFiles p | verifying p pid
  | killing key killFlag f pid startId | retryKillCheck key f pid startId loopCount
  | checking t f =>
    cases a <;> cases h
    exact .inl ⟨closed_goto _ _, id⟩
  | replaced p d f ret | startError p ret | killRemoved f | checkRemoved t f =>
    cases a with
    | free => exact .inl ⟨release_goto_closed (Option.some.inj h), id⟩
    | _ => nomatch h
  | lateError p ret | checkFailed t f =>
    cases a with
    | removeEntry => exact .inl ⟨remove_section_closed (Option.some.inj h), id⟩
    | _ => nomatch h
  | launching p =>
    cases a with
    | startProcess l behind => exact .inl ⟨startProcess_closed (Option.some.inj h), id⟩
    | _ => nomatch h
  | publishing p pid =>
    cases a with
    | publish =>
      obtain ⟨c, -, h⟩ := bind_eq_ok.mp (Option.some.inj h)
      cases h
      exact .inl ⟨closed_section _ _, id⟩
    | _ => nomatch h
  | killed key f pid startId =>
    cases a with
    | removeKilled => exact .inl ⟨removeKilled_closed (Option.some.inj h), id⟩
    | _ => nomatch h
  | killError f ret =>
    cases a with
    | clearKill =>
      obtain ⟨c, -, h⟩ := bind_eq_ok.mp (Option.some.inj h)
      cases h
      exact .inl ⟨closed_section _ _, id⟩
    | _ => nomatch h
  | scanning t f =>
    cases a with
    | scan next wild =>
      rcases wild with _ | _
      · cases next with
        | none => exact .inl ⟨scan_closed (Option.some.inj h), id⟩
        | some g =>
          rw [localStep_scan] at h
          split_ifs at h
          exact .inl ⟨scan_closed (Option.some.inj h), id⟩
      · nomatch h
    | _ => nomatch h
  | returned ret => cases a <;> nomatch h

/-! ## Whole calls -/

theorem run_closed {locks : List LockOp} (h : Closed locks) :
    LockState.free.run locks = .free := by
  rcases h with rfl | rfl
  · rfl
  · rfl

theorem callerStep_eq_some {s s' : Caller} {l : World × Act} (h : callerStep s l = some s') :
    ∃ out, localStep l.1 s.pc l.2 = some (.ok out) ∧ s' = ⟨out.pc, s.lock.run out.locks⟩ := by
  unfold callerStep at h
  split at h
  · rename_i out hout
    exact ⟨out, hout, (Option.some.inj h).symm⟩
  · cases h

/-- In every run of a command, or of rounds of the check thread, on any tables and
with any outcomes: the thread is without the mutex at every point, and has made
no wrong call, exactly if `delete_process` never finds an entry that is being
killed and `handle_list` no entry that it cannot read or copy. -/
theorem locks_balanced_iff (pc : Pc) (steps : List (World × Act)) :
    Run.Always callerStep (fun s => s.lock = .free) ⟨pc, .free⟩ steps ↔
      Run.Along callerStep (fun s l => ¬ Leaks l.1 s.pc l.2) ⟨pc, .free⟩ steps := by
  apply Run.always_iff_along callerStep _ (fun s => s.lock = .free) _ (fun _ h => h)
  · intro s l s' hok hstep hfree
    obtain ⟨out, hout, rfl⟩ := callerStep_eq_some hstep
    rcases localStep_locks hout with ⟨hclosed, -⟩ | ⟨-, hleak⟩
    · change s.lock.run out.locks = .free
      rw [hfree]
      exact run_closed hclosed
    · exact absurd hleak hok
  · intro s l s' hbad hstep hfree
    obtain ⟨out, hout, rfl⟩ := callerStep_eq_some hstep
    rcases localStep_locks hout with ⟨-, hno⟩ | ⟨hlock, -⟩
    · exact absurd hno hbad
    · change ¬ s.lock.run out.locks = .free
      rw [hfree, hlock]
      decide
  · rfl

/-- A stop command for a process that another stop command is killing: the table
holds the process as its only entry. -/
theorem delete_process_keeps_mutex :
    let key : Key := ⟨[103], [99], [110]⟩
    let entry : PcStart := ⟨key, [105, 99], [49], [], false, 4711, 1, 1, 0, false, true⟩
    ∃ a, (createPtrArray (fun _ => true) Heap.empty).bind
        (fun a => (insertPtr (fun _ => true) a 1).map Prod.fst) = some a ∧
      ¬ Run.Always callerStep (fun s => s.lock = .free) ⟨.deleting key false 0, .free⟩
        [(⟨Heap.set ⟨fun _ => none, 2⟩ 1 entry, [(key, 1)], a, 2, []⟩, .deleteProcess)] := by
  intro key entry
  obtain ⟨a₀, ha₀, h₀⟩ := createPtrArray_spec
  obtain ⟨a, i, ha⟩ := h₀.ok.insert_returns 1
  refine ⟨a, ?_, fun hall => ?_⟩
  · rw [ha₀]
    exact congrArg (Option.map Prod.fst) ha
  · have hend := hall _ ⟨.returned errorProcessAlreadyBeingKilled, .held⟩ (List.prefix_refl _) rfl
    cases hend

end IClaustron.Pcntrl
