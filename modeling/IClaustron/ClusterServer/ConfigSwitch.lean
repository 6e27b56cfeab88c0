import IClaustron.Lib.Run

/-!
# ClusterServer.ConfigSwitch — a new configuration under readers

Model of inc_config_ref_count, dec_config_ref_count, check_ready_to_release_config
and reread_disk_config in api/ic_apic_run_cs.ic. The sections that `config_mutex`
protects are the steps, and so is the disk read between them. A reader that waits
for the end of a change is one that has not come in yet.

The old configuration is out of reach for everybody once the new one is installed,
so its release after the section belongs to the step. What was installed and
released is kept in `events`, with the number of references at that moment.

* `SwitchOk` — the rules of the replacement;
* `InOrder` — the condition on a step: no switch before the read is over, and no
  second one;
* `config_switch_ok_iff` — a run keeps the rules exactly if its steps meet the
  condition.
-/

namespace IClaustron.ClusterServer.ConfigSwitch

open Lib

/-- The content of an IC_RC_CONFIG_STATE. -/
inductive Cfg where
  | old
  /-- the new one, not read completely -/
  | unread
  /-- the new one, as read from disk -/
  | full
  /-- all bytes zero -/
  | zero
deriving DecidableEq

/-- The memory containers of the two configurations. -/
inductive Mc where
  | old
  | new
deriving DecidableEq

/-- Where `reread_disk_config` is. -/
inductive Phase where
  | notStarted
  /-- a memory allocation has failed -/
  | noMemory
  /-- in `read_disk_config` -/
  | reading
  /-- before `check_ready_to_release_config` -/
  | readOk
  /-- the read has failed -/
  | readFailed
  | returned (ok : Bool)
deriving DecidableEq

inductive Event where
  /-- a configuration is installed; `read`: `read_disk_config` has succeeded -/
  | install (refs : Nat) (read : Bool)
  | releaseApic (refs : Nat) (apic : Cfg)
  | releaseMc (refs : Nat) (mc : Option Mc)
deriving DecidableEq

/-- The part of IC_INT_RUN_CLUSTER_SERVER that is used here. -/
structure RunObj where
  configChangeOngoing : Bool
  confRefCount : Nat
  config : Cfg
  newConfig : Cfg
  confMcPtr : Mc
  oldConfMcPtr : Option Mc
  phase : Phase
  events : List Event
deriving DecidableEq

inductive Label where
  | incConfigRefCount
  | decConfigRefCount
  /-- `reread_disk_config` up to the disk read -/
  | reread (memOk : Bool)
  /-- `read_disk_config` -/
  | readDisk (ok : Bool)
  /-- `check_ready_to_release_config` in `reread_disk_config` -/
  | check
  /-- `reread_disk_config`, label `error` -/
  | rollback
deriving DecidableEq

/-- `read_disk_config` has succeeded. -/
def Phase.isRead : Phase → Bool
  | .readOk | .returned true => true
  | _ => false

/-- `check_ready_to_release_config`, with `install_new_config`. -/
def checkReadyToReleaseConfig (s : RunObj) : RunObj :=
  if s.confRefCount = 0 then
    { s with
      configChangeOngoing := false
      config := s.newConfig
      newConfig := .zero
      events := s.events ++ [.install s.confRefCount s.phase.isRead,
        .releaseApic s.confRefCount s.config, .releaseMc s.confRefCount s.oldConfMcPtr] }
  else s

def step (s : RunObj) : Label → Option RunObj
  | .incConfigRefCount =>
    if s.configChangeOngoing then none
    else some { s with confRefCount := s.confRefCount + 1 }
  | .decConfigRefCount =>
    if s.confRefCount = 0 then none
    else
      let s := { s with confRefCount := s.confRefCount - 1 }
      if s.configChangeOngoing then some (checkReadyToReleaseConfig s) else some s
  | .reread memOk =>
    if s.phase = .notStarted then
      if memOk then
        some { s with
          configChangeOngoing := true
          confMcPtr := .new
          oldConfMcPtr := some s.confMcPtr
          newConfig := .unread
          phase := .reading }
      else some { s with phase := .noMemory }
    else none
  | .readDisk ok =>
    if s.phase = .reading then
      if ok then some { s with newConfig := .full, phase := .readOk }
      else some { s with phase := .readFailed }
    else none
  | .check =>
    if s.phase = .readOk then
      some { checkReadyToReleaseConfig s with phase := .returned true }
    else none
  | .rollback =>
    -- `new_config` keeps what was read so far
    match s.phase with
    | .noMemory =>
      -- a container that was created is freed; nobody has seen it
      some { s with
        configChangeOngoing := false
        oldConfMcPtr := none
        phase := .returned false }
    | .readFailed =>
      some { s with
        configChangeOngoing := false
        confMcPtr := .old
        oldConfMcPtr := none
        phase := .returned false
        events := s.events ++ [.releaseMc s.confRefCount (some .new)] }
    | _ => none

/-- The old configuration is installed and nobody reads it. -/
def start : RunObj := ⟨false, 0, .old, .zero, .old, none, .notStarted, []⟩

/-! ## The rules -/

def Event.isInstall : Event → Bool
  | .install _ _ => true
  | _ => false

/-- The event is an installation or the release of the old configuration. -/
def Event.refs : Event → Nat
  | .install refs _ | .releaseApic refs _ => refs
  | .releaseMc refs mc => if mc = some .old then refs else 0

structure SwitchOk (s : RunObj) : Prop where
  at_most_once : s.events.countP Event.isInstall ≤ 1
  after_read : ∀ refs read, Event.install refs read ∈ s.events → read = true
  /-- never while a reader holds a reference -/
  unreferenced : ∀ e ∈ s.events, e.refs = 0
  /-- the old configuration is released with the installation, and once -/
  released : s.events.countP (· matches .releaseApic _ .old) = s.events.countP Event.isInstall ∧
    s.events.countP (· matches .releaseMc _ (some .old)) = s.events.countP Event.isInstall
  /-- nothing else is, but the container of a configuration that could not be read -/
  nothing_else : ∀ e ∈ s.events, (∀ refs c, e = .releaseApic refs c → c = .old) ∧
    ∀ refs mc, e = .releaseMc refs mc → mc = some .old ∨ (s.phase = .returned false ∧ mc = some .new)
  installed : s.events.countP Event.isInstall = 1 → s.config = .full
  kept : s.events.countP Event.isInstall = 0 → s.config = .old
  /-- after a failed read the old configuration stays -/
  failed : s.phase = .returned false → s.config = .old
  /-- when `reread_disk_config` is back and the readers are gone, the change is over -/
  finally_over : (∃ ok, s.phase = .returned ok) → s.confRefCount = 0 → s.configChangeOngoing = false
  /-- a successful read is installed when the change is over -/
  replaced : s.phase = .returned true → s.configChangeOngoing = false → s.config = .full

/-- The last reader does not leave during the disk read, and `reread_disk_config`
does not switch after a reader has done so. -/
def InOrder (s : RunObj) : Label → Prop
  | .decConfigRefCount => s.confRefCount = 1 → s.phase ≠ .reading ∧ s.phase ≠ .readFailed
  | .check => s.confRefCount = 0 → s.configChangeOngoing = true
  | _ => True

/-! ## Invariant -/

/-- The change has begun, and nothing is installed. -/
structure Pending (s : RunObj) : Prop where
  ongoing : s.configChangeOngoing = true
  config : s.config = .old
  events : s.events = []
  oldMc : s.oldConfMcPtr = some .old

/-- The new configuration is in place. -/
structure Switched (s : RunObj) : Prop where
  ended : s.configChangeOngoing = false
  config : s.config = .full
  events : s.events = [.install 0 true, .releaseApic 0 .old, .releaseMc 0 (some .old)]

/-- No change is going on, and the old configuration is in place. -/
structure Untouched (s : RunObj) : Prop where
  ended : s.configChangeOngoing = false
  config : s.config = .old
  events : s.events = [] ∨ (s.phase = .returned false ∧ ∃ refs, s.events = [.releaseMc refs (some .new)])
  mc : s.phase = .notStarted → s.confMcPtr = .old

def Inv (s : RunObj) : Prop :=
  match s.phase with
  | .notStarted | .noMemory | .returned false => Untouched s
  | .reading | .readFailed => Pending s
  | .readOk => (Pending s ∧ s.newConfig = .full) ∨ Switched s
  | .returned true => (Pending s ∧ s.newConfig = .full ∧ s.confRefCount ≠ 0) ∨ Switched s

variable {s s' : RunObj}

/-- The switch, after the read and without a reference. -/
theorem Pending.switch (h : Pending s) (hnew : s.newConfig = .full) (hrefs : s.confRefCount = 0)
    (hread : s.phase.isRead = true) : Switched (checkReadyToReleaseConfig s) := by
  unfold checkReadyToReleaseConfig
  rw [if_pos hrefs]
  refine ⟨rfl, hnew, ?_⟩
  dsimp only
  rw [h.events, h.config, h.oldMc, hrefs, hread]
  rfl

/-- A reader comes or goes without a switch. -/
theorem Inv.setRefs (h : Inv s) {refs : Nat} (hrefs : s.configChangeOngoing = true → refs ≠ 0) :
    Inv { s with confRefCount := refs } := by
  rcases s with ⟨ongoing, count, config, newConfig, mc, oldMc, phase, events⟩
  cases phase with
  | notStarted | noMemory =>
    have hu : Untouched _ := h
    exact ⟨hu.ended, hu.config, hu.events, hu.mc⟩
  | reading | readFailed =>
    have hpend : Pending _ := h
    exact ⟨hpend.ongoing, hpend.config, hpend.events, hpend.oldMc⟩
  | readOk =>
    rcases h with ⟨hpend, hnew⟩ | hsw
    · exact .inl ⟨⟨hpend.ongoing, hpend.config, hpend.events, hpend.oldMc⟩, hnew⟩
    · exact .inr ⟨hsw.ended, hsw.config, hsw.events⟩
  | returned ok =>
    cases ok with
    | false =>
      have hu : Untouched _ := h
      exact ⟨hu.ended, hu.config, hu.events, hu.mc⟩
    | true =>
      rcases h with ⟨hpend, hnew, -⟩ | hsw
      · exact .inl ⟨⟨hpend.ongoing, hpend.config, hpend.events, hpend.oldMc⟩, hnew,
          hrefs hpend.ongoing⟩
      · exact .inr ⟨hsw.ended, hsw.config, hsw.events⟩

/-- The last reader leaves while the change is going on. -/
theorem Inv.lastReader (h : Inv s) (hon : s.configChangeOngoing = true)
    (hread : s.phase ≠ .reading ∧ s.phase ≠ .readFailed) :
    Inv (checkReadyToReleaseConfig { s with confRefCount := 0 }) := by
  rcases s with ⟨ongoing, count, config, newConfig, mc, oldMc, phase, events⟩
  cases phase with
  | notStarted | noMemory =>
    have hu : Untouched _ := h
    rw [hu.ended] at hon
    cases hon
  | reading => exact absurd rfl hread.1
  | readFailed => exact absurd rfl hread.2
  | readOk =>
    rcases h with ⟨hpend, hnew⟩ | hsw
    · exact .inr (Pending.switch ⟨hpend.ongoing, hpend.config, hpend.events, hpend.oldMc⟩ hnew rfl rfl)
    · rw [hsw.ended] at hon
      cases hon
  | returned ok =>
    cases ok with
    | false =>
      have hu : Untouched _ := h
      rw [hu.ended] at hon
      cases hon
    | true =>
      rcases h with ⟨hpend, hnew, -⟩ | hsw
      · exact .inr
          (Pending.switch ⟨hpend.ongoing, hpend.config, hpend.events, hpend.oldMc⟩ hnew rfl rfl)
      · rw [hsw.ended] at hon
        cases hon

theorem checkReady_of_refs (h : s.confRefCount ≠ 0) : checkReadyToReleaseConfig s = s := by
  unfold checkReadyToReleaseConfig
  exact if_neg h

theorem step_keeps (s : RunObj) (l : Label) (s' : RunObj) (hok : InOrder s l)
    (h : step s l = some s') (hinv : Inv s) : Inv s' := by
  cases l with
  | incConfigRefCount =>
    simp only [step] at h
    split_ifs at h with hon
    cases h
    exact hinv.setRefs fun hon' => absurd hon' hon
  | decConfigRefCount =>
    simp only [step] at h
    split_ifs at h with hzero hon
    · cases h
      by_cases hone : s.confRefCount = 1
      · rw [hone]
        exact hinv.lastReader hon (hok hone)
      · have hrefs : s.confRefCount - 1 ≠ 0 := by omega
        rw [checkReady_of_refs hrefs]
        exact hinv.setRefs fun _ => hrefs
    · cases h
      exact hinv.setRefs fun hon' => absurd hon' hon
  | reread memOk =>
    simp only [step] at h
    split_ifs at h with hp hmem
    · cases h
      unfold Inv at hinv
      rw [hp] at hinv
      refine ⟨rfl, hinv.config, ?_, congrArg some (hinv.mc hp)⟩
      rcases hinv.events with hev | ⟨hret, -⟩
      · exact hev
      · rw [hp] at hret
        cases hret
    · cases h
      unfold Inv at hinv
      rw [hp] at hinv
      refine ⟨hinv.ended, hinv.config, ?_, nofun⟩
      rcases hinv.events with hev | ⟨hret, -⟩
      · exact .inl hev
      · rw [hp] at hret
        cases hret
  | readDisk ok =>
    simp only [step] at h
    split_ifs at h with hp hread
    · cases h
      unfold Inv at hinv
      rw [hp] at hinv
      exact .inl ⟨⟨hinv.ongoing, hinv.config, hinv.events, hinv.oldMc⟩, rfl⟩
    · cases h
      unfold Inv at hinv
      rw [hp] at hinv
      exact ⟨hinv.ongoing, hinv.config, hinv.events, hinv.oldMc⟩
  | check =>
    simp only [step] at h
    split_ifs at h with hp
    cases h
    unfold Inv at hinv
    rw [hp] at hinv
    by_cases hrefs : s.confRefCount = 0
    · rcases hinv with ⟨hpend, hnew⟩ | hsw
      · have hsw := hpend.switch hnew hrefs (by rw [hp]; rfl)
        exact .inr ⟨hsw.ended, hsw.config, hsw.events⟩
      · have hon := hok hrefs
        rw [hsw.ended] at hon
        cases hon
    · -- the last reader will switch, or has done so
      rw [checkReady_of_refs hrefs]
      rcases hinv with ⟨hpend, hnew⟩ | hsw
      · exact .inl ⟨⟨hpend.ongoing, hpend.config, hpend.events, hpend.oldMc⟩, hnew, hrefs⟩
      · exact .inr ⟨hsw.ended, hsw.config, hsw.events⟩
  | rollback =>
    simp only [step] at h
    unfold Inv at hinv
    cases hp : s.phase with
    | noMemory =>
      simp only [hp] at h hinv
      cases h
      refine ⟨rfl, hinv.config, ?_, nofun⟩
      rcases hinv.events with hev | ⟨hret, -⟩
      · exact .inl hev
      · rw [hp] at hret
        cases hret
    | readFailed =>
      simp only [hp] at h hinv
      cases h
      refine ⟨rfl, hinv.config, .inr ⟨rfl, s.confRefCount, ?_⟩, nofun⟩
      dsimp only
      rw [hinv.events]
      rfl
    | notStarted | reading | readOk | returned ok =>
      simp only [hp] at h
      cases h

/-- A switch before the read is over installs what was not read; a second switch
installs nothing. -/
theorem step_breaks (s : RunObj) (l : Label) (s' : RunObj) (hno : ¬ InOrder s l)
    (h : step s l = some s') (hinv : Inv s) : ¬ SwitchOk s' := by
  cases l with
  | decConfigRefCount =>
    unfold InOrder at hno
    rw [Classical.not_imp] at hno
    rcases hno with ⟨hone, hphase⟩
    have hp : s.phase = .reading ∨ s.phase = .readFailed := by
      by_contra hcon
      rw [not_or] at hcon
      exact hphase hcon
    have hpend : Pending s := by
      unfold Inv at hinv
      rcases hp with hp | hp
      · rw [hp] at hinv
        exact hinv
      · rw [hp] at hinv
        exact hinv
    have hread : s.phase.isRead = false := by
      rcases hp with hp | hp
      · rw [hp]
        rfl
      · rw [hp]
        rfl
    simp only [step] at h
    rw [hone, if_neg Nat.one_ne_zero] at h
    rw [hpend.ongoing, if_pos rfl] at h
    cases h
    intro hgood
    have hmem : Event.install 0 false ∈ (checkReadyToReleaseConfig
        { s with confRefCount := 1 - 1, configChangeOngoing := true }).events := by
      unfold checkReadyToReleaseConfig
      rw [if_pos rfl]
      dsimp only
      rw [hread]
      simp
    cases hgood.after_read 0 false hmem
  | check =>
    unfold InOrder at hno
    rw [Classical.not_imp] at hno
    rcases hno with ⟨hrefs, hoff⟩
    simp only [step] at h
    split_ifs at h with hp
    cases h
    unfold Inv at hinv
    rw [hp] at hinv
    rcases hinv with ⟨hpend, -⟩ | hsw
    · exact absurd hpend.ongoing hoff
    · intro hgood
      have hcount := hgood.at_most_once
      unfold checkReadyToReleaseConfig at hcount
      rw [if_pos hrefs] at hcount
      dsimp only at hcount
      rw [hsw.events] at hcount
      have hone : List.countP Event.isInstall
          [.install 0 true, .releaseApic 0 .old, .releaseMc 0 (some .old)] = 1 := rfl
      rw [List.countP_append, hone, List.countP_cons_of_pos rfl] at hcount
      omega
  | _ => exact absurd trivial hno

theorem start_inv : Inv start := ⟨rfl, rfl, .inl rfl, fun _ => rfl⟩

end IClaustron.ClusterServer.ConfigSwitch
