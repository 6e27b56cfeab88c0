import IClaustron.Lib.Assoc
import IClaustron.Lib.Run
import Mathlib.Data.List.Range
import Mathlib.Logic.Function.Basic

/-!
# ClusterManager.Sessions — the sessions of the cluster manager's clients

Model of cluster_mgr/ic_clmgr.c: `run_handle_new_connection` and the table that keeps a session
between two connections of a client.

* `step_keeps`, `step_breaks` — a step keeps the table and the sessions right exactly if no session
  is freed on the error path and none is found that a handler has.
* `session_table_iff` — the same for whole runs.

Scope limits: a command is what it does to `exit_flag`. The process goes on after neither a failed
`ic_require` nor the use of freed memory, so these are no steps.
-/

namespace IClaustron.ClusterManager.Sessions

open Lib Lib.Assoc List Option Function

/-! ## Model -/

/-- IC_MAX_UINT32. -/
def maxUint32 : Nat := 2 ^ 32 - 1

/-- PARSE_BUF_SIZE. -/
def parseBufSize : Nat := 256 * 1024

/-- IC_PARSE_DATA, without what only commands use. `mcPtr` is in `lex_data`. -/
structure ParseData where
  connectCode : UInt64
  mcPtr : Option Nat
  apic : Option Nat
  conn : Option Nat
  currentClusterId : Nat

/-- Where a handler is, with the pointers it will still use. -/
inductive Pc where
  /-- nothing has been received -/
  | start
  /-- `allocate_parse_connection` has succeeded -/
  | allocated (p : Nat)
  /-- the connect code is to be sent -/
  | sendConnected (p mc : Nat)
  /-- `find_parse_connection` has left the mutex -/
  | checkCode (p : Nat) (code : UInt64)
  | sendOk (p : Nat)
  /-- "ok" has been sent on a reconnect -/
  | takeOver (p : Nat)
  | allocBuf (p : Nat) (mc : Option Nat)
  | receive (p : Nat) (mc : Option Nat) (parseInx : Nat)
  /-- the normal path -/
  | keep (p : Nat) (mc : Option Nat)
  | release (p : Nat)
  /-- the label `exit` -/
  | exit (p : Nat) (mc : Option Nat)
  | exitFreeMc (p : Nat) (mc : Option Nat)
  | exitFree (p : Nat)
  /-- the label `error` -/
  | error (p mc : Option Nat)
  | errorFreeMc (mc : Option Nat)

/-- The session that a handler uses. -/
def Pc.session : Pc → Option Nat
  | .start | .errorFreeMc _ => none
  | .error p _ => p
  | .allocated p | .sendConnected p _ | .checkCode p _ | .sendOk p | .takeOver p | .allocBuf p _
  | .receive p _ _ | .keep p _ | .release p | .exit p _ | .exitFreeMc p _ | .exitFree p => some p

/-- A handler and the `apic` of its connection. -/
structure Handler where
  pc : Pc
  apic : Nat

/-- Sessions and memory containers are known by the addresses they were allocated at. `table` is
glob_connect_hash, an entry's key is in the session itself. `issued` collects the connect codes that
were given to sessions. -/
structure World where
  table : List (UInt64 × Nat)
  numCookies : Nat
  nextConnectCode : UInt64
  sessions : Nat → Option ParseData
  nextSession : Nat
  nextContainer : Nat
  freedSessions : List Nat
  freedContainers : List Nat
  handlers : Nat → Option Handler
  issued : List UInt64

/-- `initialise_connect_hash`. -/
def start : World where
  table := []
  numCookies := 0
  nextConnectCode := 1
  sessions := fun _ => none
  nextSession := 0
  nextContainer := 0
  freedSessions := []
  freedContainers := []
  handlers := fun _ => none
  issued := []

/-- A handler goes on, or ends. -/
def World.setHandler (w : World) (t : Nat) (handler : Option Handler) : World :=
  { w with handlers := update w.handlers t handler }

/-- A session is written. -/
def World.setSession (w : World) (p : Nat) (s : ParseData) : World :=
  { w with sessions := update w.sessions p (some s) }

/-- `ic_free` of a session. -/
def World.freeSession (w : World) (p : Nat) : World :=
  { w with
    sessions := update w.sessions p none
    freedSessions := p :: w.freedSessions }

/-- `ic_mc_free`. -/
def World.freeContainer (w : World) (mc : Nat) : World :=
  { w with freedContainers := mc :: w.freedContainers }

/-- `allocate_parse_connection`. When the insert fails the session is freed again, but it is
counted. -/
def allocateParseConnection (w : World) (memory insert : Bool) : Option Nat × World :=
  if !memory then (none, w)
  else
    let p := w.nextSession
    let code := w.nextConnectCode
    let w := { w with
      nextSession := p + 1
      nextConnectCode := code + 1
      issued := w.issued ++ [code]
      numCookies := w.numCookies + 1 }
    if insert then
      (some p, { w.setSession p ⟨code, none, none, none, 0⟩ with table := (code, p) :: w.table })
    else (none, w.freeSession p)

/-- `remove_parse_connection`. -/
def removeParseConnection (w : World) (p : Nat) : Option World := do
  let s ← w.sessions p
  if search w.table s.connectCode = some p then
    some { w with
      table := remove w.table s.connectCode
      numCookies := w.numCookies - 1 }
  else none

/-! ## Runs -/

inductive Op where
  /-- a connection is accepted and its handler starts -/
  | accept (t apic : Nat)
  /-- a new client; there is memory for the session, and for the entry -/
  | newConnection (t : Nat) (memory insert : Bool)
  /-- a client comes back with this connect code -/
  | reconnect (t : Nat) (code : UInt64)
  /-- a line is received; when it ends a command, whether `exit_flag` is set after it -/
  | line (t readSize : Nat) (exitFlag : Bool)
  /-- the connection is dropped, or there is no memory -/
  | fail (t : Nat)
  /-- any other step of the handler -/
  | proceed (t : Nat)

/-- The handler goes to `error`. -/
def failPc : Pc → Option Pc
  | .start => some (.error none none)
  | .allocated p => some (.error (some p) none)
  | .sendConnected p mc => some (.error (some p) (some mc))
  | .sendOk p => some (.error (some p) none)
  | .allocBuf p mc => some (.error (some p) mc)
  | .receive p mc _ => some (.error (some p) mc)
  | _ => none

/-- The body of the loop. -/
def linePc (p : Nat) (mc : Option Nat) (parseInx readSize : Nat) (exitFlag : Bool) : Pc :=
  if readSize = 0 then
    -- no command to execute, or one command is executed
    if parseInx = 0 then .keep p mc else if exitFlag then .exit p mc else .keep p mc
  else if parseInx + readSize < parseBufSize then .receive p mc (parseInx + readSize)
  else .error (some p) mc

/-- A step without a choice. -/
def proceed (w : World) (t : Nat) (h : Handler) : Option World :=
  let goto (pc : Pc) (w : World) := w.setHandler t (some { h with pc })
  match h.pc with
  | .start | .receive _ _ _ => none
  | .allocated p => do
    let s ← w.sessions p
    let mc := w.nextContainer
    some (goto (.sendConnected p mc) ({ w with nextContainer := mc + 1 }.setSession p
      { s with
        mcPtr := some mc
        apic := some h.apic
        conn := some t
        currentClusterId := maxUint32 }))
  | .sendConnected p mc => some (goto (.allocBuf p (some mc)) w)
  | .checkCode p code => do
    let s ← w.sessions p
    if s.connectCode = code then some (goto (.sendOk p) w) else none
  | .sendOk p => some (goto (.takeOver p) w)
  | .takeOver p => do
    let s ← w.sessions p
    let w := w.setSession p { s with conn := some t }
    if s.apic = some h.apic then some (goto (.allocBuf p s.mcPtr) w)
    else some (goto (.error (some p) s.mcPtr) w)
  | .allocBuf p mc => some (goto (.receive p mc 0) w)
  | .keep p mc => do
    let mc ← mc
    if mc ∈ w.freedContainers then none else some (goto (.release p) w)
  | .release p => do
    let s ← w.sessions p
    some ((w.setSession p { s with conn := none }).setHandler t none)
  | .exit p mc => do
    let w ← removeParseConnection w p
    some (goto (.exitFreeMc p mc) w)
  | .exitFreeMc p mc => do
    let mc ← mc
    some (goto (.exitFree p) (w.freeContainer mc))
  | .exitFree p => do
    let s ← w.sessions p
    if s.connectCode = 0 then none else some ((w.freeSession p).setHandler t none)
  | .error p mc =>
    some (goto (.errorFreeMc mc) (match p with
      | some p => w.freeSession p
      | none => w))
  | .errorFreeMc mc =>
    some ((match mc with
      | some mc => w.freeContainer mc
      | none => w).setHandler t none)

def step (w : World) : Op → Option World
  | .accept t apic =>
    if (w.handlers t).isSome then none else some (w.setHandler t (some ⟨.start, apic⟩))
  | .newConnection t memory insert => do
    let h ← w.handlers t
    match h.pc with
    | .start =>
      let (p, w) := allocateParseConnection w memory insert
      some (w.setHandler t (some { h with pc := match p with
        | some p => .allocated p
        | none => .error none none }))
    | _ => none
  | .reconnect t code => do
    let h ← w.handlers t
    match h.pc with
    | .start => some (w.setHandler t (some { h with pc := match search w.table code with
      | some p => .checkCode p code
      | none => .error none none }))
    | _ => none
  | .line t readSize exitFlag => do
    let h ← w.handlers t
    match h.pc with
    | .receive p mc parseInx =>
      -- a command reads and writes the session
      if readSize = 0 ∧ parseInx ≠ 0 ∧ (w.sessions p).isNone then none
      else some (w.setHandler t (some { h with pc := linePc p mc parseInx readSize exitFlag }))
    | _ => none
  | .fail t => do
    let h ← w.handlers t
    let pc ← failPc h.pc
    some (w.setHandler t (some { h with pc }))
  | .proceed t => do
    let h ← w.handlers t
    proceed w t h

/-- The handler uses the session. -/
def Uses (w : World) (t p : Nat) : Prop := ∃ h, w.handlers t = some h ∧ h.pc.session = some p

/-- The session has the memory container. -/
def HasMc (w : World) (p mc : Nat) : Prop := ∃ s, w.sessions p = some s ∧ s.mcPtr = some mc

/-- What is said of table, sessions and memory containers. -/
structure Safe (w : World) : Prop where
  entry : ∀ {code p}, (code, p) ∈ w.table → ∃ s, w.sessions p = some s ∧ s.connectCode = code
  cookies : w.numCookies = w.table.length
  codes : w.issued.Nodup
  freedOnce : w.freedSessions.Nodup ∧ w.freedContainers.Nodup
  sessionRemoved : ∀ p ∈ w.freedSessions, ∀ code, (code, p) ∉ w.table
  containerRemoved : ∀ mc ∈ w.freedContainers, ∀ code p, HasMc w p mc → (code, p) ∉ w.table
  oneUser : ∀ {t t' p}, Uses w t p → Uses w t' p → t = t'

/-- No handler that has a session comes to free it on the error path, no reconnect finds a session
that a handler has, an entry for a session can be allocated, and the connect codes have not come to
their end. -/
def StepOk (w : World) : Op → Prop
  | .newConnection _ memory insert => memory = true → insert = true ∧ w.issued.length < 2 ^ 64
  | .reconnect _ code => ∀ p, search w.table code = some p → ∀ t, ¬Uses w t p
  | .proceed t => ∀ h p mc, w.handlers t = some h → h.pc ≠ .error (some p) mc
  | _ => True

/-! ## Invariant -/

/-- The session is in the table. -/
def Listed (w : World) (p : Nat) : Prop := ∃ code, (code, p) ∈ w.table

/-- The connect code that is given to the session with this number. -/
def codeOf (n : Nat) : UInt64 := UInt64.ofNat (n + 1)

/-- Table, sessions and memory containers. -/
structure Store (w : World) : Prop where
  keyed : Keyed w.table
  entry : ∀ {code p}, (code, p) ∈ w.table → ∃ s, w.sessions p = some s ∧ s.connectCode = code
  cookies : w.numCookies = w.table.length
  issued : w.issued = (List.range w.issued.length).map codeOf
  nextCode : w.nextConnectCode = codeOf w.issued.length
  few : w.issued.length ≤ 2 ^ 64
  listed : ∀ {code p}, (code, p) ∈ w.table → code ∈ w.issued
  session : ∀ {p s}, w.sessions p = some s → p < w.nextSession
  container : ∀ {p mc}, HasMc w p mc → mc < w.nextContainer
  apart : ∀ {p q mc}, HasMc w p mc → HasMc w q mc → p = q
  kept : ∀ {code p mc}, (code, p) ∈ w.table → HasMc w p mc → mc ∉ w.freedContainers
  freedSession : ∀ {p}, p ∈ w.freedSessions → p < w.nextSession ∧ w.sessions p = none
  freedContainer : ∀ {mc}, mc ∈ w.freedContainers → mc < w.nextContainer
  freedOnce : w.freedSessions.Nodup ∧ w.freedContainers.Nodup

/-- What a handler relies on. -/
def PcOk (w : World) : Pc → Prop
  | .start => True
  | .allocated p => Listed w p
  | .sendConnected p mc => Listed w p ∧ HasMc w p mc
  | .checkCode p code => (code, p) ∈ w.table ∧ ∃ mc, HasMc w p mc
  | .sendOk p | .takeOver p | .release p => Listed w p ∧ ∃ mc, HasMc w p mc
  | .allocBuf p mc | .receive p mc _ | .keep p mc | .exit p mc =>
    Listed w p ∧ ∃ m, mc = some m ∧ HasMc w p m
  | .exitFreeMc p mc => ¬Listed w p ∧ ∃ m, mc = some m ∧ HasMc w p m ∧ m ∉ w.freedContainers
  | .exitFree p => ¬Listed w p ∧ ∃ s, w.sessions p = some s
  | .error (some p) _ => Listed w p
  | .error none mc => mc = none
  | .errorFreeMc mc => mc = none

/-- A session that no handler has is in the table with its memory container, and no session has two
handlers. -/
structure Inv (w : World) : Prop where
  store : Store w
  idle : ∀ {p}, Listed w p → (∀ t, ¬Uses w t p) → ∃ mc, HasMc w p mc
  oneUser : ∀ {t t' p}, Uses w t p → Uses w t' p → t = t'
  handler : ∀ {t h}, w.handlers t = some h → PcOk w h.pc

theorem codeOf_inj {m n : Nat} (hm : m < 2 ^ 64) (hn : n < 2 ^ 64) (h : codeOf m = codeOf n) :
    m = n := by
  have hMod : (m + 1) % 2 ^ 64 = (n + 1) % 2 ^ 64 := by
    have hNat := congrArg UInt64.toNat h
    simpa [codeOf] using hNat
  omega

theorem Store.nodup_issued {w : World} (h : Store w) : w.issued.Nodup := by
  rw [h.issued]
  refine List.Nodup.map_on ?_ nodup_range
  intro m hm n hn hEq
  rw [mem_range] at hm hn
  exact codeOf_inj (hm.trans_le h.few) (hn.trans_le h.few) hEq

theorem Inv.safe {w : World} (h : Inv w) : Safe w where
  entry := h.store.entry
  cookies := h.store.cookies
  codes := h.store.nodup_issued
  freedOnce := h.store.freedOnce
  sessionRemoved := by
    intro p hp code hMem
    obtain ⟨s, hs, -⟩ := h.store.entry hMem
    rw [(h.store.freedSession hp).2] at hs
    cases hs
  containerRemoved := by
    intro mc hmc code p hHas hMem
    exact h.store.kept hMem hHas hmc
  oneUser := h.oneUser

theorem start_inv : Inv start where
  store :=
    { keyed := nodup_nil
      entry := nofun
      cookies := rfl
      issued := rfl
      nextCode := rfl
      few := by decide
      listed := nofun
      session := nofun
      container := by
        rintro p mc ⟨s, hs, -⟩
        cases hs
      apart := by
        rintro p q mc ⟨s, hs, -⟩
        cases hs
      kept := nofun
      freedSession := nofun
      freedContainer := nofun
      freedOnce := ⟨nodup_nil, nodup_nil⟩ }
  idle := by
    rintro p ⟨code, hMem⟩
    cases hMem
  oneUser := by
    rintro t t' p ⟨h, hAt, -⟩
    cases hAt
  handler := nofun

/-- Nothing that other handlers rely on changes but with the session `own`. -/
structure Frame (w w' : World) (own : Option Nat) : Prop where
  session : ∀ q, own ≠ some q → w'.sessions q = w.sessions q
  listed : ∀ code q, own ≠ some q → ((code, q) ∈ w'.table ↔ (code, q) ∈ w.table)
  container : ∀ q mc, own ≠ some q → HasMc w q mc →
    (mc ∈ w'.freedContainers ↔ mc ∈ w.freedContainers)

section Frame

variable {w w' : World} {own : Option Nat} {p q t : Nat} {pc : Pc}

theorem Frame.listed_iff (hFrame : Frame w w' own) (hq : own ≠ some q) :
    Listed w' q ↔ Listed w q :=
  exists_congr fun code => hFrame.listed code q hq

theorem Frame.hasMc_iff (hFrame : Frame w w' own) (hq : own ≠ some q) (mc : Nat) :
    HasMc w' q mc ↔ HasMc w q mc := by
  unfold HasMc
  rw [hFrame.session q hq]

theorem Frame.pcOk (hFrame : Frame w w' own) (hPc : ∀ q, pc.session = some q → own ≠ some q)
    (h : PcOk w pc) : PcOk w' pc := by
  cases pc with
  | start => trivial
  | errorFreeMc mc => exact h
  | error p mc =>
    cases p with
    | none => exact h
    | some p => exact (hFrame.listed_iff (hPc p rfl)).mpr h
  | allocated p => exact (hFrame.listed_iff (hPc p rfl)).mpr h
  | sendConnected p mc =>
    exact ⟨(hFrame.listed_iff (hPc p rfl)).mpr h.1, (hFrame.hasMc_iff (hPc p rfl) mc).mpr h.2⟩
  | checkCode p code =>
    exact ⟨(hFrame.listed code p (hPc p rfl)).mpr h.1,
      (exists_congr (hFrame.hasMc_iff (hPc p rfl))).mpr h.2⟩
  | sendOk p | takeOver p | release p =>
    exact ⟨(hFrame.listed_iff (hPc p rfl)).mpr h.1,
      (exists_congr (hFrame.hasMc_iff (hPc p rfl))).mpr h.2⟩
  | allocBuf p mc | receive p mc _ | keep p mc | exit p mc =>
    obtain ⟨hListed, m, hm, hHas⟩ := h
    exact ⟨(hFrame.listed_iff (hPc p rfl)).mpr hListed, m, hm,
      (hFrame.hasMc_iff (hPc p rfl) m).mpr hHas⟩
  | exitFreeMc p mc =>
    obtain ⟨hListed, m, hm, hHas, hFreed⟩ := h
    refine ⟨fun hList => hListed ((hFrame.listed_iff (hPc p rfl)).mp hList), m, hm,
      (hFrame.hasMc_iff (hPc p rfl) m).mpr hHas, ?_⟩
    rwa [hFrame.container p m (hPc p rfl) hHas]
  | exitFree p =>
    obtain ⟨hListed, hs⟩ := h
    refine ⟨fun hList => hListed ((hFrame.listed_iff (hPc p rfl)).mp hList), ?_⟩
    rwa [hFrame.session p (hPc p rfl)]

end Frame

/-- What a handler does with a session that no other one uses. -/
theorem Inv.change {w w' : World} {t : Nat} {new : Option Handler} {own : Option Nat} (h : Inv w)
    (hStore : Store w') (hFrame : Frame w w' own)
    (hHandlers : w'.handlers = update w.handlers t new)
    (hOld : ∀ p, Uses w t p → own = some p)
    (hOwn : ∀ p t', own = some p → Uses w t' p → t' = t)
    (hNew : ∀ h₁, new = some h₁ → h₁.pc.session = own ∧ PcOk w' h₁.pc)
    (hGone : new = none → ∀ p, own = some p → Listed w' p → ∃ mc, HasMc w' p mc) : Inv w' := by
  have hUses : ∀ {t' p}, Uses w' t' p → t' = t ∧ own = some p ∨ t' ≠ t ∧ Uses w t' p := by
    rintro t' p ⟨h₁, hAt, hPc⟩
    rw [hHandlers] at hAt
    by_cases ht : t' = t
    · subst ht
      rw [update_self] at hAt
      exact .inl ⟨rfl, (hNew h₁ hAt).1.symm.trans hPc⟩
    · rw [update_of_ne ht] at hAt
      exact .inr ⟨ht, h₁, hAt, hPc⟩
  refine ⟨hStore, ?_, ?_, ?_⟩
  · intro p hListed hNone
    by_cases hp : own = some p
    · cases hNew' : new with
      | none => exact hGone hNew' p hp hListed
      | some h₁ =>
        refine absurd ⟨h₁, ?_, (hNew h₁ hNew').1.trans hp⟩ (hNone t)
        rw [hHandlers, update_self, hNew']
    · obtain ⟨mc, hHas⟩ := h.idle ((hFrame.listed_iff hp).mp hListed) fun t' hUse => by
        by_cases ht : t' = t
        · exact hp (hOld p (ht ▸ hUse))
        · obtain ⟨h₁, hAt, hPc⟩ := hUse
          refine hNone t' ⟨h₁, ?_, hPc⟩
          rw [hHandlers, update_of_ne ht]
          exact hAt
      exact ⟨mc, (hFrame.hasMc_iff hp mc).mpr hHas⟩
  · intro t₁ t₂ p h₁ h₂
    rcases hUses h₁ with ⟨rfl, hp⟩ | ⟨-, h₁⟩
    · rcases hUses h₂ with ⟨rfl, -⟩ | ⟨-, h₂⟩
      · rfl
      · exact (hOwn p t₂ hp h₂).symm
    · rcases hUses h₂ with ⟨rfl, hp⟩ | ⟨-, h₂⟩
      · exact hOwn p t₁ hp h₁
      · exact h.oneUser h₁ h₂
  · intro t' h₁ hAt
    rw [hHandlers] at hAt
    by_cases ht : t' = t
    · subst ht
      rw [update_self] at hAt
      exact (hNew h₁ hAt).2
    · rw [update_of_ne ht] at hAt
      refine hFrame.pcOk (fun q hq hEq => ht ?_) (h.handler hAt)
      exact hOwn q t' hEq ⟨h₁, hAt, hq⟩

/-! ## What a step changes -/

section Changes

variable {w : World} {p q t mc next : Nat} {s s' : ParseData} {h₀ : Handler} {new : Option Handler}

theorem uses_iff (hAt : w.handlers t = some h₀) : Uses w t p ↔ h₀.pc.session = some p := by
  constructor
  · rintro ⟨h, hAt', hPc⟩
    rw [hAt] at hAt'
    cases hAt'
    exact hPc
  · exact fun hPc => ⟨h₀, hAt, hPc⟩

theorem Store.setHandler (h : Store w) (t : Nat) (new : Option Handler) :
    Store (w.setHandler t new) where
  keyed := h.keyed
  entry := h.entry
  cookies := h.cookies
  issued := h.issued
  nextCode := h.nextCode
  few := h.few
  listed := h.listed
  session := h.session
  container := h.container
  apart := h.apart
  kept := h.kept
  freedSession := h.freedSession
  freedContainer := h.freedContainer
  freedOnce := h.freedOnce

theorem Frame.setHandler {w w' : World} {own : Option Nat} (h : Frame w w' own) (t : Nat)
    (new : Option Handler) : Frame w (w'.setHandler t new) own :=
  ⟨h.session, h.listed, h.container⟩

theorem Frame.refl (w : World) (own : Option Nat) : Frame w w own :=
  ⟨fun _ _ => rfl, fun _ _ _ => .rfl, fun _ _ _ _ => .rfl⟩

theorem pcOk_setHandler {pc : Pc} (h : PcOk w pc) (t : Nat) (new : Option Handler) :
    PcOk (w.setHandler t new) pc :=
  ((Frame.refl w none).setHandler t new).pcOk (fun _ _ => nofun) h

/-- The handler that uses the session `own` writes, lists or frees it, and goes on or ends. -/
theorem Inv.step_own {w' : World} (h : Inv w) (hAt : w.handlers t = some h₀) (hStore : Store w')
    (hFrame : Frame w w' h₀.pc.session) (hHandlers : w'.handlers = w.handlers)
    (hNew : ∀ h₁, new = some h₁ → h₁.pc.session = h₀.pc.session ∧ PcOk w' h₁.pc)
    (hGone : new = none → ∀ p, h₀.pc.session = some p → Listed w' p → ∃ mc, HasMc w' p mc) :
    Inv (w'.setHandler t new) := by
  refine h.change (t := t) (hStore.setHandler t new) (hFrame.setHandler t new) ?_ ?_ ?_ ?_ hGone
  · unfold World.setHandler
    rw [hHandlers]
  · exact fun p hUse => (uses_iff hAt).mp hUse
  · exact fun p t' hp hUse => h.oneUser hUse ((uses_iff hAt).mpr hp)
  · intro h₁ hh₁
    exact ⟨(hNew h₁ hh₁).1, pcOk_setHandler (hNew h₁ hh₁).2 t new⟩

/-- The handler only goes on. -/
theorem Inv.goto {pc : Pc} (h : Inv w) (hAt : w.handlers t = some h₀)
    (hSession : pc.session = h₀.pc.session) (hOk : PcOk w pc) :
    Inv (w.setHandler t (some { h₀ with pc })) := by
  refine h.step_own hAt h.store (.refl w _) rfl ?_ nofun
  rintro h₁ hh₁
  cases hh₁
  exact ⟨hSession, hOk⟩

theorem hasMc_setSession : HasMc (w.setSession p s') q mc ↔
    q = p ∧ s'.mcPtr = some mc ∨ q ≠ p ∧ HasMc w q mc := by
  unfold HasMc World.setSession
  dsimp only
  by_cases hq : q = p
  · subst hq
    simp
  · simp [hq]

theorem hasMc_freeSession : HasMc (w.freeSession p) q mc ↔ q ≠ p ∧ HasMc w q mc := by
  unfold HasMc World.freeSession
  dsimp only
  by_cases hq : q = p
  · subst hq
    simp
  · simp [hq]

/-- A session that is there is written; its memory container is its own. -/
theorem Store.setSession (h : Store w) (hs : w.sessions p = some s)
    (hCode : s'.connectCode = s.connectCode) (hNext : w.nextContainer ≤ next)
    (hMc : ∀ mc, s'.mcPtr = some mc →
      mc < next ∧ (∀ q, HasMc w q mc → q = p) ∧ (Listed w p → mc ∉ w.freedContainers)) :
    Store ({ w with nextContainer := next }.setSession p s') where
  keyed := h.keyed
  entry := by
    intro code q hMem
    obtain ⟨s₁, hs₁, hCode₁⟩ := h.entry hMem
    by_cases hq : q = p
    · subst hq
      rw [hs] at hs₁
      cases hs₁
      exact ⟨s', update_self .., hCode.trans hCode₁⟩
    · exact ⟨s₁, (update_of_ne hq _ _).trans hs₁, hCode₁⟩
  cookies := h.cookies
  issued := h.issued
  nextCode := h.nextCode
  few := h.few
  listed := h.listed
  session := by
    intro q s₁ hs₁
    by_cases hq : q = p
    · rw [hq]
      exact h.session hs
    · exact h.session ((update_of_ne hq _ _).symm.trans hs₁)
  container := by
    intro q mc hHas
    rcases hasMc_setSession.mp hHas with ⟨-, hmc⟩ | ⟨-, hHas⟩
    · exact (hMc mc hmc).1
    · exact (h.container hHas).trans_le hNext
  apart := by
    intro q r mc hq hr
    rcases hasMc_setSession.mp hq with ⟨rfl, hmc⟩ | ⟨hqp, hq⟩
    · rcases hasMc_setSession.mp hr with ⟨rfl, -⟩ | ⟨-, hr⟩
      · rfl
      · exact ((hMc mc hmc).2.1 r hr).symm
    · rcases hasMc_setSession.mp hr with ⟨hrp, hmc⟩ | ⟨-, hr⟩
      · exact ((hMc mc hmc).2.1 q hq).trans hrp.symm
      · exact h.apart hq hr
  kept := by
    intro code q mc hMem hHas
    rcases hasMc_setSession.mp hHas with ⟨rfl, hmc⟩ | ⟨-, hHas⟩
    · exact (hMc mc hmc).2.2 ⟨code, hMem⟩
    · exact h.kept hMem hHas
  freedSession := by
    intro q hq
    obtain ⟨hLt, hNone⟩ := h.freedSession hq
    refine ⟨hLt, (update_of_ne ?_ _ _).trans hNone⟩
    rintro rfl
    rw [hs] at hNone
    cases hNone
  freedContainer := fun hmc => (h.freedContainer hmc).trans_le hNext
  freedOnce := h.freedOnce

theorem frame_setSession :
    Frame w ({ w with nextContainer := next }.setSession p s') (some p) where
  session := by
    intro q hq
    exact update_of_ne (fun hEq => hq (congrArg some hEq.symm)) _ _
  listed := fun _ _ _ => .rfl
  container := fun _ _ _ _ => .rfl

/-- No handler has a session that was freed. -/
theorem Inv.used (h : Inv w) (hUse : Uses w t p) : ∃ s, w.sessions p = some s := by
  have hEntry : ∀ {code}, (code, p) ∈ w.table → ∃ s, w.sessions p = some s := by
    intro code hMem
    obtain ⟨s, hs, -⟩ := h.store.entry hMem
    exact ⟨s, hs⟩
  obtain ⟨⟨pc, apic⟩, hAt, hSession⟩ := hUse
  have hPc := h.handler hAt
  cases pc with
  | start | errorFreeMc mc => cases hSession
  | error q mc =>
    cases hSession
    exact hEntry hPc.choose_spec
  | allocated q =>
    cases hSession
    exact hEntry hPc.choose_spec
  | checkCode q code =>
    cases hSession
    exact hEntry hPc.1
  | exitFreeMc q mc =>
    cases hSession
    obtain ⟨-, m, -, ⟨s, hs, -⟩, -⟩ := hPc
    exact ⟨s, hs⟩
  | exitFree q =>
    cases hSession
    exact hPc.2
  | _ =>
    cases hSession
    exact hEntry hPc.1.choose_spec

/-- The fields that a handler writes on a connection. -/
theorem Store.setConn (h : Store w) (hs : w.sessions p = some s) (conn : Option Nat) :
    Store (w.setSession p { s with conn }) := by
  refine h.setSession hs rfl le_rfl fun mc hmc => ?_
  have hHas : HasMc w p mc := ⟨s, hs, hmc⟩
  exact ⟨h.container hHas, fun q hq => h.apart hq hHas, fun ⟨_, hMem⟩ => h.kept hMem hHas⟩

/-- A new session, with the next connect code. -/
theorem Store.allocate (h : Store w) (hFew : w.issued.length < 2 ^ 64) :
    Store (allocateParseConnection w true true).2 := by
  have hNone : w.sessions w.nextSession = none := by
    cases hs : w.sessions w.nextSession with
    | none => rfl
    | some s => exact absurd (h.session hs) (lt_irrefl _)
  have hHas : ∀ {q mc}, HasMc (allocateParseConnection w true true).2 q mc → HasMc w q mc := by
    intro q mc hHas
    rcases hasMc_setSession.mp hHas with ⟨-, hmc⟩ | ⟨-, hHas⟩
    · cases hmc
    · exact hHas
  have hNew : ∀ q, (w.nextConnectCode, q) ∉ w.table := by
    intro q hMem
    have hIssued := h.listed hMem
    rw [h.issued, List.mem_map] at hIssued
    obtain ⟨n, hn, hEq⟩ := hIssued
    rw [mem_range] at hn
    rw [h.nextCode] at hEq
    exact hn.ne (codeOf_inj (hn.trans hFew) hFew hEq)
  have hLength : (allocateParseConnection w true true).2.issued.length = w.issued.length + 1 :=
    length_append
  constructor
  case keyed => exact h.keyed.cons hNew
  case entry =>
    intro code q hMem
    rcases mem_cons.mp hMem with hEq | hMem
    · cases hEq
      exact ⟨_, update_self .., rfl⟩
    · obtain ⟨s, hs, hCode⟩ := h.entry hMem
      have hq : q ≠ w.nextSession := (h.session hs).ne
      exact ⟨s, (update_of_ne hq _ _).trans hs, hCode⟩
  case cookies => exact congrArg (· + 1) h.cookies
  case issued =>
    show w.issued ++ [w.nextConnectCode] = _
    rw [hLength, range_succ, map_append, ← h.issued, h.nextCode]
    rfl
  case nextCode =>
    show w.nextConnectCode + 1 = _
    rw [hLength, h.nextCode]
    exact (UInt64.ofNat_add (w.issued.length + 1) 1).symm
  case few =>
    rw [hLength]
    exact hFew
  case listed =>
    intro code q hMem
    rcases mem_cons.mp hMem with hEq | hMem
    · cases hEq
      exact mem_append_right _ (mem_singleton_self _)
    · exact mem_append_left _ (h.listed hMem)
  case session =>
    intro q s hs
    by_cases hq : q = w.nextSession
    · exact hq ▸ Nat.lt_succ_self _
    · exact Nat.lt_succ_of_lt (h.session ((update_of_ne hq _ _).symm.trans hs))
  case container => exact fun hq => h.container (hHas hq)
  case apart => exact fun hq hr => h.apart (hHas hq) (hHas hr)
  case kept =>
    intro code q mc hMem hq
    rcases mem_cons.mp hMem with hEq | hMem
    · cases hEq
      rcases hasMc_setSession.mp hq with ⟨-, hmc⟩ | ⟨hne, -⟩
      · cases hmc
      · exact absurd rfl hne
    · exact h.kept hMem (hHas hq)
  case freedSession =>
    intro q hq
    obtain ⟨hLt, hNone⟩ := h.freedSession hq
    exact ⟨Nat.lt_succ_of_lt hLt, (update_of_ne hLt.ne _ _).trans hNone⟩
  case freedContainer => exact h.freedContainer
  case freedOnce => exact h.freedOnce

/-- A session that is in the table is taken out. -/
theorem Store.removeParse {w' : World} (h : Store w)
    (hRemove : removeParseConnection w p = some w') :
    Store w' ∧ w'.sessions = w.sessions ∧ w'.freedContainers = w.freedContainers ∧
      w'.handlers = w.handlers ∧
      ∀ code q, (code, q) ∈ w'.table ↔ (code, q) ∈ w.table ∧ q ≠ p := by
  obtain ⟨s, hs, hRest⟩ := bind_eq_some_iff.mp hRemove
  split_ifs at hRest with hFound
  cases hRest
  have hMem := mem_of_search hFound
  have hEntries : ∀ code q, (code, q) ∈ remove w.table s.connectCode ↔
      (code, q) ∈ w.table ∧ q ≠ p := by
    intro code q
    rw [mem_remove h.keyed]
    refine and_congr_right fun hIn => not_congr ?_
    constructor
    · rintro rfl
      exact h.keyed.unique hIn hMem
    · rintro rfl
      obtain ⟨s₁, hs₁, hCode⟩ := h.entry hIn
      rw [hs] at hs₁
      cases hs₁
      exact hCode.symm
  refine ⟨?_, rfl, rfl, rfl, hEntries⟩
  constructor
  case keyed => exact h.keyed.remove _
  case entry => exact fun hIn => h.entry ((hEntries _ _).mp hIn).1
  case cookies =>
    show w.numCookies - 1 = (w.table.eraseP _).length
    rw [h.cookies, length_eraseP_of_mem hMem (by simp)]
  case issued => exact h.issued
  case nextCode => exact h.nextCode
  case few => exact h.few
  case listed => exact fun hIn => h.listed ((hEntries _ _).mp hIn).1
  case session => exact h.session
  case container => exact h.container
  case apart => exact h.apart
  case kept => exact fun hIn hHas => h.kept ((hEntries _ _).mp hIn).1 hHas
  case freedSession => exact h.freedSession
  case freedContainer => exact h.freedContainer
  case freedOnce => exact h.freedOnce

/-- The memory container of a session that is not in the table is freed. -/
theorem Store.freeContainer (h : Store w) (hHas : HasMc w p mc) (hListed : ¬Listed w p)
    (hmc : mc ∉ w.freedContainers) : Store (w.freeContainer mc) := by
  constructor
  case keyed => exact h.keyed
  case entry => exact h.entry
  case cookies => exact h.cookies
  case issued => exact h.issued
  case nextCode => exact h.nextCode
  case few => exact h.few
  case listed => exact h.listed
  case session => exact h.session
  case container => exact h.container
  case apart => exact h.apart
  case kept =>
    intro code q mc' hMem hq hFreed
    rcases mem_cons.mp hFreed with rfl | hFreed
    · exact hListed ⟨code, h.apart hHas hq ▸ hMem⟩
    · exact h.kept hMem hq hFreed
  case freedSession => exact h.freedSession
  case freedContainer =>
    intro mc' hFreed
    rcases mem_cons.mp hFreed with rfl | hFreed
    · exact h.container hHas
    · exact h.freedContainer hFreed
  case freedOnce => exact ⟨h.freedOnce.1, nodup_cons.mpr ⟨hmc, h.freedOnce.2⟩⟩

/-- A session that is not in the table is freed. -/
theorem Store.freeSession (h : Store w) (hs : w.sessions p = some s) (hListed : ¬Listed w p) :
    Store (w.freeSession p) := by
  have hHas : ∀ {q mc}, HasMc (w.freeSession p) q mc → HasMc w q mc :=
    fun hq => (hasMc_freeSession.mp hq).2
  constructor
  case keyed => exact h.keyed
  case entry =>
    intro code q hMem
    obtain ⟨s₁, hs₁, hCode⟩ := h.entry hMem
    have hq : q ≠ p := by
      rintro rfl
      exact hListed ⟨code, hMem⟩
    exact ⟨s₁, (update_of_ne hq _ _).trans hs₁, hCode⟩
  case cookies => exact h.cookies
  case issued => exact h.issued
  case nextCode => exact h.nextCode
  case few => exact h.few
  case listed => exact h.listed
  case session =>
    intro q s₁ hs₁
    by_cases hq : q = p
    · subst hq
      have hNone : (w.freeSession q).sessions q = none := update_self ..
      rw [hNone] at hs₁
      cases hs₁
    · exact h.session ((update_of_ne hq _ _).symm.trans hs₁)
  case container => exact fun hq => h.container (hHas hq)
  case apart => exact fun hq hr => h.apart (hHas hq) (hHas hr)
  case kept => exact fun hMem hq => h.kept hMem (hHas hq)
  case freedSession =>
    intro q hq
    rcases mem_cons.mp hq with rfl | hq
    · exact ⟨h.session hs, update_self ..⟩
    · obtain ⟨hLt, hNone⟩ := h.freedSession hq
      refine ⟨hLt, (update_of_ne ?_ _ _).trans hNone⟩
      rintro rfl
      rw [hs] at hNone
      cases hNone
  case freedContainer => exact h.freedContainer
  case freedOnce =>
    refine ⟨nodup_cons.mpr ⟨fun hp => ?_, h.freedOnce.1⟩, h.freedOnce.2⟩
    rw [(h.freedSession hp).2] at hs
    cases hs

theorem frame_freeSession : Frame w (w.freeSession p) (some p) where
  session := by
    intro q hq
    exact update_of_ne (fun hEq => hq (congrArg some hEq.symm)) _ _
  listed := fun _ _ _ => .rfl
  container := fun _ _ _ _ => .rfl

end Changes

/-! ## Steps -/

theorem failPc_spec {w : World} {pc pc' : Pc} (hFail : failPc pc = some pc') (h : PcOk w pc) :
    pc'.session = pc.session ∧ PcOk w pc' := by
  cases pc with
  | start =>
    cases hFail
    exact ⟨rfl, rfl⟩
  | allocated p =>
    cases hFail
    exact ⟨rfl, h⟩
  | sendConnected p mc | sendOk p | allocBuf p mc | receive p mc parseInx =>
    cases hFail
    exact ⟨rfl, h.1⟩
  | _ => cases hFail

theorem linePc_spec {w : World} {p parseInx : Nat} {mc : Option Nat} (readSize : Nat)
    (exitFlag : Bool) (h : Listed w p ∧ ∃ m, mc = some m ∧ HasMc w p m) :
    (linePc p mc parseInx readSize exitFlag).session = some p ∧
      PcOk w (linePc p mc parseInx readSize exitFlag) := by
  unfold linePc
  split_ifs
  · exact ⟨rfl, h⟩
  · exact ⟨rfl, h⟩
  · exact ⟨rfl, h⟩
  · exact ⟨rfl, h⟩
  · exact ⟨rfl, h.1⟩

section Proceed

variable {w w' : World} {p t apic : Nat} {mc : Option Nat}

/-- The memory container is made. -/
theorem proceed_allocated (h : Inv w) (hAt : w.handlers t = some ⟨.allocated p, apic⟩)
    (hStep : proceed w t ⟨.allocated p, apic⟩ = some w') : Inv w' := by
  obtain ⟨s, hs, hRest⟩ := bind_eq_some_iff.mp hStep
  cases hRest
  have hListed : Listed w p := h.handler hAt
  refine h.step_own hAt (h.store.setSession hs rfl (Nat.le_succ _) ?_) frame_setSession rfl ?_ nofun
  · intro mc hmc
    cases hmc
    refine ⟨Nat.lt_succ_self _, fun q hq => ?_, fun _ hFreed => ?_⟩
    · exact absurd (h.store.container hq) (lt_irrefl _)
    · exact absurd (h.store.freedContainer hFreed) (lt_irrefl _)
  · rintro h₁ hh₁
    cases hh₁
    exact ⟨rfl, hListed, hasMc_setSession.mpr (.inl ⟨rfl, rfl⟩)⟩

/-- The connection becomes the one of the session. -/
theorem proceed_takeOver (h : Inv w) (hAt : w.handlers t = some ⟨.takeOver p, apic⟩)
    (hStep : proceed w t ⟨.takeOver p, apic⟩ = some w') : Inv w' := by
  obtain ⟨s, hs, hRest⟩ := bind_eq_some_iff.mp hStep
  obtain ⟨hListed, m, s₁, hs₁, hm⟩ := h.handler hAt
  rw [hs] at hs₁
  cases hs₁
  dsimp only at hRest
  split_ifs at hRest with hApic
  · cases hRest
    refine h.step_own hAt (h.store.setConn hs (some t)) frame_setSession rfl ?_ nofun
    rintro h₁ hh₁
    cases hh₁
    exact ⟨rfl, hListed, m, hm, hasMc_setSession.mpr (.inl ⟨rfl, hm⟩)⟩
  · cases hRest
    refine h.step_own hAt (h.store.setConn hs (some t)) frame_setSession rfl ?_ nofun
    rintro h₁ hh₁
    cases hh₁
    exact ⟨rfl, hListed⟩

/-- The session stays in the table, and no handler has it. -/
theorem proceed_release (h : Inv w) (hAt : w.handlers t = some ⟨.release p, apic⟩)
    (hStep : proceed w t ⟨.release p, apic⟩ = some w') : Inv w' := by
  obtain ⟨s, hs, hRest⟩ := bind_eq_some_iff.mp hStep
  cases hRest
  obtain ⟨-, m, s₁, hs₁, hm⟩ := h.handler hAt
  rw [hs] at hs₁
  cases hs₁
  refine h.step_own hAt (h.store.setConn hs none) frame_setSession rfl nofun ?_
  intro _ q hq _
  cases hq
  exact ⟨m, hasMc_setSession.mpr (.inl ⟨rfl, hm⟩)⟩

theorem proceed_exit (h : Inv w) (hAt : w.handlers t = some ⟨.exit p mc, apic⟩)
    (hStep : proceed w t ⟨.exit p mc, apic⟩ = some w') : Inv w' := by
  obtain ⟨w₁, hRemove, hRest⟩ := bind_eq_some_iff.mp hStep
  cases hRest
  obtain ⟨hStore, hSessions, hFreed, hHandlers, hEntries⟩ := h.store.removeParse hRemove
  obtain ⟨⟨code, hMem⟩, m, hm, hHas⟩ := h.handler hAt
  have hHas' : HasMc w₁ p m := by
    unfold HasMc
    rw [hSessions]
    exact hHas
  refine h.step_own hAt hStore ⟨?_, ?_, ?_⟩ hHandlers ?_ nofun
  · exact fun q _ => congrFun hSessions q
  · intro code q hq
    rw [hEntries]
    exact and_iff_left fun hEq => hq (congrArg some hEq.symm)
  · exact fun q mc _ _ => by rw [hFreed]
  · rintro h₁ hh₁
    cases hh₁
    refine ⟨rfl, ?_, m, hm, hHas', ?_⟩
    · rintro ⟨code', hMem'⟩
      exact ((hEntries _ _).mp hMem').2 rfl
    · rw [hFreed]
      exact h.store.kept hMem hHas

theorem proceed_exitFreeMc (h : Inv w) (hAt : w.handlers t = some ⟨.exitFreeMc p mc, apic⟩)
    (hStep : proceed w t ⟨.exitFreeMc p mc, apic⟩ = some w') : Inv w' := by
  obtain ⟨hListed, m, rfl, hHas, hFreed⟩ := h.handler hAt
  cases hStep
  refine h.step_own hAt (h.store.freeContainer hHas hListed hFreed) ⟨?_, ?_, ?_⟩ rfl ?_ nofun
  · exact fun _ _ => rfl
  · exact fun _ _ _ => .rfl
  · intro q mc hq hHas'
    refine mem_cons.trans (or_iff_right ?_)
    rintro rfl
    exact hq (congrArg some (h.store.apart hHas hHas'))
  · rintro h₁ hh₁
    cases hh₁
    obtain ⟨s, hs, -⟩ := hHas
    exact ⟨rfl, hListed, s, hs⟩

theorem proceed_exitFree (h : Inv w) (hAt : w.handlers t = some ⟨.exitFree p, apic⟩)
    (hStep : proceed w t ⟨.exitFree p, apic⟩ = some w') : Inv w' := by
  obtain ⟨s, hs, hRest⟩ := bind_eq_some_iff.mp hStep
  split_ifs at hRest with hCode
  cases hRest
  have hListed : ¬Listed w p := (h.handler hAt).1
  refine h.step_own hAt (h.store.freeSession hs hListed) frame_freeSession rfl nofun ?_
  rintro _ q hq hMem
  cases hq
  exact absurd hMem hListed

end Proceed

theorem proceed_keeps {w w' : World} {t : Nat} {h₀ : Handler} (h : Inv w)
    (hAt : w.handlers t = some h₀) (hOk : ∀ p mc, h₀.pc ≠ .error (some p) mc)
    (hStep : proceed w t h₀ = some w') : Inv w' := by
  obtain ⟨pc, apic⟩ := h₀
  have hPc := h.handler hAt
  cases pc with
  | start | receive p mc parseInx => cases hStep
  | allocated p => exact proceed_allocated h hAt hStep
  | takeOver p => exact proceed_takeOver h hAt hStep
  | release p => exact proceed_release h hAt hStep
  | exit p mc => exact proceed_exit h hAt hStep
  | exitFreeMc p mc => exact proceed_exitFreeMc h hAt hStep
  | exitFree p => exact proceed_exitFree h hAt hStep
  | sendConnected p mc =>
    cases hStep
    exact h.goto hAt rfl ⟨hPc.1, mc, rfl, hPc.2⟩
  | checkCode p code =>
    obtain ⟨s, hs, hRest⟩ := bind_eq_some_iff.mp hStep
    split_ifs at hRest with hCode
    cases hRest
    exact h.goto hAt rfl ⟨⟨code, hPc.1⟩, hPc.2⟩
  | sendOk p =>
    cases hStep
    exact h.goto hAt rfl hPc
  | allocBuf p mc =>
    cases hStep
    exact h.goto hAt rfl hPc
  | keep p mc =>
    obtain ⟨hListed, m, rfl, hHas⟩ := hPc
    change (if _ then none else _) = some w' at hStep
    split_ifs at hStep
    cases hStep
    exact h.goto hAt rfl ⟨hListed, m, hHas⟩
  | error p mc =>
    cases p with
    | some p => exact absurd rfl (hOk p mc)
    | none =>
      cases hStep
      exact h.goto hAt rfl hPc
  | errorFreeMc mc =>
    obtain rfl : mc = none := hPc
    cases hStep
    exact h.step_own hAt h.store (.refl w _) rfl nofun nofun

/-- A handler starts with no session. -/
theorem accept_keeps {w : World} {t apic : Nat} (h : Inv w) (hFree : w.handlers t = none) :
    Inv (w.setHandler t (some ⟨.start, apic⟩)) := by
  refine h.change (t := t) (h.store.setHandler t _) ((Frame.refl w none).setHandler t _) rfl ?_
    nofun ?_ nofun
  · rintro p ⟨h₁, hAt, -⟩
    rw [hFree] at hAt
    cases hAt
  · rintro h₁ hh₁
    cases hh₁
    exact ⟨rfl, trivial⟩

/-- A handler that has no session gets the session `own`. -/
theorem Inv.take {w w' : World} {t apic p : Nat} {pc : Pc} (h : Inv w)
    (hAt : w.handlers t = some ⟨.start, apic⟩) (hStore : Store w') (hFrame : Frame w w' (some p))
    (hHandlers : w'.handlers = w.handlers) (hUnused : ∀ t, ¬Uses w t p)
    (hSession : pc.session = some p) (hOk : PcOk w' pc) :
    Inv (w'.setHandler t (some ⟨pc, apic⟩)) := by
  refine h.change (t := t) (hStore.setHandler t _) (hFrame.setHandler t _)
    (congrArg (update · t _) hHandlers) ?_ ?_ ?_ nofun
  · intro q hUse
    cases (uses_iff hAt).mp hUse
  · intro q t' hq hUse
    cases hq
    exact absurd hUse (hUnused t')
  · rintro h₁ hh₁
    cases hh₁
    exact ⟨hSession, pcOk_setHandler hOk t _⟩

theorem allocate_keeps {w : World} {t apic : Nat} (h : Inv w)
    (hAt : w.handlers t = some ⟨.start, apic⟩) (hFew : w.issued.length < 2 ^ 64) :
    Inv ((allocateParseConnection w true true).2.setHandler t
      (some ⟨.allocated w.nextSession, apic⟩)) := by
  have hUnused : ∀ t, ¬Uses w t w.nextSession := by
    intro t' hUse
    obtain ⟨s, hs⟩ := h.used hUse
    exact absurd (h.store.session hs) (lt_irrefl _)
  refine h.take hAt (h.store.allocate hFew) ⟨?_, ?_, ?_⟩ rfl hUnused rfl
    ⟨_, mem_cons_self⟩
  · intro q hq
    exact update_of_ne (fun hEq => hq (congrArg some hEq.symm)) _ _
  · intro code q hq
    refine mem_cons.trans (or_iff_right fun hEq => hq ?_)
    rw [(Prod.mk.inj hEq).2]
  · exact fun _ _ _ _ => .rfl

theorem step_keeps (w : World) (op : Op) (w' : World) (hOk : StepOk w op)
    (hStep : step w op = some w') (h : Inv w) : Inv w' := by
  cases op with
  | accept t apic =>
    change (if _ then none else _) = some w' at hStep
    split_ifs at hStep with hFree
    cases hStep
    exact accept_keeps h (by simpa using hFree)
  | newConnection t memory insert =>
    obtain ⟨⟨pc, apic⟩, hAt, hRest⟩ := bind_eq_some_iff.mp hStep
    cases pc with
    | start =>
      cases memory with
      | false =>
        cases hRest
        exact h.goto hAt rfl rfl
      | true =>
        obtain ⟨rfl, hFew⟩ := hOk rfl
        cases hRest
        exact allocate_keeps h hAt hFew
    | _ => cases hRest
  | reconnect t code =>
    obtain ⟨⟨pc, apic⟩, hAt, hRest⟩ := bind_eq_some_iff.mp hStep
    cases pc with
    | start =>
      cases hSearch : search w.table code with
      | none =>
        dsimp only at hRest
        rw [hSearch] at hRest
        cases hRest
        exact h.goto hAt rfl rfl
      | some p =>
        dsimp only at hRest
        rw [hSearch] at hRest
        cases hRest
        have hUnused := hOk p hSearch
        have hMem := mem_of_search hSearch
        exact h.take hAt h.store (.refl w _) rfl hUnused rfl ⟨hMem, h.idle ⟨code, hMem⟩ hUnused⟩
    | _ => cases hRest
  | line t readSize exitFlag =>
    obtain ⟨⟨pc, apic⟩, hAt, hRest⟩ := bind_eq_some_iff.mp hStep
    cases pc with
    | receive p mc parseInx =>
      dsimp only at hRest
      split_ifs at hRest
      cases hRest
      obtain ⟨hSession, hPc⟩ := linePc_spec readSize exitFlag (h.handler hAt)
      exact h.goto hAt hSession hPc
    | _ => cases hRest
  | fail t =>
    obtain ⟨h₀, hAt, hRest⟩ := bind_eq_some_iff.mp hStep
    obtain ⟨pc', hFail, hRest⟩ := bind_eq_some_iff.mp hRest
    cases hRest
    obtain ⟨hSession, hPc⟩ := failPc_spec hFail (h.handler hAt)
    exact h.goto hAt hSession hPc
  | proceed t =>
    obtain ⟨h₀, hAt, hRest⟩ := bind_eq_some_iff.mp hStep
    exact proceed_keeps h hAt (fun p mc => hOk h₀ p mc hAt) hRest

theorem step_breaks (w : World) (op : Op) (w' : World) (hNot : ¬StepOk w op)
    (hStep : step w op = some w') (h : Inv w) : ¬Safe w' := by
  intro hSafe
  cases op with
  | newConnection t memory insert =>
    obtain ⟨⟨pc, apic⟩, hAt, hRest⟩ := bind_eq_some_iff.mp hStep
    cases pc with
    | start =>
      cases memory with
      | false => exact hNot nofun
      | true =>
        cases insert with
        | false =>
          cases hRest
          have hCookies : w.numCookies + 1 = w.table.length := hSafe.cookies
          have hBefore := h.store.cookies
          omega
        | true =>
          cases hRest
          refine hNot fun _ => ⟨rfl, Nat.lt_of_le_of_ne h.store.few fun hFull => ?_⟩
          -- the first connect code is the next one again
          have hCodes : (w.issued ++ [w.nextConnectCode]).Nodup := hSafe.codes
          refine (nodup_append.mp hCodes).2.2 w.nextConnectCode ?_ _
            (mem_singleton_self _) rfl
          rw [h.store.nextCode, hFull, h.store.issued, hFull]
          exact List.mem_map.mpr ⟨0, List.mem_range.mpr (by decide), by decide⟩
    | _ => cases hRest
  | reconnect t code =>
    obtain ⟨⟨pc, apic⟩, hAt, hRest⟩ := bind_eq_some_iff.mp hStep
    cases pc with
    | start =>
      refine hNot fun p hSearch t' hUse => ?_
      dsimp only at hRest
      rw [hSearch] at hRest
      cases hRest
      have hne : t' ≠ t := by
        rintro rfl
        cases (uses_iff hAt).mp hUse
      -- now both have it
      obtain ⟨h₁, hAt', hPc⟩ := hUse
      exact hne (hSafe.oneUser ⟨h₁, (update_of_ne hne _ _).trans hAt', hPc⟩
        ⟨_, update_self .., rfl⟩)
    | _ => cases hRest
  | proceed t =>
    obtain ⟨h₀, hAt, hRest⟩ := bind_eq_some_iff.mp hStep
    refine hNot fun h₁ p mc hAt' hPc => ?_
    rw [hAt] at hAt'
    cases hAt'
    obtain ⟨pc, apic⟩ := h₀
    dsimp only at hPc
    subst hPc
    cases hRest
    obtain ⟨code, hMem⟩ : Listed w p := h.handler hAt
    exact hSafe.sessionRemoved p mem_cons_self code hMem
  | _ => exact hNot trivial

/-- For any number of clients and any order: the table and the sessions are right in every state
exactly if no step frees a session on the error path or finds one that a handler has, every entry
can be allocated, and the connect codes do not come to their end. -/
theorem session_table_iff (ops : List Op) :
    Run.Always step Safe start ops ↔ Run.Along step StepOk start ops :=
  Run.always_iff_along step StepOk Inv Safe (fun _ h => h.safe) step_keeps step_breaks ops start_inv

/-- A client drops its connection before the command has ended: its session is freed and stays in
the table. -/
theorem dropped_connection_stays : ∃ w, Run.exec step start
    [.accept 1 1, .newConnection 1 true true, .proceed 1, .proceed 1, .proceed 1, .fail 1,
      .proceed 1] = some w ∧
    w.table = [(1, 0)] ∧ w.freedSessions = [0] ∧ ¬Safe w := by
  refine ⟨_, rfl, rfl, rfl, fun hSafe => ?_⟩
  exact hSafe.sessionRemoved 0 (by decide) 1 (by decide)

end IClaustron.ClusterManager.Sessions
