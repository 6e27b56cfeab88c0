import IClaustron.Apid.Receive

/-!
# Apid.ReceivePages — when a receive page is returned

A receive page is in use as long as the receive thread keeps the first part of a message in it,
or a message object that is not executed yet refers to it.

* `receive_pages_ok` — the runs in which every page is returned as it should be.
-/

namespace IClaustron.Apid.Receive

open Lib List Option Function

/-! ## What should hold -/

/-- The message object is on its way to be executed. -/
def Live (s : State) (m : Nat) : Prop :=
  ∃ t, m ∈ (s.temp t).received ∨ m ∈ s.received t ∨ m ∈ s.executing t

def RefersTo (s : State) (m p : Nat) : Prop := ∃ off, (s.msg m).sockBuf = .data p off

def InUse (s : State) (p : Nat) : Prop :=
  s.recNode.bufPage = some p ∨ ∃ m, Live s m ∧ RefersTo s m p

/-- A page that was taken from the pool is returned once if it is not in use, and not returned
as long as it is. -/
structure PagesOk (s : State) : Prop where
  in_use : ∀ p, InUse s p → .page p ∉ s.returned
  free : ∀ p < s.pages, ¬ InUse s p → s.returned.count (.page p) = 1

theorem PagesOk.count_le {s : State} (h : PagesOk s) {p : Nat} (hp : p < s.pages) :
    s.returned.count (.page p) ≤ 1 := by
  by_cases huse : InUse s p
  · rw [count_eq_zero_of_not_mem (h.in_use p huse)]
    exact Nat.zero_le 1
  · exact Nat.le_of_eq (h.free p hp huse)

/-- No pool runs out in this round, and the read succeeds. -/
def Round.Supplied (r : Round) : Prop :=
  r.page = true ∧ r.chunk ≠ none ∧ r.failAt = none ∧ r.newPage = true

instance (r : Round) : Decidable r.Supplied :=
  inferInstanceAs (Decidable (_ ∧ _ ∧ _ ∧ _))

/-- The bytes at hand after the first read. -/
def firstBytes (s : State) (p : Nat) (chunk : List UInt8) : List UInt8 :=
  (s.mem p).take s.recNode.readSize ++ chunk

/-- If less than a header was kept, then the first read completes the message. -/
def Completes (byteOrder : Bool) (s : State) (rounds : List Round) : Prop :=
  s.recNode.readHeaderFlag = false → ∀ p ∈ s.recNode.bufPage, ∀ r ∈ rounds.head?,
    ∀ chunk ∈ r.chunk, minNdbHeaderSize ≤ s.recNode.readSize + chunk.length ∧
      (readMessageEarly byteOrder (firstBytes s p chunk)).1 * 4 % 2 ^ 32 ≤
        s.recNode.readSize + chunk.length

instance (byteOrder : Bool) (s : State) (rounds : List Round) :
    Decidable (Completes byteOrder s rounds) :=
  inferInstanceAs (Decidable (_ → ∀ p ∈ s.recNode.bufPage, ∀ r ∈ rounds.head?, ∀ chunk ∈ r.chunk,
    _ ∧ (readMessageEarly byteOrder (firstBytes s p chunk)).1 * 4 % 2 ^ 32 ≤
      s.recNode.readSize + chunk.length))

/-- No pool runs out and no read fails, a kept part of a header is completed at once together
with its message, and a message object that is executed does not have a reference count. -/
def Orderly (byteOrder : Bool) (s : State) : Label → Prop
  | .receive rounds => (∀ r ∈ rounds, r.Supplied) ∧ Completes byteOrder s rounds
  | .execute t _ => ∀ n ∈ (s.executing t).head?, (s.msg n).refCount = 0
  | _ => True

instance (byteOrder : Bool) (s : State) : ∀ a, Decidable (Orderly byteOrder s a)
  | .receive rounds =>
    inferInstanceAs (Decidable ((∀ r ∈ rounds, r.Supplied) ∧ Completes byteOrder s rounds))
  | .connect => .isTrue trivial
  | .poll _ => .isTrue trivial
  | .execute t _ =>
    inferInstanceAs (Decidable (∀ n ∈ (s.executing t).head?, (s.msg n).refCount = 0))

/-! ## The invariant -/

/-- Some message object that refers to the page has a reference count. -/
def Marked (s : State) (p : Nat) : Prop :=
  ∃ m, Live s m ∧ RefersTo s m p ∧ 0 < (s.msg m).refCount

/-- The pages, except for the one that is cut into messages. -/
structure PagesExcept (s : State) (cur : Option Nat) : Prop where
  returned_lt : ∀ p, .page p ∈ s.returned → p < s.pages
  refers_lt : ∀ m p, Live s m → RefersTo s m p → p < s.pages
  msg_lt : ∀ m, Live s m → m < s.msgs
  in_use : ∀ p, some p ≠ cur → InUse s p → .page p ∉ s.returned
  free : ∀ p < s.pages, some p ≠ cur → ¬ InUse s p → s.returned.count (.page p) = 1
  marked : ∀ m p, some p ≠ cur → Live s m → RefersTo s m p → Marked s p

/-- The page `p` is cut into messages. -/
structure LoopInv (s : State) (l : Local) (p : Nat) : Prop where
  pages : PagesExcept s (some p)
  lt : p < s.pages
  not_returned : .page p ∉ s.returned
  kept : ∀ q, s.recNode.bufPage = some q → q = p
  modules : ∀ m, Live s m → RefersTo s m p → l.pageModules ≠ []
  last_long : ∀ t ∈ l.pageModules, ∃ m, (s.temp t).lastLong = some m ∧
    m ∈ (s.temp t).received ∧ RefersTo s m p
  on_page : ∀ t, (s.temp t).numMessagesOnPage ≠ 0 → t ∈ l.pageModules

/-- Between two calls of `ndb_receive_node`. -/
structure Inv (s : State) : Prop where
  pages : PagesExcept s none
  connected : s.connected = true
  kept_lt : ∀ p, s.recNode.bufPage = some p → p < s.pages
  kept : ∀ m p, s.recNode.bufPage = some p → Live s m → ¬ RefersTo s m p
  kept_size : s.recNode.readSize = 0 → s.recNode.bufPage = none
  header : s.recNode.readHeaderFlag = true → minNdbHeaderSize ≤ s.recNode.readSize
  on_page : ∀ t, (s.temp t).numMessagesOnPage = 0

theorem Inv.pagesOk {s : State} (h : Inv s) : PagesOk s where
  in_use p hp := h.pages.in_use p (some_ne_none p) hp
  free p hlt hp := h.pages.free p hlt (some_ne_none p) hp

/-! ## One message -/

section Message

variable {s : State} {l : Local} {p t : Nat}

/-- The fields that the loop over messages leaves alone. -/
structure Framed (s s' : State) : Prop where
  recNode : s'.recNode = s.recNode
  connected : s'.connected = s.connected
  mem : s'.mem = s.mem
  pages : s'.pages = s.pages
  returned : s'.returned = s.returned

theorem Framed.trans {s s₁ s₂ : State} (h : Framed s s₁) (h' : Framed s₁ s₂) : Framed s s₂ :=
  ⟨h'.recNode.trans h.recNode, h'.connected.trans h.connected, h'.mem.trans h.mem,
    h'.pages.trans h.pages, h'.returned.trans h.returned⟩

/-- What a message adds: one message object, at the end of one list. -/
structure Received (s s' : State) (l l' : Local) (p t : Nat) : Prop where
  framed : Framed s s'
  msgs : s'.msgs = s.msgs + 1
  msg : ∀ m ≠ s.msgs, s'.msg m = s.msg m
  refCount : (s'.msg s.msgs).refCount = 0
  received : s'.received = s.received
  executing : s'.executing = s.executing
  temp_self : (s'.temp t).received = (s.temp t).received ++ [s.msgs]
  temp_other : ∀ u ≠ t, s'.temp u = s.temp u
  short_or_long :
    (∃ bytes, (s'.msg s.msgs).sockBuf = .own bytes) ∧ l' = l ∧
        (s'.temp t).lastLong = (s.temp t).lastLong ∧
        (s'.temp t).numMessagesOnPage = (s.temp t).numMessagesOnPage ∨
      (∃ off, (s'.msg s.msgs).sockBuf = .data p off) ∧
        (s'.temp t).lastLong = some s.msgs ∧
        (l'.pageModules = l.pageModules ++ [t] ∨
          l'.pageModules = l.pageModules ∧ (s.temp t).numMessagesOnPage ≠ 0)

theorem receiveMessage_spec (s : State) (l : Local) (p t : Nat) :
    Received s (receiveMessage s l p t).1 l (receiveMessage s l p t).2 p t := by
  unfold receiveMessage
  by_cases hshort : l.messageSize ≤ stdCacheLineSize
  · simp only [hshort, if_true]
    refine ⟨⟨rfl, rfl, rfl, rfl, rfl⟩, rfl, ?_, ?_, rfl, rfl, ?_, ?_, .inl ⟨?_, rfl, ?_, ?_⟩⟩
    · intro m hm
      exact update_of_ne hm _ _
    · simp [putMessageOnTempList]
    · simp [putMessageOnTempList]
    · intro u hu
      exact update_of_ne hu _ _
    · exact ⟨_, by simp [putMessageOnTempList]; rfl⟩
    · simp [putMessageOnTempList]
    · simp [putMessageOnTempList]
  · simp only [hshort, if_false, pageRefCountHandling]
    by_cases hfirst : (s.temp t).numMessagesOnPage = 0
    · simp only [hfirst, if_true]
      refine ⟨⟨rfl, rfl, rfl, rfl, rfl⟩, rfl, ?_, ?_, rfl, rfl, ?_, ?_, .inr ⟨?_, ?_, .inl rfl⟩⟩
      · intro m hm
        exact update_of_ne hm _ _
      · simp [putMessageOnTempList]
      · simp [putMessageOnTempList]
      · intro u hu
        simp [putMessageOnTempList, hu]
      · exact ⟨l.off, by simp [putMessageOnTempList]⟩
      · simp [putMessageOnTempList]
    · simp only [hfirst, if_false]
      refine ⟨⟨rfl, rfl, rfl, rfl, rfl⟩, rfl, ?_, ?_, rfl, rfl, ?_, ?_,
        .inr ⟨?_, ?_, .inr ⟨rfl, hfirst⟩⟩⟩
      · intro m hm
        exact update_of_ne hm _ _
      · simp [putMessageOnTempList]
      · simp [putMessageOnTempList]
      · intro u hu
        simp [putMessageOnTempList, hu]
      · exact ⟨l.off, by simp [putMessageOnTempList]⟩
      · simp [putMessageOnTempList]

variable {s' : State} {l' : Local}

section

variable (h : Received s s' l l' p t)

include h

theorem Received.live_iff {m : Nat} : Live s' m ↔ Live s m ∨ m = s.msgs := by
  constructor
  · rintro ⟨u, htemp | hrest⟩
    · by_cases hu : u = t
      · subst hu
        rw [h.temp_self, mem_append, mem_singleton] at htemp
        rcases htemp with hold | hnew
        · exact .inl ⟨u, .inl hold⟩
        · exact .inr hnew
      · rw [h.temp_other u hu] at htemp
        exact .inl ⟨u, .inl htemp⟩
    · rw [h.received, h.executing] at hrest
      exact .inl ⟨u, .inr hrest⟩
  · rintro (⟨u, htemp | hrest⟩ | hnew)
    · refine ⟨u, .inl ?_⟩
      by_cases hu : u = t
      · subst hu
        rw [h.temp_self]
        exact mem_append_left _ htemp
      · rwa [h.temp_other u hu]
    · refine ⟨u, .inr ?_⟩
      rwa [h.received, h.executing]
    · refine ⟨t, .inl ?_⟩
      rw [h.temp_self, hnew]
      exact mem_append_right _ (mem_singleton_self _)

theorem Received.refersTo_iff {m q : Nat} (hm : m ≠ s.msgs) : RefersTo s' m q ↔ RefersTo s m q := by
  rw [RefersTo, RefersTo, h.msg m hm]

/-- The new message object refers to the page at hand, if to any. -/
theorem Received.refersTo_new {q : Nat} (hq : RefersTo s' s.msgs q) : q = p := by
  rcases hq with ⟨off, hbuf⟩
  rcases h.short_or_long with ⟨⟨bytes, hown⟩, -⟩ | ⟨⟨off', hdata⟩, -⟩
  · rw [hown] at hbuf
    cases hbuf
  · rw [hdata] at hbuf
    cases hbuf
    rfl

theorem Received.inUse_iff (hlt : ∀ m, Live s m → m < s.msgs) {q : Nat} (hq : q ≠ p) :
    InUse s' q ↔ InUse s q := by
  rw [InUse, InUse, h.framed.recNode]
  refine or_congr_right ?_
  constructor
  · rintro ⟨m, hlive, hrefers⟩
    rcases h.live_iff.mp hlive with hold | rfl
    · exact ⟨m, hold, (h.refersTo_iff (Nat.ne_of_lt (hlt m hold))).mp hrefers⟩
    · exact absurd (h.refersTo_new hrefers) hq
  · rintro ⟨m, hlive, hrefers⟩
    exact ⟨m, h.live_iff.mpr (.inl hlive),
      (h.refersTo_iff (Nat.ne_of_lt (hlt m hlive))).mpr hrefers⟩

theorem Received.pagesExcept (hpages : PagesExcept s (some p)) (hp : p < s.pages) :
    PagesExcept s' (some p) := by
  have hne : ∀ q, some q ≠ some p → q ≠ p := fun q hq heq => hq (congrArg some heq)
  constructor
  · rw [h.framed.returned, h.framed.pages]
    exact hpages.returned_lt
  · intro m q hlive hrefers
    rw [h.framed.pages]
    rcases h.live_iff.mp hlive with hold | rfl
    · exact hpages.refers_lt m q hold
        ((h.refersTo_iff (Nat.ne_of_lt (hpages.msg_lt m hold))).mp hrefers)
    · rw [h.refersTo_new hrefers]
      exact hp
  · intro m hlive
    rw [h.msgs]
    rcases h.live_iff.mp hlive with hold | rfl
    · exact Nat.lt_succ_of_lt (hpages.msg_lt m hold)
    · exact Nat.lt_succ_self _
  · intro q hq huse
    rw [h.framed.returned]
    exact hpages.in_use q hq ((h.inUse_iff hpages.msg_lt (hne q hq)).mp huse)
  · intro q hlt hq huse
    rw [h.framed.returned]
    rw [h.framed.pages] at hlt
    rw [h.inUse_iff hpages.msg_lt (hne q hq)] at huse
    exact hpages.free q hlt hq huse
  · intro m q hq hlive hrefers
    rcases h.live_iff.mp hlive with hold | rfl
    · have hrefers' := (h.refersTo_iff (Nat.ne_of_lt (hpages.msg_lt m hold))).mp hrefers
      obtain ⟨m', hlive', hmark, hcount⟩ := hpages.marked m q hq hold hrefers'
      have hm' := Nat.ne_of_lt (hpages.msg_lt m' hlive')
      refine ⟨m', h.live_iff.mpr (.inl hlive'), (h.refersTo_iff hm').mpr hmark, ?_⟩
      rw [h.msg m' hm']
      exact hcount
    · exact absurd (h.refersTo_new hrefers) (hne q hq)

/-- A message keeps the invariant of the loop. -/
theorem Received.loopInv (hinv : LoopInv s l p) : LoopInv s' l'.advance p := by
  have hsub : ∀ u ∈ l.pageModules, u ∈ l'.pageModules := by
    rcases h.short_or_long with ⟨-, rfl, -⟩ | ⟨-, -, heq | ⟨heq, -⟩⟩
    · exact fun u hu => hu
    · intro u hu
      rw [heq]
      exact mem_append_left _ hu
    · intro u hu
      rwa [heq]
  constructor
  · exact h.pagesExcept hinv.pages hinv.lt
  · rw [h.framed.pages]
    exact hinv.lt
  · rw [h.framed.returned]
    exact hinv.not_returned
  · rw [h.framed.recNode]
    exact hinv.kept
  · intro m hlive hrefers
    change l'.pageModules ≠ []
    rcases h.live_iff.mp hlive with hold | rfl
    · have hne := hinv.modules m hold
        ((h.refersTo_iff (Nat.ne_of_lt (hinv.pages.msg_lt m hold))).mp hrefers)
      obtain ⟨u, hu⟩ := exists_mem_of_ne_nil _ hne
      exact ne_nil_of_mem (hsub u hu)
    · rcases h.short_or_long with ⟨⟨bytes, hown⟩, -⟩ | ⟨-, -, heq | ⟨heq, hpage⟩⟩
      · rcases hrefers with ⟨off, hbuf⟩
        rw [hown] at hbuf
        cases hbuf
      · rw [heq]
        simp
      · exact ne_nil_of_mem (hsub t (hinv.on_page t hpage))
  · intro u hu
    by_cases hut : u = t
    · subst hut
      rcases h.short_or_long with ⟨-, rfl, hlast, -⟩ | ⟨⟨off, hdata⟩, hlast, -⟩
      · obtain ⟨m, hm, hmem, hrefers⟩ := hinv.last_long u hu
        have hlive : Live s m := ⟨u, .inl hmem⟩
        refine ⟨m, hlast.trans hm, ?_,
          (h.refersTo_iff (Nat.ne_of_lt (hinv.pages.msg_lt m hlive))).mpr hrefers⟩
        rw [h.temp_self]
        exact mem_append_left _ hmem
      · refine ⟨s.msgs, hlast, ?_, off, hdata⟩
        rw [h.temp_self]
        exact mem_append_right _ (mem_singleton_self _)
    · have hold : u ∈ l.pageModules := by
        change u ∈ l'.pageModules at hu
        rcases h.short_or_long with ⟨-, rfl, -⟩ | ⟨-, -, heq | ⟨heq, -⟩⟩
        · exact hu
        · rw [heq, mem_append, mem_singleton] at hu
          exact hu.resolve_right hut
        · rwa [heq] at hu
      obtain ⟨m, hm, hmem, hrefers⟩ := hinv.last_long u hold
      have hlive : Live s m := ⟨u, .inl hmem⟩
      rw [h.temp_other u hut]
      exact ⟨m, hm, hmem, (h.refersTo_iff (Nat.ne_of_lt (hinv.pages.msg_lt m hlive))).mpr hrefers⟩
  · intro u hu
    change u ∈ l'.pageModules
    by_cases hut : u = t
    · subst hut
      rcases h.short_or_long with ⟨-, rfl, -, hnum⟩ | ⟨-, -, heq | ⟨heq, hpage⟩⟩
      · rw [hnum] at hu
        exact hinv.on_page u hu
      · rw [heq]
        exact mem_append_right _ (mem_singleton_self _)
      · exact hsub u (hinv.on_page u hpage)
    · rw [h.temp_other u hut] at hu
      exact hsub u (hinv.on_page u hu)

end

end Message

/-! ## One round -/

theorem LoopInv.congr {s : State} {l l' : Local} {p : Nat} (h : LoopInv s l p)
    (hmod : l'.pageModules = l.pageModules) : LoopInv s l' p :=
  ⟨h.pages, h.lt, h.not_returned, h.kept, hmod ▸ h.modules, hmod ▸ h.last_long, hmod ▸ h.on_page⟩

/-- The flag says that a header was read. -/
def HeaderOk (l : Local) : Prop := l.readHeaderFlag = true → minNdbHeaderSize ≤ l.readSize

/-- The page starts with a complete message. -/
def FirstComplete (byteOrder : Bool) (bytes : List UInt8) (l : Local) : Prop :=
  minNdbHeaderSize ≤ l.readSize ∧ (l.readHeader byteOrder bytes).messageSize ≤ l.readSize

section Loop

variable {byteOrder : Bool} {p : Nat} {s' : State} {l' : Local} {done : Bool}

theorem Local.readHeader_pageModules (l : Local) (byteOrder : Bool) (bytes : List UInt8) :
    (l.readHeader byteOrder bytes).pageModules = l.pageModules := by
  unfold Local.readHeader
  split <;> rfl

theorem Local.readHeader_readSize (l : Local) (byteOrder : Bool) (bytes : List UInt8) :
    (l.readHeader byteOrder bytes).readSize = l.readSize := by
  unfold Local.readHeader
  split <;> rfl

theorem Local.readHeader_any (l : Local) (byteOrder : Bool) (bytes : List UInt8) :
    (l.readHeader byteOrder bytes).anyMessageReceived = l.anyMessageReceived := by
  unfold Local.readHeader
  split <;> rfl

/-- The loop over the messages keeps its invariant, and does not run out of message objects. A
message that is complete is received. -/
theorem messageLoop_spec (fuel : Nat) (s : State) (l : Local) (hinv : LoopInv s l p)
    (hrun : messageLoop byteOrder p fuel none s l = some (s', l', done)) :
    done = true ∧ LoopInv s' l' p ∧ Framed s s' ∧ (HeaderOk l → HeaderOk l') ∧
      (l.anyMessageReceived = true ∨ FirstComplete byteOrder (s.mem p) l →
        l'.anyMessageReceived = true) := by
  induction fuel generalizing s l with
  | zero => cases hrun
  | succ fuel ih =>
    rw [messageLoop] at hrun
    by_cases hsize : l.readSize < minNdbHeaderSize
    · simp only [hsize, if_true, Option.some.injEq, Prod.mk.injEq] at hrun
      obtain ⟨rfl, rfl, rfl⟩ := hrun
      refine ⟨rfl, hinv, ⟨rfl, rfl, rfl, rfl, rfl⟩, fun h => h, ?_⟩
      rintro (hany | hfirst)
      · exact hany
      · exact absurd hsize (Nat.not_lt.mpr hfirst.1)
    · simp only [hsize, if_false] at hrun
      have hhead := hinv.congr (l.readHeader_pageModules byteOrder (s.mem p))
      have hread := l.readHeader_readSize byteOrder (s.mem p)
      have hany := l.readHeader_any byteOrder (s.mem p)
      have hcomplete : FirstComplete byteOrder (s.mem p) l →
          ¬ l.readSize < (l.readHeader byteOrder (s.mem p)).messageSize :=
        fun h => Nat.not_lt.mpr h.2
      generalize l.readHeader byteOrder (s.mem p) = lh at hrun hhead hread hany hcomplete
      by_cases hlong : lh.readSize < lh.messageSize
      · simp only [hlong, if_true, Option.some.injEq, Prod.mk.injEq] at hrun
        obtain ⟨rfl, rfl, rfl⟩ := hrun
        refine ⟨rfl, hhead, ⟨rfl, rfl, rfl, rfl, rfl⟩, fun _ _ => ?_, ?_⟩
        · rw [hread]
          exact Nat.not_lt.mp hsize
        · rintro (h | hfirst)
          · rw [hany]
            exact h
          · exact absurd (hread ▸ hlong) (hcomplete hfirst)
      · simp only [hlong, if_false] at hrun
        -- The header flag is off after a message, and a message has been received.
        have hflag : ∀ lr : Local, HeaderOk lr.advance := fun _ => nofun
        simp only [reduceCtorEq, if_false, map_none] at hrun
        split_ifs at hrun with hthread hlt hother
        · have hspec := receiveMessage_spec s lh p (lh.receiverModuleId - ndbMinModuleIdForThreads)
          obtain ⟨hdone, hinv', hframed, hhdr, hany'⟩ := ih _ _ (hspec.loopInv hhead) hrun
          exact ⟨hdone, hinv', hspec.framed.trans hframed, fun _ => hhdr (hflag _),
            fun _ => hany' (.inl rfl)⟩
        · obtain ⟨hdone, hinv', hframed, hhdr, hany'⟩ := ih s lh.advance (hhead.congr rfl) hrun
          exact ⟨hdone, hinv', hframed, fun _ => hhdr (hflag lh), fun _ => hany' (.inl rfl)⟩

end Loop

/-- The end of a round: the rest of the page was kept elsewhere, and the page is to be handed
over. -/
structure TailKept (s : State) (l : Local) (p : Nat) : Prop where
  pages : PagesExcept s (some p)
  lt : p < s.pages
  not_returned : .page p ∉ s.returned
  kept_lt : ∀ q, s.recNode.bufPage = some q → q < s.pages
  kept : ∀ m q, s.recNode.bufPage = some q → Live s m → ¬ RefersTo s m q
  kept_ne : s.recNode.bufPage ≠ some p
  modules : ∀ m, Live s m → RefersTo s m p → l.pageModules ≠ []
  last_long : ∀ t ∈ l.pageModules, ∃ m, (s.temp t).lastLong = some m ∧
    m ∈ (s.temp t).received ∧ RefersTo s m p
  on_page : ∀ t, (s.temp t).numMessagesOnPage ≠ 0 → t ∈ l.pageModules

section Round

variable {s s' : State} {l : Local} {p : Nat}

/-- The kept page changes, to a new one or to none. -/
theorem LoopInv.setRecNode (h : LoopInv s l p) (r : RecNode) (n : Nat) (mem : Nat → List UInt8)
    (hr : r.bufPage = none ∧ n = s.pages ∨ r.bufPage = some s.pages ∧ n = s.pages + 1) :
    TailKept { s with recNode := r, pages := n, mem := mem } l p := by
  have hn : s.pages ≤ n := by omega
  have hkept : ∀ q, r.bufPage = some q → q = s.pages ∧ n = s.pages + 1 := by
    intro q hq
    rcases hr with ⟨hnone, -⟩ | ⟨hsome, hnew⟩
    · rw [hnone] at hq
      cases hq
    · rw [hsome] at hq
      cases hq
      exact ⟨rfl, hnew⟩
  have hnever : ∀ m, Live s m → ¬ RefersTo s m s.pages := fun m hlive hrefers =>
    Nat.lt_irrefl _ (h.pages.refers_lt m s.pages hlive hrefers)
  refine ⟨⟨?_, ?_, h.pages.msg_lt, ?_, ?_, h.pages.marked⟩, Nat.lt_of_lt_of_le h.lt hn,
    h.not_returned, ?_, ?_, ?_, h.modules, h.last_long, h.on_page⟩
  · intro q hq
    exact Nat.lt_of_lt_of_le (h.pages.returned_lt q hq) hn
  · intro m q hlive hrefers
    exact Nat.lt_of_lt_of_le (h.pages.refers_lt m q hlive hrefers) hn
  · intro q hq huse
    rcases huse with hbuf | hlive
    · obtain ⟨rfl, -⟩ := hkept q hbuf
      exact fun hret => Nat.lt_irrefl _ (h.pages.returned_lt _ hret)
    · exact h.pages.in_use q hq (.inr hlive)
  · intro q hlt hq huse
    have hold : q < s.pages := by
      rcases hr with ⟨-, rfl⟩ | ⟨hsome, rfl⟩
      · exact hlt
      · have hne : q ≠ s.pages := by
          rintro rfl
          exact huse (.inl hsome)
        have hlt' : q < s.pages + 1 := hlt
        omega
    refine h.pages.free q hold hq ?_
    rintro (hbuf | hlive)
    · exact hq (congrArg some (h.kept q hbuf))
    · exact huse (.inr hlive)
  · intro q hq
    obtain ⟨rfl, rfl⟩ := hkept q hq
    exact Nat.lt_succ_self _
  · intro m q hq hlive
    obtain ⟨rfl, -⟩ := hkept q hq
    exact hnever m hlive
  · intro hp
    obtain ⟨rfl, -⟩ := hkept p hp
    exact Nat.lt_irrefl _ h.lt

/-- Where the rest of a page is kept, if there is any. -/
theorem keepTail_spec (h : LoopInv s l p)
    (hnone : l.anyMessageReceived = false → s.recNode.bufPage = none)
    (hrun : keepTail s l p true = some s') :
    TailKept s' l p ∧ s'.connected = s.connected ∧
      (l.readSize = 0 ∧ s'.recNode = .empty ∨
        0 < l.readSize ∧ l.anyMessageReceived = true ∧
          s'.recNode.readSize = l.readSize ∧ s'.recNode.readHeaderFlag = l.readHeaderFlag ∨
        0 < l.readSize ∧ s'.recNode = s.recNode ∧ s.recNode.bufPage = none) := by
  unfold keepTail at hrun
  by_cases hsize : 0 < l.readSize
  · cases hany : l.anyMessageReceived with
    | true =>
      simp only [hsize, if_true, hany, Option.some.injEq] at hrun
      subst hrun
      exact ⟨h.setRecNode _ _ _ (.inr ⟨rfl, rfl⟩), rfl, .inr (.inl ⟨hsize, rfl, rfl, rfl⟩)⟩
    | false =>
      simp only [hsize, if_true, hany, Bool.false_eq_true, if_false, Option.some.injEq] at hrun
      subst hrun
      have hbuf := hnone hany
      exact ⟨h.setRecNode s.recNode s.pages s.mem (.inl ⟨hbuf, rfl⟩), rfl,
        .inr (.inr ⟨hsize, rfl, hbuf⟩)⟩
  · simp only [hsize, if_false, Option.some.injEq] at hrun
    subst hrun
    exact ⟨h.setRecNode _ s.pages s.mem (.inl ⟨rfl, rfl⟩), rfl, .inl ⟨by omega, rfl⟩⟩

theorem keepTail_ne_none : keepTail s l p true ≠ none := by
  unfold keepTail
  by_cases hsize : 0 < l.readSize
  · by_cases hany : l.anyMessageReceived = true
    · simp [hsize, hany]
    · simp [hsize, hany]
  · simp [hsize]

/-- What marking changes: only counts. -/
structure MarkedAll (s s' : State) (ts : List Nat) : Prop where
  recNode : s'.recNode = s.recNode
  connected : s'.connected = s.connected
  pages : s'.pages = s.pages
  returned : s'.returned = s.returned
  msgs : s'.msgs = s.msgs
  live : ∀ m, Live s' m ↔ Live s m
  sockBuf : ∀ m, (s'.msg m).sockBuf = (s.msg m).sockBuf
  keeps : ∀ m, 0 < (s.msg m).refCount → 0 < (s'.msg m).refCount
  marks : ∀ t ∈ ts, ∀ m, (s.temp t).lastLong = some m → 0 < (s'.msg m).refCount
  on_page : ∀ t, (s'.temp t).numMessagesOnPage ≠ 0 → t ∉ ts ∧ (s.temp t).numMessagesOnPage ≠ 0

theorem markLastLong_spec {ts : List Nat} (hrun : markLastLong ts s = some s') :
    MarkedAll s s' ts := by
  induction ts generalizing s with
  | nil =>
    cases hrun
    exact ⟨rfl, rfl, rfl, rfl, rfl, fun _ => Iff.rfl, fun _ => rfl, fun _ h => h, nofun,
      fun _ h => ⟨not_mem_nil, h⟩⟩
  | cons t ts ih =>
    rw [markLastLong] at hrun
    cases hlast : (s.temp t).lastLong with
    | none => simp [hlast] at hrun
    | some n =>
      simp only [hlast] at hrun
      have h := ih hrun
      refine ⟨h.recNode, h.connected, h.pages, h.returned, h.msgs, ?_, ?_, ?_, ?_, ?_⟩
      · intro m
        rw [h.live m]
        refine exists_congr fun u => or_congr_left ?_
        by_cases hu : u = t
        · subst hu
          simp
        · simp [hu]
      · intro m
        rw [h.sockBuf m]
        by_cases hm : m = n
        · subst hm
          simp
        · simp [hm]
      · intro m hm
        refine h.keeps m ?_
        by_cases hmn : m = n
        · simp [hmn]
        · simpa [hmn] using hm
      · intro u hu m hm
        rcases mem_cons.mp hu with rfl | hrest
        · rw [hlast] at hm
          cases hm
          exact h.keeps n (by simp)
        · by_cases hut : u = t
          · subst hut
            refine h.marks u hrest m ?_
            rw [hlast] at hm
            simpa using hm
          · exact h.marks u hrest m (by simpa [hut] using hm)
      · intro u hu
        obtain ⟨hnot, hold⟩ := h.on_page u hu
        have hut : u ≠ t := by
          rintro rfl
          simp at hold
        exact ⟨by simp [hut, hnot], by simpa [hut] using hold⟩

/-- The page is handed over: it is returned, or a message object that refers to it is marked. -/
theorem TailKept.handOver (h : TailKept s l p) (hrun : handOver s l.pageModules p = some s') :
    PagesExcept s' none ∧ s'.connected = s.connected ∧ s'.recNode = s.recNode ∧
      s'.pages = s.pages ∧ (∀ m q, s.recNode.bufPage = some q → Live s' m → ¬ RefersTo s' m q) ∧
      ∀ t, (s'.temp t).numMessagesOnPage = 0 := by
  unfold Receive.handOver at hrun
  by_cases hmod : l.pageModules = []
  · simp only [hmod, if_true, Option.some.injEq] at hrun
    subst hrun
    have hfree : ∀ m, Live s m → ¬ RefersTo s m p := fun m hlive hrefers =>
      h.modules m hlive hrefers hmod
    have hpuse : ¬ InUse s p := by
      rintro (hbuf | ⟨m, hlive, hrefers⟩)
      · exact h.kept_ne hbuf
      · exact hfree m hlive hrefers
    refine ⟨⟨?_, h.pages.refers_lt, h.pages.msg_lt, ?_, ?_, ?_⟩, rfl, rfl, rfl, h.kept, ?_⟩
    · intro q hq
      rcases mem_append.mp hq with hold | hnew
      · exact h.pages.returned_lt q hold
      · cases mem_singleton.mp hnew
        exact h.lt
    · intro q _ huse hq
      have hqp : q ≠ p := by
        rintro rfl
        exact hpuse huse
      rcases mem_append.mp hq with hold | hnew
      · exact h.pages.in_use q (fun heq => hqp (Option.some.inj heq)) huse hold
      · cases mem_singleton.mp hnew
        exact hqp rfl
    · intro q hlt _ huse
      by_cases hqp : q = p
      · subst hqp
        simp [count_eq_zero_of_not_mem h.not_returned]
      · have hold := h.pages.free q hlt (fun heq => hqp (Option.some.inj heq)) huse
        rw [count_append, hold, count_singleton]
        simp [Ne.symm hqp]
    · intro m q _ hlive hrefers
      refine h.pages.marked m q (fun heq => ?_) hlive hrefers
      cases heq
      exact hfree m hlive hrefers
    · intro t
      by_contra hnum
      have hmem := h.on_page t hnum
      rw [hmod] at hmem
      cases hmem
  · simp only [hmod, if_false] at hrun
    have hm := markLastLong_spec hrun
    have hrefers : ∀ m q, RefersTo s' m q ↔ RefersTo s m q := by
      intro m q
      rw [RefersTo, RefersTo, hm.sockBuf]
    have huse : ∀ q, InUse s' q ↔ InUse s q := by
      intro q
      rw [InUse, InUse, hm.recNode]
      exact or_congr_right (exists_congr fun m => and_congr (hm.live m) (hrefers m q))
    have hmark : ∀ q, Marked s q → Marked s' q := by
      rintro q ⟨m, hlive, href, hcount⟩
      exact ⟨m, (hm.live m).mpr hlive, (hrefers m q).mpr href, hm.keeps m hcount⟩
    -- Some thread connection has a long message on the page, and the last of them is marked.
    have hpmark : Marked s' p := by
      obtain ⟨t, ht⟩ := exists_mem_of_ne_nil _ hmod
      obtain ⟨m, hlast, hmem, href⟩ := h.last_long t ht
      exact ⟨m, (hm.live m).mpr ⟨t, .inl hmem⟩, (hrefers m p).mpr href, hm.marks t ht m hlast⟩
    refine ⟨⟨?_, ?_, ?_, ?_, ?_, ?_⟩, hm.connected, hm.recNode, hm.pages, ?_, ?_⟩
    · rw [hm.returned, hm.pages]
      exact h.pages.returned_lt
    · intro m q hlive href
      rw [hm.pages]
      exact h.pages.refers_lt m q ((hm.live m).mp hlive) ((hrefers m q).mp href)
    · intro m hlive
      rw [hm.msgs]
      exact h.pages.msg_lt m ((hm.live m).mp hlive)
    · intro q _ hq
      rw [hm.returned]
      by_cases hqp : q = p
      · rw [hqp]
        exact h.not_returned
      · exact h.pages.in_use q (fun heq => hqp (Option.some.inj heq)) ((huse q).mp hq)
    · intro q hlt _ hq
      rw [hm.returned]
      rw [hm.pages] at hlt
      have hqp : q ≠ p := by
        rintro rfl
        obtain ⟨m, hlive, href, -⟩ := hpmark
        exact hq (.inr ⟨m, hlive, href⟩)
      exact h.pages.free q hlt (fun heq => hqp (Option.some.inj heq)) (fun h => hq ((huse q).mpr h))
    · intro m q _ hlive href
      by_cases hqp : q = p
      · rw [hqp]
        exact hpmark
      · exact hmark q (h.pages.marked m q (fun heq => hqp (Option.some.inj heq))
          ((hm.live m).mp hlive) ((hrefers m q).mp href))
    · intro m q hbuf hlive href
      exact h.kept m q hbuf ((hm.live m).mp hlive) ((hrefers m q).mp href)
    · intro t
      by_contra hnum
      obtain ⟨hnot, hold⟩ := hm.on_page t hnum
      exact hnot (h.on_page t hold)

end Round

/-! ## Runs -/

section Call

variable {byteOrder : Bool} {pageSize : Nat} {s s' : State} {l l' : Local} {p : Nat}

/-- A page that is read into: it is new, or it is the kept one. -/
theorem Inv.readPage (h : Inv s) {n : Nat} (hn : n = 0 → s.recNode.bufPage = none)
    (hread : readPage s n = some (s', p)) (mem : Nat → List UInt8) (hl : l.pageModules = []) :
    LoopInv { s' with mem := mem } l p ∧ s'.recNode = s.recNode ∧ s'.connected = s.connected ∧
      (s.recNode.bufPage = none ∨ s.recNode.bufPage = some p ∧ s' = s) := by
  unfold Receive.readPage at hread
  have hcur : ∀ q : Nat, some q ≠ none := some_ne_none
  have hzero : ∀ u, (s.temp u).numMessagesOnPage ≠ 0 → u ∈ l.pageModules := fun u hu =>
    absurd (h.on_page u) hu
  by_cases hsize : n = 0
  · simp only [hsize, if_true, Option.some.injEq, Prod.mk.injEq] at hread
    obtain ⟨rfl, rfl⟩ := hread
    have hnone := hn hsize
    refine ⟨⟨⟨?_, ?_, h.pages.msg_lt, ?_, ?_, ?_⟩, Nat.lt_succ_self _, ?_, ?_, ?_, ?_, hzero⟩, rfl,
      rfl, .inl hnone⟩
    · intro q hq
      exact Nat.lt_succ_of_lt (h.pages.returned_lt q hq)
    · intro m q hlive hrefers
      exact Nat.lt_succ_of_lt (h.pages.refers_lt m q hlive hrefers)
    · intro q _ huse
      exact h.pages.in_use q (hcur q) huse
    · intro q hlt hq huse
      have hne : q ≠ s.pages := fun heq => hq (congrArg some heq)
      have hlt' : q < s.pages + 1 := hlt
      exact h.pages.free q (by omega) (hcur q) huse
    · intro m q _ hlive hrefers
      exact h.pages.marked m q (hcur q) hlive hrefers
    · intro hret
      exact Nat.lt_irrefl _ (h.pages.returned_lt _ hret)
    · intro q hq
      have hq' : s.recNode.bufPage = some q := hq
      rw [hnone] at hq'
      cases hq'
    · intro m hlive hrefers
      exact absurd (h.pages.refers_lt m _ hlive hrefers) (Nat.lt_irrefl _)
    · rw [hl]
      exact nofun
  · simp only [hsize, if_false, map_eq_some_iff, Prod.mk.injEq] at hread
    obtain ⟨q, hbuf, rfl, rfl⟩ := hread
    refine ⟨⟨⟨h.pages.returned_lt, h.pages.refers_lt, h.pages.msg_lt, ?_, ?_, ?_⟩, h.kept_lt _ hbuf,
      h.pages.in_use q (hcur q) (.inl hbuf), ?_, ?_, ?_, hzero⟩, rfl, rfl, .inr ⟨hbuf, rfl⟩⟩
    · intro r _ huse
      exact h.pages.in_use r (hcur r) huse
    · intro r hlt _ huse
      exact h.pages.free r hlt (hcur r) huse
    · intro m r _ hlive hrefers
      exact h.pages.marked m r (hcur r) hlive hrefers
    · intro r hr
      have hr' : s.recNode.bufPage = some r := hr
      rw [hbuf] at hr'
      cases hr'
      rfl
    · intro m hlive hrefers
      exact absurd hrefers (h.kept m q hbuf hlive)
    · rw [hl]
      exact nofun

/-- The local variables at the start of the loop over messages. -/
def Local.read (l : Local) (chunk : List UInt8) : Local :=
  { l with off := 0, readSize := l.readSize + chunk.length, pageModules := [] }

/-- If a page is kept, then the next round receives a message or one was received before. -/
def Progress (byteOrder : Bool) (s : State) (l : Local) (rounds : List Round) : Prop :=
  ∀ p, s.recNode.bufPage = some p → l.anyMessageReceived = true ∨
    ∀ r ∈ rounds.head?, ∀ chunk ∈ r.chunk,
      FirstComplete byteOrder ((s.mem p).take l.readSize ++ chunk) (l.read chunk)

/-- One call: the rounds keep the invariant, and the call succeeds. -/
theorem receiveLoop_spec {rounds : List Round} {loopCount : Nat} {result : Result} {any : Bool}
    (hsupplied : ∀ r ∈ rounds, r.Supplied) (h : Inv s) (hhead : HeaderOk l)
    (hsize : l.readSize = 0 → s.recNode.bufPage = none) (hprog : Progress byteOrder s l rounds)
    (hrun : receiveLoop byteOrder pageSize rounds loopCount s l = some (s', result, any)) :
    Inv s' ∧ result = .ok := by
  induction rounds generalizing loopCount s l with
  | nil => cases hrun
  | cons r rounds ih =>
    obtain ⟨hpage, hchunk, hfail, hnew⟩ := hsupplied r mem_cons_self
    obtain ⟨chunk, hchunk⟩ := ne_none_iff_exists'.mp hchunk
    simp only [receiveLoop, hpage, Bool.true_eq_false, and_false, if_false, hchunk, hfail, hnew,
      bind_eq_bind, bind_eq_some_iff] at hrun
    obtain ⟨⟨s₁, p⟩, hread, hrun⟩ := hrun
    obtain ⟨hloop, hrec, hconn, hbuf⟩ := h.readPage hsize hread
      (update s₁.mem p ((s₁.mem p).take l.readSize ++ chunk)) (l := l.read chunk) rfl
    simp only [ite_none_right_eq_some, bind_eq_some_iff] at hrun
    obtain ⟨⟨hpos, hfits⟩, ⟨s₂, l₂, done⟩, hmessages, hrun⟩ := hrun
    obtain ⟨rfl, hloop₂, hframed, hhead₂, hany₂⟩ := messageLoop_spec _ _ _ hloop hmessages
    have hhead₂' : HeaderOk l₂ := by
      refine hhead₂ fun hflag => ?_
      have hold := hhead hflag
      change minNdbHeaderSize ≤ l.readSize + chunk.length
      omega
    -- Without a message the kept page stays the only trace of what was read.
    have hnone : l₂.anyMessageReceived = false → s₂.recNode.bufPage = none := by
      intro hany
      rw [hframed.recNode]
      change s₁.recNode.bufPage = none
      rw [hrec]
      rcases hbuf with hnone | ⟨hsome, rfl⟩
      · exact hnone
      · have hmem : (update s₁.mem p ((s₁.mem p).take l.readSize ++ chunk)) p =
            (s₁.mem p).take l.readSize ++ chunk := update_self ..
        have hany' : l₂.anyMessageReceived = true := by
          rcases hprog p hsome with hbefore | hfirst
          · exact hany₂ (.inl hbefore)
          · have hcomplete := hfirst r rfl chunk hchunk
            rw [← hmem] at hcomplete
            exact hany₂ (.inr hcomplete)
        rw [hany] at hany'
        cases hany'
    simp only [if_true] at hrun
    cases htail : keepTail s₂ l₂ p true with
    | none => exact absurd htail keepTail_ne_none
    | some s₃ =>
      simp only [htail, bind_eq_some_iff] at hrun
      obtain ⟨s₄, hhand, hrun⟩ := hrun
      obtain ⟨hkept, hconn₃, hcases⟩ := keepTail_spec hloop₂ hnone htail
      obtain ⟨hpages₄, hconn₄, hrec₄, hpages_eq, hkept₄, hon₄⟩ := hkept.handOver hhand
      have hconnected : s₄.connected = true := by
        rw [hconn₄, hconn₃, hframed.connected]
        exact hconn.trans h.connected
      have hinv : Inv s₄ := by
        refine ⟨hpages₄, hconnected, ?_, ?_, ?_, ?_, hon₄⟩
        · intro q hq
          rw [hpages_eq]
          exact hkept.kept_lt q (hrec₄ ▸ hq)
        · intro m q hq
          exact hkept₄ m q (hrec₄ ▸ hq)
        · intro hzero
          rw [hrec₄] at hzero ⊢
          rcases hcases with ⟨-, hempty⟩ | ⟨hpos', -, hreadSize, -⟩ | ⟨-, hsame, hnone'⟩
          · rw [hempty]
            rfl
          · omega
          · rw [hsame]
            exact hnone'
        · intro hflag
          rw [hrec₄] at hflag ⊢
          rcases hcases with ⟨-, hempty⟩ | ⟨-, -, hreadSize, hflag'⟩ | ⟨-, hsame, -⟩
          · rw [hempty] at hflag
            cases hflag
          · rw [hreadSize]
            exact hhead₂' (hflag' ▸ hflag)
          · rw [hsame, hframed.recNode] at hflag ⊢
            change s₁.recNode.readHeaderFlag = true at hflag
            change minNdbHeaderSize ≤ s₁.recNode.readSize
            rw [hrec] at hflag ⊢
            exact h.header hflag
      split_ifs at hrun with hmore hend
      · refine ih (fun r' hr' => hsupplied r' (mem_cons_of_mem r hr')) hinv hhead₂' ?_ ?_ hrun
        · intro hzero
          rw [hrec₄]
          rcases hcases with ⟨-, hempty⟩ | ⟨hpos', -⟩ | ⟨hpos', -⟩
          · rw [hempty]
            rfl
          · omega
          · omega
        · intro q hq
          left
          rw [hrec₄] at hq
          rcases hcases with ⟨-, hempty⟩ | ⟨-, hany, -⟩ | ⟨-, hsame, hnone'⟩
          · rw [hempty] at hq
            cases hq
          · exact hany
          · rw [hsame, hnone'] at hq
            cases hq
      · simp only [Option.some.injEq, Prod.mk.injEq] at hrun
        obtain ⟨rfl, rfl, -⟩ := hrun
        exact ⟨hinv, rfl⟩

end Call

section Step

variable {byteOrder : Bool} {pageSize : Nat} {s s' : State}

/-- Message objects go from one list to another, and unmarked ones go off the lists. -/
theorem Inv.relist (h : Inv s) (hrec : s'.recNode = s.recNode) (hconn : s'.connected = s.connected)
    (hpages : s'.pages = s.pages) (hret : s'.returned = s.returned) (hmsg : s'.msg = s.msg)
    (hmsgs : s'.msgs = s.msgs) (hlive : ∀ m, Live s' m → Live s m)
    (hmarked : ∀ m, 0 < (s.msg m).refCount → Live s m → Live s' m)
    (hnum : ∀ t, (s'.temp t).numMessagesOnPage = (s.temp t).numMessagesOnPage) : Inv s' := by
  have hrefers : ∀ m q, RefersTo s' m q ↔ RefersTo s m q := by
    intro m q
    rw [RefersTo, RefersTo, hmsg]
  have hmark : ∀ q, Marked s q → Marked s' q := by
    rintro q ⟨m, hm, href, hcount⟩
    exact ⟨m, hmarked m hcount hm, (hrefers m q).mpr href, hmsg ▸ hcount⟩
  have hcur : ∀ q : Nat, some q ≠ none := some_ne_none
  have huse : ∀ q, InUse s' q ↔ InUse s q := by
    intro q
    rw [InUse, InUse, hrec]
    refine or_congr_right ?_
    constructor
    · rintro ⟨m, hm, href⟩
      exact ⟨m, hlive m hm, (hrefers m q).mp href⟩
    · rintro ⟨m, hm, href⟩
      obtain ⟨m', hm', href', -⟩ := hmark q (h.pages.marked m q (hcur q) hm href)
      exact ⟨m', hm', href'⟩
  refine ⟨⟨?_, ?_, ?_, ?_, ?_, ?_⟩, hconn.trans h.connected, ?_, ?_, ?_, ?_, ?_⟩
  · rw [hret, hpages]
    exact h.pages.returned_lt
  · intro m q hm href
    rw [hpages]
    exact h.pages.refers_lt m q (hlive m hm) ((hrefers m q).mp href)
  · intro m hm
    rw [hmsgs]
    exact h.pages.msg_lt m (hlive m hm)
  · intro q hq hin
    rw [hret]
    exact h.pages.in_use q hq ((huse q).mp hin)
  · intro q hlt hq hin
    rw [hret]
    exact h.pages.free q (hpages ▸ hlt) hq (fun hold => hin ((huse q).mpr hold))
  · intro m q hq hm href
    exact hmark q (h.pages.marked m q hq (hlive m hm) ((hrefers m q).mp href))
  · rw [hrec, hpages]
    exact h.kept_lt
  · intro m q hbuf hm href
    exact h.kept m q (hrec ▸ hbuf) (hlive m hm) ((hrefers m q).mp href)
  · rw [hrec]
    exact h.kept_size
  · rw [hrec]
    exact h.header
  · intro t
    rw [hnum]
    exact h.on_page t

/-- Posting moves message objects to the queues of their thread connections. -/
theorem postLoop_inv {ts : List Nat} (h : Inv s) (hrun : postLoop ts s = some s') : Inv s' := by
  induction ts generalizing s with
  | nil =>
    cases hrun
    exact h.relist rfl rfl rfl rfl rfl rfl (fun _ hm => hm) (fun _ _ hm => hm) (fun _ => rfl)
  | cons t ts ih =>
    rw [postLoop] at hrun
    split_ifs at hrun
    refine ih ?_ hrun
    refine h.relist rfl rfl rfl rfl rfl rfl ?_ ?_ ?_
    · rintro m ⟨u, hmem⟩
      by_cases hu : u = t
      · subst hu
        simp only [update_self, not_mem_nil, mem_append, false_or] at hmem
        exact ⟨u, by tauto⟩
      · simp only [update_of_ne hu] at hmem
        exact ⟨u, hmem⟩
    · rintro m - ⟨u, hmem⟩
      refine ⟨u, ?_⟩
      by_cases hu : u = t
      · subst hu
        simp only [update_self, not_mem_nil, mem_append, false_or]
        tauto
      · simpa only [update_of_ne hu] using hmem
    · intro u
      by_cases hu : u = t
      · subst hu
        simp
      · simp [hu]

theorem Inv.poll (h : Inv s) {t : Nat} (hdone : s.executing t = []) :
    Inv { s with
      executing := update s.executing t (s.received t)
      received := update s.received t [] } := by
  refine h.relist rfl rfl rfl rfl rfl rfl ?_ ?_ (fun _ => rfl)
  · rintro m ⟨u, hmem⟩
    refine ⟨u, ?_⟩
    by_cases hu : u = t
    · subst hu
      simp only [update_self, not_mem_nil, false_or] at hmem
      tauto
    · simpa only [update_of_ne hu] using hmem
  · rintro m - ⟨u, hmem⟩
    refine ⟨u, ?_⟩
    by_cases hu : u = t
    · subst hu
      simp only [hdone, not_mem_nil, or_false] at hmem
      simp only [update_self, not_mem_nil, false_or]
      exact hmem
    · simpa only [update_of_ne hu] using hmem

theorem Inv.execute (h : Inv s) {t n : Nat} {rest : List Nat} (hnext : s.executing t = n :: rest)
    (hcount : (s.msg n).refCount = 0) (done : Nat → List Nat) :
    Inv { s with executing := update s.executing t rest, executed := done } := by
  refine h.relist rfl rfl rfl rfl rfl rfl ?_ ?_ (fun _ => rfl)
  · rintro m ⟨u, hmem⟩
    refine ⟨u, ?_⟩
    by_cases hu : u = t
    · subst hu
      simp only [update_self] at hmem
      rw [hnext, mem_cons]
      tauto
    · simpa only [update_of_ne hu] using hmem
  · rintro m hm ⟨u, hmem⟩
    have hmn : m ≠ n := by
      rintro rfl
      omega
    refine ⟨u, ?_⟩
    by_cases hu : u = t
    · subst hu
      simp only [hnext, mem_cons, hmn, false_or] at hmem
      simpa only [update_self] using hmem
    · simpa only [update_of_ne hu] using hmem

theorem executeMessage_of_refCount_zero {n : Nat} {ok : Bool} (hcount : (s.msg n).refCount = 0) :
    executeMessage s n ok = s := by
  simp [executeMessage, hcount]

/-- A kept part of a header is completed, or its header was read already: then the first round
of the loop over messages does not take anything from the page. -/
theorem progress_start {rounds : List Round} (h : Inv s)
    (hcomplete : Completes byteOrder s rounds) :
    Progress byteOrder s (.start s.recNode) rounds := by
  intro p hp
  right
  intro r hr chunk hchunk
  cases hflag : s.recNode.readHeaderFlag with
  | true =>
    have hsize := h.header hflag
    refine ⟨?_, ?_⟩
    · change minNdbHeaderSize ≤ s.recNode.readSize + chunk.length
      omega
    · simp [Local.readHeader, Local.read, Local.start, hflag]
  | false =>
    have hfirst := hcomplete hflag p hp r hr chunk hchunk
    refine ⟨hfirst.1, ?_⟩
    simpa [Local.readHeader, Local.read, Local.start, hflag, firstBytes] using hfirst.2

/-- An orderly step keeps the invariant. -/
theorem step_inv (s : State) (a : Label) (s' : State) (hok : Orderly byteOrder s a)
    (hstep : step byteOrder pageSize s a = some s') (h : Inv s) : Inv s' := by
  cases a with
  | receive rounds =>
    obtain ⟨hsupplied, hcomplete⟩ := hok
    simp only [step, h.connected, if_true, ndbReceiveNode, bind_eq_bind,
      bind_eq_some_iff] at hstep
    obtain ⟨⟨s₂, result⟩, ⟨⟨s₁, result₁, any⟩, hloop, hnode⟩, hpost⟩ := hstep
    have hhead : HeaderOk (.start s.recNode) := h.header
    obtain ⟨hinv, rfl⟩ := receiveLoop_spec hsupplied h hhead h.kept_size
      (progress_start h hcomplete) hloop
    simp only [reduceCtorEq, false_and, if_false, Option.some.injEq, Prod.mk.injEq] at hnode
    obtain ⟨rfl, rfl⟩ := hnode
    exact postLoop_inv hinv hpost
  | connect => simp [step, h.connected] at hstep
  | poll t =>
    simp only [step, ite_none_right_eq_some, Option.some.injEq] at hstep
    obtain ⟨hdone, rfl⟩ := hstep
    exact h.poll hdone
  | execute t ok =>
    cases hnext : s.executing t with
    | nil => simp [step, hnext] at hstep
    | cons n rest =>
      have hcount : (s.msg n).refCount = 0 := hok n (by simp [hnext])
      simp only [step, hnext, executeMessage_of_refCount_zero hcount, Option.some.injEq] at hstep
      subst hstep
      exact h.execute hnext hcount _

theorem startState_inv : Inv startState := by
  have hnot : ∀ m, ¬ Live startState m := by
    rintro m ⟨t, h⟩
    simp [startState, TempThreadConnection.empty] at h
  refine ⟨⟨nofun, ?_, ?_, nofun, nofun, ?_⟩, rfl, nofun, ?_, fun _ => rfl, nofun, fun _ => rfl⟩
  · exact fun m _ hm => absurd hm (hnot m)
  · exact fun m hm => absurd hm (hnot m)
  · exact fun m _ _ hm => absurd hm (hnot m)
  · exact fun m _ _ hm => absurd hm (hnot m)

end Step

/-- In every orderly run each receive page is returned once, when no message object and not the
receive thread use it any more, and not before. -/
theorem receive_pages_ok (byteOrder : Bool) (pageSize : Nat) (as : List Label)
    (hok : Run.Along (step byteOrder pageSize) (Orderly byteOrder) startState as) :
    Run.Always (step byteOrder pageSize) PagesOk startState as := by
  intro pre s' hpre hrun
  obtain ⟨rest, rfl⟩ := hpre
  have hokpre := (Run.along_of_append _ hrun hok).1
  exact (Run.invariant_along _ (Orderly byteOrder) Inv step_inv hokpre hrun startState_inv).pagesOk

/-- The words of a message with the lowest byte first: its size, and the thread connection. -/
def messageTo (t : UInt8) (size : UInt8) : List UInt8 :=
  [0, size, 0, 0, 0, 0, 0, 0, 0, 0, t, 0x80] ++ List.replicate (4 * size.toNat - 12) 0

/-- A page ends inside a header, the next one has two long messages. The page with short
messages is returned at once; the message objects are executed as far as they are not marked. -/
def twoPages : List Label :=
  [.receive [⟨true, some (messageTo 0 3 ++ (messageTo 0 3).take 6), none, true⟩],
    .receive [⟨true, some ((messageTo 0 3).drop 6 ++ messageTo 0 33 ++ messageTo 0 33), none, true⟩],
    .poll 0, .execute 0 true, .execute 0 false, .execute 0 true]

theorem receive_pages_ok_twoPages :
    Run.Along (step false 512) (Orderly false) startState twoPages ∧
      (Run.exec (step false 512) startState twoPages).map (fun s => (s.pages, s.returned)) =
        some (2, [.page 0]) ∧
      Run.Always (step false 512) PagesOk startState twoPages := by
  have hok : Run.Along (step false 512) (Orderly false) startState twoPages := by decide +kernel
  exact ⟨hok, by decide +kernel, receive_pages_ok false 512 twoPages hok⟩

/-- A header comes in three parts. After the second one nothing is complete and nothing is kept,
so that the page is returned while the receive thread still has it, and again after the third. -/
theorem returned_twice :
    ¬ Run.Always (step false 512) PagesOk startState
      [.receive [⟨true, some (messageTo 0 3 ++ (messageTo 0 3).take 6), none, true⟩],
        .receive [⟨true, some [0, 0], none, true⟩], .receive [⟨true, some [0, 0], none, true⟩]] := by
  intro h
  have hok := h _ _ List.prefix_rfl rfl
  exact absurd (hok.count_le (by decide : 1 < 2)) (by decide)

end IClaustron.Apid.Receive
