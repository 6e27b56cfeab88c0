import IClaustron.Apid.ReceivePages

/-!
# Apid.ReceiveFraming — the messages of a stream

The bytes that arrive on a node connection are a sequence of messages. Each of them is to be
found in the queue of the thread connection that it is addressed to, in the order of the stream.

* `receive_framing_ok` — the runs in which no message is lost, doubled or changed.

Scope limits: a message object that was executed keeps its bytes, so that the executed messages
can be compared with the stream too.
-/

namespace IClaustron.Apid.Receive

open Lib List Option Function

/-! ## Streams -/

/-- A message to an existing thread connection that fits into a page. -/
structure WellFormed (byteOrder : Bool) (pageSize : Nat) (m : List UInt8) : Prop where
  header : minNdbHeaderSize ≤ m.length
  page : m.length ≤ pageSize
  size : (readMessageEarly byteOrder m).1 * 4 = m.length
  thread : ∃ t < maxThreadConnections,
    (readMessageEarly byteOrder m).2 = ndbMinModuleIdForThreads + t

/-- The message is addressed to the thread connection `t`. -/
def isTo (byteOrder : Bool) (t : Nat) (m : List UInt8) : Bool :=
  (readMessageEarly byteOrder m).2 == ndbMinModuleIdForThreads + t

/-- The bytes that a step reads. -/
def Label.bytes : Label → List UInt8
  | .receive rounds => (rounds.filterMap Round.chunk).flatten
  | _ => []

def arrived (as : List Label) : List UInt8 := as.flatMap Label.bytes

/-- What a message object refers to. Its size is in its header. -/
def messageBytes (byteOrder : Bool) (s : State) (n : Nat) : List UInt8 :=
  match (s.msg n).sockBuf with
  | .own bytes => bytes
  | .data p off =>
    let bytes := (s.mem p).drop off
    bytes.take ((readMessageEarly byteOrder bytes).1 * 4)

/-- The message objects that were queued for a thread connection. -/
def queued (s : State) (t : Nat) : List Nat := s.executed t ++ s.executing t ++ s.received t

def FramingOk (byteOrder : Bool) (s : State) (ms : List (List UInt8)) : Prop :=
  ∀ t, (queued s t).map (messageBytes byteOrder s) = ms.filter (isTo byteOrder t)

/-- The chunk consists of complete messages. -/
def Whole (byteOrder : Bool) (pageSize : Nat) (chunk : List UInt8) : Prop :=
  ∃ ms : List (List UInt8), (∀ m ∈ ms, WellFormed byteOrder pageSize m) ∧ chunk = ms.flatten

/-- Every chunk that is read ends with a message, and no pool runs out. -/
def EndsWithMessage (byteOrder : Bool) (pageSize : Nat) : Label → Prop
  | .receive rounds => ∀ r ∈ rounds, r.page = true ∧ r.failAt = none ∧
      ∀ chunk ∈ r.chunk, Whole byteOrder pageSize chunk
  | _ => True

/-! ## Headers -/

section Header

variable {byteOrder : Bool} {pageSize : Nat} {m : List UInt8}

theorem loadWord_append (h : 4 ≤ m.length) (rest : List UInt8) :
    loadWord byteOrder (m ++ rest) = loadWord byteOrder m := by
  match m, h with
  | a :: b :: c :: d :: m, _ => rfl

/-- Only the header of a message is read. -/
theorem readMessageEarly_append (h : minNdbHeaderSize ≤ m.length) (rest : List UInt8) :
    readMessageEarly byteOrder (m ++ rest) = readMessageEarly byteOrder m := by
  have hlen : 12 ≤ m.length := h
  have hfirst : loadWord byteOrder (m ++ rest) = loadWord byteOrder m :=
    loadWord_append (by omega) rest
  have hthird : loadWord byteOrder ((m ++ rest).drop 8) = loadWord byteOrder (m.drop 8) := by
    rw [drop_append_of_le_length (by omega)]
    refine loadWord_append ?_ rest
    rw [length_drop]
    omega
  unfold readMessageEarly
  rw [hfirst, hthird]

/-- The size field has 16 bits. -/
theorem readMessageEarly_size_le (byteOrder : Bool) (bytes : List UInt8) :
    (readMessageEarly byteOrder bytes).1 ≤ 65535 := by
  have hsize : ∀ w, getMessageSize w ≤ 65535 := by
    intro w
    rw [getMessageSize, UInt32.toNat_and]
    exact Nat.and_le_right
  unfold readMessageEarly
  dsimp only
  split
  · exact hsize _
  · exact hsize _

theorem WellFormed.ne_nil (h : WellFormed byteOrder pageSize m) : m ≠ [] := by
  rintro rfl
  exact absurd h.header (by decide)

/-- A well-formed message is found again in front of any bytes. -/
theorem WellFormed.take_eq (h : WellFormed byteOrder pageSize m) (rest : List UInt8) :
    (m ++ rest).take ((readMessageEarly byteOrder (m ++ rest)).1 * 4) = m := by
  rw [readMessageEarly_append h.header, h.size, take_left']
  rfl

/-- A stream is cut into messages in one way only. -/
theorem flatten_injective {ms ms' : List (List UInt8)}
    (h : ∀ m ∈ ms, WellFormed byteOrder pageSize m) (h' : ∀ m ∈ ms', WellFormed byteOrder pageSize m)
    (heq : ms.flatten = ms'.flatten) : ms = ms' := by
  induction ms generalizing ms' with
  | nil =>
    cases ms' with
    | nil => rfl
    | cons m ms' =>
      rw [flatten_nil, flatten_cons] at heq
      exact absurd (append_eq_nil_iff.mp heq.symm).1 (h' m mem_cons_self).ne_nil
  | cons m ms ih =>
    cases ms' with
    | nil =>
      rw [flatten_nil, flatten_cons] at heq
      exact absurd (append_eq_nil_iff.mp heq).1 (h m mem_cons_self).ne_nil
    | cons m' ms' =>
      rw [flatten_cons, flatten_cons] at heq
      have hm : m = m' := by
        rw [← (h m mem_cons_self).take_eq ms.flatten, heq,
          (h' m' mem_cons_self).take_eq]
      subst hm
      rw [ih (fun x hx => h x (mem_cons_of_mem m hx))
        (fun x hx => h' x (mem_cons_of_mem m hx)) (append_cancel_left heq)]

end Header

/-! ## The invariant -/

/-- The message objects for a thread connection so far, those that are not posted yet at the
end. -/
def logged (s : State) (t : Nat) : List Nat := queued s t ++ (s.temp t).received

/-- The list of modules has the thread connections with something to post. -/
structure Listed (s : State) : Prop where
  nodup : s.listModules.Nodup
  mem_iff : ∀ t, t ∈ s.listModules ↔ (s.temp t).received ≠ []

/-- What the receive thread has done with the messages `ms`. -/
structure StreamInv (byteOrder : Bool) (s : State) (ms : List (List UInt8)) : Prop where
  nothing_kept : s.recNode = .empty
  listed : Listed s
  lt : ∀ t, ∀ n ∈ logged s t, n < s.msgs
  pages : ∀ n < s.msgs, ∀ p off, (s.msg n).sockBuf = .data p off → p < s.pages
  log : ∀ t, (logged s t).map (messageBytes byteOrder s) = ms.filter (isTo byteOrder t)

variable {l : Local} {p t : Nat} {cs : List (List UInt8)}

section Invariant

variable {byteOrder : Bool} {pageSize : Nat} {s s' : State} {ms : List (List UInt8)}

/-- The bytes of the message objects so far only depend on the pages so far. -/
theorem messageBytes_congr {n : Nat} (hbuf : (s'.msg n).sockBuf = (s.msg n).sockBuf)
    (hmem : ∀ p off, (s.msg n).sockBuf = .data p off → s'.mem p = s.mem p) :
    messageBytes byteOrder s' n = messageBytes byteOrder s n := by
  unfold messageBytes
  rw [hbuf]
  cases hb : (s.msg n).sockBuf with
  | own bytes => rfl
  | data p off =>
    simp only
    rw [hmem p off hb]

/-- A step that adds no message object keeps the log, if it keeps their bytes. -/
theorem StreamInv.frame (h : StreamInv byteOrder s ms) (hrec : s'.recNode = .empty)
    (hlisted : Listed s') (hlog : ∀ t, logged s' t = logged s t) (hmsgs : s'.msgs = s.msgs)
    (hbuf : ∀ n, (s'.msg n).sockBuf = (s.msg n).sockBuf) (hpages : s.pages ≤ s'.pages)
    (hmem : ∀ p < s.pages, s'.mem p = s.mem p) : StreamInv byteOrder s' ms := by
  refine ⟨hrec, hlisted, ?_, ?_, ?_⟩
  · intro t n hn
    rw [hlog] at hn
    rw [hmsgs]
    exact h.lt t n hn
  · intro n hn p off hp
    rw [hbuf] at hp
    rw [hmsgs] at hn
    exact Nat.lt_of_lt_of_le (h.pages n hn p off hp) hpages
  · intro t
    rw [hlog, ← h.log t]
    refine map_congr_left fun n hn => messageBytes_congr (hbuf n) fun p off hp => ?_
    exact hmem p (h.pages n (h.lt t n hn) p off hp)

/-! ## One chunk -/

/-- The place of the loop in the page: the next messages start at `off`. -/
structure AtMessages (s : State) (l : Local) (p : Nat) (ms : List (List UInt8)) : Prop where
  bytes : (s.mem p).drop l.off = ms.flatten
  size : l.readSize = ms.flatten.length
  flag : l.readHeaderFlag = false

theorem receiveMessage_log (s : State) (l : Local) (p t : Nat) :
    (receiveMessage s l p t).1.executed = s.executed ∧
      ((receiveMessage s l p t).1.msg s.msgs).sockBuf =
        (if l.messageSize ≤ stdCacheLineSize then .own (((s.mem p).drop l.off).take l.messageSize)
        else .data p l.off) ∧
      (receiveMessage s l p t).1.listModules =
        if (s.temp t).received = [] then s.listModules ++ [t] else s.listModules := by
  unfold receiveMessage pageRefCountHandling
  by_cases hshort : l.messageSize ≤ stdCacheLineSize
  · simp [hshort, putMessageOnTempList]
  · by_cases hfirst : (s.temp t).numMessagesOnPage = 0
    · simp [hshort, hfirst, putMessageOnTempList]
    · simp [hshort, hfirst, putMessageOnTempList]

/-- A thread connection is listed with its first message. -/
theorem Listed.receiveMessage (h : Listed s) (l : Local) (p t : Nat) :
    Listed (receiveMessage s l p t).1 := by
  have hspec := receiveMessage_spec s l p t
  have hmods := (receiveMessage_log s l p t).2.2
  constructor
  · rw [hmods]
    by_cases hempty : (s.temp t).received = []
    · rw [if_pos hempty]
      refine nodup_append.mpr ⟨h.nodup, by simp, ?_⟩
      intro a ha b hb hab
      rw [mem_singleton] at hb
      subst hb hab
      exact (h.mem_iff a).mp ha hempty
    · rw [if_neg hempty]
      exact h.nodup
  · intro u
    rw [hmods]
    by_cases hu : u = t
    · subst hu
      rw [hspec.temp_self]
      by_cases hempty : (s.temp u).received = []
      · simp [hempty]
      · simp [hempty, (h.mem_iff u).mpr hempty]
    · rw [hspec.temp_other u hu, ← h.mem_iff u]
      by_cases hempty : (s.temp t).received = []
      · simp [hempty, hu]
      · simp [hempty]

/-- The new message object has the bytes of the message. -/
theorem messageBytes_receiveMessage {m rest : List UInt8} (hm : WellFormed byteOrder pageSize m)
    (hbytes : (s.mem p).drop l.off = m ++ rest) (hsize : l.messageSize = m.length) :
    messageBytes byteOrder (receiveMessage s l p t).1 s.msgs = m := by
  have hmem : (receiveMessage s l p t).1.mem = s.mem := (receiveMessage_spec s l p t).framed.mem
  unfold messageBytes
  rw [(receiveMessage_log s l p t).2.1]
  by_cases hshort : l.messageSize ≤ stdCacheLineSize
  · rw [if_pos hshort, hbytes, hsize, take_left']
    rfl
  · rw [if_neg hshort]
    simp only [hmem, hbytes]
    exact hm.take_eq rest

theorem Received.logged_eq {l' : Local} (h : Received s s' l l' p t)
    (hexec : s'.executed = s.executed) (u : Nat) :
    logged s' u = if u = t then logged s u ++ [s.msgs] else logged s u := by
  by_cases hu : u = t
  · subst hu
    simp [logged, queued, h.temp_self, h.received, h.executing, hexec]
  · simp [logged, queued, h.temp_other u hu, h.received, h.executing, hexec, hu]

/-- A message in the stream is one message object more for its thread connection. -/
theorem StreamInv.receiveMessage (h : StreamInv byteOrder s ms) {m rest : List UInt8}
    (hm : WellFormed byteOrder pageSize m)
    (hto : (readMessageEarly byteOrder m).2 = ndbMinModuleIdForThreads + t)
    (hbytes : (s.mem p).drop l.off = m ++ rest) (hsize : l.messageSize = m.length)
    (hp : p < s.pages) : StreamInv byteOrder (receiveMessage s l p t).1 (ms ++ [m]) := by
  have hspec := receiveMessage_spec s l p t
  have hlog := hspec.logged_eq (receiveMessage_log s l p t).1
  have hnew := messageBytes_receiveMessage (t := t) hm hbytes hsize
  have hlisted := h.listed.receiveMessage l p t
  have hbuf := (receiveMessage_log s l p t).2.1
  have hself : ∀ u, isTo byteOrder u m = decide (u = t) := by
    intro u
    simp only [isTo, hto]
    by_cases hu : u = t
    · simp [hu]
    · simp [hu, Ne.symm hu]
  generalize (Receive.receiveMessage s l p t).1 = s₁ at hspec hlog hnew hlisted hbuf
  have hold : ∀ u, ∀ n ∈ logged s u, messageBytes byteOrder s₁ n = messageBytes byteOrder s n := by
    intro u n hn
    have hne : n ≠ s.msgs := Nat.ne_of_lt (h.lt u n hn)
    refine messageBytes_congr (congrArg Message.sockBuf (hspec.msg n hne)) ?_
    intro q off _
    rw [hspec.framed.mem]
  refine ⟨hspec.framed.recNode.trans h.nothing_kept, hlisted, ?_, ?_, ?_⟩
  · intro u n hn
    rw [hspec.msgs]
    rw [hlog] at hn
    by_cases hu : u = t
    · simp only [hu, if_true, mem_append, mem_singleton] at hn
      rcases hn with hn | rfl
      · exact Nat.lt_succ_of_lt (h.lt t n hn)
      · exact Nat.lt_succ_self _
    · simp only [hu, if_false] at hn
      exact Nat.lt_succ_of_lt (h.lt u n hn)
  · intro n hn q off hq
    rw [hspec.framed.pages]
    by_cases hne : n = s.msgs
    · subst hne
      rw [hbuf] at hq
      split_ifs at hq
      cases hq
      exact hp
    · rw [hspec.msg n hne] at hq
      rw [hspec.msgs] at hn
      exact h.pages n (by omega) q off hq
  · intro u
    rw [hlog, filter_append, ← h.log u]
    by_cases hu : u = t
    · subst hu
      simp only [if_true, map_append, map_cons, map_nil, hnew, filter_cons,
        hself, decide_true, filter_nil]
      exact congrArg (· ++ [m]) (map_congr_left (hold u))
    · simp only [hu, if_false, filter_cons, hself, decide_false, Bool.false_eq_true,
        filter_nil, append_nil]
      exact map_congr_left (hold u)

/-- Every thread connection in the list for the page has a last long message. -/
def HasLastLong (s : State) (ts : List Nat) : Prop := ∀ t ∈ ts, (s.temp t).lastLong ≠ none

theorem Received.hasLastLong {l' : Local} (h : Received s s' l l' p t)
    (hlast : HasLastLong s l.pageModules) : HasLastLong s' l'.pageModules := by
  intro u hu
  by_cases hut : u = t
  · subst hut
    rcases h.short_or_long with ⟨-, rfl, hsame, -⟩ | ⟨-, hnew, -⟩
    · rw [hsame]
      exact hlast u hu
    · rw [hnew]
      exact some_ne_none _
  · rw [h.temp_other u hut]
    refine hlast u ?_
    rcases h.short_or_long with ⟨-, rfl, -⟩ | ⟨-, -, heq | ⟨heq, -⟩⟩
    · exact hu
    · rw [heq, mem_append, mem_singleton] at hu
      exact hu.resolve_right hut
    · rwa [heq] at hu

theorem receiveMessage_local (s : State) (l : Local) (p t : Nat) :
    (receiveMessage s l p t).2.off = l.off ∧ (receiveMessage s l p t).2.readSize = l.readSize ∧
      (receiveMessage s l p t).2.messageSize = l.messageSize := by
  unfold Receive.receiveMessage pageRefCountHandling
  by_cases hshort : l.messageSize ≤ stdCacheLineSize
  · simp [hshort]
  · by_cases hfirst : (s.temp t).numMessagesOnPage = 0
    · simp [hshort, hfirst]
    · simp [hshort, hfirst]

/-- The loop over a page that ends with a message takes all messages, and leaves nothing. -/
theorem messageLoop_whole {fuel : Nat} (hcs : ∀ m ∈ cs, WellFormed byteOrder pageSize m)
    (hfuel : cs.length < fuel) (h : StreamInv byteOrder s ms) (hat : AtMessages s l p cs)
    (hp : p < s.pages) (hlast : HasLastLong s l.pageModules) :
    ∃ s' l', messageLoop byteOrder p fuel none s l = some (s', l', true) ∧
      StreamInv byteOrder s' (ms ++ cs) ∧ Framed s s' ∧ HasLastLong s' l'.pageModules ∧
      l'.readSize = 0 ∧ l'.readHeaderFlag = false ∧
      l'.anyMessageReceived = (l.anyMessageReceived || cs ≠ []) := by
  induction cs generalizing fuel s l ms with
  | nil =>
    obtain ⟨fuel, rfl⟩ : ∃ k, fuel = k + 1 := ⟨fuel - 1, by simp at hfuel; omega⟩
    have hsize : l.readSize = 0 := hat.size
    refine ⟨s, l, ?_, ?_, ⟨rfl, rfl, rfl, rfl, rfl⟩, hlast, hsize, hat.flag, by simp⟩
    · rw [messageLoop, if_pos]
      rw [hsize]
      decide
    · rwa [append_nil]
  | cons m cs ih =>
    obtain ⟨fuel, rfl⟩ : ∃ k, fuel = k + 1 := ⟨fuel - 1, by simp at hfuel; omega⟩
    have hm := hcs m mem_cons_self
    obtain ⟨t, ht, hto⟩ := hm.thread
    have hsize : l.readSize = m.length + cs.flatten.length := by
      rw [hat.size, flatten_cons, length_append]
    have hbytes : (s.mem p).drop l.off = m ++ cs.flatten := hat.bytes
    have hheader : minNdbHeaderSize ≤ m.length := hm.header
    have hread : l.readHeader byteOrder (s.mem p) =
        { l with
          messageSize := m.length
          receiverModuleId := ndbMinModuleIdForThreads + t
          readHeaderFlag := true } := by
      have hle := readMessageEarly_size_le byteOrder m
      have hmod : (readMessageEarly byteOrder m).1 * 4 % 2 ^ 32 = m.length := by
        rw [← hm.size]
        exact Nat.mod_eq_of_lt (by omega)
      rw [Local.readHeader, hat.flag]
      simp only [Bool.false_eq_true, if_false, hbytes, readMessageEarly_append hm.header, hmod, hto]
    obtain ⟨lh, hlh⟩ : ∃ lh, lh = l.readHeader byteOrder (s.mem p) := ⟨_, rfl⟩
    have hlm : lh.messageSize = m.length := by rw [hlh, hread]
    have hlo : lh.off = l.off := by rw [hlh, hread]
    have hlr : lh.readSize = l.readSize := by rw [hlh, hread]
    have hlt : lh.receiverModuleId = ndbMinModuleIdForThreads + t := by rw [hlh, hread]
    have hlp : lh.pageModules = l.pageModules := by rw [hlh, hread]
    have hthread : lh.receiverModuleId ≠ ndbPackedModuleId ∧
        ndbMinModuleIdForThreads ≤ lh.receiverModuleId := by
      rw [hlt]
      simp only [ndbMinModuleIdForThreads, ndbPackedModuleId]
      omega
    have hspec := receiveMessage_spec s lh p t
    obtain ⟨hoff, hrs, hms⟩ := receiveMessage_local s lh p t
    have hinv := h.receiveMessage (p := p) (l := lh) hm hto (hlo ▸ hbytes) hlm hp
    have hlast' := hspec.hasLastLong (hlp ▸ hlast)
    obtain ⟨s₁, l₁, hreceive⟩ : ∃ s₁ l₁, receiveMessage s lh p t = (s₁, l₁) := ⟨_, _, rfl⟩
    rw [hreceive] at hspec hoff hrs hms hinv hlast'
    dsimp only at hspec hoff hrs hms hinv hlast'
    have hat' : AtMessages s₁ l₁.advance p cs := by
      refine ⟨?_, ?_, rfl⟩
      · rw [hspec.framed.mem]
        change (s.mem p).drop (l₁.off + l₁.messageSize) = cs.flatten
        rw [hoff, hms, hlo, hlm, ← drop_drop, hbytes, drop_left']
        rfl
      · change l₁.readSize - l₁.messageSize = cs.flatten.length
        omega
    obtain ⟨s', l', hrun, hinv', hframed, hlast'', hzero, hflag, hany⟩ :=
      ih (fun x hx => hcs x (mem_cons_of_mem m hx)) (by simpa using hfuel) hinv hat'
        (by rw [hspec.framed.pages]; exact hp) hlast'
    refine ⟨s', l', ?_, ?_, hspec.framed.trans hframed, hlast'', hzero, hflag, ?_⟩
    · rw [messageLoop, if_neg (by omega)]
      simp only [← hlh]
      rw [if_neg (by omega), if_pos hthread, if_neg (by simp)]
      have hsub : lh.receiverModuleId - ndbMinModuleIdForThreads = t := by omega
      simp only [hsub, ht, if_true, hreceive, map_none]
      exact hrun
    · rw [append_cons]
      exact hinv'
    · rw [hany]
      simp [Local.advance]

/-- Only counts differ. -/
structure SameLog (s s' : State) : Prop where
  recNode : s'.recNode = s.recNode
  connected : s'.connected = s.connected
  mem : s'.mem = s.mem
  pages : s'.pages = s.pages
  msgs : s'.msgs = s.msgs
  sockBuf : ∀ n, (s'.msg n).sockBuf = (s.msg n).sockBuf
  received : ∀ t, (s'.temp t).received = (s.temp t).received
  listModules : s'.listModules = s.listModules
  queued : ∀ t, queued s' t = queued s t

theorem SameLog.streamInv (h : SameLog s s') (hs : StreamInv byteOrder s ms) :
    StreamInv byteOrder s' ms := by
  refine hs.frame (h.recNode.trans hs.nothing_kept) ⟨?_, ?_⟩ ?_ h.msgs h.sockBuf
    (Nat.le_of_eq h.pages.symm) ?_
  · rw [h.listModules]
    exact hs.listed.nodup
  · intro t
    rw [h.listModules, h.received]
    exact hs.listed.mem_iff t
  · intro t
    rw [logged, logged, h.queued, h.received]
  · intro p _
    rw [h.mem]

/-- Executing a message only counts down, and may return something. -/
theorem executeMessage_eq (s : State) (n : Nat) (ok : Bool) :
    ∃ count ret, executeMessage s n ok = { s with
      msg := update s.msg n { s.msg n with refCount := count }
      returned := ret } := by
  unfold executeMessage
  by_cases hok : ok = true ∧ 0 < (s.msg n).refCount
  · simp only [hok, and_self, if_true]
    by_cases hlast : (s.msg n).refCount - 1 = 0
    · exact ⟨_, _, by rw [if_pos hlast]⟩
    · exact ⟨_, s.returned, by rw [if_neg hlast]⟩
  · refine ⟨(s.msg n).refCount, s.returned, ?_⟩
    simp only [hok, if_false]
    rw [update_eq_self]

theorem executeMessage_executing (s : State) (n : Nat) (ok : Bool) :
    (executeMessage s n ok).executing = s.executing := by
  obtain ⟨count, ret, heq⟩ := executeMessage_eq s n ok
  rw [heq]

theorem executeMessage_sameLog (s : State) (n : Nat) (ok : Bool) :
    SameLog s (executeMessage s n ok) := by
  obtain ⟨count, ret, heq⟩ := executeMessage_eq s n ok
  rw [heq]
  refine ⟨rfl, rfl, rfl, rfl, rfl, ?_, fun _ => rfl, rfl, fun _ => rfl⟩
  intro m
  by_cases hm : m = n
  · simp [hm]
  · simp [hm]

theorem markLastLong_sameLog {ts : List Nat} (hlast : HasLastLong s ts) :
    ∃ s', markLastLong ts s = some s' ∧ SameLog s s' := by
  induction ts generalizing s with
  | nil => exact ⟨s, rfl, rfl, rfl, rfl, rfl, rfl, fun _ => rfl, fun _ => rfl, rfl, fun _ => rfl⟩
  | cons t ts ih =>
    obtain ⟨n, hn⟩ := ne_none_iff_exists'.mp (hlast t mem_cons_self)
    rw [markLastLong]
    simp only [hn]
    have hlast' : HasLastLong { s with
        msg := update s.msg n { s.msg n with refCount := 1 }
        temp := update s.temp t { s.temp t with lastLong := some n, numMessagesOnPage := 0 } }
        ts := by
      intro u hu
      by_cases hut : u = t
      · simp [hut]
      · simpa [hut] using hlast u (mem_cons_of_mem t hu)
    obtain ⟨s', hrun, h⟩ := ih hlast'
    refine ⟨s', hrun, h.recNode, h.connected, h.mem, h.pages, h.msgs, ?_, ?_, h.listModules,
      h.queued⟩
    · intro m
      rw [h.sockBuf]
      by_cases hmn : m = n
      · simp [hmn]
      · simp [hmn]
    · intro u
      rw [h.received]
      by_cases hut : u = t
      · simp [hut]
      · simp [hut]

/-- What posting does: everything is in the queues. -/
structure Posted (s s' : State) : Prop where
  recNode : s'.recNode = s.recNode
  connected : s'.connected = s.connected
  mem : s'.mem = s.mem
  pages : s'.pages = s.pages
  msgs : s'.msgs = s.msgs
  msg : s'.msg = s.msg
  logged : ∀ t, logged s' t = logged s t
  listModules : s'.listModules = []

theorem postLoop_posted {ts : List Nat} (hnodup : ts.Nodup)
    (hne : ∀ t ∈ ts, (s.temp t).received ≠ []) :
    ∃ s', postLoop ts s = some s' ∧ Posted s s' ∧
      ∀ t, (s'.temp t).received = if t ∈ ts then [] else (s.temp t).received := by
  induction ts generalizing s with
  | nil => exact ⟨_, rfl, ⟨rfl, rfl, rfl, rfl, rfl, rfl, fun _ => rfl, rfl⟩, fun _ => by simp⟩
  | cons t ts ih =>
    obtain ⟨hnot, hnodup⟩ := nodup_cons.mp hnodup
    rw [postLoop, if_neg (hne t mem_cons_self)]
    have hne' : ∀ u ∈ ts, (update s.temp t
        { s.temp t with received := [], lastLong := none } u).received ≠ [] := by
      intro u hu
      have hut : u ≠ t := by
        rintro rfl
        exact hnot hu
      rw [update_of_ne hut]
      exact hne u (mem_cons_of_mem t hu)
    obtain ⟨s', hrun, h, htemp⟩ := ih (s := { s with
      temp := update s.temp t { s.temp t with received := [], lastLong := none }
      received := update s.received t (s.received t ++ (s.temp t).received) }) hnodup hne'
    refine ⟨s', hrun, ⟨h.recNode, h.connected, h.mem, h.pages, h.msgs, h.msg, ?_, h.listModules⟩, ?_⟩
    · intro u
      rw [h.logged]
      by_cases hut : u = t
      · subst hut
        simp [Receive.logged, queued]
      · simp [Receive.logged, queued, hut]
    · intro u
      rw [htemp]
      by_cases hut : u = t
      · subst hut
        simp [hnot]
      · simp [hut]

/-- Posting succeeds, and leaves nothing to post. -/
theorem StreamInv.post (h : StreamInv byteOrder s ms) :
    ∃ s', postNdbMessages s = some s' ∧ StreamInv byteOrder s' ms ∧
      s'.connected = s.connected ∧ ∀ t, (s'.temp t).received = [] := by
  obtain ⟨s', hrun, hposted, htemp⟩ := postLoop_posted h.listed.nodup
    (fun t ht => (h.listed.mem_iff t).mp ht)
  have hempty : ∀ t, (s'.temp t).received = [] := by
    intro t
    rw [htemp]
    by_cases ht : t ∈ s.listModules
    · rw [if_pos ht]
    · rw [if_neg ht]
      by_contra hne
      exact ht ((h.listed.mem_iff t).mpr hne)
  refine ⟨s', hrun, ?_, hposted.connected, hempty⟩
  refine h.frame (hposted.recNode.trans h.nothing_kept) ⟨?_, ?_⟩ hposted.logged hposted.msgs ?_
    (Nat.le_of_eq hposted.pages.symm) ?_
  · rw [hposted.listModules]
    exact nodup_nil
  · intro t
    rw [hposted.listModules, hempty]
    simp
  · intro n
    rw [hposted.msg]
  · intro p _
    rw [hposted.mem]

theorem length_le_flatten (hcs : ∀ m ∈ cs, WellFormed byteOrder pageSize m) :
    cs.length ≤ cs.flatten.length := by
  induction cs with
  | nil => exact Nat.le_refl _
  | cons m cs ih =>
    have hm := length_pos_iff.mpr (hcs m mem_cons_self).ne_nil
    have hrest := ih fun x hx => hcs x (mem_cons_of_mem m hx)
    rw [flatten_cons, length_append, length_cons]
    omega

/-- A new page to read into does not change the log. -/
theorem StreamInv.newPage (h : StreamInv byteOrder s ms) (bytes : List UInt8) :
    StreamInv byteOrder { s with
      pages := s.pages + 1
      mem := update s.mem s.pages bytes } ms := by
  refine h.frame h.nothing_kept ⟨h.listed.nodup, h.listed.mem_iff⟩ (fun _ => rfl) rfl
    (fun _ => rfl) (Nat.le_succ _) ?_
  intro p hp
  exact update_of_ne (Nat.ne_of_lt hp) _ _

/-- A round that reads complete messages: they are added to the log, and the loop goes on if the
page was full. -/
theorem receiveLoop_whole (h : StreamInv byteOrder s ms) (hl : l.readSize = 0)
    (hflag : l.readHeaderFlag = false) (hcs : ∀ m ∈ cs, WellFormed byteOrder pageSize m)
    (hpos : 0 < cs.flatten.length) (hfits : cs.flatten.length ≤ pageSize) (newPage : Bool)
    (rs : List Round) (k : Nat) :
    ∃ s₁ l₁, StreamInv byteOrder s₁ (ms ++ cs) ∧ s₁.connected = s.connected ∧ l₁.readSize = 0 ∧
      l₁.readHeaderFlag = false ∧ l₁.anyMessageReceived = true ∧
      receiveLoop byteOrder pageSize (⟨true, some cs.flatten, none, newPage⟩ :: rs) k s l =
        if cs.flatten.length = pageSize ∧ k < maxNdbReceiveLoops then
          receiveLoop byteOrder pageSize rs (k + 1) s₁ l₁
        else if rs = [] then some (s₁, .ok, true) else none := by
  have hread := h.newPage cs.flatten
  have hat : AtMessages { s with
      pages := s.pages + 1
      mem := update s.mem s.pages cs.flatten } (l.read cs.flatten) s.pages cs :=
    ⟨by simp [Local.read], by simp [Local.read, hl], hflag⟩
  have hfuel : cs.length < cs.flatten.length + 2 := by
    have := length_le_flatten hcs
    omega
  obtain ⟨s₂, l₂, hloop, hinv, hframed, hlast, hzero, hflag₂, hany⟩ :=
    messageLoop_whole (l := l.read cs.flatten) (p := s.pages)
      hcs hfuel hread hat (Nat.lt_succ_self _) fun _ ht => absurd ht not_mem_nil
  have hne : cs ≠ [] := by
    rintro rfl
    exact absurd hpos (by simp)
  have hany' : l₂.anyMessageReceived = true := by simp [hany, hne]
  have htail : keepTail s₂ l₂ s.pages newPage = some { s₂ with recNode := .empty } := by
    rw [keepTail, if_neg (by omega)]
  have hinv₃ : StreamInv byteOrder { s₂ with recNode := .empty } (ms ++ cs) :=
    hinv.frame rfl ⟨hinv.listed.nodup, hinv.listed.mem_iff⟩ (fun _ => rfl) rfl (fun _ => rfl)
      (Nat.le_refl _) (fun _ _ => rfl)
  -- Whether the page is returned or not, the log stays as it is.
  have hhand : ∃ s₄, handOver { s₂ with recNode := .empty } l₂.pageModules s.pages = some s₄ ∧
      StreamInv byteOrder s₄ (ms ++ cs) ∧ s₄.connected = s₂.connected := by
    by_cases hmods : l₂.pageModules = []
    · rw [handOver, if_pos hmods]
      exact ⟨_, rfl, hinv₃.frame rfl ⟨hinv₃.listed.nodup, hinv₃.listed.mem_iff⟩ (fun _ => rfl) rfl
        (fun _ => rfl)
        (Nat.le_refl _) (fun _ _ => rfl), rfl⟩
    · rw [handOver, if_neg hmods]
      obtain ⟨s₄, hmark, hsame⟩ :=
        markLastLong_sameLog (s := { s₂ with recNode := .empty }) hlast
      exact ⟨s₄, hmark, hsame.streamInv hinv₃, hsame.connected⟩
  obtain ⟨s₄, hhand, hinv₄, hconn₄⟩ := hhand
  refine ⟨s₄, l₂, hinv₄, hconn₄.trans hframed.connected, hzero, hflag₂, hany', ?_⟩
  have hpage : readPage s l.readSize = some ({ s with
      pages := s.pages + 1
      mem := update s.mem s.pages [] }, s.pages) := by
    rw [readPage, if_pos hl]
  have hmem : update (update s.mem s.pages []) s.pages
      ((update s.mem s.pages [] s.pages).take l.readSize ++ cs.flatten) =
      update s.mem s.pages cs.flatten := by
    rw [update_idem, update_self, take_nil, nil_append]
  rw [receiveLoop, if_neg (by simp), hpage]
  simp only [bind_eq_bind, bind_some]
  rw [if_pos ⟨hpos, by omega⟩, hmem]
  simp only [hl, Nat.zero_add, getD_none, Nat.add_zero]
  simp only [Local.read, hl, Nat.zero_add] at hloop
  rw [hloop]
  simp only [bind_some, if_true, htail, hhand, hany']

/-! ## Runs -/

/-- One call: the messages of all its chunks are added to the log. -/
theorem receiveLoop_framing {rounds : List Round} {k : Nat} {result : Result} {any : Bool}
    (hok : EndsWithMessage byteOrder pageSize (.receive rounds)) (h : StreamInv byteOrder s ms)
    (hl : l.readSize = 0) (hflag : l.readHeaderFlag = false)
    (hrun : receiveLoop byteOrder pageSize rounds k s l = some (s', result, any)) :
    ∃ cs, (∀ m ∈ cs, WellFormed byteOrder pageSize m) ∧
      (rounds.filterMap Round.chunk).flatten = cs.flatten ∧ StreamInv byteOrder s' (ms ++ cs) ∧
      s'.connected = s.connected ∧ result ≠ .memAlloc ∧ (l.anyMessageReceived = true → any = true) ∧
      (any = false → ∀ t, (s'.temp t).received = (s.temp t).received) := by
  induction rounds generalizing k s l ms with
  | nil => cases hrun
  | cons r rs ih =>
    obtain ⟨page, chunk, failAt, newPage⟩ := r
    obtain ⟨rfl, rfl, hchunk⟩ := hok _ mem_cons_self
    have hok' : EndsWithMessage byteOrder pageSize (.receive rs) := fun r hr =>
      hok r (mem_cons_of_mem _ hr)
    cases chunk with
    | none =>
      rw [receiveLoop, if_neg (by simp), readPage, if_pos hl] at hrun
      simp only [bind_eq_bind, bind_some, ite_none_right_eq_some,
        Option.some.injEq, Prod.mk.injEq] at hrun
      obtain ⟨rfl, rfl, rfl, rfl⟩ := hrun
      refine ⟨[], forall_mem_nil _, rfl, ?_, rfl, Result.noConfusion, fun h => h, fun _ _ => rfl⟩
      rw [append_nil]
      exact h.newPage []
    | some chunk =>
      obtain ⟨cs, hcs, rfl⟩ := hchunk chunk rfl
      have hfits : 0 < cs.flatten.length ∧ cs.flatten.length ≤ pageSize := by
        by_contra hno
        rw [receiveLoop, if_neg (by simp), readPage, if_pos hl] at hrun
        simp only [bind_eq_bind, bind_some, hl, Nat.zero_add] at hrun
        rw [if_neg hno] at hrun
        cases hrun
      obtain ⟨s₁, l₁, hinv, hconn, hzero, hflag₁, hany, heq⟩ :=
        receiveLoop_whole h hl hflag hcs hfits.1 hfits.2 newPage rs k
      rw [heq] at hrun
      split_ifs at hrun with hmore hend
      · obtain ⟨cs', hcs', hflat, hinv', hconn', hresult, hmono, -⟩ :=
          ih hok' hinv hzero hflag₁ hrun
        have htrue : any = true := hmono hany
        refine ⟨cs ++ cs', ?_, ?_, ?_, hconn'.trans hconn, hresult, fun _ => htrue, ?_⟩
        · intro m hm
          rcases mem_append.mp hm with hm | hm
          · exact hcs m hm
          · exact hcs' m hm
        · rw [flatten_append, ← hflat]
          simp
        · rwa [← append_assoc]
        · rw [htrue]
          exact Bool.noConfusion
      · simp only [Option.some.injEq, Prod.mk.injEq] at hrun
        obtain ⟨rfl, rfl, rfl⟩ := hrun
        subst hend
        exact ⟨cs, hcs, by simp, hinv, hconn, Result.noConfusion, fun _ => rfl, Bool.noConfusion⟩

/-- Between two steps nothing waits to be posted. -/
structure RestInv (byteOrder : Bool) (s : State) (ms : List (List UInt8)) : Prop where
  stream : StreamInv byteOrder s ms
  temp : ∀ t, (s.temp t).received = []

theorem RestInv.framingOk (h : RestInv byteOrder s ms) : FramingOk byteOrder s ms := by
  intro t
  rw [← h.stream.log t, logged, h.temp, append_nil]

/-- A step adds the messages that it reads. -/
theorem step_framing {a : Label} (hok : EndsWithMessage byteOrder pageSize a)
    (h : RestInv byteOrder s ms) (hstep : step byteOrder pageSize s a = some s') :
    ∃ cs, (∀ m ∈ cs, WellFormed byteOrder pageSize m) ∧ a.bytes = cs.flatten ∧
      RestInv byteOrder s' (ms ++ cs) := by
  have hnone : ∀ {s'}, RestInv byteOrder s' ms → ∃ cs : List (List UInt8),
      (∀ m ∈ cs, WellFormed byteOrder pageSize m) ∧ [] = cs.flatten ∧
        RestInv byteOrder s' (ms ++ cs) := by
    intro s' h'
    refine ⟨[], nofun, rfl, ?_⟩
    rwa [append_nil]
  cases a with
  | receive rounds =>
    simp only [step, ite_none_right_eq_some, ndbReceiveNode, bind_eq_bind,
      bind_eq_some_iff] at hstep
    obtain ⟨-, ⟨s₂, result⟩, ⟨⟨s₁, result₁, any⟩, hloop, hnode⟩, hpost⟩ := hstep
    have hkept := h.stream.nothing_kept
    obtain ⟨cs, hcs, hflat, hinv, -, hresult, -, hnothing⟩ := receiveLoop_framing
      (l := .start s.recNode) hok h.stream (by rw [hkept]; rfl) (by rw [hkept]; rfl) hloop
    refine ⟨cs, hcs, hflat, ?_⟩
    obtain ⟨s₃, hrun, hposted, -, hempty⟩ := hinv.post
    cases result₁ with
    | ok =>
      simp only [reduceCtorEq, false_and, if_false, Option.some.injEq, Prod.mk.injEq] at hnode
      obtain ⟨rfl, rfl⟩ := hnode
      simp only [if_true, hrun, Option.some.injEq] at hpost
      subst hpost
      exact ⟨hposted, hempty⟩
    | readError =>
      cases any with
      | true =>
        simp only [true_and, if_true, hrun, map_some, Option.some.injEq,
          Prod.mk.injEq] at hnode
        obtain ⟨rfl, rfl⟩ := hnode
        simp only [reduceCtorEq, if_false, Option.some.injEq] at hpost
        subst hpost
        exact ⟨hposted.frame hposted.nothing_kept ⟨hposted.listed.nodup, hposted.listed.mem_iff⟩
          (fun _ => rfl) rfl (fun _ => rfl) (Nat.le_refl _) (fun _ _ => rfl), hempty⟩
      | false =>
        simp only [Bool.false_eq_true, and_false, if_false, Option.some.injEq,
          Prod.mk.injEq] at hnode
        obtain ⟨rfl, rfl⟩ := hnode
        simp only [reduceCtorEq, if_false, Option.some.injEq] at hpost
        subst hpost
        refine ⟨hinv.frame hinv.nothing_kept ⟨hinv.listed.nodup, hinv.listed.mem_iff⟩
          (fun _ => rfl) rfl (fun _ => rfl) (Nat.le_refl _) (fun _ _ => rfl), ?_⟩
        intro t
        exact (hnothing rfl t).trans (h.temp t)
    | memAlloc => exact absurd rfl hresult
  | connect =>
    simp only [step, ite_none_left_eq_some, Option.some.injEq] at hstep
    obtain ⟨-, rfl⟩ := hstep
    exact hnone ⟨h.stream.frame rfl ⟨h.stream.listed.nodup, h.stream.listed.mem_iff⟩
      (fun _ => rfl) rfl (fun _ => rfl) (Nat.le_refl _) (fun _ _ => rfl), h.temp⟩
  | poll t =>
    simp only [step, ite_none_right_eq_some, Option.some.injEq] at hstep
    obtain ⟨hdone, rfl⟩ := hstep
    refine hnone ⟨h.stream.frame h.stream.nothing_kept
      ⟨h.stream.listed.nodup, h.stream.listed.mem_iff⟩ ?_ rfl (fun _ => rfl) (Nat.le_refl _)
      (fun _ _ => rfl), h.temp⟩
    intro u
    by_cases hu : u = t
    · subst hu
      simp [logged, queued, hdone]
    · simp [logged, queued, hu]
  | execute t ok =>
    cases hnext : s.executing t with
    | nil => simp [step, hnext] at hstep
    | cons n rest =>
      simp only [step, hnext, Option.some.injEq] at hstep
      subst hstep
      have hexec := executeMessage_sameLog s n ok
      refine hnone ⟨(hexec.streamInv h.stream).frame
        (hexec.recNode.trans h.stream.nothing_kept) ?_ ?_ rfl (fun _ => rfl) (Nat.le_refl _)
        (fun _ _ => rfl), ?_⟩
      · have hlisted := (hexec.streamInv h.stream).listed
        exact ⟨hlisted.nodup, hlisted.mem_iff⟩
      · intro u
        by_cases hu : u = t
        · subst hu
          simp [logged, queued, executeMessage_executing, hnext]
        · simp [logged, queued, hu]
      · intro u
        exact (hexec.received u).trans (h.temp u)

/-- A run adds the messages that it reads. -/
theorem run_framing {as : List Label} (hok : ∀ a ∈ as, EndsWithMessage byteOrder pageSize a)
    (h : RestInv byteOrder s ms) (hrun : Run.exec (step byteOrder pageSize) s as = some s') :
    ∃ cs, (∀ m ∈ cs, WellFormed byteOrder pageSize m) ∧ arrived as = cs.flatten ∧
      RestInv byteOrder s' (ms ++ cs) := by
  induction as generalizing s ms with
  | nil =>
    cases hrun
    refine ⟨[], nofun, rfl, ?_⟩
    rwa [append_nil]
  | cons a as ih =>
    rw [Run.exec_cons, bind_eq_some_iff] at hrun
    obtain ⟨s₁, hstep, hrun⟩ := hrun
    obtain ⟨cs, hcs, hbytes, h₁⟩ := step_framing (hok a mem_cons_self) h hstep
    obtain ⟨cs', hcs', hbytes', h'⟩ := ih (fun b hb => hok b (mem_cons_of_mem a hb)) h₁ hrun
    refine ⟨cs ++ cs', ?_, ?_, ?_⟩
    · intro m hm
      rcases mem_append.mp hm with hm | hm
      · exact hcs m hm
      · exact hcs' m hm
    · rw [flatten_append, ← hbytes, ← hbytes', arrived, flatMap_cons, arrived]
    · rwa [← append_assoc]

theorem startState_rest : RestInv byteOrder startState [] := by
  refine ⟨⟨rfl, ⟨nodup_nil, ?_⟩, nofun, nofun, fun _ => rfl⟩, fun _ => rfl⟩
  intro t
  simp [startState, TempThreadConnection.empty]

end Invariant

/-- If every chunk that is read ends with a message, then each thread connection gets its
messages of the stream, in the order of the stream and byte for byte. -/
theorem receive_framing_ok {byteOrder : Bool} {pageSize : Nat} {as : List Label} {s' : State}
    {ms : List (List UInt8)} (hms : ∀ m ∈ ms, WellFormed byteOrder pageSize m)
    (hok : ∀ a ∈ as, EndsWithMessage byteOrder pageSize a)
    (hrun : Run.exec (step byteOrder pageSize) startState as = some s')
    (hstream : arrived as = ms.flatten) : FramingOk byteOrder s' ms := by
  obtain ⟨cs, hcs, hbytes, h⟩ := run_framing hok startState_rest hrun
  have heq : cs = ms := flatten_injective hcs hms (hbytes.symm.trans hstream)
  subst heq
  exact h.framingOk

/-- Two threads, and a chunk with a message for each of them. -/
def twoThreads : List Label :=
  [.receive [⟨true, some (messageTo 1 3 ++ messageTo 0 3), none, true⟩], .poll 0, .execute 0 true,
    .receive [⟨true, some (messageTo 0 4), none, true⟩], .poll 1]

theorem receive_framing_ok_twoThreads :
    ∃ s', Run.exec (step false 64) startState twoThreads = some s' ∧
      FramingOk false s' [messageTo 1 3, messageTo 0 3, messageTo 0 4] := by
  have h₁ : WellFormed false 64 (messageTo 1 3) :=
    ⟨by decide, by decide, by decide, 1, by decide, by decide⟩
  have h₂ : WellFormed false 64 (messageTo 0 3) :=
    ⟨by decide, by decide, by decide, 0, by decide, by decide⟩
  have h₃ : WellFormed false 64 (messageTo 0 4) :=
    ⟨by decide, by decide, by decide, 0, by decide, by decide⟩
  have hsome : (Run.exec (step false 64) startState twoThreads).isSome = true := by decide +kernel
  obtain ⟨s', hrun⟩ := Option.isSome_iff_exists.mp hsome
  refine ⟨s', hrun, receive_framing_ok ?_ ?_ hrun (by decide)⟩
  · intro m hm
    simp only [List.mem_cons, List.not_mem_nil, or_false] at hm
    rcases hm with rfl | rfl | rfl
    · exact h₁
    · exact h₂
    · exact h₃
  · have hboth : Whole false 64 (messageTo 1 3 ++ messageTo 0 3) := by
      refine ⟨[messageTo 1 3, messageTo 0 3], ?_, rfl⟩
      intro m hm
      simp only [List.mem_cons, List.not_mem_nil, or_false] at hm
      rcases hm with rfl | rfl
      · exact h₁
      · exact h₂
    have hlast : Whole false 64 (messageTo 0 4) := by
      refine ⟨[messageTo 0 4], ?_, rfl⟩
      intro m hm
      cases List.mem_singleton.mp hm
      exact h₃
    intro a ha
    simp only [twoThreads, List.mem_cons, List.not_mem_nil, or_false] at ha
    rcases ha with rfl | rfl | rfl | rfl | rfl
    · intro r hr
      cases List.mem_singleton.mp hr
      refine ⟨rfl, rfl, ?_⟩
      intro chunk hchunk
      cases hchunk
      exact hboth
    · exact trivial
    · exact trivial
    · intro r hr
      cases List.mem_singleton.mp hr
      refine ⟨rfl, rfl, ?_⟩
      intro chunk hchunk
      cases hchunk
      exact hlast
    · exact trivial

/-- A message that differs from the one before it in its second word. -/
def secondMessage : List UInt8 := [0, 3, 0, 0, 1, 0, 0, 0, 0, 0, 0, 0x80]

/-- The second of two messages comes in two parts: the first part is replaced by the beginning
of the first message. -/
theorem tail_replaced :
    ¬ ∀ (as : List Label) (s' : State) (ms : List (List UInt8)),
      (∀ m ∈ ms, WellFormed false 64 m) → Run.exec (step false 64) startState as = some s' →
        arrived as = ms.flatten → FramingOk false s' ms := by
  intro h
  have hok := h
    [.receive [⟨true, some (messageTo 0 3 ++ secondMessage.take 6), none, true⟩],
      .receive [⟨true, some (secondMessage.drop 6), none, true⟩], .poll 0]
    _ [messageTo 0 3, secondMessage] ?_ rfl rfl 0
  · exact absurd hok (by decide)
  · intro m hm
    simp only [List.mem_cons, List.not_mem_nil, or_false] at hm
    rcases hm with rfl | rfl
    · exact ⟨by decide, by decide, by decide, 0, by decide, by decide⟩
    · exact ⟨by decide, by decide, by decide, 0, by decide, by decide⟩

end IClaustron.Apid.Receive
