import IClaustron.Config.Entries
import IClaustron.Lib.Outcome
import IClaustron.Lib.Result
import IClaustron.Protocol.Messages

/-!
# Config.ConnectString — connect strings

Model of util/ic_parse_connectstring.c, a loop over the characters with a start pointer, a
length and two flags. The lengths are 32-bit numbers, also the one of the whole string and
the ones that memory is asked for; a copy that is longer than the memory aborts.

* `parser_spec`, `connect_string_ok` — what the parser does with a string whose lengths fit.
* `Denotes.unique` — a string is the text of one list of items at most.

Scope limits: what is inside the memory container; of each allocation is asked whether it
succeeds, and it gives as many bytes as its size is after the alignment.
-/

namespace IClaustron.Connect

open Lib Protocol Config List Function Result

/-! ## Loop -/

/-- IC_MAX_CLUSTER_SERVERS. -/
def maxClusterServers : Nat := 4

/-- IC_DEF_CLUSTER_SERVER_PORT_STR. -/
def defClusterServerPortStr : Bytes := ascii "1186"

/-- IC_ERROR_PARSE_CONNECTSTRING. -/
def errorParseConnectstring : Nat := 7056

/-- IC_ERROR_TOO_MANY_CS_HOSTS. -/
def errorTooManyCsHosts : Nat := 7057

/-- The memory container of a connect string. -/
inductive Container where
  | absent
  | live
  | freed
  deriving DecidableEq

/-- `IC_CONNECT_STRING`, with the number of allocations that have been made. -/
structure ConnectString where
  csHosts : Nat → Option Bytes
  csPorts : Nat → Option Bytes
  numCsServers : Nat
  container : Container
  allocs : Nat

/-- The variables of the parser. -/
structure Parser where
  conn : ConnectString
  bufInx : UInt32
  currLen : UInt32
  startPtr : Nat
  readHost : Bool
  readPort : Bool

/-- The characters of a host. -/
def isHostChar (c : UInt8) : Bool :=
  97 ≤ c ∧ c ≤ 122 ∨ 65 ≤ c ∧ c ≤ 90 ∨ 48 ≤ c ∧ c ≤ 57 ∨ c = 95 ∨ c = 45 ∨ c = 46

/-- How many bytes `ic_mc_alloc` gives: the size aligned to 8, in 32 bits. -/
def roomFor (size : UInt32) : Nat := ((size + 7) / 8 * 8).toNat

/-- An allocation has been made. -/
def Parser.allocated (p : Parser) : Parser :=
  { p with conn := { p.conn with allocs := p.conn.allocs + 1 } }

section Parse

variable (mem : Nat → Bool) (text : Bytes)

/-- What `analyse_host` and `analyse_port_number` share: a copy with a NUL byte behind it. -/
def copyToken : Attempt Parser Nat Bytes := fun p =>
  if mem p.conn.allocs then
    if p.currLen.toNat + 1 ≤ roomFor (p.currLen + 1) then
      .ok ((text.drop p.startPtr).take p.currLen.toNat) p.allocated
    else .abort
  else .error errorMemAlloc p

def setHost (host : Bytes) (p : Parser) : Parser :=
  { p with conn := { p.conn with
      csHosts := update p.conn.csHosts p.conn.numCsServers (some host) } }

def setPort (port : Bytes) (p : Parser) : Parser :=
  { p with conn := { p.conn with
      csPorts := update p.conn.csPorts p.conn.numCsServers (some port) } }

/-- `analyse_host`. -/
def analyseHost : Attempt Parser Nat Unit := fun p =>
  if p.currLen = 0 then .error errorParseConnectstring p
  else if p.conn.numCsServers = maxClusterServers then .error errorTooManyCsHosts p
  else
    (do
      let host ← copyToken mem text
      Attempt.modify (setHost host) : Attempt Parser Nat Unit) p

/-- `analyse_port_number`. It is called for a server that has a host, so that there is a place for
the port. -/
def analysePortNumber : Attempt Parser Nat Unit := fun p =>
  if p.currLen = 0 then .error errorParseConnectstring p
  else
    (do
      let port ← copyToken mem text
      Attempt.modify (setPort port) : Attempt Parser Nat Unit) p

/-- A host or a port number has ended, and a server with it. -/
def endServer : Attempt Parser Nat Unit := fun p =>
  (do
    if p.readHost then
      analyseHost mem text
      Attempt.modify (setPort defClusterServerPortStr)
    else analysePortNumber mem text
    Attempt.modify fun p =>
      { p with conn := { p.conn with numCsServers := p.conn.numCsServers + 1 } } :
    Attempt Parser Nat Unit) p

/-- Behind a separator. -/
def nextToken (port : Bool) (p : Parser) : Parser :=
  { p with
    readHost := !port, readPort := port
    startPtr := p.startPtr + (p.currLen + 1).toNat, currLen := 0, bufInx := p.bufInx + 1 }

/-- The characters that are allowed where the parser is. -/
def allowed (p : Parser) (c : UInt8) : Bool :=
  if p.readHost then isHostChar c else if p.readPort then isDigit c else true

/-- The body of the loop. -/
def step : Attempt Parser Nat Unit := fun p =>
  let c := text.getD p.bufInx.toNat 0
  if c = 44 then
    (do
      endServer mem text
      Attempt.modify (nextToken false) : Attempt Parser Nat Unit) p
  else if c = 58 then
    if p.readPort then .error errorParseConnectstring p
    else
      (do
        analyseHost mem text
        Attempt.modify (nextToken true) : Attempt Parser Nat Unit) p
  else
    let p := { p with currLen := p.currLen + 1, bufInx := p.bufInx + 1 }
    if allowed p c then .ok () p else .error errorParseConnectstring p

/-- The loop: the body comes before the test. -/
def parseLoop (len : UInt32) : Nat → Attempt Parser Nat Unit
  | 0 => fun _ => .abort
  | fuel + 1 => do
    step mem text
    fun p => if p.bufInx < len then parseLoop len fuel p else .ok () p

/-- From the start of the string to the end. -/
def parseAll : Attempt Parser Nat Unit := do
  parseLoop mem text text.length.toUInt32 (text.length.toUInt32.toNat + 1)
  endServer mem text

/-- A connect string with its container and empty arrays. -/
def ConnectString.created : ConnectString where
  csHosts := fun _ => none
  csPorts := fun _ => none
  numCsServers := 0
  container := .live
  allocs := 3

def Parser.start (conn : ConnectString) : Parser where
  conn := conn
  bufInx := 0
  currLen := 0
  startPtr := 0
  readHost := true
  readPort := false

/-- The server that is taken when there is no string. -/
def ConnectString.single (csServerName csServerPort : Bytes) : ConnectString :=
  { ConnectString.created with
    csHosts := update (fun _ => none) 0 (some csServerName)
    csPorts := update (fun _ => none) 0 (some csServerPort)
    numCsServers := 1 }

/-- `ic_parse_connectstring`. The first three allocations are the container and its two arrays. -/
def icParseConnectstring (connectString : Option Bytes) (csServerName csServerPort : Bytes) :
    Outcome ConnectString Nat Unit :=
  if mem 0 = false then .error errorMemAlloc { ConnectString.created with container := .absent }
  else if mem 1 = false ∨ mem 2 = false then
    .error errorMemAlloc { ConnectString.created with container := .freed }
  else
    match connectString with
    | none => .ok () (.single csServerName csServerPort)
    | some text =>
      match parseAll mem text (Parser.start .created) with
      | .ok _ p => .ok () p.conn
      | .error code p => .error code { p.conn with container := .freed }
      | .abort => .abort

end Parse

/-! ## Scan -/

/-- A server of a connect string. -/
structure Item where
  host : Bytes
  port : Option Bytes
  deriving DecidableEq

def Item.portOrDefault (item : Item) : Bytes := item.port.getD defClusterServerPortStr

/-- The tests of `analyse_host`. -/
def checkHost (done : List Item) (host : Bytes) : Except Nat Unit :=
  if host = [] then throw errorParseConnectstring
  else if done.length = maxClusterServers then throw errorTooManyCsHosts
  else pure ()

/-- The end of a server whose host is `host`, or `acc` when that is still to be read. -/
def closeItem (done : List Item) (host : Option Bytes) (acc : Bytes) :
    Except Nat (List Item) :=
  match host with
  | none => do
    checkHost done acc
    pure (done ++ [⟨acc, none⟩])
  | some host =>
    if acc = [] then throw errorParseConnectstring else pure (done ++ [⟨host, some acc⟩])

/-- The loop on what is left of the string. -/
def scan (done : List Item) (host : Option Bytes) (acc : Bytes) : Bytes → Except Nat (List Item)
  | [] => closeItem done host acc
  | c :: rest =>
    if c = 44 then do
      let done ← closeItem done host acc
      scan done none [] rest
    else if c = 58 then
      match host with
      | some _ => throw errorParseConnectstring
      | none => do
        checkHost done acc
        scan done (some acc) [] rest
    else if (if host.isNone then isHostChar c else isDigit c) then scan done host (acc ++ [c]) rest
    else throw errorParseConnectstring

section Characters

variable {done : List Item} {host : Option Bytes} {acc rest : Bytes} {c : UInt8}

theorem scan_comma : scan done host acc (44 :: rest) =
    closeItem done host acc >>= fun done => scan done none [] rest := by
  cases host <;> rw [scan, if_pos rfl]

theorem scan_colon : scan done none acc (58 :: rest) =
    checkHost done acc >>= fun _ => scan done (some acc) [] rest := by
  rw [scan, if_neg (by decide), if_pos rfl]

theorem scan_second_colon {name : Bytes} :
    scan done (some name) acc (58 :: rest) = .error errorParseConnectstring := by
  rw [scan, if_neg (by decide), if_pos rfl]
  rfl

theorem scan_char (hSep : c ≠ 44 ∧ c ≠ 58) : scan done host acc (c :: rest) =
    if (if host.isNone then isHostChar c else isDigit c) then scan done host (acc ++ [c]) rest
    else .error errorParseConnectstring := by
  cases host <;> rw [scan, if_neg hSep.1, if_neg hSep.2] <;> rfl

end Characters

/-- Strings whose lengths fit: the string in 32 bits, and a host or a port with the NUL byte behind
it after the alignment. -/
structure Fits (text : Bytes) : Prop where
  length : text.length < 2 ^ 32
  token : ∀ pre token rest, text = pre ++ token ++ rest → (∀ c ∈ token, c ≠ 44 ∧ c ≠ 58) →
    token.length + 8 < 2 ^ 32

theorem fits_of_length {text : Bytes} (h : text.length + 8 < 2 ^ 32) : Fits text where
  length := by omega
  token := by
    intro pre token rest hText _
    rw [hText, length_append, length_append] at h
    omega

theorem roomFor_spec {n : UInt32} (h : n.toNat + 8 < 2 ^ 32) : n.toNat + 1 ≤ roomFor (n + 1) := by
  have hInc : (n + 1).toNat = n.toNat + 1 := by
    rw [UInt32.toNat_add, UInt32.toNat_one, Nat.mod_eq_of_lt (by omega)]
  have hSum : (n + 1 + 7).toNat = n.toNat + 8 := by
    rw [UInt32.toNat_add, hInc]
    exact Nat.mod_eq_of_lt h
  unfold roomFor
  rw [UInt32.toNat_mul, UInt32.toNat_div, hSum]
  show n.toNat + 1 ≤ (n.toNat + 8) / 8 * 8 % 2 ^ 32
  rw [Nat.mod_eq_of_lt (by omega)]
  omega

/-- The servers in the arrays. -/
structure Stored (done : List Item) (conn : ConnectString) : Prop where
  num : conn.numCsServers = done.length
  hosts : ∀ i item, done[i]? = some item → conn.csHosts i = some item.host
  ports : ∀ i item, done[i]? = some item → conn.csPorts i = some item.portOrDefault
  max : done.length ≤ maxClusterServers
  live : conn.container = .live

/-- Where the parser is. -/
structure At (text : Bytes) (done : List Item) (host : Option Bytes) (acc rest : Bytes)
    (p : Parser) : Prop where
  stored : Stored done p.conn
  split : text = text.take p.startPtr ++ acc ++ rest
  start : p.startPtr ≤ text.length
  currLen : p.currLen.toNat = acc.length
  bufInx : p.bufInx.toNat = p.startPtr + acc.length
  readHost : p.readHost = host.isNone
  readPort : p.readPort = host.isSome
  given : ∀ h, host = some h → p.conn.csHosts done.length = some h
  room : host.isSome → done.length < maxClusterServers
  token : ∀ c ∈ acc, c ≠ 44 ∧ c ≠ 58

variable {item : Item} {items : List Item}

theorem getElem?_push {done : List Item} {x : Item} {i : Nat} (h : (done ++ [item])[i]? = some x) :
    (done[i]? = some x ∧ i ≠ done.length) ∨ (i = done.length ∧ x = item) := by
  rcases Nat.lt_or_ge i done.length with hlt | hge
  · rw [getElem?_append_left hlt] at h
    exact .inl ⟨h, hlt.ne⟩
  · rw [getElem?_append_right hge, getElem?_singleton] at h
    split at h
    · exact .inr ⟨by omega, (Option.some.inj h).symm⟩
    · cases h

theorem Stored.push {done : List Item} {conn conn' : ConnectString} (h : Stored done conn)
    (hMax : done.length < maxClusterServers) (hNum : conn'.numCsServers = conn.numCsServers + 1)
    (hHosts : conn'.csHosts = update conn.csHosts done.length (some item.host))
    (hPorts : conn'.csPorts = update conn.csPorts done.length (some item.portOrDefault))
    (hLive : conn'.container = conn.container) : Stored (done ++ [item]) conn' where
  num := by
    rw [hNum, h.num, length_append]
    rfl
  hosts := by
    intro i item' hi
    rw [hHosts]
    rcases getElem?_push hi with ⟨hOld, hne⟩ | ⟨rfl, rfl⟩
    · rw [update_of_ne hne]
      exact h.hosts i item' hOld
    · rw [update_self]
  ports := by
    intro i item' hi
    rw [hPorts]
    rcases getElem?_push hi with ⟨hOld, hne⟩ | ⟨rfl, rfl⟩
    · rw [update_of_ne hne]
      exact h.ports i item' hOld
    · rw [update_self]
  max := by
    rw [length_append]
    exact hMax
  live := by rw [hLive, h.live]

section Spec

variable {mem : Nat → Bool} {text : Bytes} {done : List Item} {host : Option Bytes}
variable {acc rest : Bytes} {p : Parser}

/-- The parser has given up, for want of memory or as the scan does. -/
def Failed {α : Type} (mem : Nat → Bool) (res : Except Nat α) (code : Nat) (p : Parser) : Prop :=
  p.conn.container = .live ∧ (code = errorMemAlloc ∧ (∃ i, mem i = false) ∨ res = .error code)

section

variable (h : At text done host acc rest p)

include h

theorem At.take_eq : (text.drop p.startPtr).take p.currLen.toNat = acc := by
  have hText := h.split
  rw [append_assoc] at hText
  have hDrop : text.drop p.startPtr = acc ++ rest := by
    conv_lhs => rw [hText]
    rw [drop_left' (length_take_of_le h.start)]
  rw [hDrop, h.currLen, take_left]

theorem At.fits (hFits : Fits text) : p.currLen.toNat + 8 < 2 ^ 32 := by
  rw [h.currLen]
  exact hFits.token _ _ _ h.split h.token

theorem At.currLen_eq_zero : p.currLen = 0 ↔ acc = [] := by
  rw [← UInt32.toNat_inj, h.currLen]
  exact length_eq_zero_iff

theorem copyToken_spec (hFits : Fits text) :
    Attempt.After (fun token p' => token = acc ∧ p' = p.allocated)
      (fun code p' => code = errorMemAlloc ∧ (∃ i, mem i = false) ∧ p' = p)
      (copyToken mem text p) := by
  unfold copyToken
  rw [if_pos (roomFor_spec (h.fits hFits)), h.take_eq]
  split
  next => exact ⟨rfl, rfl⟩
  next hMem => exact ⟨rfl, ⟨_, Bool.eq_false_iff.mpr hMem⟩, rfl⟩

end

theorem analyseHost_spec (h : At text done none acc rest p) (hFits : Fits text) :
    Attempt.After (fun _ p' => checkHost done acc = .ok () ∧ done.length < maxClusterServers ∧
        p' = setHost acc p.allocated)
      (Failed mem (checkHost done acc)) (analyseHost mem text p) := by
  unfold analyseHost checkHost
  rw [h.stored.num]
  by_cases hEmpty : acc = []
  · rw [if_pos (h.currLen_eq_zero.mpr hEmpty), if_pos hEmpty]
    exact ⟨h.stored.live, .inr rfl⟩
  rw [if_neg (mt h.currLen_eq_zero.mp hEmpty), if_neg hEmpty]
  by_cases hMany : done.length = maxClusterServers
  · rw [if_pos hMany, if_pos hMany]
    exact ⟨h.stored.live, .inr rfl⟩
  rw [if_neg hMany, if_neg hMany]
  refine Attempt.after_bind ((copyToken_spec h hFits).mono (fun _ _ hMid => hMid) ?_) ?_
  · rintro code p' ⟨hCode, hMem, rfl⟩
    exact ⟨h.stored.live, .inl ⟨hCode, hMem⟩⟩
  · rintro token p' ⟨rfl, rfl⟩
    exact ⟨rfl, lt_of_le_of_ne h.stored.max hMany, rfl⟩

theorem analysePortNumber_spec {name : Bytes} (h : At text done (some name) acc rest p)
    (hFits : Fits text) :
    Attempt.After (fun _ p' => acc ≠ [] ∧ p' = setPort acc p.allocated)
      (Failed mem (closeItem done (some name) acc)) (analysePortNumber mem text p) := by
  unfold analysePortNumber closeItem
  by_cases hEmpty : acc = []
  · rw [if_pos (h.currLen_eq_zero.mpr hEmpty)]
    exact ⟨h.stored.live, .inr (if_pos hEmpty)⟩
  rw [if_neg (mt h.currLen_eq_zero.mp hEmpty)]
  refine Attempt.after_bind ((copyToken_spec h hFits).mono (fun _ _ hMid => hMid) ?_) ?_
  · rintro code p' ⟨hCode, hMem, rfl⟩
    exact ⟨h.stored.live, .inl ⟨hCode, hMem⟩⟩
  · rintro token p' ⟨rfl, rfl⟩
    exact ⟨hEmpty, rfl⟩

/-- What the end of a server leaves of the rest of the parser. -/
def SamePlace (p p' : Parser) : Prop :=
  p'.bufInx = p.bufInx ∧ p'.currLen = p.currLen ∧ p'.startPtr = p.startPtr

theorem endServer_spec (h : At text done host acc rest p) (hFits : Fits text) :
    Attempt.After (fun _ p' => SamePlace p p' ∧
        ∃ done', closeItem done host acc = .ok done' ∧ Stored done' p'.conn)
      (Failed mem (closeItem done host acc)) (endServer mem text p) := by
  unfold endServer
  rw [h.readHost]
  cases host with
  | none =>
    refine Attempt.after_bind ((analyseHost_spec h hFits).mono (fun _ _ hMid => hMid) ?_) ?_
    · rintro code p' ⟨hLive, hCode | hCode⟩
      · exact ⟨hLive, .inl hCode⟩
      · refine ⟨hLive, .inr ?_⟩
        show (checkHost done acc >>= _) = _
        rw [hCode]
        rfl
    · rintro - p' ⟨hCheck, hRoom, rfl⟩
      refine ⟨⟨rfl, rfl, rfl⟩, done ++ [⟨acc, none⟩], ?_, ?_⟩
      · show (checkHost done acc >>= _) = _
        rw [hCheck]
        rfl
      · refine h.stored.push hRoom rfl ?_ ?_ rfl
        · exact congrArg (fun n => update p.conn.csHosts n (some acc)) h.stored.num
        · exact congrArg (fun n => update p.conn.csPorts n _) h.stored.num
  | some name =>
    refine Attempt.after_bind ((analysePortNumber_spec h hFits).mono (fun _ _ hMid => hMid)
      fun _ _ hFail => hFail) ?_
    rintro - p' ⟨hne, rfl⟩
    refine ⟨⟨rfl, rfl, rfl⟩, done ++ [⟨name, some acc⟩], ?_, ?_⟩
    · unfold closeItem
      dsimp only
      rw [if_neg hne]
      rfl
    refine h.stored.push (h.room rfl) rfl ?_ ?_ rfl
    -- the host was stored when the separator before the port was read
    · exact (update_eq_self_iff.mpr (h.given name rfl).symm).symm
    · exact congrArg (fun n => update p.conn.csPorts n (some acc)) h.stored.num

/-- Behind a separator the parser is at the start of a token. -/
theorem At.next {c : UInt8} (p' : Parser) (host' : Option Bytes)
    (h : At text done host acc (c :: rest) p) (hLen : text.length < 2 ^ 32)
    (hPlace : SamePlace p p') {done' : List Item} (hStored : Stored done' p'.conn)
    (hGiven : ∀ name, host' = some name → p'.conn.csHosts done'.length = some name)
    (hRoom : host'.isSome → done'.length < maxClusterServers) :
    At text done' host' [] rest (nextToken host'.isSome p') := by
  obtain ⟨hBuf, hCurr, hStart⟩ := hPlace
  have hCount : text.length = p.startPtr + acc.length + (rest.length + 1) := by
    have hSplit := congrArg List.length h.split
    rw [length_append, length_append, length_take_of_le h.start] at hSplit
    exact hSplit
  have hInc : (p.currLen + 1).toNat = acc.length + 1 := by
    rw [UInt32.toNat_add, h.currLen, UInt32.toNat_one, Nat.mod_eq_of_lt (by omega)]
  have hNext : (nextToken host'.isSome p').startPtr = p.startPtr + (acc.length + 1) := by
    show p'.startPtr + (p'.currLen + 1).toNat = _
    rw [hStart, hCurr, hInc]
  refine ⟨hStored, ?_, ?_, rfl, ?_, ?_, rfl, hGiven, hRoom, ?_⟩
  · rw [hNext, append_nil]
    have hSplit : text = (text.take p.startPtr ++ acc ++ [c]) ++ rest := by
      rw [append_assoc, singleton_append]
      exact h.split
    conv_lhs => rw [hSplit]
    congr 1
    symm
    conv_lhs => rw [hSplit]
    refine take_left' ?_
    rw [length_append, length_append, length_take_of_le h.start]
    rfl
  · rw [hNext]
    omega
  · rw [hNext]
    show (p'.bufInx + 1).toNat = _
    rw [hBuf, UInt32.toNat_add, h.bufInx, UInt32.toNat_one, Nat.mod_eq_of_lt (by omega)]
    rfl
  · show (!host'.isSome) = host'.isNone
    cases host' <;> rfl
  · intro c' hc'
    cases hc'

/-- A character that is allowed belongs to the token. -/
theorem At.grow {c : UInt8} (h : At text done host acc (c :: rest) p) (hLen : text.length < 2 ^ 32)
    (hSep : c ≠ 44 ∧ c ≠ 58) :
    At text done host (acc ++ [c]) rest
      { p with currLen := p.currLen + 1, bufInx := p.bufInx + 1 } := by
  have hCount : text.length = p.startPtr + acc.length + (rest.length + 1) := by
    have hSplit := congrArg List.length h.split
    rw [length_append, length_append, length_take_of_le h.start] at hSplit
    exact hSplit
  refine ⟨h.stored, ?_, h.start, ?_, ?_, h.readHost, h.readPort, h.given, h.room, ?_⟩
  · rw [append_assoc, append_assoc, singleton_append, ← append_assoc]
    exact h.split
  · show (p.currLen + 1).toNat = _
    rw [UInt32.toNat_add, h.currLen, UInt32.toNat_one, Nat.mod_eq_of_lt (by omega),
      length_append]
    rfl
  · show (p.bufInx + 1).toNat = _
    rw [UInt32.toNat_add, h.bufInx, UInt32.toNat_one, Nat.mod_eq_of_lt (by omega),
      length_append]
    rfl
  · intro c' hc'
    rcases mem_append.mp hc' with hOld | hNew
    · exact h.token c' hOld
    · rw [mem_singleton.mp hNew]
      exact hSep

theorem At.char {c : UInt8} (h : At text done host acc (c :: rest) p) :
    text.getD p.bufInx.toNat 0 = c := by
  rw [h.bufInx, getD_eq_getElem?_getD]
  conv_lhs => rw [h.split]
  rw [getElem?_append_right, length_append, length_take_of_le h.start, Nat.sub_self]
  · rfl
  · rw [length_append, length_take_of_le h.start]

theorem At.allowed_eq (h : At text done host acc rest p) (c : UInt8) :
    allowed p c = if host.isNone then isHostChar c else isDigit c := by
  unfold allowed
  rw [h.readHost, h.readPort]
  cases host <;> rfl

/-- One step of the loop is one step of the scan. -/
theorem step_spec {c : UInt8} (h : At text done host acc (c :: rest) p) (hFits : Fits text) :
    Attempt.After (fun _ p' => ∃ done' host' acc',
        scan done host acc (c :: rest) = scan done' host' acc' rest ∧
        At text done' host' acc' rest p')
      (Failed mem (scan done host acc (c :: rest))) (step mem text p) := by
  unfold step
  rw [h.char]
  dsimp only
  by_cases hComma : c = 44
  · subst hComma
    rw [if_pos rfl, scan_comma]
    refine Attempt.after_bind ((endServer_spec h hFits).mono (fun _ _ hMid => hMid) ?_) ?_
    · rintro code p' ⟨hLive, hCode | hCode⟩
      · exact ⟨hLive, .inl hCode⟩
      · rw [hCode]
        exact ⟨hLive, .inr rfl⟩
    · rintro - p' ⟨hPlace, done', hClose, hStored⟩
      refine ⟨done', none, [], bind_of_ok hClose _, ?_⟩
      exact At.next p' none h hFits.length hPlace hStored (fun _ hNone => nomatch hNone)
        (fun hNone => nomatch hNone)
  rw [if_neg hComma]
  by_cases hColon : c = 58
  · subst hColon
    rw [if_pos rfl, h.readPort]
    cases host with
    | some name =>
      rw [scan_second_colon]
      exact ⟨h.stored.live, .inr rfl⟩
    | none =>
      rw [scan_colon]
      refine Attempt.after_bind ((analyseHost_spec h hFits).mono (fun _ _ hMid => hMid) ?_) ?_
      · rintro code p' ⟨hLive, hCode | hCode⟩
        · exact ⟨hLive, .inl hCode⟩
        · rw [hCode]
          exact ⟨hLive, .inr rfl⟩
      · rintro - p' ⟨hCheck, hMany, rfl⟩
        refine ⟨done, some acc, [], bind_of_ok hCheck _, ?_⟩
        -- the host is in its place, but the server is not counted yet
        have hStored : Stored done (setHost acc p.allocated).conn := by
          refine ⟨h.stored.num, ?_, h.stored.ports, h.stored.max, h.stored.live⟩
          intro i item hi
          have hne : i ≠ p.conn.numCsServers := by
            rw [h.stored.num]
            exact (List.getElem?_eq_some_iff.mp hi).1.ne
          exact (update_of_ne hne _ _).trans (h.stored.hosts i item hi)
        refine At.next (setHost acc p.allocated) (some acc) h hFits.length ⟨rfl, rfl, rfl⟩ hStored ?_
          (fun _ => hMany)
        rintro name ⟨rfl⟩
        rw [← h.stored.num]
        exact update_self ..
  rw [if_neg hColon, scan_char ⟨hComma, hColon⟩]
  have hAllowed : allowed { p with currLen := p.currLen + 1, bufInx := p.bufInx + 1 } c =
      if host.isNone then isHostChar c else isDigit c := h.allowed_eq c
  rw [hAllowed]
  by_cases hOk : (if host.isNone then isHostChar c else isDigit c) = true
  · rw [if_pos hOk, if_pos hOk]
    exact ⟨done, host, acc ++ [c], rfl, h.grow hFits.length ⟨hComma, hColon⟩⟩
  · rw [if_neg hOk, if_neg hOk]
    exact ⟨h.stored.live, .inr rfl⟩

/-- The loop, from a place where there may be nothing left. -/
theorem loop_spec (hFits : Fits text) (rest : Bytes) :
    ∀ done host acc p, At text done host acc rest p → ∀ fuel, rest.length ≤ fuel →
      Attempt.After (fun _ p' => ∃ done' host' acc',
          scan done host acc rest = closeItem done' host' acc' ∧ At text done' host' acc' [] p')
        (Failed mem (scan done host acc rest))
        (if p.bufInx < text.length.toUInt32 then parseLoop mem text text.length.toUInt32 fuel p
          else .ok () p) := by
  have hLen : text.length.toUInt32.toNat = text.length := by
    show text.length % 2 ^ 32 = _
    exact Nat.mod_eq_of_lt hFits.length
  induction rest with
  | nil =>
    intro done host acc p h fuel _
    have hCount := congrArg List.length h.split
    rw [append_nil, length_append, length_take_of_le h.start] at hCount
    have hEnd : ¬ p.bufInx < text.length.toUInt32 := by
      rw [UInt32.lt_iff_toNat_lt, hLen, h.bufInx]
      omega
    rw [if_neg hEnd]
    exact ⟨done, host, acc, rfl, h⟩
  | cons c rest ih =>
    intro done host acc p h fuel hFuel
    have hCount := congrArg List.length h.split
    rw [length_append, length_append, length_take_of_le h.start,
      length_cons] at hCount
    have hMore : p.bufInx < text.length.toUInt32 := by
      rw [UInt32.lt_iff_toNat_lt, hLen, h.bufInx]
      omega
    rw [if_pos hMore]
    cases fuel with
    | zero => cases hFuel
    | succ fuel =>
      refine Attempt.after_bind (step_spec h hFits) ?_
      rintro - p' ⟨done', host', acc', hScan, h'⟩
      rw [hScan]
      exact ih done' host' acc' p' h' fuel (Nat.le_of_succ_le_succ hFuel)

end Spec

theorem at_start (text : Bytes) : At text [] none [] text (Parser.start .created) where
  stored := ⟨rfl, fun _ _ hi => (nomatch hi), fun _ _ hi => (nomatch hi), Nat.zero_le _, rfl⟩
  split := rfl
  start := Nat.zero_le _
  currLen := rfl
  bufInx := rfl
  readHost := rfl
  readPort := rfl
  given := fun _ hNone => nomatch hNone
  room := fun hNone => nomatch hNone
  token := fun _ hc => nomatch hc

/-- The parser does what the scan does, unless memory is missing. -/
theorem parse_spec (mem : Nat → Bool) {text : Bytes} (hFits : Fits text) :
    Attempt.After (fun _ p => ∃ items, scan [] none [] text = .ok items ∧ Stored items p.conn)
      (Failed mem (scan [] none [] text)) (parseAll mem text (Parser.start .created)) := by
  have hLoop : Attempt.After (fun _ p' => ∃ done' host' acc',
        scan [] none [] text = closeItem done' host' acc' ∧ At text done' host' acc' [] p')
      (Failed mem (scan [] none [] text))
      (parseLoop mem text text.length.toUInt32 (text.length.toUInt32.toNat + 1)
        (Parser.start .created)) := by
    by_cases hEmpty : text = []
    · -- the body is done once for an empty string, and sees the NUL byte
      subst hEmpty
      exact ⟨rfl, .inr rfl⟩
    · have hLen : text.length.toUInt32.toNat = text.length := by
        show text.length % 2 ^ 32 = _
        exact Nat.mod_eq_of_lt hFits.length
      have hSpec := @loop_spec mem _ hFits text [] none [] _ (at_start text)
        (text.length.toUInt32.toNat + 1) (by omega)
      rwa [if_pos] at hSpec
      rw [UInt32.lt_iff_toNat_lt, hLen]
      exact length_pos_iff.mpr hEmpty
  refine Attempt.after_bind hLoop ?_
  rintro - p ⟨done, host, acc, hScan, h⟩
  rw [hScan]
  exact (endServer_spec h hFits).mono (fun _ _ hMid => hMid.2) fun _ _ hFail => hFail

/-! ## Grammar -/

/-- An item of the list as it is written: `host` or `host:port`. -/
def Item.text (item : Item) : Bytes :=
  match item.port with
  | none => item.host
  | some port => item.host ++ 58 :: port

structure Item.Valid (item : Item) : Prop where
  host : item.host ≠ []
  hostChars : ∀ c ∈ item.host, isHostChar c = true
  port : ∀ port, item.port = some port → port ≠ []
  portDigits : ∀ port, item.port = some port → ∀ c ∈ port, isDigit c = true

/-- Items with commas between them. -/
def connectText : List Item → Bytes
  | [] => []
  | [item] => item.text
  | item :: next :: items => item.text ++ 44 :: connectText (next :: items)

/-- The string is a list of one to four items. -/
structure Denotes (text : Bytes) (items : List Item) : Prop where
  text_eq : text = connectText items
  nonempty : items ≠ []
  count : items.length ≤ maxClusterServers
  valid : ∀ item ∈ items, item.Valid

theorem connectText_cons (item : Item) (h : items ≠ []) :
    connectText (item :: items) = item.text ++ 44 :: connectText items := by
  cases items with
  | nil => exact absurd rfl h
  | cons next items => rfl

theorem isHostChar_sep {c : UInt8} (h : isHostChar c = true) : c ≠ 44 ∧ c ≠ 58 := by
  constructor <;> rintro rfl <;> revert h <;> decide

theorem isDigit_sep {c : UInt8} (h : isDigit c = true) : c ≠ 44 ∧ c ≠ 58 := by
  constructor <;> rintro rfl <;> revert h <;> decide

/-- What has been read of the server that is being read. -/
def pending (host : Option Bytes) (acc : Bytes) : Bytes :=
  match host with
  | none => acc
  | some host => host ++ 58 :: acc

/-- Only characters that are allowed have been read. -/
structure Pending (host : Option Bytes) (acc : Bytes) : Prop where
  acc : ∀ c ∈ acc, (if host.isNone then isHostChar c else isDigit c) = true
  host : ∀ name, host = some name → name ≠ [] ∧ ∀ c ∈ name, isHostChar c = true

theorem checkHost_eq_ok {done : List Item} {host : Bytes} :
    checkHost done host = .ok () ↔ host ≠ [] ∧ done.length ≠ maxClusterServers := by
  unfold checkHost
  constructor
  · intro h
    split at h
    next => cases h
    next hne =>
      split at h
      next => cases h
      next hCount => exact ⟨hne, hCount⟩
  · rintro ⟨hne, hCount⟩
    rw [if_neg hne, if_neg hCount]
    rfl

/-- A server that is closed is an item of the grammar. -/
theorem closeItem_sound {done : List Item} {host : Option Bytes} {acc : Bytes}
    (hPending : Pending host acc) (hRoom : host.isSome → done.length < maxClusterServers)
    (hMax : done.length ≤ maxClusterServers) (h : closeItem done host acc = .ok items) :
    ∃ item : Item, items = done ++ [item] ∧ item.Valid ∧ item.text = pending host acc ∧
      items.length ≤ maxClusterServers := by
  cases host with
  | none =>
    rcases bind_eq_ok.mp h with ⟨⟨⟩, hCheck, hPush⟩
    have hItems : done ++ [⟨acc, none⟩] = items := pure_eq_ok.mp hPush
    obtain ⟨hne, hCount⟩ := checkHost_eq_ok.mp hCheck
    have hValid : Item.Valid ⟨acc, none⟩ :=
      ⟨hne, hPending.acc, fun _ hPort => (nomatch hPort), fun _ hPort => (nomatch hPort)⟩
    refine ⟨⟨acc, none⟩, hItems.symm, hValid, rfl, ?_⟩
    rw [← hItems, length_append]
    exact lt_of_le_of_ne hMax hCount
  | some name =>
    unfold closeItem at h
    dsimp only at h
    split at h
    next => cases h
    next hne =>
      have hItems : done ++ [⟨name, some acc⟩] = items := pure_eq_ok.mp h
      have hValid : Item.Valid ⟨name, some acc⟩ := by
        refine ⟨(hPending.host name rfl).1, (hPending.host name rfl).2, ?_, ?_⟩
        · rintro port ⟨rfl⟩
          exact hne
        · rintro port ⟨rfl⟩
          exact hPending.acc
      refine ⟨⟨name, some acc⟩, hItems.symm, hValid, rfl, ?_⟩
      rw [← hItems, length_append]
      exact hRoom rfl

/-- What the scan accepts are items of the grammar. -/
theorem scan_sound (rest : Bytes) : ∀ (done : List Item) (host : Option Bytes) (acc : Bytes) items,
    Pending host acc → (host.isSome → done.length < maxClusterServers) →
    done.length ≤ maxClusterServers → scan done host acc rest = .ok items →
    ∃ new, items = done ++ new ∧ new ≠ [] ∧ (∀ item ∈ new, item.Valid) ∧
      pending host acc ++ rest = connectText new ∧ items.length ≤ maxClusterServers := by
  induction rest with
  | nil =>
    intro done host acc items hPending hRoom hMax hScan
    have hClose : closeItem done host acc = .ok items := by
      cases host <;> exact hScan
    obtain ⟨item, hItems, hValid, hText, hCount⟩ := closeItem_sound hPending hRoom hMax hClose
    refine ⟨[item], hItems, cons_ne_nil _ _, ?_, ?_, hCount⟩
    · intro item' hMem
      rw [mem_singleton.mp hMem]
      exact hValid
    · rw [append_nil, ← hText]
      rfl
  | cons c rest ih =>
    intro done host acc items hPending hRoom hMax hScan
    by_cases hComma : c = 44
    · subst hComma
      rw [scan_comma] at hScan
      rcases bind_eq_ok.mp hScan with ⟨done', hClose, hRest⟩
      obtain ⟨item, rfl, hValid, hText, hCount⟩ := closeItem_sound hPending hRoom hMax hClose
      have hStart : Pending none [] :=
        ⟨fun _ hc => (nomatch hc), fun _ hNone => (nomatch hNone)⟩
      obtain ⟨new, rfl, hne, hNew, hRestText, hItems⟩ :=
        ih _ _ _ _ hStart (fun hNone => (nomatch hNone)) hCount hRest
      refine ⟨item :: new, append_assoc .., cons_ne_nil _ _, ?_, ?_, hItems⟩
      · intro item' hMem
        rcases mem_cons.mp hMem with rfl | hOther
        · exact hValid
        · exact hNew item' hOther
      · rw [connectText_cons item hne, hText, ← hRestText]
        rfl
    by_cases hColon : c = 58
    · subst hColon
      cases host with
      | some name =>
        rw [scan_second_colon] at hScan
        cases hScan
      | none =>
        rw [scan_colon] at hScan
        rcases bind_eq_ok.mp hScan with ⟨⟨⟩, hCheck, hRest⟩
        obtain ⟨hne, hCount⟩ := checkHost_eq_ok.mp hCheck
        have hHost : Pending (some acc) [] := by
          refine ⟨fun _ hc => (nomatch hc), ?_⟩
          rintro name ⟨rfl⟩
          exact ⟨hne, hPending.acc⟩
        obtain ⟨new, hItems, hNe, hNew, hText, hLength⟩ :=
          ih _ _ _ _ hHost (fun _ => lt_of_le_of_ne hMax hCount) hMax hRest
        refine ⟨new, hItems, hNe, hNew, ?_, hLength⟩
        rw [← hText]
        exact (append_assoc acc [58] rest).symm
    · rw [scan_char ⟨hComma, hColon⟩] at hScan
      by_cases hOk : (if host.isNone then isHostChar c else isDigit c) = true
      · rw [if_pos hOk] at hScan
        have hGrow : Pending host (acc ++ [c]) := by
          refine ⟨?_, hPending.host⟩
          intro c' hc'
          rcases mem_append.mp hc' with hOld | hNew
          · exact hPending.acc c' hOld
          · rw [mem_singleton.mp hNew]
            exact hOk
        obtain ⟨new, hItems, hNe, hNew, hText, hLength⟩ := ih _ _ _ _ hGrow hRoom hMax hScan
        refine ⟨new, hItems, hNe, hNew, ?_, hLength⟩
        rw [← hText]
        cases host <;> simp [pending]
      · rw [if_neg hOk] at hScan
        cases hScan

/-- A run of characters that are allowed is added to the token. -/
theorem scan_run (done : List Item) (host : Option Bytes) (rest run : Bytes) :
    ∀ acc, (∀ c ∈ run, (if host.isNone then isHostChar c else isDigit c) = true) →
      scan done host acc (run ++ rest) = scan done host (acc ++ run) rest := by
  induction run with
  | nil =>
    intro acc _
    rw [append_nil, nil_append]
  | cons c run ih =>
    intro acc hRun
    have hOk := hRun c mem_cons_self
    have hSep : c ≠ 44 ∧ c ≠ 58 := by
      split at hOk
      · exact isHostChar_sep hOk
      · exact isDigit_sep hOk
    rw [cons_append, scan_char hSep, if_pos hOk,
      ih _ fun c' hc' => hRun c' (mem_cons_of_mem _ hc'), append_assoc,
      singleton_append]

/-- An item is read up to the separator or the end. -/
theorem scan_item {done : List Item} (hValid : item.Valid) (hRoom : done.length < maxClusterServers)
    (rest : Bytes) :
    ∃ host acc, scan done none [] (item.text ++ rest) = scan done host acc rest ∧
      closeItem done host acc = .ok (done ++ [item]) := by
  obtain ⟨host, port⟩ := item
  have hCheck : checkHost done host = .ok () := checkHost_eq_ok.mpr ⟨hValid.host, hRoom.ne⟩
  cases port with
  | none =>
    refine ⟨none, host, scan_run done none rest host [] hValid.hostChars, ?_⟩
    exact bind_of_ok hCheck _
  | some port =>
    refine ⟨some host, port, ?_, if_neg (hValid.port port rfl)⟩
    show scan done none [] (host ++ 58 :: port ++ rest) = _
    rw [append_assoc, scan_run done none _ host [] hValid.hostChars, nil_append,
      cons_append, scan_colon, bind_of_ok hCheck,
      scan_run done (some host) rest port [] (hValid.portDigits port rfl), nil_append]

/-- The items of the grammar are accepted. -/
theorem scan_complete (new : List Item) : ∀ done : List Item, new ≠ [] →
    (∀ item ∈ new, item.Valid) → (done ++ new).length ≤ maxClusterServers →
    scan done none [] (connectText new) = .ok (done ++ new) := by
  induction new with
  | nil => exact fun _ hne => absurd rfl hne
  | cons item new ih =>
    intro done _ hValid hCount
    have hRoom : done.length < maxClusterServers := by
      rw [length_append, length_cons] at hCount
      omega
    cases new with
    | nil =>
      obtain ⟨host, acc, hScan, hClose⟩ := scan_item (hValid item mem_cons_self) hRoom []
      rw [append_nil] at hScan
      show scan done none [] item.text = _
      rw [hScan]
      cases host <;> exact hClose
    | cons next new =>
      have hne : next :: new ≠ [] := cons_ne_nil _ _
      obtain ⟨host, acc, hScan, hClose⟩ := scan_item (hValid item mem_cons_self) hRoom
        (44 :: connectText (next :: new))
      rw [connectText_cons item hne, hScan, scan_comma, bind_of_ok hClose,
        ih (done ++ [item]) hne (fun item' hMem => hValid item' (mem_cons_of_mem _ hMem)) ?_,
        append_assoc, singleton_append]
      rwa [append_assoc, singleton_append]

/-- The scan accepts the lists of one to four items and nothing else. -/
theorem scan_iff {text : Bytes} : scan [] none [] text = .ok items ↔ Denotes text items := by
  constructor
  · intro hScan
    have hStart : Pending none [] := ⟨fun _ hc => (nomatch hc), fun _ hNone => (nomatch hNone)⟩
    obtain ⟨new, rfl, hne, hValid, hText, hCount⟩ := scan_sound text [] none [] items hStart
      (fun hNone => (nomatch hNone)) (Nat.zero_le _) hScan
    exact ⟨hText, hne, hCount, hValid⟩
  · rintro ⟨rfl, hne, hCount, hValid⟩
    exact scan_complete items [] hne hValid hCount

theorem Denotes.unique {text : Bytes} {items' : List Item} (h : Denotes text items)
    (h' : Denotes text items') : items = items' :=
  Except.ok.inj ((scan_iff.mpr h).symm.trans (scan_iff.mpr h'))

/-! ## Parser -/

/-- The parser accepts the string if it is a list of items, with the hosts and ports of the items;
otherwise it frees the container and returns an error. -/
def ParsesGrammar (mem : Nat → Bool) (text : Bytes) : Outcome ConnectString Nat Unit → Prop :=
  Attempt.After
    (fun _ conn => ∃ items, Denotes text items ∧ conn.numCsServers = items.length ∧
      conn.container = .live ∧
      ∀ i item, items[i]? = some item →
        conn.csHosts i = some item.host ∧ conn.csPorts i = some item.portOrDefault)
    (fun code conn => code ≠ 0 ∧ conn.container ≠ .live ∧
      ((∀ i, mem i = true) → ¬ ∃ items, Denotes text items))

theorem checkHost_error {done : List Item} {host : Bytes} {code : Nat}
    (h : checkHost done host = .error code) : code ≠ 0 := by
  unfold checkHost at h
  split at h
  next =>
    rw [← Except.error.inj h]
    decide
  next =>
    split at h
    next =>
      rw [← Except.error.inj h]
      decide
    next => cases h

theorem closeItem_error {done : List Item} {host : Option Bytes} {acc : Bytes} {code : Nat}
    (h : closeItem done host acc = .error code) : code ≠ 0 := by
  cases host with
  | none =>
    rcases bind_eq_error.mp h with hCheck | ⟨⟨⟩, -, hPush⟩
    · exact checkHost_error hCheck
    · cases hPush
  | some name =>
    unfold closeItem at h
    dsimp only at h
    split at h
    next =>
      rw [← Except.error.inj h]
      decide
    next => cases h

theorem scan_error (rest : Bytes) : ∀ (done : List Item) (host : Option Bytes) (acc : Bytes) code,
    scan done host acc rest = .error code → code ≠ 0 := by
  induction rest with
  | nil =>
    intro done host acc code h
    have hClose : closeItem done host acc = .error code := by
      cases host <;> exact h
    exact closeItem_error hClose
  | cons c rest ih =>
    intro done host acc code h
    by_cases hComma : c = 44
    · subst hComma
      rw [scan_comma] at h
      rcases bind_eq_error.mp h with hClose | ⟨done', -, hRest⟩
      · exact closeItem_error hClose
      · exact ih _ _ _ _ hRest
    by_cases hColon : c = 58
    · subst hColon
      cases host with
      | some name =>
        rw [scan_second_colon] at h
        rw [← Except.error.inj h]
        decide
      | none =>
        rw [scan_colon] at h
        rcases bind_eq_error.mp h with hCheck | ⟨⟨⟩, -, hRest⟩
        · exact checkHost_error hCheck
        · exact ih _ _ _ _ hRest
    · rw [scan_char ⟨hComma, hColon⟩] at h
      by_cases hOk : (if host.isNone then isHostChar c else isDigit c) = true
      · rw [if_pos hOk] at h
        exact ih _ _ _ _ h
      · rw [if_neg hOk] at h
        rw [← Except.error.inj h]
        decide

/-- The parser stores the items of the string, and fails only if there are none or memory is
missing. -/
theorem parser_spec (mem : Nat → Bool) {text : Bytes} (csServerName csServerPort : Bytes)
    (hFits : Fits text) :
    Attempt.After (fun _ conn => ∃ items, Denotes text items ∧ Stored items conn)
      (fun code conn => code ≠ 0 ∧ conn.container ≠ .live ∧
        ((∀ i, mem i = true) → ¬ ∃ items, Denotes text items))
      (icParseConnectstring mem (some text) csServerName csServerPort) := by
  unfold icParseConnectstring
  split
  next hMem =>
    refine ⟨by decide, by decide, fun hAll => ?_⟩
    rw [hAll 0] at hMem
    cases hMem
  split
  next hMem =>
    refine ⟨by decide, by decide, fun hAll => ?_⟩
    rw [hAll 1, hAll 2] at hMem
    simp at hMem
  dsimp only
  rcases (parse_spec mem hFits).cases with ⟨⟨⟩, p, hParse, items, hScan, hStored⟩ |
    ⟨code, p, hParse, -, hCode⟩
  · rw [hParse]
    exact ⟨items, scan_iff.mp hScan, hStored⟩
  · rw [hParse]
    rcases hCode with ⟨rfl, i, hMem⟩ | hScan
    · refine ⟨by decide, Container.noConfusion, fun hAll => ?_⟩
      rw [hAll i] at hMem
      cases hMem
    · -- a string of the grammar is accepted by the scan, so this one is not of the grammar
      refine ⟨scan_error _ _ _ _ _ hScan, Container.noConfusion, fun _ => ?_⟩
      rintro ⟨items, hItems⟩
      rw [scan_iff.mpr hItems] at hScan
      cases hScan

theorem connect_string_ok (mem : Nat → Bool) (text csServerName csServerPort : Bytes)
    (hFits : Fits text) :
    ParsesGrammar mem text (icParseConnectstring mem (some text) csServerName csServerPort) := by
  refine (parser_spec mem csServerName csServerPort hFits).mono ?_ fun _ _ hFail => hFail
  rintro ⟨⟩ conn ⟨items, hItems, hStored⟩
  exact ⟨items, hItems, hStored.num, hStored.live,
    fun i item hi => ⟨hStored.hosts i item hi, hStored.ports i item hi⟩⟩

/-- The string `a:1199,b`. -/
theorem two_servers_parsed : Fits [97, 58, 49, 49, 57, 57, 44, 98] ∧
    ParsesGrammar (fun _ => true) [97, 58, 49, 49, 57, 57, 44, 98]
      (icParseConnectstring (fun _ => true) (some [97, 58, 49, 49, 57, 57, 44, 98]) [] []) :=
  ⟨fits_of_length (by decide), connect_string_ok _ _ _ _ (fits_of_length (by decide))⟩

/-- The length is kept in 32 bits: when it is 1 there, the host is the first character. -/
theorem parse_length_one {rest : Bytes} (h : (97 :: rest : Bytes).length.toUInt32 = 1) :
    ∃ conn, icParseConnectstring (fun _ => true) (some (97 :: rest)) [] [] = .ok () conn ∧
      conn.csHosts 0 = some [97] := by
  have hParse : ∃ p, parseAll (fun _ => true) (97 :: rest) (Parser.start .created) = .ok () p ∧
      p.conn.csHosts 0 = some [97] := by
    unfold parseAll
    rw [h]
    exact ⟨_, rfl, rfl⟩
  obtain ⟨p, hParse, hHost⟩ := hParse
  refine ⟨p.conn, ?_, hHost⟩
  unfold icParseConnectstring
  dsimp only
  rw [hParse]
  rfl

/-- Of a string of 2 ^ 32 + 1 characters only the first one is looked at. -/
theorem long_string_cut : ¬ ∀ (mem : Nat → Bool) (text csServerName csServerPort : Bytes),
    ParsesGrammar mem text
      (icParseConnectstring mem (some text) csServerName csServerPort) := by
  intro hAll
  have hText : List.replicate (2 ^ 32 + 1) (97 : UInt8) = 97 :: List.replicate (2 ^ 32) 97 :=
    List.replicate_succ
  have hLength : (List.replicate (2 ^ 32 + 1) (97 : UInt8)).length = 2 ^ 32 + 1 :=
    List.length_replicate
  generalize List.replicate (2 ^ 32) (97 : UInt8) = rest at hText
  have hChars : ∀ c ∈ List.replicate (2 ^ 32 + 1) (97 : UInt8), isHostChar c = true := by
    intro c hc
    rw [List.eq_of_mem_replicate hc]
    decide
  rw [hText] at hLength hChars
  have hOne : (97 :: rest : Bytes).length.toUInt32 = 1 := by
    rw [hLength]
    decide
  -- the whole string is one host
  have hItem : Denotes (97 :: rest) [⟨97 :: rest, none⟩] := by
    refine ⟨rfl, List.cons_ne_nil _ _, Nat.le_of_ble_eq_true rfl, ?_⟩
    intro item hMem
    rw [List.mem_singleton.mp hMem]
    exact ⟨List.cons_ne_nil _ _, hChars, fun _ hPort => (nomatch hPort),
      fun _ hPort => (nomatch hPort)⟩
  obtain ⟨conn, hParse, hHost⟩ := parse_length_one hOne
  have hSpec := hAll (fun _ => true) (97 :: rest) [] []
  rw [hParse] at hSpec
  obtain ⟨items, hItems, -, -, hServers⟩ := hSpec
  rw [hItems.unique hItem] at hServers
  have hWhole := (hServers 0 _ rfl).1
  rw [hHost] at hWhole
  have hCut : [97] = 97 :: rest := Option.some.inj hWhole
  rw [← hCut] at hLength
  exact absurd hLength (by decide)

end IClaustron.Connect
