import IClaustron.Config.ConnectString
import IClaustron.Protocol.RoundTrip

/-!
# Config.ConnectPrinters — the programs that write connect strings

Model of ic_get_connectstring in api/ic_apic_grid_conf_reader.ic and of add_connectstring in
cluster_mgr/ic_clmgr.c. The first has a semicolon between the servers and always the cluster
server port; the second has a comma, the port of the node and no port when that is 1186, and
builds each server in a buffer of 512 bytes.

* `givesBack_iff` — what the parser makes of a string, as items of the grammar.
* `separator_rejected` — a string with a semicolon is none of the grammar.
* `printers_agree_iff` — the parser gives back the cluster servers of both strings exactly if
  there is one, with the same port in both of its fields.
* `two_servers_disagree` — with two cluster servers it does not.

Scope limits: of a node only its type and what the printers read. Memory is always given; `none`
is for no string, or for a write behind a buffer. The assertion that as many servers were found as
the configuration counts is left out.
-/

namespace IClaustron.Connect

open Lib Protocol Config List Option

/-! ## Configuration -/

/-- What is read of an `IC_CLUSTER_SERVER_CONFIG`. -/
structure CsConf where
  hostname : Bytes
  portNumber : UInt32
  clusterServerPortNumber : UInt32

/-- What is read of an `IC_CLUSTER_CONFIG`. -/
structure GridConfig where
  maxNodeId : Nat
  nodeTypes : Nat → NodeType
  nodeConfig : Nat → CsConf

/-- The cluster servers in node id order. -/
def GridConfig.clusterServers (conf : GridConfig) : List CsConf :=
  ((List.range' 1 conf.maxNodeId).filter fun id => conf.nodeTypes id = .clusterServer).map
    conf.nodeConfig

/-! ## Printers -/

/-- IC_DEF_CLUSTER_SERVER_PORT. -/
def defClusterServerPort : UInt32 := 1186

/-- `ic_add_dup_string`: the new string is in a buffer of its length and a NUL byte. -/
def addDupString (dest add : Bytes) : Option Bytes :=
  let addLen := add.length.toUInt32
  let newLen := addLen + dest.length.toUInt32
  if dest.length + addLen.toNat + 1 ≤ (newLen + 1).toNat then some (dest ++ add.take addLen.toNat)
  else none

/-- What `ic_get_connectstring` does with a cluster server. -/
def getServer (connStr : Bytes) (first : Bool) (csConf : CsConf) : Option Bytes := do
  let connStr ← if first then some connStr else addDupString connStr [59]
  let connStr ← addDupString connStr csConf.hostname
  let connStr ← addDupString connStr [58]
  addDupString connStr (guint64Str csConf.clusterServerPortNumber.toNat)

def getLoop (conf : GridConfig) (connStr : Bytes) (first : Bool) : List Nat → Option Bytes
  | [] => some connStr
  | id :: ids =>
    if conf.nodeTypes id = .clusterServer then do
      let connStr ← getServer connStr first (conf.nodeConfig id)
      getLoop conf connStr false ids
    else getLoop conf connStr first ids

/-- `ic_get_connectstring`. -/
def icGetConnectstring (conf : GridConfig) : Option Bytes :=
  getLoop conf [] true (List.range' 1 conf.maxNodeId)

/-- `ic_mc_add_ic_string`. -/
def mcAddIcString (dest add : Bytes) : Option Bytes :=
  let newLen := dest.length.toUInt32 + add.length.toUInt32
  if dest.length + add.length + 1 ≤ roomFor (newLen + 1) then some (dest ++ add) else none

/-- The server in `buf`, with a comma before it unless it is the first one. -/
def hostStr (found : Nat) (csConf : CsConf) : Option Bytes :=
  let str := (if found = 0 then [] else [44]) ++ csConf.hostname
  if str.length + 1 ≤ 512 then
    if csConf.portNumber ≠ defClusterServerPort then
      let str := str ++ 58 :: guint64Str csConf.portNumber.toNat
      if str.length + 1 ≤ 512 then some str else none
    else some str
  else none

def addLoop (conf : GridConfig) (dest : Bytes) (found : Nat) : List Nat → Option (Bytes × Nat)
  | [] => some (dest, found)
  | id :: ids =>
    if conf.nodeTypes id = .clusterServer then do
      let host ← hostStr found (conf.nodeConfig id)
      let dest ← mcAddIcString dest host
      addLoop conf dest (found + 1) ids
    else addLoop conf dest found ids

/-- `add_connectstring`. There is no string when no cluster server was found. -/
def addConnectstring (paramStr : Bytes) (conf : GridConfig) : Option Bytes := do
  let (dest, found) ← addLoop conf paramStr 0 (List.range' 1 conf.maxNodeId)
  if found = 0 then none else some dest

/-- The parameters that `add_connectstring` is called for: ic_ndb_connectstring_str and
ic_cs_connectstring_str. -/
def connectParams : List Bytes := [ascii "--ndb-connectstring", ascii "--cs-connectstring"]

/-! ## Texts -/

def getServers (connStr : Bytes) (first : Bool) : List CsConf → Option Bytes
  | [] => some connStr
  | csConf :: servers => do
    let connStr ← getServer connStr first csConf
    getServers connStr false servers

/-- What is added for a server. -/
def getItem (first : Bool) (csConf : CsConf) : Bytes :=
  (if first then [] else [59]) ++
    (csConf.hostname ++ 58 :: guint64Str csConf.clusterServerPortNumber.toNat)

def getText : Bool → List CsConf → Bytes
  | _, [] => []
  | first, csConf :: servers => getItem first csConf ++ getText false servers

theorem getLoop_eq (conf : GridConfig) (ids : List Nat) : ∀ connStr first,
    getLoop conf connStr first ids =
      getServers connStr first ((ids.filter fun id => conf.nodeTypes id = .clusterServer).map
        conf.nodeConfig) := by
  induction ids with
  | nil => exact fun _ _ => rfl
  | cons id ids ih =>
    intro connStr first
    unfold getLoop
    by_cases hType : conf.nodeTypes id = .clusterServer
    · rw [if_pos hType, filter_cons_of_pos (by simpa using hType), map_cons]
      unfold getServers
      exact congrArg _ (funext fun connStr => ih connStr false)
    · rw [if_neg hType, filter_cons_of_neg (by simpa using hType)]
      exact ih connStr first

variable {add dest str : Bytes} {csConf : CsConf} {item : Item} {conf : GridConfig}

theorem addDupString_spec (h : dest.length + add.length + 1 < 2 ^ 32) :
    addDupString dest add = some (dest ++ add) := by
  have hAdd : add.length.toUInt32.toNat = add.length := Nat.mod_eq_of_lt (by omega)
  have hDest : dest.length.toUInt32.toNat = dest.length := Nat.mod_eq_of_lt (by omega)
  have hRoom : (add.length.toUInt32 + dest.length.toUInt32 + 1).toNat =
      add.length + dest.length + 1 := by
    rw [UInt32.toNat_add, UInt32.toNat_add, hAdd, hDest, UInt32.toNat_one]
    omega
  unfold addDupString
  dsimp only
  rw [hRoom, hAdd, if_pos (by omega), take_length]

theorem getServer_spec {connStr : Bytes} {first : Bool}
    (h : connStr.length + (getItem first csConf).length + 1 < 2 ^ 32) :
    getServer connStr first csConf = some (connStr ++ getItem first csConf) := by
  have hFirst : getServer connStr first csConf =
      getServer (connStr ++ if first then [] else [59]) true csConf := by
    cases first with
    | true =>
      rw [if_pos rfl, append_nil]
    | false =>
      have hSep : addDupString connStr [59] = some (connStr ++ [59]) := by
        refine addDupString_spec ?_
        simp only [getItem, length_append] at h
        simp at h
        simp only [length_singleton]
        omega
      unfold getServer
      rw [if_neg Bool.false_ne_true, hSep]
      rfl
  rw [hFirst]
  unfold getItem at h ⊢
  rw [← append_assoc]
  rw [length_append, ← Nat.add_assoc, ← length_append] at h
  generalize (connStr ++ if first then [] else [59]) = start at h ⊢
  rw [length_append, length_cons] at h
  unfold getServer
  rw [if_pos rfl]
  dsimp only [bind_eq_bind, bind_some]
  rw [addDupString_spec (by omega)]
  dsimp only [bind_some]
  rw [addDupString_spec (by rw [length_append, length_singleton]; omega)]
  dsimp only [bind_some]
  rw [addDupString_spec (by simp only [length_append, length_singleton]; omega)]
  simp only [append_assoc, singleton_append]

theorem getServers_spec (servers : List CsConf) : ∀ connStr first,
    connStr.length + (getText first servers).length + 1 < 2 ^ 32 →
      getServers connStr first servers = some (connStr ++ getText first servers) := by
  induction servers with
  | nil =>
    intro connStr first _
    rw [getText, append_nil]
    rfl
  | cons csConf servers ih =>
    intro connStr first hLen
    rw [getText, length_append] at hLen
    unfold getServers
    rw [getServer_spec (by omega)]
    dsimp only [bind_eq_bind, bind_some]
    rw [ih _ false (by rw [length_append]; omega), getText, append_assoc]

def addServers (dest : Bytes) (found : Nat) : List CsConf → Option (Bytes × Nat)
  | [] => some (dest, found)
  | csConf :: servers => do
    let host ← hostStr found csConf
    let dest ← mcAddIcString dest host
    addServers dest (found + 1) servers

theorem addLoop_eq (conf : GridConfig) (ids : List Nat) : ∀ dest found,
    addLoop conf dest found ids =
      addServers dest found ((ids.filter fun id => conf.nodeTypes id = .clusterServer).map
        conf.nodeConfig) := by
  induction ids with
  | nil => exact fun _ _ => rfl
  | cons id ids ih =>
    intro dest found
    unfold addLoop
    by_cases hType : conf.nodeTypes id = .clusterServer
    · rw [if_pos hType, filter_cons_of_pos (by simpa using hType), map_cons]
      unfold addServers
      exact congrArg _ (funext fun host => congrArg _ (funext fun dest => ih dest (found + 1)))
    · rw [if_neg hType, filter_cons_of_neg (by simpa using hType)]
      exact ih dest found

/-- A server as the second printer writes it. -/
def listItem (csConf : CsConf) : Bytes :=
  csConf.hostname ++
    if csConf.portNumber = defClusterServerPort then []
    else 58 :: guint64Str csConf.portNumber.toNat

/-- The buffer has room for the server and a NUL byte. -/
theorem hostStr_eq_some {found : Nat} :
    hostStr found csConf = some str ↔
      str = (if found = 0 then [] else [44]) ++ listItem csConf ∧ str.length < 512 := by
  unfold hostStr listItem
  dsimp only
  generalize (if found = 0 then [] else [44] : Bytes) = sep
  by_cases hPort : csConf.portNumber = defClusterServerPort
  · rw [if_neg (not_not.mpr hPort), if_pos hPort, append_nil, ite_none_right_eq_some]
    constructor
    · rintro ⟨hFit, ⟨rfl⟩⟩
      exact ⟨rfl, hFit⟩
    · rintro ⟨rfl, hFit⟩
      exact ⟨hFit, rfl⟩
  · rw [if_pos hPort, if_neg hPort, ← append_assoc, ite_none_right_eq_some,
      ite_none_right_eq_some]
    constructor
    · rintro ⟨-, hFit, ⟨rfl⟩⟩
      exact ⟨rfl, hFit⟩
    · rintro ⟨rfl, hFit⟩
      -- a server with its port is longer than without it
      refine ⟨?_, hFit, rfl⟩
      rw [length_append] at hFit
      omega

theorem mcAddIcString_spec (h : dest.length + add.length + 8 < 2 ^ 32) :
    mcAddIcString dest add = some (dest ++ add) := by
  have hNew : (dest.length.toUInt32 + add.length.toUInt32).toNat = dest.length + add.length := by
    rw [UInt32.toNat_add]
    show (dest.length % 2 ^ 32 + add.length % 2 ^ 32) % 2 ^ 32 = _
    omega
  have hRoom : (dest.length.toUInt32 + add.length.toUInt32).toNat + 1 ≤
      roomFor (dest.length.toUInt32 + add.length.toUInt32 + 1) := roomFor_spec (by omega)
  rw [hNew] at hRoom
  exact if_pos hRoom

theorem mcAddIcString_eq (h : mcAddIcString dest add = some str) : str = dest ++ add := by
  unfold mcAddIcString at h
  exact (Option.some.inj (ite_none_right_eq_some.mp h).2).symm

/-- What is added for the servers when `found` have been written. -/
def addText : Nat → List CsConf → Bytes
  | _, [] => []
  | found, csConf :: servers =>
    (if found = 0 then [] else [44]) ++ listItem csConf ++ addText (found + 1) servers

/-- When there is a string, every server has fitted the buffer. -/
theorem addServers_some (servers : List CsConf) : ∀ dest found str found',
    addServers dest found servers = some (str, found') →
      str = dest ++ addText found servers ∧ ∀ csConf ∈ servers, (listItem csConf).length < 512 := by
  induction servers with
  | nil =>
    intro dest found str found' h
    obtain ⟨rfl, rfl⟩ := Prod.mk.inj (Option.some.inj h)
    exact ⟨(append_nil dest).symm, fun _ hMem => (nomatch hMem)⟩
  | cons csConf servers ih =>
    intro dest found str found' h
    unfold addServers at h
    obtain ⟨host, hHost, hRest⟩ := bind_eq_some_iff.mp h
    obtain ⟨dest', hDest, hTail⟩ := bind_eq_some_iff.mp hRest
    obtain ⟨hHost', hFit⟩ := hostStr_eq_some.mp hHost
    rw [hHost'] at hFit hDest
    obtain ⟨hStr, hServers⟩ := ih _ _ _ _ hTail
    refine ⟨?_, ?_⟩
    · rw [hStr, mcAddIcString_eq hDest, addText]
      simp only [append_assoc]
    · intro csConf' hMem
      rcases mem_cons.mp hMem with rfl | hOther
      · rw [length_append] at hFit
        omega
      · exact hServers csConf' hOther

/-! ## Agreement -/

/-- The parser gets the servers from the string. -/
def GivesBack (text : Bytes) (servers : List CsConf) : Prop :=
  ∃ conn, icParseConnectstring (fun _ => true) (some text) [] [] = .ok () conn ∧
    conn.numCsServers = servers.length ∧
    ∀ i csConf, servers[i]? = some csConf →
      conn.csHosts i = some csConf.hostname ∧
      ∃ port, conn.csPorts i = some port ∧ port ≠ [] ∧ (∀ c ∈ port, isDigit c = true) ∧
        digitsVal port = csConf.clusterServerPortNumber.toNat

/-- The parser gets the cluster servers from the strings of both printers. -/
structure PrintersAgree (conf : GridConfig) : Prop where
  get : ∃ text, icGetConnectstring conf = some text ∧ GivesBack text conf.clusterServers
  add : ∀ param ∈ connectParams, ∃ text, addConnectstring param conf = some (param ++ text) ∧
    GivesBack text conf.clusterServers

/-- The item is the server. -/
def SameServer (item : Item) (csConf : CsConf) : Prop :=
  item.host = csConf.hostname ∧
    digitsVal item.portOrDefault = csConf.clusterServerPortNumber.toNat

theorem defClusterServerPortStr_eq : defClusterServerPortStr = [49, 49, 56, 54] := by decide

theorem Item.Valid.portOrDefault (h : item.Valid) :
    item.portOrDefault ≠ [] ∧ ∀ c ∈ item.portOrDefault, isDigit c = true := by
  obtain ⟨host, port⟩ := item
  cases port with
  | none =>
    show defClusterServerPortStr ≠ [] ∧ ∀ c ∈ defClusterServerPortStr, isDigit c = true
    rw [defClusterServerPortStr_eq]
    exact ⟨by decide, forall_iff_forall_mem.mp (by decide)⟩
  | some port => exact ⟨h.port port rfl, h.portDigits port rfl⟩

/-- Strings whose lengths fit are parsed item by item. -/
theorem givesBack_iff {text : Bytes} {servers : List CsConf} (hFits : Fits text) :
    GivesBack text servers ↔
      ∃ items, Denotes text items ∧ List.Forall₂ SameServer items servers := by
  constructor
  · rintro ⟨conn, hParse, hNum, hServers⟩
    have hSpec := parser_spec (fun _ => true) [] [] hFits
    rw [hParse] at hSpec
    obtain ⟨items, hItems, hStored⟩ := hSpec
    refine ⟨items, hItems, List.forall₂_iff_get.mpr ⟨hStored.num.symm.trans hNum, ?_⟩⟩
    intro i hi hi'
    obtain ⟨hHost, port, hPort, -, -, hValue⟩ := hServers i _ (List.getElem?_eq_getElem hi')
    rw [hStored.hosts i _ (List.getElem?_eq_getElem hi)] at hHost
    rw [hStored.ports i _ (List.getElem?_eq_getElem hi)] at hPort
    refine ⟨Option.some.inj hHost, ?_⟩
    rw [← Option.some.inj hPort] at hValue
    exact hValue
  · rintro ⟨items, hItems, hSame⟩
    rcases (parser_spec (fun _ => true) [] [] hFits).cases with
      ⟨⟨⟩, conn, hParse, items', hItems', hStored⟩ | ⟨code, conn, -, -, -, hNone⟩
    · obtain rfl := hItems'.unique hItems
      refine ⟨conn, hParse, hStored.num.trans hSame.length_eq, ?_⟩
      intro i csConf hi
      have hlt : i < items'.length := by
        rw [hSame.length_eq]
        exact (List.getElem?_eq_some_iff.mp hi).1
      obtain ⟨hHost, hPort⟩ := hSame.get hlt (List.getElem?_eq_some_iff.mp hi).1
      have hItem := List.getElem?_eq_getElem hlt
      obtain ⟨hne, hDigits⟩ := (hItems'.valid _ (List.getElem_mem hlt)).portOrDefault
      rw [List.get_eq_getElem, List.get_eq_getElem, (List.getElem?_eq_some_iff.mp hi).2] at hHost hPort
      exact ⟨(hStored.hosts i _ hItem).trans (congrArg some hHost), _, hStored.ports i _ hItem,
        hne, hDigits, hPort⟩
    · exact absurd ⟨items, hItems⟩ (hNone fun _ => rfl)

theorem Item.Valid.mem (h : item.Valid) {c : UInt8} (hc : c ∈ item.text) :
    isHostChar c = true ∨ isDigit c = true ∨ c = 58 := by
  obtain ⟨host, port⟩ := item
  cases port with
  | none => exact .inl (h.hostChars c hc)
  | some port =>
    rcases mem_append.mp hc with hHost | hPort
    · exact .inl (h.hostChars c hHost)
    · rcases mem_cons.mp hPort with hSep | hDigit
      · exact .inr (.inr hSep)
      · exact .inr (.inl (h.portDigits port rfl c hDigit))

/-- The characters of a list of items. -/
theorem mem_connectText (items : List Item) (h : ∀ item ∈ items, item.Valid) {c : UInt8}
    (hc : c ∈ connectText items) : isHostChar c = true ∨ isDigit c = true ∨ c = 58 ∨ c = 44 := by
  induction items with
  | nil => cases hc
  | cons item items ih =>
    have hItem : c ∈ item.text → isHostChar c = true ∨ isDigit c = true ∨ c = 58 ∨ c = 44 := by
      intro hc
      rcases (h item mem_cons_self).mem hc with hHost | hDigit | hColon
      · exact .inl hHost
      · exact .inr (.inl hDigit)
      · exact .inr (.inr (.inl hColon))
    by_cases hEnd : items = []
    · subst hEnd
      exact hItem hc
    · rw [connectText_cons item hEnd] at hc
      rcases mem_append.mp hc with hFirst | hRest
      · exact hItem hFirst
      · rcases mem_cons.mp hRest with hComma | hRest
        · exact .inr (.inr (.inr hComma))
        · exact ih (fun item hMem => h item (mem_cons_of_mem _ hMem)) hRest

theorem separator_rejected {text : Bytes} (h : 59 ∈ text) (items : List Item) :
    ¬ Denotes text items := by
  intro hItems
  rw [hItems.text_eq] at h
  rcases mem_connectText items hItems.valid h with hc | hc | hc | hc <;> revert hc <;> decide

theorem length_port_le (n : UInt32) : (guint64Str n.toNat).length ≤ 10 :=
  length_guint64Str_le (by decide) (n.toNat_lt.trans (by decide))

/-- The string of the first printer is not long when the hosts fit the buffer of the second. -/
theorem length_getText_le (servers : List CsConf)
    (h : ∀ csConf ∈ servers, (listItem csConf).length < 512) :
    ∀ first, (getText first servers).length ≤ servers.length * 523 := by
  induction servers with
  | nil => exact fun _ => Nat.zero_le _
  | cons csConf servers ih =>
    intro first
    have hHost : csConf.hostname.length < 512 := by
      have hItem := h csConf mem_cons_self
      rw [listItem, length_append] at hItem
      omega
    have hPort := length_port_le csConf.clusterServerPortNumber
    have hRest := ih (fun csConf hMem => h csConf (mem_cons_of_mem _ hMem)) false
    have hSep : (if first then [] else [59] : Bytes).length ≤ 1 := by
      cases first <;> decide
    rw [getText, getItem, length_append, length_append, length_append,
      length_cons, length_cons]
    omega

/-- With two servers the first printer writes a semicolon. -/
theorem semicolon_mem_getText (first : Bool) (s s' : CsConf) (servers : List CsConf) :
    59 ∈ getText first (s :: s' :: servers) := by
  rw [getText, getText]
  refine mem_append_right _ (mem_append_left _ ?_)
  exact mem_append_left _ (mem_singleton_self 59)

/-- There is one cluster server; it has a name, the same port in both of its fields, and fits the
buffer. -/
def OneServer (conf : GridConfig) : Prop :=
  ∃ csConf, conf.clusterServers = [csConf] ∧ csConf.hostname ≠ [] ∧
    csConf.portNumber = csConf.clusterServerPortNumber ∧ (listItem csConf).length < 512

/-- The server of a list item. -/
def serverItem (csConf : CsConf) : Item where
  host := csConf.hostname
  port :=
    if csConf.portNumber = defClusterServerPort then none
    else some (guint64Str csConf.portNumber.toNat)

theorem text_serverItem (csConf : CsConf) : (serverItem csConf).text = listItem csConf := by
  unfold serverItem listItem Item.text
  by_cases hPort : csConf.portNumber = defClusterServerPort
  · rw [if_pos hPort, if_pos hPort, append_nil]
  · rw [if_neg hPort, if_neg hPort]

theorem digits_guint64Str (n : Nat) : ∀ c ∈ guint64Str n, isDigit c = true :=
  fun _ hc => decide_eq_true (mem_guint64Str hc)

theorem port_serverItem (csConf : CsConf) :
    digitsVal (serverItem csConf).portOrDefault = csConf.portNumber.toNat := by
  unfold serverItem Item.portOrDefault
  by_cases hPort : csConf.portNumber = defClusterServerPort
  · rw [if_pos hPort, hPort]
    show digitsVal defClusterServerPortStr = _
    rw [defClusterServerPortStr_eq]
    rfl
  · rw [if_neg hPort]
    exact digitsVal_guint64Str _

/-- A host is one item of a connect string, whatever number is behind it. -/
theorem denotes_host (hne : item.host ≠ []) (hChars : ∀ c ∈ item.host, isHostChar c = true)
    (hPort : ∀ port, item.port = some port → ∃ n, port = guint64Str n) :
    Denotes item.text [item] := by
  refine ⟨rfl, cons_ne_nil _ _, Nat.le_of_ble_eq_true rfl, ?_⟩
  intro item' hMem
  rw [mem_singleton.mp hMem]
  refine ⟨hne, hChars, ?_, ?_⟩
  · intro port h
    obtain ⟨n, rfl⟩ := hPort port h
    exact guint64Str_ne_nil n
  · intro port h
    obtain ⟨n, rfl⟩ := hPort port h
    exact digits_guint64Str n

theorem denotes_serverItem (hne : csConf.hostname ≠ [])
    (hChars : ∀ c ∈ csConf.hostname, isHostChar c = true) :
    Denotes (listItem csConf) [serverItem csConf] := by
  rw [← text_serverItem]
  refine denotes_host hne hChars ?_
  intro port hPort
  unfold serverItem at hPort
  exact ⟨_, (Option.some.inj (ite_none_left_eq_some.mp hPort).2).symm⟩

theorem addConnectstring_some {param : Bytes} (h : addConnectstring param conf = some str) :
    str = param ++ addText 0 conf.clusterServers ∧
      ∀ csConf ∈ conf.clusterServers, (listItem csConf).length < 512 := by
  unfold addConnectstring at h
  rw [addLoop_eq] at h
  obtain ⟨⟨dest, found⟩, hLoop, hFound⟩ := bind_eq_some_iff.mp h
  obtain ⟨hDest, hFit⟩ := addServers_some _ _ _ _ _ hLoop
  have hStr : dest = str := Option.some.inj (ite_none_left_eq_some.mp hFound).2
  exact ⟨hStr.symm.trans hDest, hFit⟩

theorem icGetConnectstring_spec (hCount : conf.clusterServers.length ≤ 4)
    (hFit : ∀ csConf ∈ conf.clusterServers, (listItem csConf).length < 512) :
    icGetConnectstring conf = some (getText true conf.clusterServers) ∧
      (getText true conf.clusterServers).length + 8 < 2 ^ 32 := by
  have hLen := length_getText_le conf.clusterServers hFit true
  refine ⟨?_, by omega⟩
  unfold icGetConnectstring
  rw [getLoop_eq]
  refine getServers_spec conf.clusterServers [] true ?_
  rw [length_nil]
  omega

/-- Both printers are right only when there is one cluster server. -/
theorem PrintersAgree.oneServer (h : PrintersAgree conf)
    (hCount : 1 ≤ conf.clusterServers.length ∧ conf.clusterServers.length ≤ 4)
    (hHosts : ∀ csConf ∈ conf.clusterServers, ∀ c ∈ csConf.hostname, isHostChar c = true) :
    OneServer conf := by
  obtain ⟨text, hAdd, hAddBack⟩ := h.add (ascii "--cs-connectstring") (by simp [connectParams])
  obtain ⟨text', hGet, hGetBack⟩ := h.get
  obtain ⟨hText, hFit⟩ := addConnectstring_some hAdd
  obtain ⟨hGet', hLen⟩ := icGetConnectstring_spec hCount.2 hFit
  obtain rfl : text = addText 0 conf.clusterServers := append_cancel_left hText
  obtain rfl : getText true conf.clusterServers = text' := Option.some.inj (hGet'.symm.trans hGet)
  unfold OneServer
  generalize conf.clusterServers = servers at *
  match servers, hCount with
  | [csConf], _ =>
    have hItem : addText 0 [csConf] = listItem csConf := append_nil _
    have hSmall := hFit csConf mem_cons_self
    rw [hItem] at hAddBack
    obtain ⟨items, hItems, hSame⟩ := (givesBack_iff (fits_of_length (by omega))).mp hAddBack
    -- the one item of the string has the host of the server, and a host is not empty
    obtain ⟨item, rest, ⟨hHost, hPort⟩, hRest, rfl⟩ := forall₂_cons_right_iff.mp hSame
    have hne : csConf.hostname ≠ [] := by
      rw [← hHost]
      exact (hItems.valid item mem_cons_self).host
    have hOwn := denotes_serverItem hne (hHosts csConf mem_cons_self)
    obtain ⟨rfl, -⟩ := List.cons.inj (hItems.unique hOwn)
    rw [port_serverItem] at hPort
    exact ⟨csConf, rfl, hne, UInt32.toNat_inj.mp hPort, hSmall⟩
  | s :: s' :: servers, _ =>
    -- the string of the first printer has a semicolon
    obtain ⟨items, hItems, -⟩ := (givesBack_iff (fits_of_length hLen)).mp hGetBack
    exact absurd hItems (separator_rejected (semicolon_mem_getText true s s' servers) items)

/-- One server that fits is written so that the parser gives it back. -/
theorem OneServer.printersAgree (h : OneServer conf)
    (hHosts : ∀ csConf ∈ conf.clusterServers, ∀ c ∈ csConf.hostname, isHostChar c = true) :
    PrintersAgree conf := by
  obtain ⟨csConf, hServers, hne, hPort, hFit⟩ := h
  have hChars : ∀ c ∈ csConf.hostname, isHostChar c = true := by
    rw [hServers] at hHosts
    exact hHosts csConf mem_cons_self
  constructor
  · have hAll : ∀ csConf ∈ conf.clusterServers, (listItem csConf).length < 512 := by
      rw [hServers]
      intro csConf' hMem
      rw [mem_singleton.mp hMem]
      exact hFit
    obtain ⟨hGet, hLen⟩ := icGetConnectstring_spec (hServers ▸ Nat.le_of_ble_eq_true rfl) hAll
    refine ⟨_, hGet, (givesBack_iff (fits_of_length hLen)).mpr ?_⟩
    rw [hServers]
    refine ⟨[⟨csConf.hostname, some (guint64Str csConf.clusterServerPortNumber.toNat)⟩], ?_, ?_⟩
    · have hText : getText true [csConf] = Item.text
          ⟨csConf.hostname, some (guint64Str csConf.clusterServerPortNumber.toNat)⟩ :=
        append_nil _
      rw [hText]
      exact denotes_host hne hChars fun port hPort => ⟨_, (Option.some.inj hPort).symm⟩
    · exact .cons ⟨rfl, digitsVal_guint64Str _⟩ .nil
  · intro param hParam
    have hParam' : param.length ≤ 100 := by
      rcases mem_cons.mp hParam with rfl | hOther
      · decide
      · rw [mem_singleton.mp hOther]
        decide
    have hAdd : addConnectstring param conf = some (param ++ listItem csConf) := by
      unfold addConnectstring
      rw [addLoop_eq]
      show (addServers param 0 conf.clusterServers >>= _) = _
      rw [hServers]
      have hHost : hostStr 0 csConf = some (listItem csConf) := hostStr_eq_some.mpr ⟨rfl, hFit⟩
      unfold addServers
      rw [hHost]
      dsimp only [bind_eq_bind, bind_some]
      rw [mcAddIcString_spec (by omega)]
      rfl
    refine ⟨listItem csConf, hAdd, (givesBack_iff (fits_of_length (by omega))).mpr ?_⟩
    rw [hServers]
    refine ⟨[serverItem csConf], denotes_serverItem hne hChars, .cons ⟨rfl, ?_⟩ .nil⟩
    rw [port_serverItem, hPort]

/-- The two printers agree with the parser exactly when there is a single cluster server, with a
name, the same port in both of its fields, and room for it in the buffer. -/
theorem printers_agree_iff (conf : GridConfig)
    (hCount : 1 ≤ conf.clusterServers.length ∧ conf.clusterServers.length ≤ 4)
    (hHosts : ∀ csConf ∈ conf.clusterServers, ∀ c ∈ csConf.hostname, isHostChar c = true) :
    PrintersAgree conf ↔ OneServer conf :=
  ⟨fun h => h.oneServer hCount hHosts, fun h => h.printersAgree hHosts⟩

/-- Node 1 is a cluster server on another port than the usual one. -/
def oneServerConfig : GridConfig where
  maxNodeId := 1
  nodeTypes := fun _ => .clusterServer
  nodeConfig := fun _ => ⟨[97], 1199, 1199⟩

/-- Nodes 1 and 2 are cluster servers on the usual port. -/
def twoServersConfig : GridConfig where
  maxNodeId := 2
  nodeTypes := fun _ => .clusterServer
  nodeConfig := fun id => ⟨[if id = 1 then 97 else 98], 1186, 1186⟩

theorem one_server_agrees :
    (1 ≤ oneServerConfig.clusterServers.length ∧ oneServerConfig.clusterServers.length ≤ 4) ∧
    (∀ csConf ∈ oneServerConfig.clusterServers, ∀ c ∈ csConf.hostname, isHostChar c = true) ∧
    (PrintersAgree oneServerConfig ↔ OneServer oneServerConfig) := by
  have hServers : oneServerConfig.clusterServers = [⟨[97], 1199, 1199⟩] := rfl
  have hHosts : ∀ csConf ∈ oneServerConfig.clusterServers, ∀ c ∈ csConf.hostname,
      isHostChar c = true := by
    rw [hServers]
    intro csConf hMem
    rw [List.mem_singleton.mp hMem]
    exact List.forall_iff_forall_mem.mp (by decide)
  exact ⟨⟨by decide, by decide⟩, hHosts,
    printers_agree_iff oneServerConfig ⟨by decide, by decide⟩ hHosts⟩

/-- With the cluster servers a and b on the usual port the first printer writes `a:1186;b:1186`. -/
theorem two_servers_disagree : ¬ ∀ conf : GridConfig,
    (1 ≤ conf.clusterServers.length ∧ conf.clusterServers.length ≤ 4) →
    (∀ csConf ∈ conf.clusterServers, ∀ c ∈ csConf.hostname, isHostChar c = true) →
    PrintersAgree conf := by
  intro hAll
  have hServers : twoServersConfig.clusterServers = [⟨[97], 1186, 1186⟩, ⟨[98], 1186, 1186⟩] := rfl
  have hCount : 1 ≤ twoServersConfig.clusterServers.length ∧
      twoServersConfig.clusterServers.length ≤ 4 := ⟨by decide, by decide⟩
  have hHosts : ∀ csConf ∈ twoServersConfig.clusterServers, ∀ c ∈ csConf.hostname,
      isHostChar c = true := by
    rw [hServers]
    intro csConf hMem
    rcases List.mem_cons.mp hMem with rfl | hMem
    · exact List.forall_iff_forall_mem.mp (by decide)
    · rw [List.mem_singleton.mp hMem]
      exact List.forall_iff_forall_mem.mp (by decide)
  obtain ⟨csConf, hOne, -⟩ := (hAll twoServersConfig hCount hHosts).oneServer hCount hHosts
  rw [hServers] at hOne
  cases hOne

end IClaustron.Connect
