import IClaustron.Pcntrl.History
import IClaustron.Pcntrl.Listing
import Mathlib.Data.List.TakeWhile

/-!
# Pcntrl.ListReply — what a list request is answered

A list request after a sequence of successful start and stop commands, from a client
that answers each entry with `list next`. The reply should have each controlled
process that matches the key once, as its start message has described it, and then
`list stop`.

* `recOptKeyMessage_request` — which requests are understood;
* `listEntries_slots` — the walk over the slots ends with an error at the first slot
  that was given back;
* `list_reply_iff` — the reply is as it should be if and only if no entry was ever
  given back, and the request and the entries fit into their buffers.
-/

namespace IClaustron.Pcntrl

open Lib DynArray List Option

/-! ## Requests -/

/-- The key of a list request. -/
inductive ListKey where
  | all
  | grid (gridName : Str)
  | cluster (gridName clusterName : Str)
  | node (key : Key)
deriving DecidableEq

/-- The process with the key `k` is asked for. -/
def ListKey.asks : ListKey → Key → Bool
  | .all, _ => true
  | .grid g, k => g = k.gridName
  | .cluster g c, k => g = k.gridName ∧ c = k.clusterName
  | .node key, k => key = k

/-- The search key that the request stands for. -/
def ListKey.find : ListKey → PcFind
  | .all => ⟨none, none, none⟩
  | .grid g => ⟨some g, none, none⟩
  | .cluster g c => ⟨some g, some c, none⟩
  | .node key => ⟨some key.gridName, some key.clusterName, some key.nodeName⟩

/-- A line with a key word and a string. -/
def keyLine (word s : Str) : Str := word ++ 32 :: s

/-- The lines of a request, after the command line. -/
def ListKey.lines : ListKey → List Str
  | .all => [[]]
  | .grid g => [keyLine gridStr g, []]
  | .cluster g c => [keyLine gridStr g, keyLine clusterStr c, []]
  | .node key =>
    [keyLine gridStr key.gridName, keyLine clusterStr key.clusterName, keyLine nodeStr key.nodeName, []]

/-- The answers of a client that has got `n` entries. -/
def answers (n : Nat) : List Str := (List.replicate n [listNextStr, []]).flatten

/-- A name is received: its line fits into the buffer, and there is memory for it. -/
def NameOk (mem : Bool) (word s : Str) : Prop := (keyLine word s).length < configReadBufSize ∧ mem = true

/-- The request is received. A name that another one follows must not be empty. -/
def RequestOk (mem : Nat → Bool) : ListKey → Prop
  | .all => mem 0 = true
  | .grid g => mem 0 = true ∧ NameOk (mem 1) gridStr g
  | .cluster g c =>
    mem 0 = true ∧ (NameOk (mem 1) gridStr g ∧ g ≠ []) ∧ NameOk (mem 2) clusterStr c
  | .node key =>
    mem 0 = true ∧ (NameOk (mem 1) gridStr key.gridName ∧ key.gridName ≠ []) ∧
      (NameOk (mem 2) clusterStr key.clusterName ∧ key.clusterName ≠ []) ∧
      NameOk (mem 3) nodeStr key.nodeName

/-! ## Replies -/

/-- The lines about a process, as its start message has described it. -/
def entryLines (listFull : Bool) (e : ProcInfo) : List Str :=
  [listNodeStr,
    keyLine programStr e.message.programName,
    keyLine versionStr e.message.versionString,
    keyLine gridStr e.key.gridName,
    keyLine clusterStr e.key.clusterName,
    keyLine nodeStr e.key.nodeName,
    withNumber startTimeStr e.startId,
    withNumber pidStr e.pid,
    withNumber numParametersStr e.message.parameters.length] ++
  (if listFull then e.message.parameters.map (keyLine parameterStr) else []) ++
  [[]]

def matching (key : ListKey) (cs : List ProcInfo) : List ProcInfo := cs.filter (key.asks ·.key)

/-- The reply: the matching processes, each once, and `list stop`. -/
def Listed (listFull : Bool) (key : ListKey) (cs : List ProcInfo) (reply : List Str) : Prop :=
  ∃ l : List ProcInfo, l.Perm (matching key cs) ∧
    reply = l.flatMap (entryLines listFull) ++ [listStopStr, []]

/-- A line that `ic_send_with_cr_two_strings` sends as it is. -/
def LineOk (line : Str) : Prop := line.length + 1 < configReadBufSize ∧ 0 ∉ line

/-- An entry that is sent as it came in. -/
def EntryOk (listFull : Bool) (e : ProcInfo) : Prop :=
  (∀ line ∈ entryLines listFull e, LineOk line) ∧
    (listFull = true → ∀ s ∈ e.message.parameters, s.head? ≠ some 32)

variable {w : World} {slots : List Nat} {cs : List ProcInfo} {key : ListKey} {listFull : Bool}
  {mem copyOk : Nat → Bool} {c : PcStart} {e : ProcInfo}

/-! ## Receiving the request -/

variable {line s word : Str}

theorem recWithCr_fits (h : line.length < configReadBufSize) (rest : List Str) :
    recWithCr (line :: rest) = .ok (line, rest) :=
  if_pos h

theorem recWithCr_long (h : ¬ line.length < configReadBufSize) (rest : List Str) :
    recWithCr (line :: rest) = .error endOfFile :=
  if_neg h

theorem mcRecStringImpl_keyLine (m : Bool) (word s : Str) :
    mcRecStringImpl m word (keyLine word s) = if m then .ok s else .error errorMemAlloc := by
  have hlen : ¬ (keyLine word s).length < word.length + 1 := by
    simp [keyLine]
  have hword : (keyLine word s).take word.length = word := by
    simp [keyLine]
  have hblank : (keyLine word s).getD word.length 0 = 32 := by
    simp [keyLine]
  have hrest : (keyLine word s).drop (word.length + 1) = s := by
    simp [keyLine]
  unfold mcRecStringImpl
  rw [if_neg hlen, if_neg (not_not.mpr hword), if_pos hblank]
  dsimp only
  rw [hrest]
  rfl

theorem keyLine_ne_nil (word s : Str) : keyLine word s ≠ [] := by
  simp [keyLine]

theorem mcRecOptString_name (m : Bool) (word s : Str) (rest : List Str) :
    Result.Decides (NameOk m word s) (mcRecOptString m word (keyLine word s :: rest))
      (some s, rest) := by
  unfold mcRecOptString
  constructor
  · intro h
    rw [Result.bind_of_ok (recWithCr_fits h.1 rest)]
    dsimp only
    rw [if_neg (keyLine_ne_nil word s), mcRecStringImpl_keyLine, if_pos h.2]
    rfl
  · intro h
    by_cases hlen : (keyLine word s).length < configReadBufSize
    · have hm : ¬ m = true := fun hm => h ⟨hlen, hm⟩
      refine ⟨errorMemAlloc, ?_⟩
      rw [Result.bind_of_ok (recWithCr_fits hlen rest)]
      dsimp only
      rw [if_neg (keyLine_ne_nil word s), mcRecStringImpl_keyLine, if_neg hm]
      rfl
    · rw [recWithCr_long hlen]
      exact ⟨endOfFile, rfl⟩

/-- A line with a name stands where the request should end. -/
theorem recKeyEnd_keyLine (find : PcFind) (word s : Str) (rest : List Str) :
    ∃ ret, recKeyEnd find (keyLine word s :: rest) = .error ret := by
  unfold recKeyEnd recEmptyLine
  by_cases hlen : (keyLine word s).length < configReadBufSize
  · refine ⟨protocolError, ?_⟩
    rw [recWithCr_fits hlen]
    show (if keyLine word s = [] then _ else _) >>= _ = _
    rw [if_neg (keyLine_ne_nil word s)]
    rfl
  · rw [recWithCr_long hlen]
    exact ⟨endOfFile, rfl⟩

/-! ### The parts of `rec_opt_key_message` -/

/-- `rec_opt_key_message` from the node name on. -/
def recNode (mem : Nat → Bool) (grid cluster : Option Str) (input : List Str) :
    Except Nat (PcFind × List Str) := do
  let (node, input) ← mcRecOptString (mem 3) nodeStr input
  recKeyEnd ⟨grid, cluster, node⟩ input

/-- `rec_opt_key_message` from the cluster name on. -/
def recCluster (mem : Nat → Bool) (grid : Option Str) (input : List Str) :
    Except Nat (PcFind × List Str) := do
  let (cluster, input) ← mcRecOptString (mem 2) clusterStr input
  if (cluster.getD []).length = 0 then recKeyEnd ⟨grid, cluster, none⟩ input
  else recNode mem grid cluster input

/-- `rec_opt_key_message` from the grid name on. -/
def recGrid (mem : Nat → Bool) (input : List Str) : Except Nat (PcFind × List Str) := do
  let (grid, input) ← mcRecOptString (mem 1) gridStr input
  if (grid.getD []).length = 0 then recKeyEnd ⟨grid, none, none⟩ input
  else recCluster mem grid input

theorem recOptKeyMessage_eq (mem : Nat → Bool) (input : List Str) :
    recOptKeyMessage mem input =
      if mem 0 then recGrid mem input else .error errorMemAlloc := by
  unfold recOptKeyMessage
  by_cases h : mem 0 = true
  · rw [if_neg (not_not.mpr h), if_pos h]
    rfl
  · rw [if_pos h, if_neg h]
    rfl

/-- A name that others follow: the request breaks off when it is empty. -/
theorem decides_inner {P Q : Prop} {x : Except Nat (Option Str × List Str)} {t : Str}
    {rest : List Str} {r : PcFind × List Str} (find : Option Str → PcFind)
    (g : Option Str → List Str → Except Nat (PcFind × List Str))
    (h : Result.Decides P x (some s, keyLine word t :: rest))
    (hg : Result.Decides Q (g (some s) (keyLine word t :: rest)) r) :
    Result.Decides ((P ∧ s ≠ []) ∧ Q)
      (x >>= fun (name, input) =>
        if (name.getD []).length = 0 then recKeyEnd (find name) input else g name input) r := by
  rw [and_assoc]
  apply h.bind
  intro _
  by_cases hs : s = []
  · -- the line behind the empty name is not the end of the request
    rcases recKeyEnd_keyLine (find (some s)) word t rest with ⟨ret, hret⟩
    refine ⟨fun hne => absurd hs hne.1, fun _ => ⟨ret, ?_⟩⟩
    rw [← hret]
    exact if_pos (by simp [hs])
  · have hlen : ¬ ((some s).getD []).length = 0 := by simpa using hs
    refine (Result.Decides.of_iff ?_ (and_iff_right hs).symm)
    dsimp only
    rw [if_neg hlen]
    exact hg

theorem recNode_name (grid cluster : Option Str) (s : Str) (rest : List Str) :
    Result.Decides (NameOk (mem 3) nodeStr s)
      (recNode mem grid cluster (keyLine nodeStr s :: [] :: rest))
      (⟨grid, cluster, some s⟩, rest) :=
  (mcRecOptString_name (mem 3) nodeStr s ([] :: rest)).andThen rfl

theorem recCluster_last (grid : Option Str) (s : Str) (rest : List Str) :
    Result.Decides (NameOk (mem 2) clusterStr s)
      (recCluster mem grid (keyLine clusterStr s :: [] :: rest))
      (⟨grid, some s, none⟩, rest) := by
  apply (mcRecOptString_name (mem 2) clusterStr s ([] :: rest)).andThen
  dsimp only
  split_ifs
  · rfl
  · rfl

/-- A request is received as it was meant. -/
theorem recOptKeyMessage_request (mem : Nat → Bool) (key : ListKey) (rest : List Str) :
    Result.Decides (RequestOk mem key) (recOptKeyMessage mem (key.lines ++ rest))
      (key.find, rest) := by
  rw [recOptKeyMessage_eq]
  by_cases hmem : mem 0 = true
  · rw [if_pos hmem]
    cases key with
    | all => exact ⟨fun _ => rfl, fun h => absurd hmem h⟩
    | grid g =>
      refine Result.Decides.of_iff ?_ (and_iff_right hmem).symm
      apply (mcRecOptString_name (mem 1) gridStr g ([] :: rest)).andThen
      dsimp only
      split_ifs
      · rfl
      · rfl
    | cluster g c =>
      refine Result.Decides.of_iff ?_ (and_iff_right hmem).symm
      exact decides_inner (⟨·, none, none⟩) (recCluster mem)
        (mcRecOptString_name (mem 1) gridStr g _) (recCluster_last (some g) c rest)
    | node k =>
      refine Result.Decides.of_iff ?_ (and_iff_right hmem).symm
      have hcluster := decides_inner (⟨some k.gridName, ·, none⟩) (recNode mem (some k.gridName))
        (mcRecOptString_name (mem 2) clusterStr k.clusterName _)
        (recNode_name (some k.gridName) (some k.clusterName) k.nodeName rest)
      exact decides_inner (⟨·, none, none⟩) (recCluster mem)
        (mcRecOptString_name (mem 1) gridStr k.gridName _) hcluster
  · rw [if_neg hmem]
    refine ⟨fun h => absurd ?_ hmem, fun _ => ⟨errorMemAlloc, rfl⟩⟩
    cases key with
    | all => exact h
    | grid g => exact h.1
    | cluster g c => exact h.1
    | node k => exact h.1

/-! ## The walk over the slots -/

theorem isListMatch_find (key : ListKey) (c : PcStart) :
    isListMatch c key.find = key.asks c.key := by
  cases key with
  | all => rfl
  | grid g =>
    simp only [isListMatch, ListKey.find, ListKey.asks, partMatch]
    by_cases hg : g = c.key.gridName
    · simp [hg]
    · simp [hg]
  | cluster g d =>
    simp only [isListMatch, ListKey.find, ListKey.asks, partMatch]
    by_cases hg : g = c.key.gridName
    · by_cases hd : d = c.key.clusterName
      · simp [hg, hd]
      · simp [hg, hd]
    · simp [hg]
  | node k =>
    rcases k with ⟨g, d, n⟩
    rcases hkey : c.key with ⟨g', d', n'⟩
    simp only [isListMatch, ListKey.find, ListKey.asks, partMatch, hkey, Key.mk.injEq]
    by_cases hg : g = g'
    · by_cases hd : d = d'
      · by_cases hn : n = n'
        · simp [hg, hd, hn]
        · simp [hg, hd, hn]
      · simp [hg, hd]
    · simp [hg]

/-- Copies of the entries in these slots that match. -/
def copies (w : World) (find : PcFind) (slots : List Nat) : List PcStart :=
  (slots.filterMap w.pcs.cells).filter (isListMatch · find)

/-- The copies from slot `index` on can be made. -/
def CopiesOk (w : World) (find : PcFind) (copyOk : Nat → Bool) (slots : List Nat) (index : Nat) :
    Prop :=
  ∀ i p c, index ≤ i → slots[i]? = some p → w.pcs.cells p = some c → isListMatch c find = true →
    copyOk i = true

theorem copiesOk_step {find : PcFind} {index v : Nat} (hv : slots[index]? = some v) :
    CopiesOk w find copyOk slots index ↔
      (∀ c, w.pcs.cells v = some c → isListMatch c find = true → copyOk index = true) ∧
        CopiesOk w find copyOk slots (index + 1) := by
  constructor
  · intro h
    constructor
    · intro c hc hm
      exact h index v c le_rfl hv hc hm
    · intro i p c hi
      exact h i p c (Nat.le_of_succ_le hi)
  · rintro ⟨hhead, htail⟩ i p c hi hp hc hm
    rcases Nat.eq_or_lt_of_le hi with rfl | hlt
    · rw [hv] at hp
      cases hp
      exact hhead c hc hm
    · exact htail i p c hlt hp hc hm

/-- The loop of `handle_list` over the slots from `index` on. -/
theorem listEntries_slots (hw : WorldInv w slots) (find : PcFind) (copyOk : Nat → Bool)
    (n index : Nat) (hn : index + n = slots.length) :
    ∃ r, listEntries w find copyOk n index = .ok r ∧
      Result.Decides (highestBitSet ∉ slots.drop index ∧ CopiesOk w find copyOk slots index) r
        (copies w find (slots.drop index)) := by
  induction n generalizing index with
  | zero =>
    refine ⟨_, rfl, ?_⟩
    have hend : slots.drop index = [] := List.drop_eq_nil_of_le (by omega)
    rw [hend]
    refine ⟨fun _ => rfl, fun h => absurd ⟨List.not_mem_nil, ?_⟩ h⟩
    intro i p c hi hp
    have := (List.getElem?_eq_some_iff.mp hp).1
    omega
  | succ n ih =>
    rcases ih (index + 1) (by omega) with ⟨rest, hrest, hdec⟩
    have hlt : index < slots.length := by omega
    have hv : slots[index]? = some slots[index] := List.getElem?_eq_getElem hlt
    have hdrop : slots.drop index = slots[index] :: slots.drop (index + 1) :=
      List.drop_eq_getElem_cons hlt
    generalize slots[index] = v at hv hdrop
    rw [hdrop, copiesOk_step hv, List.mem_cons, not_or]
    unfold listEntries
    rcases Nat.eq_zero_or_pos index with rfl | hpos
    · -- the list head
      rw [hw.head] at hv
      cases hv
      have hnone : w.pcs.cells 0 = none := by
        rw [eq_none_iff_forall_ne_some]
        intro c hc
        exact absurd (hw.address 0 c hc).1 (Nat.lt_irrefl 0)
      rw [getPtr_spec hw.stored hw.head (by decide) hw.fits, if_neg (by decide)]
      refine ⟨rest, by simpa using hrest, ?_⟩
      have hcopies : copies w find (0 :: slots.drop (0 + 1)) = copies w find (slots.drop (0 + 1)) := by
        unfold copies
        rw [List.filterMap_cons_none hnone]
      rw [hcopies]
      refine hdec.of_iff ?_
      constructor
      · rintro ⟨hmark, hok⟩
        refine ⟨⟨by decide, hmark⟩, ?_, hok⟩
        intro c hc
        rw [hnone] at hc
        cases hc
      · rintro ⟨⟨-, hmark⟩, -, hok⟩
        exact ⟨hmark, hok⟩
    · rcases hw.slot index v hpos hv with rfl | ⟨c, hc, -, -⟩
      · -- an entry that was given back
        rw [getPtr_spec hw.stored hv highestBitSet_lt hw.fits, if_pos le_rfl]
        exact ⟨_, rfl, fun h => absurd rfl h.1.1, fun _ => ⟨errorIndexError, rfl⟩⟩
      · rcases hw.address v c hc with ⟨hvpos, -, hvlt⟩
        have hlive : highestBitSet ≠ v := Nat.ne_of_gt hvlt
        have hcell : ∀ d, w.pcs.cells v = some d → d = c := by
          intro d hd
          rw [hc] at hd
          exact (Option.some.inj hd).symm
        rw [getPtr_spec hw.stored hv (hvlt.trans highestBitSet_lt) hw.fits,
          if_neg (Nat.not_le.mpr hvlt)]
        dsimp only
        rw [if_neg (fun hne => hne rfl), if_neg (Nat.ne_of_gt hvpos),
          Result.bind_of_ok (follow_of_cell hc)]
        unfold copies at hdec ⊢
        rw [List.filterMap_cons_some hc]
        split_ifs with hm hcopy
        · rw [List.filter_cons_of_pos (p := fun d => isListMatch d find) hm]
          refine ⟨_, Result.bind_of_ok hrest _, ?_⟩
          constructor
          · rintro ⟨⟨-, hmark⟩, -, hok⟩
            rw [hdec.ok ⟨hmark, hok⟩]
            rfl
          · intro h
            rcases hdec.error fun hAnd => h ⟨⟨hlive, hAnd.1⟩, fun _ _ _ => hcopy, hAnd.2⟩ with
              ⟨ret, hret⟩
            rw [hret]
            exact ⟨ret, rfl⟩
        · exact ⟨_, rfl, fun h => absurd (h.2.1 c hc hm) hcopy, fun _ => ⟨errorMemAlloc, rfl⟩⟩
        · rw [List.filter_cons_of_neg (p := fun d => isListMatch d find) hm]
          refine ⟨rest, hrest, hdec.of_iff ?_⟩
          constructor
          · rintro ⟨hmark, hok⟩
            refine ⟨⟨hlive, hmark⟩, ?_, hok⟩
            intro d hd hdm
            rw [hcell d hd] at hdm
            exact absurd hdm hm
          · rintro ⟨⟨-, hmark⟩, -, hok⟩
            exact ⟨hmark, hok⟩

/-! ## Blanks before a parameter -/

theorem moveDown_zero (n : Nat) (buf : Str) (i : Nat) : moveDown 0 n buf i = buf := by
  induction n generalizing i with
  | zero => rfl
  | succ n ih =>
    unfold moveDown
    have hsame : buf.set i (buf.getD (i + 0) 0) = buf := by
      rw [Nat.add_zero]
      by_cases hi : i < buf.length
      · rw [getD_eq_getElem?_getD, getElem?_eq_getElem hi, getD_some,
          set_getElem_self]
      · exact set_eq_of_length_le (Nat.not_lt.mp hi)
    rw [hsame, ih]
    exact ite_self buf

theorem moveDown_first (k n : Nat) (buf : Str) {i : Nat} (hi : 0 < i) :
    (moveDown k n buf i).getD 0 0 = buf.getD 0 0 := by
  induction n generalizing buf i with
  | zero => rfl
  | succ n ih =>
    unfold moveDown
    split_ifs
    · rfl
    · rw [ih _ (Nat.succ_pos i), getD_eq_getElem?_getD, getElem?_set_ne (Nat.ne_of_gt hi),
        ← getD_eq_getElem?_getD]

/-- The string ends, so there is a byte behind its blanks, and it is the first byte
of the buffer then. -/
theorem skipBlanks_first {len n i : Nat} {buf : Str} (hlen : len < buf.length)
    (hend : buf.getD len 0 = 0) (hfirst : buf.getD 0 0 = buf.getD i 0) (hi : i ≤ len)
    (hn : n = len + 1 - i) : (skipBlanks n buf i).1.getD 0 0 ≠ 32 := by
  induction n generalizing i buf with
  | zero => omega
  | succ n ih =>
    unfold skipBlanks
    split_ifs with hblank
    · have hne : i ≠ len := by
        rintro rfl
        rw [hend] at hblank
        exact absurd hblank (by decide)
      have hother : ∀ j x, 0 < j → (buf.set 0 x).getD j 0 = buf.getD j 0 := by
        intro j x hj
        rw [getD_eq_getElem?_getD, getElem?_set_ne (Nat.ne_of_lt hj),
          ← getD_eq_getElem?_getD]
      have hself : ∀ x, (buf.set 0 x).getD 0 0 = x := by
        intro x
        rw [getD_eq_getElem?_getD, getElem?_set_self (by omega), getD_some]
      apply ih
      · rw [length_set]
        exact hlen
      · rw [hother len _ (by omega), hend]
      · rw [hself, hother (i + 1) _ (Nat.succ_pos i)]
      · omega
      · omega
    · rw [hfirst]
      exact hblank

theorem stripLeadingBlanks_head (s behind : Str) :
    (stripLeadingBlanks s behind).head? ≠ some 32 := by
  have hlen : s.length < (s ++ 0 :: behind).length := by simp
  have hend : (s ++ 0 :: behind).getD s.length 0 = 0 := by simp
  have hfirst := skipBlanks_first hlen hend rfl (Nat.zero_le _) rfl
  unfold stripLeadingBlanks
  generalize skipBlanks (s.length + 1) (s ++ 0 :: behind) 0 = r at hfirst ⊢
  rcases r with ⟨buf, i⟩
  have hmove : (moveDown i (s.length + 1) buf i).getD 0 0 ≠ 32 := by
    rcases Nat.eq_zero_or_pos i with rfl | hi
    · rw [moveDown_zero]
      exact hfirst
    · rw [moveDown_first i _ buf hi]
      exact hfirst
  intro hhead
  rw [getD_eq_getElem?_getD] at hmove
  rw [head?_take] at hhead
  split_ifs at hhead
  rw [head?_eq_getElem?] at hhead
  rw [hhead] at hmove
  exact hmove rfl

theorem stripLeadingBlanks_of_head (h : s.head? ≠ some 32) (behind : Str) :
    stripLeadingBlanks s behind = s := by
  have hfirst : ¬ (s ++ 0 :: behind).getD 0 0 = 32 := by
    intro hblank
    cases s with
    | nil =>
      rw [nil_append, getD_cons_zero] at hblank
      exact absurd hblank (by decide)
    | cons x s =>
      apply h
      rw [head?_cons]
      exact congrArg some hblank
  unfold stripLeadingBlanks skipBlanks
  rw [if_neg hfirst]
  dsimp only
  rw [moveDown_zero, take_left]

/-! ## Sending the entries -/

theorem sendLines_fits (lines : List Str) :
    Result.Decides (∀ line ∈ lines, line.length + 1 < configReadBufSize) (sendLines lines) lines := by
  induction lines with
  | nil => exact ⟨fun _ => rfl, fun h => absurd nofun h⟩
  | cons line lines ih =>
    unfold sendLines
    rw [forall_mem_cons]
    by_cases hline : line.length + 1 < configReadBufSize
    · rw [if_pos hline]
      refine Result.Decides.of_iff ?_ (and_iff_right hline).symm
      exact ih.andThen rfl
    · rw [if_neg hline]
      exact ⟨fun h => absurd h.1 hline, fun _ => ⟨.require, rfl⟩⟩

theorem answers_succ (n : Nat) : answers (n + 1) = listNextStr :: [] :: answers n := rfl

theorem sendEntries_answers (listFull : Bool) (cs : List PcStart) :
    Result.Decides (∀ c ∈ cs, ∀ line ∈ listEntryLines c listFull, line.length + 1 < configReadBufSize)
      (sendEntries listFull cs (answers cs.length))
      (cs.flatMap fun c => listEntryLines c listFull, none) := by
  induction cs with
  | nil => exact ⟨fun _ => rfl, fun h => absurd nofun h⟩
  | cons c cs ih =>
    rw [forall_mem_cons, length_cons, answers_succ]
    unfold sendEntries
    refine (sendLines_fits (listEntryLines c listFull)).bind fun _ => ?_
    exact ih.andThen rfl

/-- `handle_list` either sends an error message, or all the copies. -/
theorem handleList_slots (hw : WorldInv w slots) {reply : List Str}
    (hreply : reply.head? ≠ some errorStr) :
    handleList w listFull mem copyOk
        (key.lines ++ answers (copies w key.find slots).length) = .ok reply ↔
      RequestOk mem key ∧ (¬ Marked slots ∧ CopiesOk w key.find copyOk slots 0) ∧
        (∀ c ∈ copies w key.find slots, ∀ line ∈ listEntryLines c listFull,
          line.length + 1 < configReadBufSize) ∧
        reply = (copies w key.find slots).flatMap (fun c => listEntryLines c listFull) ++
          [listStopStr, []] := by
  have herror : ∀ ret, sendErrorMessage ret ≠ .ok reply := by
    intro ret hret
    rw [((sendLines_fits _).ok_iff.mp hret).2] at hreply
    exact hreply rfl
  have hrequest := recOptKeyMessage_request mem key (answers (copies w key.find slots).length)
  unfold handleList
  by_cases hreq : RequestOk mem key
  · rw [hrequest.ok hreq, and_iff_right hreq]
    dsimp only
    rcases listEntries_slots hw key.find copyOk (getMaxIndex w.array) 0
      (by rw [hw.max_index, Nat.zero_add]) with ⟨r, hr, hwalk⟩
    rw [drop_zero] at hwalk
    rw [Result.bind_of_ok hr]
    change Result.Decides (¬ Marked slots ∧ _) _ _ at hwalk
    by_cases hslots : ¬ Marked slots ∧ CopiesOk w key.find copyOk slots 0
    · rw [hwalk.ok hslots]
      dsimp only
      have hsend := sendEntries_answers listFull (copies w key.find slots)
      rw [and_iff_right hslots]
      exact Result.Decides.ok_iff (hsend.andThen rfl)
    · rcases hwalk.error hslots with ⟨ret, hret⟩
      rw [hret]
      exact ⟨fun h => absurd h (herror ret), fun h => absurd h.1 hslots⟩
  · rcases hrequest.error hreq with ⟨ret, hret⟩
    rw [hret]
    exact ⟨fun h => absurd h (herror ret), fun h => absurd h.1 hreq⟩

/-! ## Entries as they came in -/

theorem cStr_of_no_nul (h : 0 ∉ s) : cStr s = s := by
  apply takeWhile_eq_self_iff.mpr
  intro x hx
  have hne : x ≠ 0 := by
    rintro rfl
    exact h hx
  simpa using hne

theorem not_mem_cStr (s : Str) : 0 ∉ cStr s := by
  intro h
  have := mem_takeWhile_imp h
  simp at this

theorem twoStrings_eq (h : 0 ∉ keyLine word s) : twoStrings word s = keyLine word s := by
  unfold twoStrings keyLine at *
  rw [cStr_of_no_nul]
  intro hs
  exact h (mem_append_right _ (mem_cons_of_mem _ hs))

theorem strippedParameters_of_head {params : List Str} (h : ∀ s ∈ params, s.head? ≠ some 32)
    (behind : Nat → Str) : strippedParameters params behind = params := by
  unfold strippedParameters
  apply ext_getElem?
  intro i
  rw [getElem?_mapIdx]
  cases hi : params[i]? with
  | none => rfl
  | some s =>
    rw [map_some, stripLeadingBlanks_of_head (h s (mem_of_getElem? hi))]

/-- An entry that can be sent as it came in is. -/
theorem listEntryLines_eq (h : Shows c e) (hok : EntryOk listFull e) :
    listEntryLines c listFull = entryLines listFull e := by
  rcases h.holds with ⟨behind, hc⟩
  rcases hok with ⟨hlines, hblank⟩
  have hstr : ∀ word s, keyLine word s ∈ entryLines listFull e →
      twoStrings word s = keyLine word s := fun word s hmem => twoStrings_eq (hlines _ hmem).2
  have hnum : c.parameters.length = e.message.parameters.length := by
    rw [hc.parameters]
    exact length_mapIdx
  have hparams : (if listFull then c.parameters.map (twoStrings parameterStr) else []) =
      if listFull then e.message.parameters.map (keyLine parameterStr) else [] := by
    cases listFull with
    | false => rfl
    | true =>
      rw [if_pos rfl, if_pos rfl, hc.parameters, strippedParameters_of_head (hblank rfl)]
      apply map_congr_left
      intro s hs
      apply hstr
      simp only [entryLines, if_pos, mem_append]
      exact .inl (.inr (mem_map_of_mem hs))
  have hkey : c.key = e.key := h.key
  unfold listEntryLines
  rw [hparams, hnum, hc.programName, hc.versionString, hkey, h.startId, h.pid,
    hstr programStr _ (by simp [entryLines]), hstr versionStr _ (by simp [entryLines]),
    hstr gridStr _ (by simp [entryLines]), hstr clusterStr _ (by simp [entryLines]),
    hstr nodeStr _ (by simp [entryLines])]
  rfl

/-! ## Lines that are never sent -/

/-- How the line of a parameter begins that still has a blank. -/
def blankParameter : Str := parameterStr ++ [32, 32]

theorem not_mem_guint64Str (n : Nat) : 0 ∉ guint64Str n := by
  have hdigit : ∀ d < 10, UInt8.ofNat (48 + d) ≠ 0 := by decide
  unfold guint64Str
  split_ifs
  · decide
  · intro h
    rcases mem_map.mp h with ⟨d, hd, hzero⟩
    exact hdigit d (Nat.digits_lt_base (by decide) (mem_reverse.mp hd)) hzero

/-- A line that begins with another word. -/
theorem not_blank_of_take (hword : 2 ≤ word.length) (h : word.take 2 ≠ [112, 97]) :
    ¬ blankParameter <+: word ++ s := by
  rintro ⟨t, ht⟩
  apply h
  have htake := congrArg (List.take 2) ht
  rw [take_append_of_le_length hword] at htake
  rw [← htake]
  rfl

theorem twoStrings_sent (s : Str) (hnul : 0 ∉ word) (hword : 2 ≤ word.length)
    (h : word.take 2 ≠ [112, 97]) :
    0 ∉ twoStrings word s ∧ ¬ blankParameter <+: twoStrings word s := by
  constructor
  · simp [twoStrings, hnul, not_mem_cStr]
  · exact not_blank_of_take hword h

theorem withNumber_sent (n : Nat) (hnul : 0 ∉ word) (hword : 2 ≤ word.length)
    (h : word.take 2 ≠ [112, 97]) :
    0 ∉ withNumber word n ∧ ¬ blankParameter <+: withNumber word n := by
  constructor
  · simp [withNumber, hnul, not_mem_guint64Str]
  · exact not_blank_of_take hword h

theorem parameter_sent (h : s.head? ≠ some 32) :
    0 ∉ twoStrings parameterStr s ∧ ¬ blankParameter <+: twoStrings parameterStr s := by
  constructor
  · have hnul : 0 ∉ parameterStr := by decide
    simp [twoStrings, hnul, not_mem_cStr]
  · rintro ⟨t, ht⟩
    unfold blankParameter twoStrings at ht
    rw [append_assoc] at ht
    have hrest := (List.cons.inj (append_cancel_left ht)).2
    apply h
    cases s with
    | nil => cases hrest
    | cons x s =>
      by_cases hx : x = 0
      · simp [cStr, hx] at hrest
      · simp only [cStr, takeWhile_cons, ne_eq, hx, not_false_eq_true, decide_true, if_true] at hrest
        rw [← (List.cons.inj hrest).1]
        rfl

/-- Every line about a controlled process is without NUL, and no parameter begins
with a blank. -/
theorem listEntryLines_sent (h : Shows c e) (hline : line ∈ listEntryLines c listFull) :
    0 ∉ line ∧ ¬ blankParameter <+: line := by
  rcases h.holds with ⟨behind, hc⟩
  unfold listEntryLines at hline
  rcases mem_append.mp hline with hline | hend
  · rcases mem_append.mp hline with hfixed | hparam
    · simp only [mem_cons, not_mem_nil, or_false] at hfixed
      rcases hfixed with rfl | rfl | rfl | rfl | rfl | rfl | rfl | rfl | rfl
      · decide
      · exact twoStrings_sent _ (by decide) (by decide) (by decide)
      · exact twoStrings_sent _ (by decide) (by decide) (by decide)
      · exact twoStrings_sent _ (by decide) (by decide) (by decide)
      · exact twoStrings_sent _ (by decide) (by decide) (by decide)
      · exact twoStrings_sent _ (by decide) (by decide) (by decide)
      · exact withNumber_sent _ (by decide) (by decide) (by decide)
      · exact withNumber_sent _ (by decide) (by decide) (by decide)
      · exact withNumber_sent _ (by decide) (by decide) (by decide)
    · split_ifs at hparam
      · rcases mem_map.mp hparam with ⟨s, hs, rfl⟩
        rw [hc.parameters] at hs
        rcases mem_mapIdx.mp hs with ⟨i, hi, rfl⟩
        exact parameter_sent (stripLeadingBlanks_head _ _)
      · cases hparam
  · rw [mem_singleton] at hend
    rw [hend]
    decide

/-! ## The reply -/

theorem filterMap_cells (hw : WorldInv w slots) :
    slots.filterMap w.pcs.cells = (liveSlots slots).filterMap w.pcs.cells := by
  have hempty : ∀ p, (p = 0 ∨ p = highestBitSet) → w.pcs.cells p = none := by
    intro p hp
    rw [eq_none_iff_forall_ne_some]
    intro c hc
    have haddr := hw.address p c hc
    rcases hp with rfl | rfl
    · exact Nat.lt_irrefl _ haddr.1
    · exact Nat.lt_irrefl _ haddr.2.2
  rcases slots with _ | ⟨first, xs⟩
  · exact absurd hw.head (by simp)
  · have hfirst : first = 0 := by simpa using hw.head
    rw [hfirst, filterMap_cons_none (hempty 0 (.inl rfl))]
    unfold liveSlots
    rw [tail_cons, filterMap_filter]
    apply filterMap_congr
    intro p _
    by_cases hp : p = highestBitSet
    · rw [hempty p (.inr hp)]
      exact (ite_self none).symm
    · simp [hp]

/-- The copies are those of the processes that are asked for. -/
theorem copies_shown (key : ListKey) (hw : WorldInv w slots) (hshown : Shown w slots cs) :
    List.Forall₂ Shows (copies w key.find slots) (matching key cs) := by
  unfold copies matching
  rw [filterMap_cells hw]
  apply forall₂_filter (forall₂_filterMap hshown)
  intro c _ e _ hshows
  rw [isListMatch_find, hshows.key]

theorem slots_of_not_marked (hw : WorldInv w slots) (h : ¬ Marked slots) :
    slots = 0 :: liveSlots slots := by
  rcases slots with _ | ⟨first, xs⟩
  · exact absurd hw.head (by simp)
  · have hfirst : first = 0 := by simpa using hw.head
    unfold liveSlots
    rw [hfirst, tail_cons, filter_eq_self.mpr]
    intro p hp
    have hne : p ≠ highestBitSet := by
      rintro rfl
      exact h (mem_cons_of_mem _ hp)
    simpa using hne

theorem copiesOk_iff (hw : WorldInv w slots) (hshown : Shown w slots cs) (h : ¬ Marked slots) :
    CopiesOk w key.find copyOk slots 0 ↔
      ∀ i e, cs[i]? = some e → key.asks e.key = true → copyOk (i + 1) = true := by
  have hslots := slots_of_not_marked hw h
  constructor
  · intro hok i e he hasks
    rcases forall₂_getElem?_right hshown he with ⟨p, hp, c, hc, hshows⟩
    apply hok (i + 1) p c (Nat.zero_le _) _ hc
    · rw [isListMatch_find, hshows.key]
      exact hasks
    · rw [hslots, getElem?_cons_succ]
      exact hp
  · intro hok i p c _ hp hc hm
    rw [hslots] at hp
    cases i with
    | zero =>
      cases hp
      exact absurd (hw.address 0 c hc).1 (Nat.lt_irrefl 0)
    | succ i =>
      rcases forall₂_getElem?_left hshown hp with ⟨e, he, d, hd, hshows⟩
      rw [hc] at hd
      cases hd
      apply hok i e he
      rw [← hshows.key, ← isListMatch_find]
      exact hm

theorem Listed.head {reply : List Str} (h : Listed listFull key cs reply) :
    reply.head? ≠ some errorStr := by
  rcases h with ⟨l, -, rfl⟩
  cases l with
  | nil =>
    show some listStopStr ≠ some errorStr
    decide
  | cons e l =>
    show some listNodeStr ≠ some errorStr
    decide

/-- All lines of the reply are sent, so the entries in it have no others. -/
theorem entryOk_of_sent {l : List PcStart}
    (hl : ∀ c ∈ l, ∃ e, Shows c e)
    (hfits : ∀ c ∈ l, ∀ line ∈ listEntryLines c listFull, line.length + 1 < configReadBufSize)
    (hlines : ∀ line ∈ entryLines listFull e,
      line ∈ l.flatMap (fun c => listEntryLines c listFull) ++ [listStopStr, []]) :
    EntryOk listFull e := by
  have hsent : ∀ line ∈ entryLines listFull e, LineOk line ∧ ¬ blankParameter <+: line := by
    intro line hline
    rcases mem_append.mp (hlines line hline) with hentry | hstop
    · rcases mem_flatMap.mp hentry with ⟨c, hc, hmem⟩
      rcases hl c hc with ⟨e', hshows⟩
      have hclean := listEntryLines_sent hshows hmem
      exact ⟨⟨hfits c hc line hmem, hclean.1⟩, hclean.2⟩
    · simp only [mem_cons, not_mem_nil, or_false] at hstop
      rcases hstop with rfl | rfl
      · exact ⟨⟨by decide, by decide⟩, by decide⟩
      · exact ⟨⟨by decide, by decide⟩, by decide⟩
  constructor
  · intro line hline
    exact (hsent line hline).1
  · rintro rfl s hs hhead
    have hmem : keyLine parameterStr s ∈ entryLines true e := by
      simp only [entryLines, if_pos, mem_append]
      exact .inl (.inr (mem_map_of_mem hs))
    apply (hsent _ hmem).2
    rcases s with _ | ⟨x, s⟩
    · cases hhead
    · cases hhead
      exact ⟨s, by simp [blankParameter, keyLine]⟩

variable {cmds : List Command} {a : DynamicArray}

/-- A list request after a sequence of successful start and stop commands is answered
as it should be if and only if no command has named a key that was controlled, the
request is received, and the entries that are asked for can be copied and sent as
they came in. -/
theorem list_reply_iff (ha : createPtrArray (fun _ => true) Heap.empty = some a)
    (h : History a cmds w cs) (listFull : Bool) (key : ListKey) (mem copyOk : Nat → Bool) :
    (∃ reply, handleList w listFull mem copyOk (key.lines ++ answers (matching key cs).length) =
        .ok reply ∧ Listed listFull key cs reply) ↔
      FreshKeys cmds ∧ RequestOk mem key ∧
        ∀ i e, cs[i]? = some e → key.asks e.key = true → copyOk (i + 1) = true ∧ EntryOk listFull e := by
  rcases h.table ha with ⟨⟨slots, hw, hshown, hmarked⟩, -⟩
  have hcopies := copies_shown key hw hshown
  rw [← hcopies.length_eq]
  constructor
  · rintro ⟨reply, hrun, hlisted⟩
    rcases (handleList_slots hw hlisted.head).mp hrun with ⟨hreq, ⟨hmark, hcopy⟩, hfits, hreply⟩
    refine ⟨not_not.mp fun hf => hmark (hmarked.mpr hf), hreq, ?_⟩
    intro i e he hasks
    refine ⟨(copiesOk_iff hw hshown hmark).mp hcopy i e he hasks, ?_⟩
    refine entryOk_of_sent ?_ hfits ?_
    · intro c hc
      rcases forall₂_mem_left hcopies hc with ⟨e', -, hshows⟩
      exact ⟨e', hshows⟩
    · intro line hline
      rw [← hreply]
      rcases hlisted with ⟨l, hperm, rfl⟩
      apply List.mem_append_left
      apply List.mem_flatMap.mpr
      refine ⟨e, hperm.mem_iff.mpr ?_, hline⟩
      exact List.mem_filter.mpr ⟨List.mem_of_getElem? he, hasks⟩
  · rintro ⟨hfresh, hreq, hentries⟩
    have hmark : ¬ Marked slots := fun hm => hmarked.mp hm hfresh
    have hentry : ∀ e ∈ matching key cs, EntryOk listFull e := by
      intro e he
      rcases List.mem_filter.mp he with ⟨hmem, hasks⟩
      rcases List.mem_iff_getElem?.mp hmem with ⟨i, hi⟩
      exact (hentries i e hi hasks).2
    have hlines : (copies w key.find slots).flatMap (fun c => listEntryLines c listFull) =
        (matching key cs).flatMap (entryLines listFull) :=
      forall₂_flatMap_eq hcopies fun c _ e he hshows => listEntryLines_eq hshows (hentry e he)
    have hlisted : Listed listFull key cs
        ((copies w key.find slots).flatMap (fun c => listEntryLines c listFull) ++ [listStopStr, []]) :=
      ⟨matching key cs, List.Perm.refl _, by rw [hlines]⟩
    refine ⟨_, (handleList_slots hw hlisted.head).mpr ⟨hreq, ⟨hmark, ?_⟩, ?_, rfl⟩, hlisted⟩
    · rw [copiesOk_iff hw hshown hmark]
      intro i e he hasks
      exact (hentries i e he hasks).1
    · intro c hc line hline
      rcases forall₂_mem_left hcopies hc with ⟨e, he, hshows⟩
      rw [listEntryLines_eq hshows (hentry e he)] at hline
      exact ((hentry e he).1 line hline).1

/-! ## A process that is stopped -/

/-- The steps of a start command that goes well. -/
def startActs (pid : Nat) : List Act :=
  [.prepare 0 (some false), .insertProcess none .ok, .files 0,
    .startProcess (.spawned pid) (fun _ => []), .isAlive .alive]

/-- The steps of a stop command that goes well. -/
def stopActs : List Act := [.deleteProcess, .kill, .isAlive .notAlive, .removeKilled, .free]

def listedStart : StartMessage := ⟨⟨[103], [99], [110]⟩, [105], [49], [[120]], false⟩

/-- The table when the first process is about to be published. -/
def listedLaunched (a : DynamicArray) : World :=
  { store (firstBooked listedStart a) 1
      ({ listedStart.toPcStart with dynTransIndex := 1 }.stripped fun _ => []) with
    procs := [⟨1, listedStart.key, 7, true, false⟩] }

theorem history_started (ha : createPtrArray (fun _ => true) Heap.empty = some a) :
    ∃ w c, History a [.start listedStart (startActs 7)] w [⟨listedStart, 1, 7⟩] ∧
      w.hash = [(listedStart.key, 1)] ∧ w.pcs.cells 1 = some c ∧ c.key = listedStart.key ∧
      c.pid = 7 ∧ c.checkOngoing = false ∧ c.killOngoing = false := by
  have hone : 1 < highestBitSet := by decide
  have hw : WorldInv (firstReceived listedStart a) [0] :=
    (start_world ha).create hone listedStart.toPcStart
  rcases insertProcess_entered hw (p := 1) (fun ⟨_, h⟩ => nomatch h) rfl rfl (by decide) false with
    ⟨a', hins, -⟩
  have hrun : runThread (received (start a).world listedStart) (.received 1) (startActs 7) =
      some (listedLaunched a', .publishing 1 7) := by
    unfold startActs runThread
    show runThread (firstReceived listedStart a) (.inserting 1 false 0 0) _ = _
    unfold runThread
    rw [hins]
    rfl
  have hsucc : Succeeds (start a).world [] (.start listedStart (startActs 7)) _ _ :=
    Succeeds.start hone hrun rfl
  exact ⟨_, _, History.snoc History.nil hsucc, rfl, rfl, rfl, rfl, rfl, rfl⟩

theorem removeKilled_found {f : Ptr} (hw : WorldInv w slots) (hs : hashSearch w c.key = some f)
    (hc : w.pcs.cells f = some c) :
    ∃ w', removeKilled w c.key c.pid c.startId = .ok (.section w' (.killRemoved f)) ∧
      w'.pcs = w.pcs := by
  rcases removePcEntry_spec hw ⟨_, Assoc.mem_of_search hs⟩ hc with ⟨a', hrem, -⟩
  refine ⟨{ w with hash := Assoc.remove w.hash c.key, array := a' }, ?_, rfl⟩
  unfold removeKilled
  rw [hs]
  dsimp only
  rw [Result.bind_of_ok (follow_of_cell hc), if_pos ⟨rfl, rfl⟩, Result.bind_of_ok hrem]
  rfl

/-- A stop command for a process that runs and dies. -/
theorem stop_succeeds {f : Ptr} (hw : WorldInv w slots)
    (hs : hashSearch w c.key = some f) (hc : w.pcs.cells f = some c) (hpid : c.pid ≠ 0)
    (hcheck : c.checkOngoing = false) (hkill : c.killOngoing = false) :
    ∃ w', runThread w (.deleting c.key false 0) stopActs = some (w', .returned 0) := by
  have hdelete : localStep w (.deleting c.key false 0) .deleteProcess =
      some (.ok (.section (store w f { c with killOngoing := true })
        (.killing c.key false f c.pid c.startId))) := by
    show some (deleteProcess w c.key false 0) = _
    unfold deleteProcess
    rw [hs]
    dsimp only
    rw [Result.bind_of_ok (follow_of_cell hc), if_neg (by simp [hpid, hcheck]), if_neg (by simp [hkill])]
    rfl
  -- the table while the process is killed
  have hw₁ : WorldInv (killProcess (store w f { c with killOngoing := true }) c.pid) slots :=
    (hw.store hc { c with killOngoing := true } rfl fun _ => rfl).congr rfl rfl rfl
  have hc₁ : (killProcess (store w f { c with killOngoing := true }) c.pid).pcs.cells f =
      some { c with killOngoing := true } := Heap.set_self _ _ _
  rcases removeKilled_found (c := { c with killOngoing := true }) hw₁ hs hc₁ with
    ⟨w₂, hremoved, hpcs⟩
  have hremove : localStep (killProcess (store w f { c with killOngoing := true }) c.pid)
      (.killed c.key f c.pid c.startId) .removeKilled = some (.ok (.section w₂ (.killRemoved f))) :=
    congrArg some hremoved
  have hfree : release w₂ f = .ok { w₂ with pcs := w₂.pcs.free f } := by
    unfold release
    rw [hpcs, hc₁]
  refine ⟨{ w₂ with pcs := w₂.pcs.free f }, ?_⟩
  unfold stopActs
  have hlast : localStep w₂ (.killRemoved f) .free =
      some (.ok (.goto { w₂ with pcs := w₂.pcs.free f } (.returned 0))) := by
    show some (release w₂ f >>= _) = _
    rw [hfree]
    rfl
  rw [runThread_cons hdelete]
  refine (runThread_cons rfl _).trans ((runThread_cons rfl _).trans ?_)
  refine (runThread_cons hremove _).trans ((runThread_cons hlast _).trans rfl)

/-- The process that was started is listed, with its parameter. -/
theorem list_reply_started :
    ∃ a w, createPtrArray (fun _ => true) Heap.empty = some a ∧
      History a [.start listedStart (startActs 7)] w [⟨listedStart, 1, 7⟩] ∧
      ∃ reply, handleList w true (fun _ => true) (fun _ => true)
          ((ListKey.grid [103]).lines ++
            answers (matching (.grid [103]) [⟨listedStart, 1, 7⟩]).length) = .ok reply ∧
        Listed true (.grid [103]) [⟨listedStart, 1, 7⟩] reply := by
  rcases createPtrArray_spec with ⟨a, ha, -⟩
  rcases history_started ha with ⟨w, c, hist, -⟩
  refine ⟨a, w, ha, hist, (list_reply_iff ha hist true (.grid [103]) _ _).mpr ⟨?_, ?_, ?_⟩⟩
  · rintro done cmd rest heq
    rcases done with _ | ⟨first, done⟩
    · exact List.not_mem_nil
    · simp at heq
  · exact ⟨rfl, by decide, rfl⟩
  · intro i e he _
    have hone : guint64Str 1 = [49] := by simp [guint64Str]
    have hseven : guint64Str 7 = [55] := by simp [guint64Str]
    rcases i with _ | i
    · cases he
      refine ⟨rfl, ?_, by decide⟩
      simp only [entryLines, withNumber, listedStart, List.length_singleton, hone, hseven]
      unfold LineOk
      decide
    · cases he

/-- A process is started and stopped, and a list request is answered with an error. -/
theorem stopped_process_breaks_list :
    ∃ a w, createPtrArray (fun _ => true) Heap.empty = some a ∧
      History a [.start listedStart (startActs 7), .stop listedStart.key false stopActs] w [] ∧
      ¬ ∃ reply, handleList w false (fun _ => true) (fun _ => true)
          (ListKey.all.lines ++ answers (matching .all []).length) = .ok reply ∧
        Listed false .all [] reply := by
  rcases createPtrArray_spec with ⟨a, ha, -⟩
  rcases history_started ha with ⟨w, c, hist, hhash, hc, hkey, hpid, hcheck, hkill⟩
  rcases hist.table ha with ⟨⟨slots, hw, -, -⟩, -⟩
  have hs : hashSearch w c.key = some 1 := by
    unfold hashSearch
    rw [hhash, hkey]
    rfl
  rcases stop_succeeds hw hs hc (by rw [hpid]; decide) hcheck hkill with ⟨w', hrun⟩
  rw [hkey] at hrun
  have hist' : History a [.start listedStart (startActs 7), .stop listedStart.key false stopActs] w' [] :=
    History.snoc hist (Succeeds.stop hrun)
  refine ⟨a, w', ha, hist', ?_⟩
  rintro ⟨reply, hreply, hlisted⟩
  rcases hist'.table ha with ⟨⟨slots', hw', hshown', hmarked'⟩, -⟩
  have hlen := (copies_shown .all hw' hshown').length_eq
  rw [← hlen] at hreply
  apply ((handleList_slots hw' hlisted.head).mp hreply).2.1.1
  rw [hmarked']
  intro hfresh
  exact hfresh [.start listedStart (startActs 7)] (.stop listedStart.key false stopActs) [] rfl
    (by decide)

end IClaustron.Pcntrl
