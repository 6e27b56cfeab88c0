import IClaustron.ClusterServer.StartProtocol

/-!
# ClusterServer.Agreement — what two Cluster Servers agree on

Two Cluster Servers that run the start protocol should both come back with 0 and with
one view of the master order, and neither of them should when their views cannot be
brought together.

Two things go wrong. When the client accepts the view of the server, the server copies
its own view into the entry of the client, but not its size. And when it is the client
whose view is the established one, it sends this view to the server, which takes it over
and then treats IC_ERROR_CHANGE_VIEW as an error: only a client may go on after it.

* `verifyLoop_agree` and `verifyLoop_differ` — verify_master_index_view stops at the first
  connected server with another view;
* `Reconcilable`, `Outcome` — the rule;
* `Meets` — the condition on the two servers before they start;
* `start_agreement_iff` — every run comes to an end, and keeps to the rule, exactly if the
  condition is met.
-/

namespace IClaustron.ClusterServer.Agreement

open Lib List

/-! ## Verification -/

/-- The arrays have IC_MAX_CLUSTER_SERVERS entries, and the size is a number of these. -/
structure InfoCs.Wf (info : InfoCs) : Prop where
  size_le : info.masterIndexSize ≤ maxClusterServers
  length_view : info.masterIndexView.length = maxClusterServers

instance (info : InfoCs) : Decidable info.Wf :=
  decidable_of_iff (info.masterIndexSize ≤ maxClusterServers ∧
    info.masterIndexView.length = maxClusterServers)
    ⟨fun h => ⟨h.1, h.2⟩, fun h => ⟨h.size_le, h.length_view⟩⟩

/-- The view is out of order, and begins with the server itself: it is its master. -/
def Established (info : InfoCs) : Prop :=
  isViewFromStartingNode info = false ∧ info.masterIndexView.head? = some info.nodeId

instance (info : InfoCs) : Decidable (Established info) := inferInstanceAs (Decidable (_ ∧ _))

def agrees (my info : InfoCs) : Bool :=
  decide (info.masterIndexSize = my.masterIndexSize) && decide (info.view = my.view)

/-- A server with a connection and another view. -/
def differs (my info : InfoCs) : Bool := info.csConnectState && !agrees my info

/-- The first such server. -/
def firstDiffering (my : InfoCs) (others : List InfoCs) : Option InfoCs := others.find? (differs my)

/-- What becomes of the two views when `info` has another view than `my`. -/
def verdict (my info : InfoCs) : Nat × InfoCs × InfoCs :=
  if my.masterIndexSize ≠ info.masterIndexSize then (errorMasterIndexViewDiffers, my, info)
  else if isViewFromStartingNode my = true ∧ Established info then
    (errorChangeView, changeView my info, info)
  else if Established my ∧ isViewFromStartingNode info = true then
    (errorChangeView, my, changeView info my)
  else (errorMasterIndexViewDiffers, my, info)

variable {my info : InfoCs} {others : List InfoCs}

theorem agrees_iff : agrees my info = true ↔
    info.masterIndexSize = my.masterIndexSize ∧ info.view = my.view := by
  simp [agrees]

theorem verifyLoop_cons_same {rest : List InfoCs}
    (h : ¬ differs my info = true) :
    verifyLoop my (info :: rest) =
      ((verifyLoop my rest).1, (verifyLoop my rest).2.1, info :: (verifyLoop my rest).2.2) := by
  conv_lhs => unfold verifyLoop
  by_cases hconn : info.csConnectState = true
  · rw [differs, hconn, Bool.true_and, Bool.not_eq_true', Bool.not_eq_false, agrees_iff] at h
    have hview : info.masterIndexView.take my.masterIndexSize =
        my.masterIndexView.take my.masterIndexSize := by
      have := h.2
      unfold InfoCs.view at this
      rwa [h.1] at this
    rw [if_pos hconn, if_neg (not_not.mpr h.1.symm), if_neg (not_not.mpr hview.symm)]
  · rw [if_neg hconn]

theorem verifyLoop_cons_differ {rest : List InfoCs}
    (h : differs my info = true) :
    verifyLoop my (info :: rest) =
      ((verdict my info).1, (verdict my info).2.1, (verdict my info).2.2 :: rest) := by
  rw [differs, Bool.and_eq_true, Bool.not_eq_true', ← Bool.not_eq_true, agrees_iff] at h
  rcases h with ⟨hconn, hdiff⟩
  unfold verifyLoop verdict
  rw [if_pos hconn]
  by_cases hsize : my.masterIndexSize = info.masterIndexSize
  · have hview : my.masterIndexView.take my.masterIndexSize ≠
        info.masterIndexView.take my.masterIndexSize := by
      intro heq
      apply hdiff
      refine ⟨hsize.symm, ?_⟩
      unfold InfoCs.view
      rw [← hsize, heq]
    rw [if_neg (not_not.mpr hsize), if_neg (not_not.mpr hsize), if_pos hview]
    cases hmy : isViewFromStartingNode my <;> cases hinfo : isViewFromStartingNode info <;>
      simp only [Established, hmy, hinfo, true_and, false_and, and_true, if_true, if_false,
        Bool.not_true, Bool.not_false, Bool.false_eq_true, Bool.true_eq_false, and_false] <;>
      split <;> rfl
  · rw [if_pos hsize, if_pos hsize]

theorem verifyLoop_agree (h : firstDiffering my others = none) :
    verifyLoop my others = (0, my, others) := by
  induction others with
  | nil => rfl
  | cons curr rest ih =>
    unfold firstDiffering at h
    by_cases hcurr : differs my curr = true
    · rw [find?_cons_of_pos hcurr] at h
      cases h
    · rw [find?_cons_of_neg hcurr] at h
      rw [verifyLoop_cons_same hcurr, ih h]

theorem verifyLoop_differ (h : firstDiffering my others = some info) :
    ∃ before after, others = before ++ info :: after ∧
      verifyLoop my others =
        ((verdict my info).1, (verdict my info).2.1, before ++ (verdict my info).2.2 :: after) := by
  induction others with
  | nil => cases h
  | cons curr rest ih =>
    unfold firstDiffering at h
    by_cases hcurr : differs my curr = true
    · rw [find?_cons_of_pos hcurr] at h
      cases h
      exact ⟨[], rest, rfl, verifyLoop_cons_differ hcurr⟩
    · rw [find?_cons_of_neg hcurr] at h
      rcases ih h with ⟨before, after, hsplit, hloop⟩
      refine ⟨curr :: before, after, by rw [hsplit]; rfl, ?_⟩
      rw [verifyLoop_cons_same hcurr, hloop]
      rfl

/-! ## The rule -/

/-- Two Cluster Servers that know each other, and the entries they have on each other. -/
structure Pair where
  client : RunObj
  server : RunObj
  /-- the client's entry on the server is `cs_servers[serverSlot + 1]` -/
  serverSlot : Nat
  serverInfo : InfoCs
  serverInfo_at : client.others[serverSlot]? = some serverInfo
  serverInfo_id : serverInfo.nodeId = server.my.nodeId
  clientSlot : Nat
  clientInfo : InfoCs
  clientInfo_at : server.others[clientSlot]? = some clientInfo
  clientInfo_id : clientInfo.nodeId = client.my.nodeId
  /-- the node ids of the server's table are different -/
  found : findCsIndex server client.my.nodeId = some (clientSlot + 1)
  client_wf : ∀ info ∈ client.my :: client.others, info.Wf
  server_wf : ∀ info ∈ server.my :: server.others, info.Wf

def Pair.start (p : Pair) : St where
  client := ⟨true, p.client, p.serverSlot + 1, .begun, [.getCsNodeid, .ok]⟩
  server := ⟨false, p.server, p.clientSlot + 1, .waitReq, []⟩

/-- The views are equal, or one server is an established master and the other one is
just starting. -/
def Reconcilable (p : Pair) : Prop :=
  p.client.my.view = p.server.my.view ∨
    (p.client.my.masterIndexSize = p.server.my.masterIndexSize ∧
      ((isViewFromStartingNode p.client.my = true ∧ Established p.server.my) ∨
        (Established p.client.my ∧ isViewFromStartingNode p.server.my = true)))

/-- Both servers hold one view, for themselves and for each other. -/
def Agreed (p : Pair) (s : St) : Prop :=
  ∃ size view, ∀ info, info = s.client.run.my ∨ info = s.server.run.my ∨
      s.client.run.others[p.serverSlot]? = some info ∨
      s.server.run.others[p.clientSlot]? = some info →
    info.masterIndexSize = size ∧ info.view = view

def Done (s : St) : Prop := s.client.pc.isReturned = true ∧ s.server.pc.isReturned = true

def Outcome (p : Pair) (s : St) : Prop :=
  (Reconcilable p → s.client.pc = .returned 0 ∧ s.server.pc = .returned 0 ∧ Agreed p s) ∧
    (¬ Reconcilable p → s.client.pc ≠ .returned 0 ∧ s.server.pc ≠ .returned 0)

/-- Every run can be completed, and a complete run keeps to the rule. -/
def StartsOk (p : Pair) : Prop :=
  ∀ labels s, Run.exec step p.start labels = some s →
    (∃ labels' s', Run.exec step s labels' = some s' ∧ Done s') ∧ (Done s → Outcome p s)

/-! ## The condition -/

/-- The other entries of the client, when it has got the view of the server. -/
def Pair.recorded (p : Pair) : List InfoCs :=
  p.client.others.modify p.serverSlot (·.record p.server.my.view)

/-- The client takes over the view of `info`, or stays with its own one because `info`
is just starting; and this is the view of the server. -/
def Resolves (my info : InfoCs) (view : List Nat) : Prop :=
  info.masterIndexSize = my.masterIndexSize ∧
    ((isViewFromStartingNode my = true ∧ Established info ∧ info.view = view) ∨
      (Established my ∧ isViewFromStartingNode info = true ∧ my.view = view))

/-- When no server the client is connected to has another view (so the two views are
equal), the server has the size of the client's view. Otherwise the first server with
another view (the other party, or a third one) lets the client come to the view of the
server, and no third server connected to the server is in the way: this if and only if
the two views are reconcilable. -/
def Meets (p : Pair) : Prop :=
  match firstDiffering p.client.my p.recorded with
  | none => p.clientInfo.masterIndexSize = p.server.my.masterIndexSize
  | some info =>
    Reconcilable p ↔ Resolves p.client.my info p.server.my.view ∧
      firstDiffering p.server.my (p.server.others.eraseIdx p.clientSlot) = none

/-! ## Entries -/

theorem InfoCs.Wf.length (h : info.Wf) : info.view.length = info.masterIndexSize := by
  unfold InfoCs.view
  rw [length_take, h.length_view]
  exact Nat.min_eq_left h.size_le

theorem view_record (info : InfoCs) (view : List Nat) : (info.record view).view = view := by
  have h := @take_overwrite_end _ view info.masterIndexView 0 (Nat.zero_le _)
  rw [Nat.zero_add] at h
  exact h

/-- A view that was told is in agreement exactly if it is the same. -/
theorem agrees_record (hmy : my.Wf) (info : InfoCs) (view : List Nat) :
    agrees my (info.record view) = true ↔ view = my.view := by
  rw [agrees_iff, view_record]
  constructor
  · exact fun h => h.2
  · rintro rfl
    exact ⟨hmy.length, rfl⟩

theorem view_changeView (hsize : my.masterIndexSize = info.masterIndexSize) (hinfo : info.Wf) :
    (changeView my info).view = info.view := by
  have h := @take_overwrite_end _ info.view my.masterIndexView 0 (Nat.zero_le _)
  rw [Nat.zero_add, hinfo.length, ← hsize] at h
  exact h

/-- The code of a verdict is IC_ERROR_CHANGE_VIEW exactly if somebody's view was changed. -/
theorem verdict_change_iff :
    (verdict my info).1 = errorChangeView ↔
      info.masterIndexSize = my.masterIndexSize ∧
        ((isViewFromStartingNode my = true ∧ Established info) ∨
          (Established my ∧ isViewFromStartingNode info = true)) := by
  unfold verdict
  by_cases hsize : my.masterIndexSize = info.masterIndexSize
  · rw [if_neg (not_not.mpr hsize)]
    by_cases htake : isViewFromStartingNode my = true ∧ Established info
    · rw [if_pos htake]
      exact ⟨fun _ => ⟨hsize.symm, Or.inl htake⟩, fun _ => rfl⟩
    · rw [if_neg htake]
      by_cases hkeep : Established my ∧ isViewFromStartingNode info = true
      · rw [if_pos hkeep]
        exact ⟨fun _ => ⟨hsize.symm, Or.inr hkeep⟩, fun _ => rfl⟩
      · rw [if_neg hkeep]
        constructor
        · intro h
          exact absurd (show errorMasterIndexViewDiffers = errorChangeView from h) (by decide)
        · rintro ⟨-, h | h⟩
          · exact absurd h htake
          · exact absurd h hkeep
  · rw [if_pos hsize]
    constructor
    · intro h
      exact absurd (show errorMasterIndexViewDiffers = errorChangeView from h) (by decide)
    · exact fun h => absurd h.1.symm hsize

theorem verdict_cases : (verdict my info).1 = errorChangeView ∨
    (verdict my info).1 = errorMasterIndexViewDiffers := by
  unfold verdict
  split_ifs
  · exact Or.inr rfl
  · exact Or.inl rfl
  · exact Or.inl rfl
  · exact Or.inr rfl

/-- What the client has after a change: its view, and the one of the first server that
differed, are the same. -/
theorem verdict_changed (hmy : my.Wf) (hinfo : info.Wf)
    (h : (verdict my info).1 = errorChangeView) (view : List Nat) :
    ((verdict my info).2.1.view = view ↔ Resolves my info view) ∧
      (verdict my info).2.2.view = (verdict my info).2.1.view ∧
      (verdict my info).2.1.masterIndexSize = my.masterIndexSize ∧
      (verdict my info).2.2.masterIndexSize = my.masterIndexSize := by
  rcases verdict_change_iff.mp h with ⟨hsize, hcase⟩
  unfold verdict Resolves
  rw [if_neg (not_not.mpr hsize.symm)]
  by_cases htake : isViewFromStartingNode my = true ∧ Established info
  · have hno : ¬ Established my := fun hest =>
      Bool.false_ne_true (hest.1.symm.trans htake.1)
    rw [if_pos htake]
    refine ⟨?_, (view_changeView hsize.symm hinfo).symm, rfl, hsize⟩
    show (changeView my info).view = view ↔ _
    rw [view_changeView hsize.symm hinfo]
    constructor
    · exact fun hv => ⟨hsize, Or.inl ⟨htake.1, htake.2, hv⟩⟩
    · rintro ⟨-, ⟨-, -, hv⟩ | ⟨hest, -⟩⟩
      · exact hv
      · exact absurd hest hno
  · have hkeep := hcase.resolve_left htake
    rw [if_neg htake, if_pos hkeep]
    refine ⟨?_, view_changeView hsize hmy, rfl, hsize⟩
    constructor
    · exact fun hv => ⟨hsize, Or.inr ⟨hkeep.1, hkeep.2, hv⟩⟩
    · rintro ⟨-, ⟨hstart, hest, -⟩ | ⟨-, -, hv⟩⟩
      · exact absurd ⟨hstart, hest⟩ htake
      · exact hv

/-! ## The run -/

/-- The server has taken note of the client. -/
def Pair.noted (p : Pair) : RunObj :=
  p.server.modifyInfo (p.clientSlot + 1)
    (·.setStatus p.client.my.configVersionNumber p.client.my.state p.client.my.pid)

/-- The view of the server is on its way to the client. -/
def Pair.told (p : Pair) : St where
  client := ⟨true, p.client, p.serverSlot + 1, .waitReply, [startClusterServerReply p.server.my]⟩
  server := ⟨false, p.noted, p.clientSlot + 1, .waitOkOrReply, []⟩

theorem handle_startReq {run : RunObj} {found nodeId version status pid : Nat} {inbox : List Msg}
    (h : findCsIndex run nodeId = some found) :
    handle ⟨false, run, found, .waitReq, inbox⟩ (.startReq nodeId version status pid) =
      (⟨false, run.modifyInfo found (·.setStatus version status pid), found, .waitOkOrReply, inbox⟩,
        [startClusterServerReply (run.modifyInfo found (·.setStatus version status pid)).my]) := by
  unfold handle
  dsimp only
  rw [h]
  dsimp only
  rw [if_neg fun hno => hno.2 rfl]

theorem handle_reply {isClient : Bool} {run run' : RunObj} {pc : Pc} {view : List Nat}
    {csIndex nodeId version status pid code : Nat} {inbox : List Msg}
    (hpc : pc = .waitReply ∨ pc = .waitOkOrReply)
    (h : recStartClusterServerReply run csIndex nodeId version status pid view = (code, run')) :
    handle ⟨isClient, run, csIndex, pc, inbox⟩ (.startReply nodeId version status pid view) =
      (⟨isClient, run', csIndex, (afterReply isClient code run').1, inbox⟩,
        (afterReply isClient code run').2) := by
  rcases hpc with rfl | rfl
  · unfold handle
    dsimp only
    rw [h]
  · unfold handle
    dsimp only
    rw [h]

theorem step_client {s : St} {msg : Msg} {inbox sent : List Msg} {party : Party}
    (hpc : s.client.pc.isReturned = false) (hin : s.client.inbox = msg :: inbox)
    (h : handle { s.client with inbox := inbox } msg = (party, sent)) :
    step s .client = some ⟨party, { s.server with inbox := s.server.inbox ++ sent }⟩ := by
  unfold step partyStep
  dsimp only
  rw [if_neg (by rw [hpc]; exact Bool.false_ne_true), hin]
  dsimp only
  rw [h]
  rfl

theorem step_server {s : St} {msg : Msg} {inbox sent : List Msg} {party : Party}
    (hpc : s.server.pc.isReturned = false) (hin : s.server.inbox = msg :: inbox)
    (h : handle { s.server with inbox := inbox } msg = (party, sent)) :
    step s .server = some ⟨{ s.client with inbox := s.client.inbox ++ sent }, party⟩ := by
  unfold step partyStep
  dsimp only
  rw [if_neg (by rw [hpc]; exact Bool.false_ne_true), hin]
  dsimp only
  rw [h]
  rfl

/-- The request of the client is on its way to the server. -/
def Pair.asked (p : Pair) : St where
  client := ⟨true, p.client, p.serverSlot + 1, .waitReply, []⟩
  server := ⟨false, p.server, p.clientSlot + 1, .waitReq, [startClusterServerReq p.client.my]⟩

theorem start_told (p : Pair) {labels : List Label} (h : Run.Forced step p.told labels) :
    Run.Forced step p.start (.client :: .client :: .server :: labels) := by
  have hserver : step p.asked .server = some p.told :=
    @step_server p.asked _ [] _ _ rfl rfl (handle_startReq p.found)
  refine ⟨?_, _, rfl, ?_, p.asked, rfl, ?_, p.told, hserver, h⟩
  · rintro (_ | _) hne
    · exact absurd rfl hne
    · rfl
  · rintro (_ | _) hne
    · exact absurd rfl hne
    · rfl
  · rintro (_ | _) hne
    · rfl
    · exact absurd rfl hne

/-- A reply from the right server. -/
theorem recReply_eq {run : RunObj} {slot version status pid : Nat} {view : List Nat}
    (hinfo : run.others[slot]? = some info) (hview : view.length ≤ maxClusterServers) :
    recStartClusterServerReply run (slot + 1) info.nodeId version status pid view =
      if (verifyLoop run.my (run.others.modify slot (·.record view))).1 ≠ 0 then
        ((verifyLoop run.my (run.others.modify slot (·.record view))).1,
          ⟨(verifyLoop run.my (run.others.modify slot (·.record view))).2.1,
            (verifyLoop run.my (run.others.modify slot (·.record view))).2.2⟩)
      else
        (0, ⟨(verifyLoop run.my (run.others.modify slot (·.record view))).2.1,
          (verifyLoop run.my (run.others.modify slot (·.record view))).2.2.modify slot
            (·.setStatus version status pid)⟩) := by
  have hid : (run.info? (slot + 1)).map (·.nodeId) = some info.nodeId := by
    unfold RunObj.info?
    rw [getElem?_cons_succ, hinfo]
    rfl
  unfold recStartClusterServerReply
  rw [if_neg (Nat.not_lt.mpr hview), if_neg (not_not.mpr hid)]
  rfl

theorem recReply_agree {run : RunObj} {slot version status pid : Nat} {view : List Nat}
    (hinfo : run.others[slot]? = some info) (hview : view.length ≤ maxClusterServers)
    (h : firstDiffering run.my (run.others.modify slot (·.record view)) = none) :
    recStartClusterServerReply run (slot + 1) info.nodeId version status pid view =
      (0, ⟨run.my, (run.others.modify slot (·.record view)).modify slot
        (·.setStatus version status pid)⟩) := by
  rw [recReply_eq hinfo hview, verifyLoop_agree h]
  rfl

theorem recReply_differ {run : RunObj} {slot version status pid : Nat} {view : List Nat}
    {other : InfoCs} (hinfo : run.others[slot]? = some info)
    (hview : view.length ≤ maxClusterServers)
    (h : firstDiffering run.my (run.others.modify slot (·.record view)) = some other) :
    ∃ before after, run.others.modify slot (·.record view) = before ++ other :: after ∧
      recStartClusterServerReply run (slot + 1) info.nodeId version status pid view =
        ((verdict run.my other).1,
          ⟨(verdict run.my other).2.1, before ++ (verdict run.my other).2.2 :: after⟩) := by
  rcases verifyLoop_differ h with ⟨before, after, hsplit, hloop⟩
  refine ⟨before, after, hsplit, ?_⟩
  rw [recReply_eq hinfo hview, hloop, if_pos]
  rcases @verdict_cases run.my other with hcode | hcode
  · rw [hcode]
    decide
  · rw [hcode]
    decide

theorem Pair.recorded_agree (p : Pair) (h : firstDiffering p.client.my p.recorded = none) :
    recStartClusterServerReply p.client (p.serverSlot + 1) p.server.my.nodeId
        p.server.my.configVersionNumber p.server.my.state p.server.my.pid p.server.my.view =
      (0, ⟨p.client.my, p.recorded.modify p.serverSlot (·.setStatus
        p.server.my.configVersionNumber p.server.my.state p.server.my.pid)⟩) := by
  have hwf := p.server_wf p.server.my mem_cons_self
  rw [← p.serverInfo_id]
  exact recReply_agree p.serverInfo_at (hwf.length.symm ▸ hwf.size_le) h

/-- The client accepts the view of the server. -/
def Pair.accepted (p : Pair) : St where
  client := ⟨true, ⟨p.client.my, p.recorded.modify p.serverSlot (·.setStatus
      p.server.my.configVersionNumber p.server.my.state p.server.my.pid)⟩,
    p.serverSlot + 1, .returned 0, []⟩
  server := ⟨false, p.noted.modifyInfo (p.clientSlot + 1) fun info =>
      { info with masterIndexView := p.server.my.masterIndexView },
    p.clientSlot + 1, .returned 0, []⟩

theorem told_accepted (p : Pair) (h : firstDiffering p.client.my p.recorded = none) :
    Run.Forced step p.told [.client, .server] ∧
      Run.exec step p.told [.client, .server] = some p.accepted := by
  have hclient : step p.told .client = some
      ⟨p.accepted.client, { p.told.server with inbox := [.startOk] }⟩ :=
    @step_client p.told _ [] _ _ rfl rfl (handle_reply (Or.inl rfl) (p.recorded_agree h))
  refine ⟨⟨?_, _, hclient, ?_, p.accepted, rfl, ?_⟩, ?_⟩
  · rintro (_ | _) hne
    · exact absurd rfl hne
    · rfl
  · rintro (_ | _) hne
    · rfl
    · exact absurd rfl hne
  · rintro (_ | _) <;> rfl
  · rw [Run.exec_cons, hclient]
    rfl

theorem Pair.recorded_differ (p : Pair) (h : firstDiffering p.client.my p.recorded = some info) :
    ∃ before after, p.recorded = before ++ info :: after ∧
      recStartClusterServerReply p.client (p.serverSlot + 1) p.server.my.nodeId
          p.server.my.configVersionNumber p.server.my.state p.server.my.pid p.server.my.view =
        ((verdict p.client.my info).1, ⟨(verdict p.client.my info).2.1,
          before ++ (verdict p.client.my info).2.2 :: after⟩) := by
  have hwf := p.server_wf p.server.my mem_cons_self
  rw [← p.serverInfo_id]
  exact recReply_differ p.serverInfo_at (hwf.length.symm ▸ hwf.size_le) h

/-- The client gives up, and the server with it. -/
def Pair.refused (p : Pair) (run : RunObj) : St where
  client := ⟨true, run, p.serverSlot + 1, .returned errorMasterIndexViewDiffers, []⟩
  server := ⟨false, p.noted, p.clientSlot + 1, .returned endOfFile, []⟩

theorem told_refused (p : Pair) {run : RunObj}
    (h : recStartClusterServerReply p.client (p.serverSlot + 1) p.server.my.nodeId
        p.server.my.configVersionNumber p.server.my.state p.server.my.pid p.server.my.view =
      (errorMasterIndexViewDiffers, run)) :
    Run.Forced step p.told [.client, .server] ∧
      Run.exec step p.told [.client, .server] = some (p.refused run) := by
  have hclient : step p.told .client = some ⟨(p.refused run).client, p.told.server⟩ :=
    @step_client p.told _ [] _ _ rfl rfl (handle_reply (Or.inl rfl) h)
  refine ⟨⟨?_, _, hclient, ?_, p.refused run, rfl, ?_⟩, ?_⟩
  · rintro (_ | _) hne
    · exact absurd rfl hne
    · rfl
  · rintro (_ | _) hne
    · rfl
    · exact absurd rfl hne
  · rintro (_ | _) <;> rfl
  · rw [Run.exec_cons, hclient]
    rfl

/-- The client sends a view back. -/
def Pair.corrected (p : Pair) (run : RunObj) : St where
  client := ⟨true, run, p.serverSlot + 1, .waitOk, []⟩
  server := ⟨false, p.noted, p.clientSlot + 1, .waitOkOrReply, [startClusterServerReply run.my]⟩

theorem told_corrected (p : Pair) {run : RunObj} {labels : List Label}
    (h : recStartClusterServerReply p.client (p.serverSlot + 1) p.server.my.nodeId
        p.server.my.configVersionNumber p.server.my.state p.server.my.pid p.server.my.view =
      (errorChangeView, run))
    (hforced : Run.Forced step (p.corrected run) labels) :
    Run.Forced step p.told (.client :: labels) ∧
      Run.exec step p.told (.client :: labels) = Run.exec step (p.corrected run) labels := by
  have hclient : step p.told .client = some (p.corrected run) :=
    @step_client p.told _ [] _ _ rfl rfl (handle_reply (Or.inl rfl) h)
  refine ⟨⟨?_, _, hclient, hforced⟩, ?_⟩
  · rintro (_ | _) hne
    · exact absurd rfl hne
    · rfl
  · rw [Run.exec_cons, hclient]
    rfl

/-- The server answers the corrected view with `code`. -/
def Pair.answered (p : Pair) (run : RunObj) (code : Nat) (run' : RunObj) : St where
  client := ⟨true, run, p.serverSlot + 1, .returned (if code = 0 then 0 else endOfFile), []⟩
  server := ⟨false, run', p.clientSlot + 1, .returned code, []⟩

theorem corrected_answered (p : Pair) {run run' : RunObj} {code : Nat}
    (h : recStartClusterServerReply p.noted (p.clientSlot + 1) run.my.nodeId
        run.my.configVersionNumber run.my.state run.my.pid run.my.view = (code, run')) :
    Run.Forced step (p.corrected run) [.server, .client] ∧
      Run.exec step (p.corrected run) [.server, .client] = some (p.answered run code run') := by
  have hhandle := @handle_reply false p.noted run' .waitOkOrReply run.my.view (p.clientSlot + 1)
    run.my.nodeId run.my.configVersionNumber run.my.state run.my.pid code [] (Or.inr rfl) h
  have hserver := @step_server (p.corrected run) _ [] _ _ rfl rfl hhandle
  by_cases hcode : code = 0
  · subst hcode
    refine ⟨⟨?_, _, hserver, ?_, p.answered run 0 run', rfl, ?_⟩, ?_⟩
    · rintro (_ | _) hne
      · rfl
      · exact absurd rfl hne
    · rintro (_ | _) hne
      · exact absurd rfl hne
      · rfl
    · rintro (_ | _) <;> rfl
    · rw [Run.exec_cons, hserver]
      rfl
  · -- only a client may go on after IC_ERROR_CHANGE_VIEW
    have hafter : afterReply false code run' = (.returned code, []) := by
      unfold afterReply
      rw [if_pos hcode, if_pos (Or.inr (by decide))]
    rw [hafter] at hserver
    have hfailed : Pc.failed (.returned code) = true := decide_eq_true hcode
    have hclient : step ⟨(p.corrected run).client, (p.answered run code run').server⟩ .client =
        some (p.answered run code run') := by
      show (if Pc.failed (.returned code) = true then some _ else none).map _ = _
      rw [if_pos hfailed]
      unfold Pair.answered
      rw [if_neg hcode]
      rfl
    refine ⟨⟨?_, _, hserver, ?_, _, hclient, ?_⟩, ?_⟩
    · rintro (_ | _) hne
      · rfl
      · exact absurd rfl hne
    · rintro (_ | _) hne
      · exact absurd rfl hne
      · rfl
    · rintro (_ | _) <;> rfl
    · rw [Run.exec_cons, hserver, Option.bind_some, Run.exec_cons]
      exact congrArg (Option.bind · _) hclient

/-! ## The end of the run -/

theorem differs_record (hmy : my.Wf) (info : InfoCs) (view : List Nat) :
    differs my (info.record view) = false ↔ view = my.view := by
  rw [← agrees_record hmy info view]
  show (true && !agrees my (info.record view)) = false ↔ _
  rw [Bool.true_and, Bool.not_eq_false']

/-- A table in which one entry has been replaced. -/
theorem firstDiffering_modify {slot : Nat} (hinfo : others[slot]? = some info)
    (f : InfoCs → InfoCs) :
    firstDiffering my (others.modify slot f) = none ↔
      differs my (f info) = false ∧ firstDiffering my (others.eraseIdx slot) = none := by
  rcases List.getElem?_eq_some_iff.mp hinfo with ⟨hlt, rfl⟩
  unfold firstDiffering
  rw [List.modify_eq_take_cons_drop hlt, List.eraseIdx_eq_take_drop_succ]
  simp only [List.find?_append, List.find?_eq_none, Option.or_eq_none_iff, List.mem_cons,
    forall_eq_or_imp, Bool.not_eq_true]
  tauto

theorem Pair.recorded_at (p : Pair) :
    p.recorded[p.serverSlot]? = some (p.serverInfo.record p.server.my.view) := by
  unfold Pair.recorded
  rw [getElem?_modify_eq, p.serverInfo_at]
  rfl

theorem Pair.noted_at (p : Pair) : p.noted.others[p.clientSlot]? = some (p.clientInfo.setStatus
    p.client.my.configVersionNumber p.client.my.state p.client.my.pid) := by
  show (p.server.others.modify p.clientSlot _)[p.clientSlot]? = _
  rw [getElem?_modify_eq, p.clientInfo_at]
  rfl

/-- The server accepts a view exactly if it is its own, and no third server is in the way. -/
theorem Pair.server_agrees (p : Pair) (view : List Nat) :
    firstDiffering p.server.my (p.noted.others.modify p.clientSlot (·.record view)) = none ↔
      view = p.server.my.view ∧
        firstDiffering p.server.my (p.server.others.eraseIdx p.clientSlot) = none := by
  show firstDiffering p.server.my
    ((p.server.others.modify p.clientSlot _).modify p.clientSlot _) = none ↔ _
  rw [modify_modify_eq, firstDiffering_modify p.clientInfo_at]
  show differs p.server.my (InfoCs.record _ view) = false ∧ _ ↔ _
  rw [differs_record (p.server_wf p.server.my mem_cons_self)]

/-- The views of the two parties are equal when the client has accepted. -/
theorem Pair.view_eq_of_accepted (p : Pair) (h : firstDiffering p.client.my p.recorded = none) :
    p.client.my.view = p.server.my.view := by
  unfold firstDiffering at h
  have hsame := find?_eq_none.mp h _ (mem_of_getElem? p.recorded_at)
  rw [Bool.not_eq_true, differs_record (p.client_wf p.client.my mem_cons_self)] at hsame
  exact hsame.symm

theorem accepted_outcome (p : Pair) (h : firstDiffering p.client.my p.recorded = none) :
    Outcome p p.accepted ↔ p.clientInfo.masterIndexSize = p.server.my.masterIndexSize := by
  have hview := p.view_eq_of_accepted h
  have hclient := p.client_wf p.client.my mem_cons_self
  have hserver := p.server_wf p.server.my mem_cons_self
  have hsize : p.client.my.masterIndexSize = p.server.my.masterIndexSize := by
    rw [← hclient.length, ← hserver.length, hview]
  have hserverInfo : p.accepted.client.run.others[p.serverSlot]? =
      some ((p.serverInfo.record p.server.my.view).setStatus
        p.server.my.configVersionNumber p.server.my.state p.server.my.pid) := by
    show (p.recorded.modify p.serverSlot _)[p.serverSlot]? = _
    rw [getElem?_modify_eq, p.recorded_at]
    rfl
  have hclientInfo : p.accepted.server.run.others[p.clientSlot]? =
      some { p.clientInfo.setStatus p.client.my.configVersionNumber p.client.my.state
          p.client.my.pid with masterIndexView := p.server.my.masterIndexView } := by
    show (p.noted.others.modify p.clientSlot _)[p.clientSlot]? = _
    rw [getElem?_modify_eq, p.noted_at]
    rfl
  constructor
  · rintro ⟨hok, -⟩
    rcases (hok (Or.inl hview)).2.2 with ⟨size, view, hall⟩
    have h₁ := hall _ (Or.inr (Or.inr (Or.inr hclientInfo)))
    have h₂ := hall _ (Or.inr (Or.inl rfl))
    exact h₁.1.trans h₂.1.symm
  · intro hknown
    refine ⟨fun _ => ⟨rfl, rfl, p.server.my.masterIndexSize, p.server.my.view, ?_⟩, fun hno =>
      absurd (Or.inl hview) hno⟩
    rintro info (rfl | rfl | hinfo | hinfo)
    · exact ⟨hsize, hview⟩
    · exact ⟨rfl, rfl⟩
    · rw [hserverInfo] at hinfo
      cases hinfo
      exact ⟨hserver.length, view_record _ _⟩
    · rw [hclientInfo] at hinfo
      cases hinfo
      refine ⟨hknown, ?_⟩
      show p.server.my.masterIndexView.take p.clientInfo.masterIndexSize = _
      rw [hknown]
      rfl

theorem refused_outcome (p : Pair) (run : RunObj) : Outcome p (p.refused run) ↔ ¬ Reconcilable p := by
  constructor
  · rintro ⟨hok, -⟩ hrec
    exact absurd (hok hrec).1 (by show Pc.returned _ ≠ _; decide)
  · intro hno
    refine ⟨fun hrec => absurd hrec hno, fun _ => ⟨?_, ?_⟩⟩
    · show Pc.returned errorMasterIndexViewDiffers ≠ .returned 0
      decide
    · show Pc.returned endOfFile ≠ .returned 0
      decide

theorem verdict_wf (hmy : my.Wf) (hinfo : info.Wf) : (verdict my info).2.1.Wf := by
  have hchange : my.masterIndexSize = info.masterIndexSize → (changeView my info).Wf := by
    intro hsize
    refine ⟨hmy.size_le, ?_⟩
    show (overwrite my.masterIndexView 0 info.view).length = _
    rw [length_overwrite, hmy.length_view]
    rw [hinfo.length, hmy.length_view, Nat.zero_add]
    exact hinfo.size_le
  unfold verdict
  split_ifs with hsize htake hkeep
  · exact hmy
  · exact hchange (not_not.mp hsize)
  · exact hmy
  · exact hmy

/-- An entry of a table in which one has been replaced. -/
theorem getElem?_replaced {before after : List InfoCs} {x y e : InfoCs} {i : Nat}
    (h : (before ++ y :: after)[i]? = some e) : e = y ∨ (before ++ x :: after)[i]? = some e := by
  rcases Nat.lt_trichotomy i before.length with hlt | rfl | hgt
  · right
    rw [getElem?_append_left hlt] at h ⊢
    exact h
  · left
    rw [getElem?_append_right (Nat.le_refl _), Nat.sub_self] at h
    cases h
    rfl
  · right
    rw [getElem?_append_right (Nat.le_of_lt hgt)] at h ⊢
    have hpos : i - before.length = i - before.length - 1 + 1 := by omega
    rw [hpos, getElem?_cons_succ] at h ⊢
    exact h

theorem Pair.recorded_wf (p : Pair) : ∀ e ∈ p.recorded, e.Wf := by
  intro e he
  have hserver := p.server_wf p.server.my mem_cons_self
  rcases getElem?_of_mem he with ⟨i, hi⟩
  unfold Pair.recorded at hi
  rw [getElem?_modify] at hi
  rcases Option.map_eq_some_iff.mp hi with ⟨e', he', rfl⟩
  have hwf := p.client_wf e' (mem_cons_of_mem _ (mem_of_getElem? he'))
  split
  · refine ⟨Nat.le_trans (Nat.le_of_eq hserver.length) hserver.size_le, ?_⟩
    show (overwrite e'.masterIndexView 0 p.server.my.view).length = _
    rw [length_overwrite, hwf.length_view]
    rw [hserver.length, hwf.length_view, Nat.zero_add]
    exact hserver.size_le
  · exact hwf

/-- When the server accepts the corrected view, everybody holds it. -/
theorem answered_agreed (p : Pair) {run run' : RunObj} {before after : List InfoCs}
    (hsplit : p.recorded = before ++ info :: after)
    (hchange : (verdict p.client.my info).1 = errorChangeView)
    (hmy : run.my = (verdict p.client.my info).2.1)
    (hothers : run.others = before ++ (verdict p.client.my info).2.2 :: after)
    (hview : run.my.view = p.server.my.view) (hserver : run'.my = p.server.my)
    (hclientInfo : ∃ e, run'.others[p.clientSlot]? = some e ∧
      e.masterIndexSize = run.my.view.length ∧ e.view = run.my.view) :
    Agreed p (p.answered run 0 run') := by
  have hclient := p.client_wf p.client.my mem_cons_self
  have hinfo : info.Wf := p.recorded_wf info (hsplit ▸ mem_append_right _ mem_cons_self)
  have hserverWf := p.server_wf p.server.my mem_cons_self
  have hwf := verdict_wf hclient hinfo
  rw [← hmy] at hwf
  have hlen : run.my.view.length = p.server.my.masterIndexSize := by
    rw [hview, hserverWf.length]
  rcases verdict_changed hclient hinfo hchange p.server.my.view with ⟨-, hsame, hsize, hsize'⟩
  rw [← hmy] at hsame hsize
  have hsizes : run.my.masterIndexSize = p.server.my.masterIndexSize := hwf.length.symm.trans hlen
  refine ⟨p.server.my.masterIndexSize, p.server.my.view, ?_⟩
  rintro e (rfl | rfl | he | he)
  · exact ⟨hsizes, hview⟩
  · show run'.my.masterIndexSize = _ ∧ run'.my.view = _
    rw [hserver]
    exact ⟨rfl, rfl⟩
  · have he' : (before ++ (verdict p.client.my info).2.2 :: after)[p.serverSlot]? = some e :=
      hothers ▸ he
    rcases getElem?_replaced (x := info) he' with rfl | hold
    · exact ⟨hsize'.trans (hsize.symm.trans hsizes), hsame.trans hview⟩
    · rw [← hsplit, p.recorded_at] at hold
      cases hold
      exact ⟨hserverWf.length, view_record _ _⟩
  · rcases hclientInfo with ⟨e', he', hsz, hv⟩
    have : e = e' := Option.some.inj ((show run'.others[p.clientSlot]? = some e from he).symm.trans he')
    subst this
    exact ⟨hsz.trans hlen, hv.trans hview⟩

/-- The run after the client has sent a view back. -/
theorem corrected_run (p : Pair) {run : RunObj} {before after : List InfoCs}
    (hsplit : p.recorded = before ++ info :: after)
    (hchange : (verdict p.client.my info).1 = errorChangeView)
    (hmy : run.my = (verdict p.client.my info).2.1)
    (hothers : run.others = before ++ (verdict p.client.my info).2.2 :: after) :
    ∃ q, Run.Forced step (p.corrected run) [.server, .client] ∧
      Run.exec step (p.corrected run) [.server, .client] = some q ∧ Done q ∧
      (Outcome p q ↔ (Reconcilable p ↔ Resolves p.client.my info p.server.my.view ∧
        firstDiffering p.server.my (p.server.others.eraseIdx p.clientSlot) = none)) := by
  have hclient := p.client_wf p.client.my mem_cons_self
  have hinfo : info.Wf := p.recorded_wf info (hsplit ▸ mem_append_right _ mem_cons_self)
  have hlen : run.my.view.length ≤ maxClusterServers := by
    have hwf := verdict_wf hclient hinfo
    rw [← hmy] at hwf
    rw [hwf.length]
    exact hwf.size_le
  have hid : run.my.nodeId = p.client.my.nodeId := by
    rw [hmy]
    unfold verdict
    split_ifs <;> rfl
  rcases verdict_changed hclient hinfo hchange p.server.my.view with ⟨hresolves, -⟩
  rw [← hmy] at hresolves
  have hat := p.noted_at
  have hnode : (p.clientInfo.setStatus p.client.my.configVersionNumber p.client.my.state
      p.client.my.pid).nodeId = run.my.nodeId := p.clientInfo_id.trans hid.symm
  cases hfirst : firstDiffering p.server.my (p.noted.others.modify p.clientSlot
      (·.record run.my.view)) with
  | none =>
    have hboth := (p.server_agrees run.my.view).mp hfirst
    have hrec := @recReply_agree _ p.noted p.clientSlot run.my.configVersionNumber run.my.state
      run.my.pid run.my.view hat hlen hfirst
    rw [hnode] at hrec
    rcases corrected_answered p hrec with ⟨hforced, hexec⟩
    refine ⟨_, hforced, hexec, ⟨rfl, rfl⟩, ?_⟩
    have hagreed : Agreed p (p.answered run 0 ⟨p.noted.my,
        (p.noted.others.modify p.clientSlot (·.record run.my.view)).modify p.clientSlot
          (·.setStatus run.my.configVersionNumber run.my.state run.my.pid)⟩) := by
      refine answered_agreed p hsplit hchange hmy hothers hboth.1 rfl
        ⟨((p.clientInfo.setStatus p.client.my.configVersionNumber p.client.my.state
            p.client.my.pid).record run.my.view).setStatus run.my.configVersionNumber
            run.my.state run.my.pid, ?_, rfl, view_record _ _⟩
      rw [getElem?_modify_eq, getElem?_modify_eq, hat]
      rfl
    constructor
    · rintro ⟨-, hno⟩
      refine ⟨fun _ => ⟨hresolves.mp hboth.1, hboth.2⟩, fun _ => ?_⟩
      by_contra hrec
      exact (hno hrec).1 rfl
    · intro hiff
      refine ⟨fun _ => ⟨rfl, rfl, hagreed⟩, fun hno => ?_⟩
      exact absurd (hiff.mpr ⟨hresolves.mp hboth.1, hboth.2⟩) hno
  | some other =>
    rcases @recReply_differ _ p.noted p.clientSlot run.my.configVersionNumber run.my.state
      run.my.pid run.my.view _ hat hlen hfirst with ⟨before', after', -, hrec⟩
    rw [hnode] at hrec
    rcases corrected_answered p hrec with ⟨hforced, hexec⟩
    have hcode : (verdict p.noted.my other).1 ≠ 0 := by
      rcases @verdict_cases p.noted.my other with h | h
      · rw [h]
        decide
      · rw [h]
        decide
    have hfail : ¬ (Resolves p.client.my info p.server.my.view ∧
        firstDiffering p.server.my (p.server.others.eraseIdx p.clientSlot) = none) := by
      rintro ⟨hres, hrest⟩
      have := (p.server_agrees run.my.view).mpr ⟨hresolves.mpr hres, hrest⟩
      rw [hfirst] at this
      cases this
    refine ⟨_, hforced, hexec, ⟨rfl, rfl⟩, ?_⟩
    constructor
    · rintro ⟨hok, -⟩
      refine ⟨fun hrec => ?_, fun h => absurd h hfail⟩
      exact absurd (Pc.returned.inj (hok hrec).2.1) hcode
    · intro hiff
      refine ⟨fun hrec => absurd (hiff.mp hrec) hfail, fun _ => ⟨?_, ?_⟩⟩
      · show Pc.returned (if _ = 0 then 0 else endOfFile) ≠ _
        rw [if_neg hcode]
        decide
      · exact fun h => hcode (Pc.returned.inj h)

/-- The one run there is, and what it comes to. -/
theorem pair_run (p : Pair) :
    ∃ labels q, Run.Forced step p.start labels ∧ Run.exec step p.start labels = some q ∧ Done q ∧
      (Outcome p q ↔ Meets p) := by
  have hstart : ∀ labels, Run.exec step p.start (.client :: .client :: .server :: labels) =
      Run.exec step p.told labels := by
    intro labels
    have hserver : step p.asked .server = some p.told :=
      @step_server p.asked _ [] _ _ rfl rfl (handle_startReq p.found)
    show Run.exec step p.asked (.server :: labels) = _
    rw [Run.exec_cons, hserver, Option.bind_some]
  unfold Meets
  cases hfirst : firstDiffering p.client.my p.recorded with
  | none =>
    rcases told_accepted p hfirst with ⟨hforced, hexec⟩
    exact ⟨_, p.accepted, start_told p hforced, (hstart _).trans hexec, ⟨rfl, rfl⟩,
      accepted_outcome p hfirst⟩
  | some info =>
    rcases p.recorded_differ hfirst with ⟨before, after, hsplit, hrec⟩
    rcases @verdict_cases p.client.my info with hcode | hcode
    · rw [hcode] at hrec
      rcases @corrected_run _ p ⟨_, _⟩ _ _ hsplit hcode rfl rfl with
        ⟨q, hforced, hexec, hdone, hiff⟩
      rcases told_corrected p hrec hforced with ⟨hforced', hexec'⟩
      exact ⟨_, q, start_told p hforced', (hstart _).trans (hexec'.trans hexec), hdone, hiff⟩
    · rw [hcode] at hrec
      rcases told_refused p hrec with ⟨hforced, hexec⟩
      refine ⟨_, _, start_told p hforced, (hstart _).trans hexec, ⟨rfl, rfl⟩, ?_⟩
      have hno : ¬ Resolves p.client.my info p.server.my.view := by
        rintro ⟨hsize, ⟨hstarting, hest, -⟩ | ⟨hest, hstarting, -⟩⟩
        · have := verdict_change_iff.mpr ⟨hsize, Or.inl ⟨hstarting, hest⟩⟩
          rw [hcode] at this
          exact absurd this (by decide)
        · have := verdict_change_iff.mpr ⟨hsize, Or.inr ⟨hest, hstarting⟩⟩
          rw [hcode] at this
          exact absurd this (by decide)
      rw [refused_outcome]
      constructor
      · intro hnot
        exact ⟨fun h => absurd h hnot, fun h => absurd h.1 hno⟩
      · exact fun hiff hrec => hno (hiff.mp hrec).1

/-- For every pair of Cluster Servers and every order of their steps. -/
theorem start_agreement_iff (p : Pair) : StartsOk p ↔ Meets p := by
  rcases pair_run p with ⟨labels, q, hforced, hexec, hdone, hiff⟩
  rw [← hiff]
  constructor
  · exact fun h => (h labels q hexec).2 hdone
  · intro hout labels' s hrun
    rcases Run.forced_run step hforced hexec hrun with ⟨⟨rest, hrest⟩, hstop⟩
    refine ⟨⟨rest, q, hrest, hdone⟩, fun hs => ?_⟩
    have hend : s = q := by
      apply hstop
      rintro (_ | _)
      · unfold step partyStep
        dsimp only
        rw [if_pos hs.1]
        rfl
      · unfold step partyStep
        dsimp only
        rw [if_pos hs.2]
        rfl
    exact hend ▸ hout

/-- A server that has not heard of a view of the other one yet. -/
def unknownInfo (nodeId : Nat) : InfoCs := ⟨nodeId, false, 0, 0, 0, 0, [0, 0, 0, 0]⟩

/-- Node 2, with the given view, connects to node 1, which has the view 1, 2. -/
def twoServers (view : List Nat) (h : view.length = 2) : Pair where
  client := ⟨⟨2, true, 12, 1, 5, 2, view ++ [0, 0]⟩, [unknownInfo 1]⟩
  server := ⟨⟨1, true, 11, 1, 5, 2, [1, 2, 0, 0]⟩, [unknownInfo 2]⟩
  serverSlot := 0
  serverInfo := unknownInfo 1
  serverInfo_at := rfl
  serverInfo_id := rfl
  clientSlot := 0
  clientInfo := unknownInfo 2
  clientInfo_at := rfl
  clientInfo_id := rfl
  found := rfl
  client_wf := by
    intro info hinfo
    rcases List.mem_cons.mp hinfo with rfl | hinfo
    · refine ⟨?_, ?_⟩
      · show 2 ≤ 4
        decide
      · rw [List.length_append, h]
        rfl
    · rw [List.mem_singleton.mp hinfo]
      decide
  server_wf := by decide

/-- Node 2 is the established master: the server takes over its view and returns
IC_ERROR_CHANGE_VIEW. With equal views both return 0, but node 1 holds the size 0 for
node 2. -/
theorem established_client_and_unknown_size :
    (Reconcilable (twoServers [2, 1] rfl) ∧
      ∃ s, Run.exec step (twoServers [2, 1] rfl).start
          [.client, .client, .server, .client, .server, .client] = some s ∧
        s.client.pc = .returned endOfFile ∧ s.server.pc = .returned errorChangeView ∧
        ¬ StartsOk (twoServers [2, 1] rfl)) ∧
      (Reconcilable (twoServers [1, 2] rfl) ∧
        ∃ s, Run.exec step (twoServers [1, 2] rfl).start
            [.client, .client, .server, .client, .server] = some s ∧
          s.server.pc = .returned 0 ∧ s.server.run.my.masterIndexSize = 2 ∧
          (s.server.run.others.map (·.masterIndexSize)) = [0] ∧
          ¬ StartsOk (twoServers [1, 2] rfl)) := by
  have hfirst : Reconcilable (twoServers [2, 1] rfl) := Or.inr ⟨rfl, Or.inr ⟨⟨rfl, rfl⟩, rfl⟩⟩
  have hsecond : Reconcilable (twoServers [1, 2] rfl) := Or.inl rfl
  refine ⟨⟨hfirst, _, rfl, rfl, rfl, fun h => ?_⟩, hsecond, _, rfl, rfl, rfl, rfl, fun h => ?_⟩
  · have hout := (h [.client, .client, .server, .client, .server, .client] _ rfl).2 ⟨rfl, rfl⟩
    exact absurd (hout.1 hfirst).1 (by decide)
  · have hout := (h [.client, .client, .server, .client, .server] _ rfl).2 ⟨rfl, rfl⟩
    rcases (hout.1 hsecond).2.2 with ⟨size, view, hall⟩
    have hmy := (hall _ (Or.inr (Or.inl rfl))).1
    have hother := (hall _ (Or.inr (Or.inr (Or.inr rfl)))).1
    rw [← hmy] at hother
    exact absurd hother (by decide)

end IClaustron.ClusterServer.Agreement
