import IClaustron.Config.ReaderEvents

/-!
# Config.LineEnds — configuration files with Windows line ends

With a carriage return and a line feed at the end of each line, byte 13 stands in front of byte 10.
The reader skips byte 13 at the start of a line, where it does not stand: it becomes the last byte
of its line.

* `crlf_item` — what a line with byte 13 behind it is read as.
* `line_ends_iff` — the events stay the same exactly if only empty lines and comments end so.
* `section_rejected` — a file with one section is accepted, and not with Windows line ends.
-/

namespace IClaustron.Config.Loop

open Lib Protocol List Option

/-! ## Line ends -/

/-- The text with byte 13 in front of each byte 10. -/
def crlf (text : Bytes) : Bytes :=
  text.flatMap fun c => if c = carriageReturn then [lineFeed, carriageReturn] else [c]

/-- What becomes of a line. -/
def crlfLine (l : Bytes × Option UInt8) : Bytes × Option UInt8 :=
  if l.2 = some carriageReturn then (l.1 ++ [lineFeed], l.2) else l

/-- What becomes of a line behind the line feeds in front of it. -/
def crlfStart (l : Bytes × UInt8) : Bytes × UInt8 :=
  if l.2 = carriageReturn ∧ l.1 ≠ [] then (l.1 ++ [lineFeed], l.2) else l

theorem textLines_crlf (text : Bytes) : textLines (crlf text) = (textLines text).map crlfLine := by
  induction text with
  | nil => rfl
  | cons c text ih =>
    have hCons : crlf (c :: text) =
        (if c = carriageReturn then [lineFeed, carriageReturn] else [c]) ++ crlf text := rfl
    rw [hCons, textLines]
    by_cases hCr : c = carriageReturn
    · subst hCr
      have hLine := @textLines_line [lineFeed] (crlf text) carriageReturn
        (forall_iff_forall_mem.mp (by decide)) (.inl rfl)
      rw [if_pos rfl, if_pos (.inl rfl), map_cons, ← ih]
      exact hLine
    rw [if_neg hCr, singleton_append, textLines]
    by_cases hZero : c = 0
    · rw [if_pos (.inr hZero), if_pos (.inr hZero), map_cons, ← ih, hZero]
      rfl
    rw [if_neg (not_or.mpr ⟨hCr, hZero⟩), if_neg (not_or.mpr ⟨hCr, hZero⟩), ih]
    cases textLines text with
    | nil => rfl
    | cons first lines =>
      obtain ⟨line, term⟩ := first
      have hFirst : crlfLine (c :: line, term) =
          (c :: (crlfLine (line, term)).1, (crlfLine (line, term)).2) := by
        unfold crlfLine
        by_cases hTerm : term = some carriageReturn
        · rw [if_pos hTerm, if_pos hTerm]
          rfl
        · rw [if_neg hTerm, if_neg hTerm]
      show _ = crlfLine (c :: line, term) :: lines.map crlfLine
      rw [hFirst]
      rfl

theorem startOfLine_crlf (l : Bytes × Option UInt8) :
    startOfLine (crlfLine l) = (startOfLine l).map crlfStart := by
  obtain ⟨line, term⟩ := l
  cases term with
  | none =>
    have hLine : crlfLine (line, none) = (line, none) := if_neg nofun
    rw [hLine]
    unfold startOfLine
    dsimp only
    by_cases hEmpty : line.dropWhile (· = lineFeed) = []
    · rw [if_pos hEmpty]
      rfl
    · rw [if_neg hEmpty]
      rfl
  | some term =>
    by_cases hTerm : term = carriageReturn
    · subst hTerm
      have hLine : crlfLine (line, some carriageReturn) = (line ++ [lineFeed], some carriageReturn) :=
        if_pos rfl
      have hDrop : (line ++ [lineFeed]).dropWhile (· = lineFeed) =
          if line.dropWhile (· = lineFeed) = [] then []
          else line.dropWhile (· = lineFeed) ++ [lineFeed] := by
        rw [List.dropWhile_append]
        simp only [List.isEmpty_iff]
        rfl
      rw [hLine]
      unfold startOfLine crlfStart
      dsimp only [map_some]
      rw [hDrop]
      by_cases hEmpty : line.dropWhile (· = lineFeed) = []
      · rw [if_pos hEmpty, if_neg fun h => h.2 hEmpty, hEmpty]
      · rw [if_neg hEmpty, if_pos ⟨rfl, hEmpty⟩]
    · have hLine : crlfLine (line, some term) = (line, some term) :=
        if_neg fun h => hTerm (Option.some.inj h)
      rw [hLine]
      unfold startOfLine crlfStart
      dsimp only [map_some]
      rw [if_neg fun h => hTerm h.1]

/-- The lines of the text with Windows line ends. -/
theorem linesOf_crlf (text : Bytes) : linesOf (crlf text) = (linesOf text).map crlfStart := by
  unfold linesOf
  rw [textLines_crlf, filterMap_map, map_filterMap]
  exact filterMap_congr fun l _ => startOfLine_crlf l

/-! ## Lines with byte 13 behind them -/

theorem IsLine.unique {line : Bytes} {item item' : Item} (h : IsLine line item)
    (h' : IsLine line item') : item = item' := by
  obtain ⟨left, hRead⟩ := isLine_iff.mp h
  obtain ⟨left', hRead'⟩ := isLine_iff.mp h'
  exact (Prod.mk.inj (Except.ok.inj (hRead.symm.trans hRead'))).1

/-- A comment stays one, and a value gets another byte; a section has no bracket at its end. -/
theorem crlf_item {line : Bytes} {item : Item} (hne : line ≠ []) (h : IsLine line item) :
    (item = .comment ∧ IsLine (line ++ [lineFeed]) .comment) ∨
    ((∃ name, item = .section name) ∧ ∀ item', ¬ IsLine (line ++ [lineFeed]) item') ∨
    ∃ name data, item = .key name data ∧
      IsLine (line ++ [lineFeed]) (.key name (data ++ [lineFeed])) := by
  cases h with
  | empty => exact absurd rfl hne
  | comment text => exact .inl ⟨rfl, .comment (text ++ [lineFeed])⟩
  | «section» name hName =>
    refine .inr (.inl ⟨⟨_, rfl⟩, fun item' hItem => ?_⟩)
    obtain ⟨line', hRead⟩ := isLine_iff.mp hItem
    have hLast : (91 :: (name ++ [93]) ++ [lineFeed]).getLast? = some lineFeed :=
      getLast?_concat
    unfold readConfigLine at hRead
    rw [if_neg (by simp), if_neg (by simp), if_pos (by simp), hLast, if_pos (by decide)] at hRead
    cases hRead
  | key space key before assign behind value hSpace hKey hBefore hAssign hBehind hValue =>
    refine .inr (.inr ⟨_, _, rfl, ?_⟩)
    have hValue' : IsValue (value ++ [lineFeed]) := by
      refine ⟨append_ne_nil_of_left_ne_nil hValue.nonempty _, ?_, ?_⟩
      · rw [forall_mem_append]
        refine ⟨hValue.chars, fun c hc => ?_⟩
        rw [mem_singleton.mp hc]
        decide
      · obtain ⟨d, value, rfl⟩ := exists_cons_of_ne_nil hValue.nonempty
        exact hValue.head
    have hLine := IsLine.key space key before assign behind (value ++ [lineFeed]) hSpace hKey hBefore
      hAssign hBehind hValue'
    simpa only [append_assoc, cons_append] using hLine

/-! ## Accepted texts -/

/-- A section or a key as an operation sees it, without its numbers. -/
def Call.event : Call → Option (Pass × Item)
  | .addSection _ _ name pass => some (pass, .section name)
  | .addKey _ _ name data pass => some (pass, .key name data)
  | _ => none

/-- A call without the text of a comment. -/
def Call.quiet : Call → Call
  | .addComment lineNumber sectionNumber _ pass => .addComment lineNumber sectionNumber [] pass
  | call => call

/-- Operations that do not look at the texts of comments. -/
def IgnoresComments (ops : Operations) : Prop :=
  ∀ log log' call call', log.map Call.quiet = log'.map Call.quiet → call.quiet = call'.quiet →
    ops log call = ops log' call'

/-- The text is accepted, and these are the calls. -/
def Accepts (ops : Operations) (text : Bytes) (log : List Call) : Prop :=
  icBuildConfigData ops text [] = .ok () log

/-- With Windows line ends the text is accepted too, with the same sections and keys. -/
def SameEvents (ops : Operations) (text : Bytes) : Prop :=
  ∀ log, Accepts ops text log → ∃ log', Accepts ops (crlf text) log' ∧
    log'.filterMap Call.event = log.filterMap Call.event

/-- The event of a line. -/
def itemEvent (pass : Pass) : Item → Option (Pass × Item)
  | .section name => some (pass, .section name)
  | .key name data => some (pass, .key name data)
  | _ => none

variable {log log' : List Call} {text : Bytes}

section Accepted

variable {ops : Operations} {pass : Pass} {lines : List (Bytes × UInt8)}

theorem deliver_eq_ok {n : Nat} {call : Call} :
    deliver ops n call log = .ok () log' ↔ ops log call = 0 ∧ log' = log ++ [call] := by
  unfold deliver
  split
  next h =>
    constructor
    · rintro ⟨⟩
      exact ⟨h, rfl⟩
    · rintro ⟨-, rfl⟩
      rfl
  next h =>
    constructor
    · rintro ⟨⟩
    · rintro ⟨hOk, -⟩
      exact absurd hOk h

/-- A run that returns has read every line, and made the calls for them. -/
theorem runLines_calls : ∀ {n sectionNum m : Nat} {log log' : List Call},
    runLines ops pass lines n sectionNum log = .ok m log' →
      (∀ l ∈ lines, l.1.length + 1 < maxConfigLineLen) ∧
      ∃ items, List.Forall₂ (fun l item => IsLine l.1 item) lines items ∧
        log' = log ++ eventsFrom pass n sectionNum (lines.zip items) := by
  induction lines with
  | nil =>
    intro n sectionNum m log log' h
    refine ⟨fun _ hl => (nomatch hl), [], .nil, ?_⟩
    rw [(Attempt.pure_eq_ok.mp h).2, zip_nil_left, eventsFrom, append_nil]
  | cons l lines ih =>
    intro n sectionNum m log log' h
    obtain ⟨line, term⟩ := l
    rw [runLines] at h
    split at h
    next hFit =>
      cases hRead : readConfigLine line with
      | error code =>
        rw [hRead] at h
        cases h
      | ok read =>
        obtain ⟨item, line'⟩ := read
        rw [hRead] at h
        obtain ⟨⟨⟩, log₁, hCall, hRest⟩ := Attempt.bind_eq_ok.mp h
        obtain ⟨hShort, items, hItems, hLog⟩ := ih hRest
        have hLog₁ : log₁ = log ++ (itemCall pass n sectionNum line term item).toList := by
          cases hItem : itemCall pass n sectionNum line term item with
          | none =>
            rw [hItem] at hCall
            rw [(Attempt.pure_eq_ok.mp hCall).2, toList_none, append_nil]
          | some call =>
            rw [hItem] at hCall
            exact (deliver_eq_ok.mp hCall).2
        refine ⟨forall_mem_cons.mpr ⟨hFit, hShort⟩, item :: items,
          .cons (isLine_iff.mpr ⟨line', hRead⟩) hItems, ?_⟩
        rw [hLog, hLog₁, zip_cons_cons, eventsFrom, append_assoc]
    next => cases h

theorem event_itemCall (n sectionNum : Nat) (line : Bytes) (term : UInt8) (item : Item) :
    (itemCall pass n sectionNum line term item).toList.filterMap Call.event =
      (itemEvent pass item).toList := by
  cases item <;> rfl

theorem events_eventsFrom {items : List Item} (hLen : lines.length = items.length) :
    ∀ n sectionNum, (eventsFrom pass n sectionNum (lines.zip items)).filterMap Call.event =
      items.filterMap (itemEvent pass) := by
  induction lines generalizing items with
  | nil =>
    intro n sectionNum
    rw [length_nil, eq_comm, length_eq_zero_iff] at hLen
    rw [hLen]
    rfl
  | cons l lines ih =>
    intro n sectionNum
    cases items with
    | nil => cases hLen
    | cons item items =>
      have hNext := ih (Nat.succ.inj hLen) (n + 1) (nextSection sectionNum item)
      rw [zip_cons_cons, eventsFrom, filterMap_append, event_itemCall, hNext]
      cases hEvent : itemEvent pass item with
      | none =>
        rw [filterMap_cons_none hEvent]
        rfl
      | some event =>
        rw [filterMap_cons_some hEvent]
        rfl

/-- What an accepted text is, and its events. -/
theorem accepts_items (hne : text ≠ []) (h : Accepts ops text log) :
    (∀ l ∈ linesOf text, l.1.length + 1 < maxConfigLineLen) ∧
    ∃ items, List.Forall₂ (fun l item => IsLine l.1 item) (linesOf text) items ∧
      log.filterMap Call.event =
        items.filterMap (itemEvent .initial) ++ items.filterMap (itemEvent .build) := by
  unfold Accepts at h
  rw [icBuildConfigData_eq ops hne] at h
  unfold runTwice at h
  rw [Attempt.onError_eq_ok] at h
  obtain ⟨n, log₁, hFirst, h⟩ := Attempt.bind_eq_ok.mp h
  obtain ⟨m, log₂, hSecond, hVerify⟩ := Attempt.bind_eq_ok.mp h
  obtain ⟨⟨⟩, log₃, hInit, hFirst⟩ := Attempt.bind_eq_ok.mp hFirst
  obtain ⟨⟨⟩, log₄, hInit', hSecond⟩ := Attempt.bind_eq_ok.mp hSecond
  obtain ⟨hShort, items, hItems, hLog₁⟩ := runLines_calls hFirst
  obtain ⟨-, items', hItems', hLog₂⟩ := runLines_calls hSecond
  -- both readings see the same items
  have hSame : items' = items :=
    Relator.RightUnique.forall₂ (fun _ _ _ h h' => h.unique h') hItems' hItems
  refine ⟨hShort, items, hItems, ?_⟩
  rw [(deliver_eq_ok.mp hVerify).2, hLog₂, (deliver_eq_ok.mp hInit').2, hLog₁,
    (deliver_eq_ok.mp hInit).2, hSame]
  simp only [filterMap_append, events_eventsFrom hItems.length_eq]
  show ([] ++ (([] ++ items.filterMap (itemEvent .initial)) ++ [] ++
    items.filterMap (itemEvent .build)) ++ [] : List (Pass × Item)) = _
  simp only [nil_append, append_nil]

theorem ne_nil_of_accepts (h : Accepts ops text log) : text ≠ [] := by
  rintro rfl
  cases h

/-! ## Which texts stay the same -/

/-- A line with a newline at its end is empty or a comment that has room for another byte. -/
def OnlyComments (text : Bytes) : Prop :=
  ∀ l ∈ linesOf text, l.2 = carriageReturn →
    l.1 = [] ∨ l.1.head? = some 35 ∧ l.1.length + 2 < maxConfigLineLen

theorem crlfStart_eq {l : Bytes × UInt8} (h : l.2 = carriageReturn ∧ l.1 ≠ []) :
    crlfStart l = (l.1 ++ [lineFeed], l.2) := if_pos h

theorem crlfStart_same {l : Bytes × UInt8} (h : ¬ (l.2 = carriageReturn ∧ l.1 ≠ [])) :
    crlfStart l = l := if_neg h

theorem crlf_ne_nil (h : text ≠ []) : crlf text ≠ [] := by
  obtain ⟨c, text, rfl⟩ := exists_cons_of_ne_nil h
  show (if c = carriageReturn then [lineFeed, carriageReturn] else [c]) ++ crlf text ≠ []
  split <;> exact append_ne_nil_of_left_ne_nil (cons_ne_nil _ _) _

theorem length_itemEvent (pass pass' : Pass) (items : List Item) :
    (items.filterMap (itemEvent pass)).length = (items.filterMap (itemEvent pass')).length := by
  induction items with
  | nil => rfl
  | cons item items ih =>
    cases item with
    | empty => exact ih
    | comment => exact ih
    | «section» name => exact congrArg (· + 1) ih
    | key name data => exact congrArg (· + 1) ih

/-- When the items have the same events, every line with a newline is empty or a comment. -/
theorem comments_of_same {items items' : List Item}
    (h : List.Forall₂ (fun l item => IsLine l.1 item) lines items)
    (h' : List.Forall₂ (fun l item => IsLine (crlfStart l).1 item) lines items')
    (hEvents : items'.filterMap (itemEvent pass) = items.filterMap (itemEvent pass)) :
    ∀ l ∈ lines, l.2 = carriageReturn → l.1 = [] ∨ l.1.head? = some 35 := by
  induction lines generalizing items items' with
  | nil => exact fun _ hl => (nomatch hl)
  | cons l lines ih =>
    obtain ⟨item, items, hItem, hItems, rfl⟩ := forall₂_cons_left_iff.mp h
    obtain ⟨item', items', hItem', hItems', rfl⟩ := forall₂_cons_left_iff.mp h'
    rw [forall_mem_cons]
    by_cases hl : l.2 = carriageReturn ∧ l.1 ≠ []
    · rw [crlfStart_eq hl] at hItem'
      rcases crlf_item hl.2 hItem with ⟨rfl, hComment⟩ | ⟨-, hNone⟩ | ⟨name, data, rfl, hKey⟩
      · obtain rfl := hItem'.unique hComment
        refine ⟨fun _ => .inr ?_, ih hItems hItems' hEvents⟩
        generalize l.1 = line at hItem
        cases hItem
        rfl
      · exact absurd hItem' (hNone item')
      · -- the value has grown
        obtain rfl := hItem'.unique hKey
        have hHead := (List.cons.inj hEvents).1
        have hData : data ++ [lineFeed] = data := (Item.key.inj (Prod.mk.inj hHead).2).2
        exact absurd hData (by simp)
    · rw [crlfStart_same hl] at hItem'
      obtain rfl := hItem'.unique hItem
      have hTail : items'.filterMap (itemEvent pass) = items.filterMap (itemEvent pass) := by
        cases hEvent : itemEvent pass item' with
        | none => rwa [filterMap_cons_none hEvent, filterMap_cons_none hEvent] at hEvents
        | some event =>
          rw [filterMap_cons_some hEvent, filterMap_cons_some hEvent] at hEvents
          exact (List.cons.inj hEvents).2
      refine ⟨fun hTerm => .inl ?_, ih hItems hItems' hTail⟩
      by_contra hne
      exact hl ⟨hTerm, hne⟩

theorem onlyComments_of_same (hAccepts : Accepts ops text log) (h : SameEvents ops text) :
    OnlyComments text := by
  have hne := ne_nil_of_accepts hAccepts
  obtain ⟨log', hAccepts', hEvents⟩ := h log hAccepts
  obtain ⟨-, items, hItems, hLog⟩ := accepts_items hne hAccepts
  obtain ⟨hShort, items', hItems', hLog'⟩ := accepts_items (crlf_ne_nil hne) hAccepts'
  rw [linesOf_crlf] at hShort hItems'
  rw [forall₂_map_left_iff] at hItems'
  rw [hLog, hLog'] at hEvents
  have hLen : (items'.filterMap (itemEvent .initial)).length =
      (items.filterMap (itemEvent .initial)).length := by
    have hSum := congrArg List.length hEvents
    rw [length_append, length_append, length_itemEvent .build .initial items',
      length_itemEvent .build .initial items] at hSum
    omega
  have hSame := (append_inj hEvents hLen).1
  intro l hl hTerm
  by_cases hEmpty : l.1 = []
  · exact .inl hEmpty
  · have hComment := (comments_of_same hItems hItems' hSame l hl hTerm).resolve_left hEmpty
    have hFit := hShort _ (mem_map_of_mem hl)
    rw [crlfStart_eq ⟨hTerm, hEmpty⟩, length_append] at hFit
    exact .inr ⟨hComment, hFit⟩

/-! ## Runs that differ in comments -/

theorem deliver_quiet (hOps : IgnoresComments ops) {n : Nat} {call call' : Call} {log₁ : List Call}
    (hLog : log.map Call.quiet = log'.map Call.quiet) (hCall : call.quiet = call'.quiet)
    (h : deliver ops n call log = .ok () log₁) :
    ∃ log₁', deliver ops n call' log' = .ok () log₁' ∧
      log₁.map Call.quiet = log₁'.map Call.quiet := by
  obtain ⟨hOk, rfl⟩ := deliver_eq_ok.mp h
  refine ⟨log' ++ [call'], deliver_eq_ok.mpr ⟨?_, rfl⟩, ?_⟩
  · rw [← hOps log log' call call' hLog hCall]
    exact hOk
  · rw [map_append, map_append, hLog, map_singleton, map_singleton, hCall]

/-- With byte 13 behind its empty lines and comments the run is the same. -/
theorem runLines_quiet (hOps : IgnoresComments ops)
    (hLines : ∀ l ∈ lines, l.2 = carriageReturn →
      l.1 = [] ∨ l.1.head? = some 35 ∧ l.1.length + 2 < maxConfigLineLen) :
    ∀ (n sectionNum m : Nat) (log log' log₁ : List Call),
      log.map Call.quiet = log'.map Call.quiet →
      runLines ops pass lines n sectionNum log = .ok m log₁ →
        ∃ log₁', runLines ops pass (lines.map crlfStart) n sectionNum log' = .ok m log₁' ∧
          log₁.map Call.quiet = log₁'.map Call.quiet := by
  induction lines with
  | nil =>
    intro n sectionNum m log log' log₁ hLog h
    obtain ⟨rfl, rfl⟩ := Attempt.pure_eq_ok.mp h
    exact ⟨log', rfl, hLog⟩
  | cons l lines ih =>
    intro n sectionNum m log log' log₁ hLog h
    obtain ⟨line, term⟩ := l
    have hNext := ih fun l hl => hLines l (mem_cons_of_mem _ hl)
    rw [runLines] at h
    split at h
    next hFit =>
      rcases hRead : readConfigLine line with code | ⟨item, left⟩
      · rw [hRead] at h
        cases h
      rw [hRead] at h
      obtain ⟨⟨⟩, log₂, hCall, hRest⟩ := Attempt.bind_eq_ok.mp h
      -- the line has the same item, and a call that differs in the text of a comment at most
      have hStart : (crlfStart (line, term)).1.length + 1 < maxConfigLineLen ∧
          (∃ left', readConfigLine (crlfStart (line, term)).1 = .ok (item, left')) ∧
          (itemCall pass n sectionNum (crlfStart (line, term)).1 (crlfStart (line, term)).2 item).map
              Call.quiet =
            (itemCall pass n sectionNum line term item).map Call.quiet := by
        by_cases hl : term = carriageReturn ∧ line ≠ []
        · obtain ⟨hHead, hRoom⟩ :=
            (hLines (line, term) mem_cons_self hl.1).resolve_left hl.2
          obtain ⟨c, text, rfl⟩ := exists_cons_of_ne_nil hl.2
          obtain rfl : c = 35 := Option.some.inj hHead
          have hItem : item = .comment := (isLine_iff.mpr ⟨left, hRead⟩).unique (.comment text)
          rw [crlfStart_eq hl, hItem]
          refine ⟨?_, isLine_iff.mp (.comment (text ++ [lineFeed])), rfl⟩
          rw [length_append]
          exact hRoom
        · rw [crlfStart_same hl]
          exact ⟨hFit, ⟨left, hRead⟩, rfl⟩
      obtain ⟨hFit', ⟨left', hRead'⟩, hQuiet⟩ := hStart
      obtain ⟨log₂', hCall', hLog₂⟩ : ∃ log₂', deliverItem ops n
          (itemCall pass n sectionNum (crlfStart (line, term)).1 (crlfStart (line, term)).2 item) log' =
            .ok () log₂' ∧ log₂.map Call.quiet = log₂'.map Call.quiet := by
        cases hItem : itemCall pass n sectionNum line term item with
        | none =>
          rw [hItem] at hCall hQuiet
          rw [map_eq_none_iff.mp hQuiet]
          obtain rfl := (Attempt.pure_eq_ok.mp hCall).2
          exact ⟨log', rfl, hLog⟩
        | some call =>
          rw [hItem] at hCall hQuiet
          obtain ⟨call', hCall'', hEq⟩ := map_eq_some_iff.mp hQuiet
          rw [hCall'']
          exact deliver_quiet hOps hLog hEq.symm hCall
      obtain ⟨log₁', hRest', hLog₁⟩ := hNext _ _ _ _ _ _ hLog₂ hRest
      refine ⟨log₁', ?_, hLog₁⟩
      rw [map_cons, runLines, if_pos hFit', hRead']
      dsimp only
      rw [Attempt.bind_of_ok hCall']
      exact hRest'
    next => cases h

theorem runPass_quiet (hOps : IgnoresComments ops) (hLines : ∀ l ∈ lines, l.2 = carriageReturn →
      l.1 = [] ∨ l.1.head? = some 35 ∧ l.1.length + 2 < maxConfigLineLen) {m : Nat}
    {log₁ : List Call} (hLog : log.map Call.quiet = log'.map Call.quiet)
    (h : runPass ops pass lines log = .ok m log₁) :
    ∃ log₁', runPass ops pass (lines.map crlfStart) log' = .ok m log₁' ∧
      log₁.map Call.quiet = log₁'.map Call.quiet := by
  obtain ⟨⟨⟩, log₂, hInit, hRun⟩ := Attempt.bind_eq_ok.mp h
  obtain ⟨log₂', hInit', hLog₂⟩ := deliver_quiet hOps hLog rfl hInit
  obtain ⟨log₁', hRun', hLog₁⟩ := runLines_quiet hOps hLines _ _ _ _ _ _ hLog₂ hRun
  exact ⟨log₁', Attempt.bind_eq_ok.mpr ⟨(), log₂', hInit', hRun'⟩, hLog₁⟩

theorem event_quiet (log : List Call) :
    (log.map Call.quiet).filterMap Call.event = log.filterMap Call.event := by
  rw [filterMap_map]
  refine filterMap_congr fun call _ => ?_
  cases call <;> rfl

theorem sameEvents_of_onlyComments (hOps : IgnoresComments ops) (h : OnlyComments text) :
    SameEvents ops text := by
  intro log hAccepts
  have hne := ne_nil_of_accepts hAccepts
  unfold Accepts at hAccepts ⊢
  rw [icBuildConfigData_eq ops hne] at hAccepts
  unfold runTwice at hAccepts
  rw [Attempt.onError_eq_ok] at hAccepts
  obtain ⟨n, log₁, hFirst, hAccepts⟩ := Attempt.bind_eq_ok.mp hAccepts
  obtain ⟨m, log₂, hSecond, hVerify⟩ := Attempt.bind_eq_ok.mp hAccepts
  obtain ⟨log₁', hFirst', hLog₁⟩ := runPass_quiet hOps h rfl hFirst
  obtain ⟨log₂', hSecond', hLog₂⟩ := runPass_quiet hOps h hLog₁ hSecond
  obtain ⟨log', hVerify', hLog⟩ := deliver_quiet hOps hLog₂ rfl hVerify
  refine ⟨log', ?_, ?_⟩
  · rw [icBuildConfigData_eq ops (crlf_ne_nil hne), linesOf_crlf]
    unfold runTwice
    refine Attempt.onError_eq_ok.mpr (Attempt.bind_eq_ok.mpr ⟨n, log₁', hFirst', ?_⟩)
    exact Attempt.bind_eq_ok.mpr ⟨m, log₂', hSecond', hVerify'⟩
  · rw [← event_quiet log', ← hLog, event_quiet]

end Accepted

/-- An accepted text keeps its events with Windows line ends exactly if only its empty lines and its
comments end with a newline. -/
theorem line_ends_iff (ops : Operations) (text : Bytes) (log : List Call)
    (hOps : IgnoresComments ops) (hAccepts : Accepts ops text log) :
    SameEvents ops text ↔ OnlyComments text :=
  ⟨onlyComments_of_same hAccepts, sameEvents_of_onlyComments hOps⟩

theorem ignoresComments_zero : IgnoresComments fun _ _ => 0 := fun _ _ _ _ _ _ => rfl

/-- A comment and a section without an end. -/
theorem comment_stays :
    (∃ log, Accepts (fun _ _ => 0) [35, 10, 91, 97, 93] log) ∧
    (SameEvents (fun _ _ => 0) [35, 10, 91, 97, 93] ↔ OnlyComments [35, 10, 91, 97, 93]) :=
  ⟨⟨_, rfl⟩, line_ends_iff _ _ _ ignoresComments_zero rfl⟩

/-- The text with the section `[a]` and a newline. -/
theorem section_rejected : ¬ ∀ (ops : Operations) (text : Bytes) (log : List Call),
    IgnoresComments ops → Accepts ops text log → SameEvents ops text := by
  intro hAll
  obtain ⟨log', hAccepts, -⟩ := hAll (fun _ _ => 0) [91, 97, 93, 10] _ ignoresComments_zero rfl _ rfl
  cases hAccepts

end IClaustron.Config.Loop
