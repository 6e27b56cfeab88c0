import IClaustron.Config.ReaderLoop

/-!
# Config.ReaderEvents — the lines of a configuration file

What a line of a configuration file can be, as a grammar, and the calls that a text makes, line by
line. When no operation fails, the reader makes these calls, in both of its readings; a text with a
line that is none of the grammar stops it there.

* `reader_events` — the calls of a text, or the number of its first wrong line.
-/

namespace IClaustron.Config.Loop

open Lib Protocol List

/-! ## Grammar -/

/-- A line, and what is read in it. -/
inductive IsLine : Bytes → Item → Prop
  | empty : IsLine [] .empty
  | comment (text : Bytes) : IsLine (35 :: text) .comment
  | section (name : Bytes) (hName : ∀ c ∈ name, isAlpha c = true ∨ c = 32) :
    IsLine (91 :: (name ++ [93])) (.section (name.map toLower))
  | key (space key before : Bytes) (assign : UInt8) (behind value : Bytes)
    (hSpace : ∀ c ∈ space, isBlank c = true) (hKey : ∀ c ∈ key, isKeyChar c = true)
    (hBefore : ∀ c ∈ before, isBlank c = true) (hAssign : assign = 61 ∨ assign = 58)
    (hBehind : ∀ c ∈ behind, isBlank c = true) (hValue : IsValue value) :
    IsLine (space ++ (key ++ (before ++ assign :: (behind ++ value))))
      (.key (key.map toLower) value)

theorem convKeyValue_iff {str data : Bytes} : convKeyValue str = some data ↔
    ∃ before assign behind, str = before ++ assign :: (behind ++ data) ∧
      (∀ c ∈ before, isBlank c = true) ∧ (assign = 61 ∨ assign = 58) ∧
      (∀ c ∈ behind, isBlank c = true) ∧ IsValue data := by
  constructor
  · intro h
    have hValue := (convKeyValue_spec h).1
    unfold convKeyValue at h
    have hSplit : str.takeWhile isBlank ++ str.dropWhile isBlank = str :=
      takeWhile_append_dropWhile
    cases hRest : str.dropWhile isBlank with
    | nil =>
      rw [hRest] at h
      cases h
    | cons assign rest =>
      rw [hRest] at h hSplit
      dsimp only at h
      obtain ⟨hAssign, hVal⟩ := Option.ite_none_right_eq_some.mp h
      obtain ⟨-, hData⟩ := Option.ite_none_right_eq_some.mp hVal
      refine ⟨str.takeWhile isBlank, assign, rest.takeWhile isBlank, ?_,
        fun c => mem_takeWhile_imp, hAssign, fun c => mem_takeWhile_imp, hValue⟩
      rw [← Option.some.inj hData, takeWhile_append_dropWhile, hSplit]
  · rintro ⟨before, assign, behind, rfl, hBefore, hAssign, hBehind, hValue⟩
    have hBlank : isBlank assign = false := by
      rcases hAssign with rfl | rfl <;> decide
    have hRest : (before ++ assign :: (behind ++ data)).dropWhile isBlank =
        assign :: (behind ++ data) := by
      refine dropWhile_append_of_all hBefore ?_
      rintro c ⟨rfl⟩
      exact hBlank
    have hVal : (behind ++ data).dropWhile isBlank = data :=
      dropWhile_append_of_all hBehind hValue.head
    unfold convKeyValue
    rw [hRest]
    dsimp only
    rw [if_pos hAssign, hVal, if_pos ⟨hValue.nonempty, all_eq_true.mpr hValue.chars⟩]

/-- No character in front of a value is the start of a comment or of a section. -/
theorem readConfigLine_keyLine (p : KeyLine) {data : Bytes} (h : convKeyValue p.str = some data) :
    readConfigLine p.line =
      .ok (.key (p.name.map toLower) data, p.blanks ++ (p.name.map toLower ++ p.str)) := by
  obtain ⟨before, assign, behind, hStr, hBefore, hAssign, -, -⟩ := convKeyValue_iff.mp h
  have hHead : ∀ d : UInt8, isBlank d = false → isKeyChar d = false → d ≠ 61 → d ≠ 58 →
      p.line.head? ≠ some d := by
    intro d hBlank hKey h61 h58 hd
    have hMem : ∀ xs ys : Bytes, (xs ++ ys).head? = some d → d ∈ xs ∨ ys.head? = some d := by
      intro xs ys hxs
      cases xs with
      | nil => exact .inr hxs
      | cons x xs =>
        rw [← Option.some.inj hxs]
        exact .inl mem_cons_self
    unfold KeyLine.line at hd
    rw [hStr] at hd
    rcases hMem _ _ hd with hd | hd
    · rw [p.blanks_blank d hd] at hBlank
      cases hBlank
    rcases hMem _ _ hd with hd | hd
    · rw [p.name_key d hd] at hKey
      cases hKey
    rcases hMem _ _ hd with hd | hd
    · rw [hBefore d hd] at hBlank
      cases hBlank
    rcases hAssign with rfl | rfl
    · exact h61 (Option.some.inj hd).symm
    · exact h58 (Option.some.inj hd).symm
  have hKey := readConfigLine_key p (hHead 35 (by decide) (by decide) (by decide) (by decide))
    (hHead 91 (by decide) (by decide) (by decide) (by decide))
  rw [hKey, h]

/-- The lines that are read are those of the grammar. -/
theorem isLine_iff {line : Bytes} {item : Item} :
    IsLine line item ↔ ∃ line', readConfigLine line = .ok (item, line') := by
  constructor
  · intro h
    cases h with
    | empty => exact ⟨[], rfl⟩
    | comment text => exact ⟨35 :: text, rfl⟩
    | «section» name hName =>
      refine ⟨91 :: (name.map toLower ++ [93]), ?_⟩
      have hAll : (name.all fun c => decide (isAlpha c = true ∨ c = 32)) = true :=
        all_eq_true.mpr fun c hc => decide_eq_true (hName c hc)
      rw [readConfigLine_section]
      unfold convGroupId
      rw [if_pos hAll]
    | key space key before assign behind value hSpace hKey hBefore hAssign hBehind hValue =>
      have hBlank : isBlank assign = false ∧ isKeyChar assign = false := by
        rcases hAssign with rfl | rfl <;> decide
      have hValue' : convKeyValue (before ++ assign :: (behind ++ value)) = some value :=
        convKeyValue_iff.mpr ⟨before, assign, behind, rfl, hBefore, hAssign, hBehind, hValue⟩
      have hNotKey : ∀ c ∈ (before ++ assign :: (behind ++ value)).head?, isKeyChar c = false := by
        intro c hc
        cases before with
        | nil =>
          obtain rfl : assign = c := Option.some.inj hc
          exact hBlank.2
        | cons d before =>
          obtain rfl : d = c := Option.some.inj hc
          by_contra hd
          rw [Bool.not_eq_false] at hd
          exact Bool.noConfusion ((hBefore d mem_cons_self).symm.trans
            (not_isBlank_of_isKeyChar hd))
      cases key with
      | nil =>
        -- without a key the blanks before the assignment operator are those of the line
        have hLine := readConfigLine_keyLine ⟨space ++ before, [], assign :: (behind ++ value),
          forall_mem_append.mpr ⟨hSpace, hBefore⟩, fun _ hc => (nomatch hc),
          fun c hc => by rw [← Option.some.inj hc]; exact hBlank.2,
          fun c hc => by rw [← Option.some.inj hc]; exact hBlank.1,
          cons_ne_nil _ _⟩
          (convKeyValue_iff.mpr ⟨[], assign, behind, rfl, fun _ hc => (nomatch hc), hAssign,
            hBehind, hValue⟩)
        rw [nil_append, ← append_assoc]
        exact ⟨_, hLine⟩
      | cons d key =>
        refine ⟨_, readConfigLine_keyLine ⟨space, d :: key, before ++ assign :: (behind ++ value),
          hSpace, hKey, hNotKey, ?_, cons_ne_nil _ _⟩ hValue'⟩
        rintro c ⟨rfl⟩
        exact not_isBlank_of_isKeyChar (hKey d mem_cons_self)
  · rintro ⟨line', h⟩
    rcases readConfigLine_cases h with ⟨rfl, -, rfl⟩ | ⟨h35, -, rfl⟩ |
      ⟨groupId, hGroup, rfl, -, rfl⟩ | ⟨p, data, rfl, -, -, hData, -, rfl⟩
    · exact .empty
    · cases line with
      | nil => cases h35
      | cons c text =>
        obtain rfl : c = 35 := Option.some.inj h35
        exact .comment text
    · exact .section groupId hGroup
    · obtain ⟨before, assign, behind, hStr, hBefore, hAssign, hBehind, hValue⟩ :=
        convKeyValue_iff.mp hData
      unfold KeyLine.line
      rw [hStr]
      exact .key p.blanks p.name before assign behind data p.blanks_blank p.name_key hBefore hAssign
        hBehind hValue

/-! ## Lines -/

/-- The lines of a text with the bytes that end them are the whole text. -/
theorem textLines_join (text : Bytes) :
    (textLines text).flatMap (fun l => l.1 ++ l.2.toList) = text := by
  induction text with
  | nil => rfl
  | cons c text ih =>
    rw [textLines]
    by_cases hc : c = carriageReturn ∨ c = 0
    · rw [if_pos hc, flatMap_cons, ih]
      rfl
    · rw [if_neg hc]
      cases hLines : textLines text with
      | nil =>
        rw [hLines] at ih
        rw [← ih]
        rfl
      | cons first lines =>
        rw [hLines, flatMap_cons] at ih
        dsimp only
        rw [flatMap_cons, ← ih]
        simp only [cons_append]

/-- The lines of a text, the last one with the zero behind the text. -/
def fileLines (text : Bytes) : List (Bytes × UInt8) :=
  (textLines text).map fun l => (l.1, l.2.getD 0)

/-- No line of the text is empty at its end. -/
theorem textLines_none {text line : Bytes} (h : (line, none) ∈ textLines text) : line ≠ [] := by
  induction text generalizing line with
  | nil => cases h
  | cons c text ih =>
    rw [textLines] at h
    by_cases hc : c = carriageReturn ∨ c = 0
    · rw [if_pos hc] at h
      rcases mem_cons.mp h with hEq | hMem
      · cases hEq
      · exact ih hMem
    · rw [if_neg hc] at h
      cases hLines : textLines text with
      | nil =>
        rw [hLines] at h
        rw [(Prod.mk.inj (mem_singleton.mp h)).1]
        exact cons_ne_nil _ _
      | cons first lines =>
        rw [hLines] at h ih
        rcases mem_cons.mp h with hEq | hMem
        · rw [(Prod.mk.inj hEq).1]
          exact cons_ne_nil _ _
        · exact ih (mem_cons_of_mem _ hMem)

theorem mem_of_textLines {text line : Bytes} {term : Option UInt8} (h : (line, term) ∈ textLines text) :
    ∀ c ∈ line, c ∈ text := by
  intro c hc
  rw [← textLines_join text]
  exact mem_flatMap.mpr ⟨_, h, mem_append_left _ hc⟩

/-- Without line feeds the lines that are read are the lines of the text. -/
theorem linesOf_eq {text : Bytes} (hClean : ∀ c ∈ text, c ≠ lineFeed) :
    linesOf text = fileLines text := by
  unfold linesOf fileLines
  rw [← filterMap_eq_map]
  refine filterMap_congr ?_
  rintro ⟨line, term⟩ hMem
  have hFeed : line.dropWhile (· = lineFeed) = line := by
    refine dropWhile_lineFeed fun hHead => ?_
    exact hClean lineFeed (mem_of_textLines hMem _ (mem_of_head? hHead)) rfl
  cases term with
  | some term =>
    unfold startOfLine
    dsimp only
    rw [hFeed]
    rfl
  | none =>
    unfold startOfLine
    dsimp only
    rw [hFeed, if_neg (textLines_none hMem)]
    rfl

/-! ## Events -/

/-- The calls for lines and what is read in them, from a line number and a section number. -/
def eventsFrom (pass : Pass) : Nat → Nat → List ((Bytes × UInt8) × Item) → List Call
  | _, _, [] => []
  | n, sectionNum, ((line, term), item) :: rest =>
    (itemCall pass n sectionNum line term item).toList ++
      eventsFrom pass (n + 1) (nextSection sectionNum item) rest

/-- All calls of a text with these items in its lines. -/
def events (lines : List (Bytes × UInt8)) (items : List Item) : List Call :=
  .configInit .initial :: eventsFrom .initial 1 0 (lines.zip items) ++
    .configInit .build :: eventsFrom .build 1 0 (lines.zip items) ++
      [.configVerify lines.length .build]

section Run

variable {ops : Operations} {pass : Pass} {lines : List (Bytes × UInt8)}

section

variable (hOps : ∀ log call, ops log call = 0)

include hOps

theorem deliver_ok (n : Nat) (call : Call) (log : List Call) :
    deliver ops n call log = .ok () (log ++ [call]) :=
  if_pos (hOps log call)

theorem deliverItem_ok (n : Nat) (call : Option Call) (log : List Call) :
    deliverItem ops n call log = .ok () (log ++ call.toList) := by
  cases call with
  | none =>
    rw [Option.toList_none, append_nil]
    rfl
  | some call => exact deliver_ok hOps n call log

/-- Lines of the grammar are read to their end. -/
theorem runLines_ok {items : List Item} (hShort : ∀ l ∈ lines, l.1.length + 1 < maxConfigLineLen)
    (hItems : List.Forall₂ (fun l item => IsLine l.1 item) lines items) :
    ∀ n sectionNum log, runLines ops pass lines n sectionNum log =
      .ok (n + lines.length) (log ++ eventsFrom pass n sectionNum (lines.zip items)) := by
  induction hItems with
  | nil =>
    intro n sectionNum log
    rw [zip_nil_left, eventsFrom, append_nil]
    rfl
  | @cons l item lines items hLine _ ih =>
    intro n sectionNum log
    obtain ⟨line, term⟩ := l
    obtain ⟨line', hRead⟩ := isLine_iff.mp hLine
    dsimp only at hRead
    have hNext := ih (fun l hl => hShort l (mem_cons_of_mem _ hl)) (n + 1)
      (nextSection sectionNum item)
      (log ++ (itemCall pass n sectionNum line term item).toList)
    rw [runLines, if_pos (hShort (line, term) mem_cons_self), hRead]
    dsimp only
    rw [Attempt.bind_of_ok (deliverItem_ok hOps n _ log), hNext, zip_cons_cons, eventsFrom,
      append_assoc, length_cons, Nat.add_assoc n 1, Nat.add_comm 1]

/-- The first line that is none of the grammar ends the run with its number. -/
theorem runLines_error {before after : List (Bytes × UInt8)} {line : Bytes × UInt8}
    (hShort : ∀ l ∈ before, l.1.length + 1 < maxConfigLineLen)
    (hBefore : ∀ l ∈ before, ∃ item, IsLine l.1 item) (hLine : ¬ ∃ item, IsLine line.1 item) :
    ∀ n sectionNum log, ∃ code log', code ≠ 0 ∧
      runLines ops pass (before ++ line :: after) n sectionNum log =
        .error ⟨code, n + before.length⟩ log' := by
  induction before with
  | nil =>
    intro n sectionNum log
    rw [nil_append, runLines]
    split
    next =>
      cases hRead : readConfigLine line.1 with
      | error code =>
        have hCode := (@scanConfigLine_error line.1 [] 0 n 0 pass code (.inr rfl) hRead).1
        exact ⟨code, log, hCode, rfl⟩
      | ok read =>
        obtain ⟨item, line'⟩ := read
        exact absurd ⟨item, isLine_iff.mpr ⟨line', hRead⟩⟩ hLine
    next => exact ⟨7000, log, by decide, rfl⟩
  | cons l before ih =>
    intro n sectionNum log
    obtain ⟨item, hItem⟩ := hBefore l mem_cons_self
    obtain ⟨line', hRead⟩ := isLine_iff.mp hItem
    obtain ⟨code, log', hCode, hNext⟩ := ih (fun l hl => hShort l (mem_cons_of_mem _ hl))
      (fun l hl => hBefore l (mem_cons_of_mem _ hl)) (n + 1) (nextSection sectionNum item)
      (log ++ (itemCall pass n sectionNum l.1 l.2 item).toList)
    refine ⟨code, log', hCode, ?_⟩
    rw [cons_append, runLines, if_pos (hShort l mem_cons_self), hRead]
    dsimp only
    rw [Attempt.bind_of_ok (deliverItem_ok hOps n _ log), hNext, length_cons,
      Nat.add_assoc n 1, Nat.add_comm 1]

end

/-- A reading that ends has gone over the whole text. -/
theorem readLoop_consumes {confLen : Nat} (fuel : Nat) : ∀ (p p' : Place) (log log' : List Call),
    readLoop ops pass confLen fuel p log = .ok p' log' → confLen ≤ p'.iterDataLen := by
  induction fuel with
  | zero =>
    intro p p' log log' h
    cases h
  | succ fuel ih =>
    intro p p' log log' h
    rw [readLoop] at h
    by_cases hMore : p.iterDataLen < confLen
    · rw [if_pos hMore] at h
      split at h
      next => exact ih _ _ _ _ h
      next =>
        dsimp only at h
        split at h
        next => cases h
        next =>
          generalize scanConfigLine p.iterData (readCrLineLen p.iterData) p.lineNumber p.sectionNum
            pass = scan at h
          obtain ⟨action, sectionNum, iterData⟩ := scan
          cases action with
          | returns code =>
            dsimp only at h
            split at h
            next => cases h
            next => exact ih _ _ _ _ h
          | calls call =>
            obtain ⟨⟨⟩, log'', -, hNext⟩ := Attempt.bind_eq_ok.mp h
            exact ih _ _ _ _ hNext
    · rw [if_neg hMore] at h
      rw [← (Attempt.pure_eq_ok.mp h).1] at hMore
      exact Nat.not_lt.mp hMore

end Run

/-- How a text is read: to its end, and with the calls of its lines, or up to the first line that is
none of the grammar. -/
structure ReadsByLine (ops : Operations) (text : Bytes) : Prop where
  ends : icBuildConfigData ops text [] ≠ .abort
  consumes : ∀ pass memory p log log',
    readLoop ops pass text.length (text.length + 1) ⟨[], memory, 0, 1, 0⟩ log = .ok p log' →
      text.length ≤ p.iterDataLen
  accepts : ∀ items, List.Forall₂ (fun l item => IsLine l.1 item) (fileLines text) items →
    icBuildConfigData ops text [] = .ok () (events (fileLines text) items)
  rejects : ∀ before line after, fileLines text = before ++ line :: after →
    (∀ l ∈ before, ∃ item, IsLine l.1 item) → (¬ ∃ item, IsLine line.1 item) →
      ∃ code log, code ≠ 0 ∧
        icBuildConfigData ops text [] = .error ⟨code, before.length + 1⟩ log

/-- Either all lines are of the grammar, or there is a first one that is not. -/
theorem lines_cases (lines : List (Bytes × UInt8)) :
    (∃ items, List.Forall₂ (fun l item => IsLine l.1 item) lines items) ∨
    ∃ before line after, lines = before ++ line :: after ∧
      (∀ l ∈ before, ∃ item, IsLine l.1 item) ∧ ¬ ∃ item, IsLine line.1 item := by
  induction lines with
  | nil => exact .inl ⟨[], .nil⟩
  | cons l lines ih =>
    by_cases hLine : ∃ item, IsLine l.1 item
    · rcases ih with ⟨items, hItems⟩ | ⟨before, line, after, rfl, hBefore, hBad⟩
      · obtain ⟨item, hItem⟩ := hLine
        exact .inl ⟨item :: items, .cons hItem hItems⟩
      · exact .inr ⟨l :: before, line, after, rfl, forall_mem_cons.mpr ⟨hLine, hBefore⟩, hBad⟩
    · exact .inr ⟨[], l, lines, rfl, fun _ hl => (nomatch hl), hLine⟩

/-- A text without zeros and line feeds, and with short lines, is read line by line. -/
theorem reader_events (ops : Operations) (text : Bytes) (hOps : ∀ log call, ops log call = 0)
    (hne : text ≠ []) (hClean : ∀ c ∈ text, c ≠ 0 ∧ c ≠ lineFeed)
    (hShort : ∀ l ∈ fileLines text, l.1.length + 1 < maxConfigLineLen) : ReadsByLine ops text := by
  have hRead : icBuildConfigData ops text [] = runTwice ops (fileLines text) [] := by
    rw [icBuildConfigData_eq ops hne, linesOf_eq fun c hc => (hClean c hc).2]
  have hAccepts : ∀ items, List.Forall₂ (fun l item => IsLine l.1 item) (fileLines text) items →
      icBuildConfigData ops text [] = .ok () (events (fileLines text) items) := by
    intro items hItems
    have hPass : ∀ pass log, runPass ops pass (fileLines text) log =
        .ok (1 + (fileLines text).length) (log ++ [.configInit pass] ++
          eventsFrom pass 1 0 ((fileLines text).zip items)) := by
      intro pass log
      unfold runPass
      rw [Attempt.bind_of_ok (deliver_ok hOps 1 _ log)]
      exact runLines_ok hOps hShort hItems 1 0 _
    rw [hRead]
    unfold runTwice
    refine Attempt.onError_eq_ok.mpr ?_
    rw [Attempt.bind_of_ok (hPass .initial []), Attempt.bind_of_ok (hPass .build _),
      deliver_ok hOps, Nat.add_sub_cancel_left]
    unfold events
    simp only [List.nil_append, List.append_assoc, List.cons_append]
  have hRejects : ∀ before line after, fileLines text = before ++ line :: after →
      (∀ l ∈ before, ∃ item, IsLine l.1 item) → (¬ ∃ item, IsLine line.1 item) →
        ∃ code log, code ≠ 0 ∧
          icBuildConfigData ops text [] = .error ⟨code, before.length + 1⟩ log := by
    intro before line after hLines hBefore hLine
    have hShort' : ∀ l ∈ before, l.1.length + 1 < maxConfigLineLen := by
      intro l hl
      refine hShort l ?_
      rw [hLines]
      exact List.mem_append_left _ hl
    obtain ⟨code, log, hCode, hRun⟩ := @runLines_error ops .initial hOps before after line hShort'
      hBefore hLine 1 0 [.configInit .initial]
    refine ⟨code, log ++ [.configEnd], hCode, ?_⟩
    rw [hRead, hLines, Nat.add_comm]
    unfold runTwice runPass
    have hPass : (deliver ops 1 (.configInit .initial) >>= fun _ =>
        runLines ops .initial (before ++ line :: after) 1 0) [] = .error ⟨code, 1 + before.length⟩ log := by
      rw [Attempt.bind_of_ok (deliver_ok hOps 1 _ [])]
      exact hRun
    exact Attempt.onError_of_error (Attempt.bind_of_error hPass) rfl
  refine ⟨?_, ?_, hAccepts, hRejects⟩
  · rcases lines_cases (fileLines text) with ⟨items, hItems⟩ |
      ⟨before, line, after, hLines, hBefore, hLine⟩
    · rw [hAccepts items hItems]
      exact nofun
    · obtain ⟨code, log, -, hError⟩ := hRejects before line after hLines hBefore hLine
      rw [hError]
      exact nofun
  · exact fun pass memory p log log' h => readLoop_consumes _ _ _ _ _ h

/-- The text `[A]`, a key, and a comment without an end. -/
theorem section_read : (∀ (log : List Call) (call : Call), (fun _ _ => 0 : Operations) log call = 0) ∧
    ([91, 65, 93, 10, 75, 61, 49, 10, 35] : Bytes) ≠ [] ∧
    (∀ c ∈ ([91, 65, 93, 10, 75, 61, 49, 10, 35] : Bytes), c ≠ 0 ∧ c ≠ lineFeed) ∧
    (∀ l ∈ fileLines [91, 65, 93, 10, 75, 61, 49, 10, 35], l.1.length + 1 < maxConfigLineLen) ∧
    ReadsByLine (fun _ _ => 0) [91, 65, 93, 10, 75, 61, 49, 10, 35] :=
  ⟨fun _ _ => rfl, by decide, List.forall_iff_forall_mem.mp (by decide), by decide,
    reader_events _ _ (fun _ _ => rfl) (by decide) (List.forall_iff_forall_mem.mp (by decide)) (by decide)⟩

end IClaustron.Config.Loop
