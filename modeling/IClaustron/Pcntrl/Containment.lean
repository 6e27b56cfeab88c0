import IClaustron.Pcntrl.CopyFiles
import Mathlib.Data.List.DropRight

/-!
# Pcntrl.Containment — where received files are put

The client of a process controller sends files, and the names of some of them. A file should be put
directly into the configuration directory, or into the directory of the node there. The name is not
looked at: it is appended to the directory as it was sent.

* `copyFiles_creates` — every created path is the directory with config.ini, with grid_common.ini,
  or with an announced name.
* `creates_announced` — every announced name is created in some run.
* `contained_iff` — all files stay in the directory exactly when no announced name has a slash.

Scope limits: a file is not created in the place of a directory, which is what the names "", "." and
".." are, and any name that ends in one of them behind a slash. Links in the directory are not in
the model.
-/

namespace IClaustron.Pcntrl.Containment

open Lib DynArray CopyFiles List Attempt

/-! ## Model -/

def slash : UInt8 := 47

/-- IC_MAX_FILE_NAME_SIZE, the size of `file_name_buf`. -/
def maxFileNameSize : Nat := 255

/-- `ic_set_config_dir`, in the data directory `dataDir`. -/
def setConfigDir (dataDir : Str) (nodeId : Nat) : Str :=
  dataDir ++ ascii "config/" ++
    if nodeId ≠ 0 then ascii "node" ++ Protocol.guint64Str nodeId ++ [slash] else []

/-- `create_config_dir`, whose return code is not looked at. -/
def createConfigDir : Op Unit :=
  ignore (do
    -- the data directory, and the configuration directory in it
    reply
    reply : Op Unit)

/-- `handle_receive_file` without an array. -/
def handleReceiveFileAlone (configDir : Nat → Str) (fileName : Str) (nodeId numberOfLines : Nat) :
    Op Unit := do
  let path := configDir nodeId ++ cStr fileName
  reply
  modify fun h => { h with files := setFile h.files path [] }
  receiveLines path numberOfLines

/-- `handle_copy_config_ini`. -/
def handleCopyConfigIni (configDir : Nat → Str) : Op Unit := do
  recSimpleStr receiveConfigIniStr
  let numLines ← recNumber numberOfLinesStr
  createConfigDir
  handleReceiveFileAlone configDir configIni 0 numLines
  sendFileOk

/-- The command creates this path: on a disk without files it has left one there. What a command does
not depend on the files. -/
def Creates (command : Op Unit) (input : List Str) (replies : List Nat) (path : Str) : Prop :=
  ∃ array h, createPtrArray (fun _ => true) Heap.empty = some array ∧
    Attempt.Ends command (Start.host ⟨input, fun _ => none, replies⟩ array) h ∧
    (h.files path).isSome

/-- The clean-up after an error deletes this path: on a disk full of files it is not there any
more. -/
def Deletes (configDir : Nat → Str) (input : List Str) (replies : List Nat) (path : Str) : Prop :=
  ∃ array code h h', createPtrArray (fun _ => true) Heap.empty = some array ∧
    copyFiles configDir (Start.host ⟨input, fun _ => none, replies⟩ array) = .error code h ∧
    deleteFiles none (List.range h.numFiles) { h with files := fun _ => some [] } = some h' ∧
    h'.files path = none

/-! ## The property -/

/-- What stands behind the last slash. -/
def lastComponent (path : Str) : Str := path.rtakeWhile (· ≠ slash)

/-- A name that is not the name of a directory. -/
def IsName (name : Str) : Prop := name ≠ [] ∧ name ≠ ascii "." ∧ name ≠ ascii ".."

def IsFile (path : Str) : Prop := IsName (lastComponent path)

/-- The path is a file in the directory, and not in a directory below it. -/
def Directly (dir path : Str) : Prop := ∃ name, path = dir ++ name ∧ slash ∉ name ∧ IsName name

/-- In the configuration directory, or in that of the node of the command. -/
def LiesInside (dataDir : Str) (input : List Str) (path : Str) : Prop :=
  Directly (setConfigDir dataDir 0) path ∨
    ∃ nodeId numClusters rest, Opening input nodeId numClusters rest ∧
      Directly (setConfigDir dataDir nodeId) path

/-- The environment creates files only. -/
def Possible (command : Op Unit) (input : List Str) (replies : List Nat) : Prop :=
  ∀ path, Creates command input replies path → IsFile path

structure Contained (dataDir : Str) (input : List Str) : Prop where
  configIni : ∀ replies path,
    Creates (handleCopyConfigIni (setConfigDir dataDir)) input replies path →
      Directly (setConfigDir dataDir 0) path
  created : ∀ replies, Possible (copyFiles (setConfigDir dataDir)) input replies → ∀ path,
    Creates (copyFiles (setConfigDir dataDir)) input replies path → LiesInside dataDir input path
  deleted : ∀ replies path, Deletes (setConfigDir dataDir) input replies path →
    LiesInside dataDir input path
  fits : ∀ h name h', recString receiveClusterNameIniStr h = .ok name h' →
    name.length + 1 ≤ maxFileNameSize

/-- The lines come to this name of a file, behind the `sent` ones. -/
def Announced (input : List Str) (nodeId : Nat) (sent : List (Str × List Str)) (name : Str) : Prop :=
  ∃ config gridCommon numClusters numLines input₁ input₂ input₃ line count rest,
    Opening input nodeId numClusters input₁ ∧
    FileLines input₁ config (receiveGridCommonIniStr :: input₂) ∧
    FileLines input₂ gridCommon input₃ ∧ ClusterFiles input₃ sent (line :: count :: rest) ∧
    sent.length < numClusters ∧ NameLine receiveClusterNameIniStr line name ∧
    NumberLine numberOfLinesStr count numLines

/-- No name with a slash is announced, as long as the names before it and the name itself can be
those of files. -/
def NamesInside (input : List Str) : Prop :=
  ∀ nodeId sent name, Announced input nodeId sent name →
    (∀ file ∈ sent, IsFile (cStr file.1)) → IsFile (cStr name) → slash ∉ cStr name

variable {configDir : Nat → Str} {dataDir path name file : Str} {input : List Str}
  {replies : List Nat} {h h' h₁ : Host} {nodeId numLines n : Nat} {sent : List (Str × List Str)}
  {fs : Str → Option Str}

/-! ## Paths -/

theorem lastComponent_append (dir name : Str) :
    lastComponent (dir ++ [slash] ++ name) = lastComponent name := by
  unfold lastComponent List.rtakeWhile
  rw [reverse_append, reverse_append, reverse_singleton, singleton_append]
  by_cases hAll : ∀ c ∈ name.reverse, (decide (c ≠ slash)) = true
  · rw [takeWhile_append_of_pos hAll, takeWhile_cons_of_neg (by decide),
      append_nil, takeWhile_eq_self_iff.mpr hAll]
  · rw [takeWhile_append, if_neg]
    intro hLength
    apply hAll
    have hSame := (List.takeWhile_prefix (p := fun c => decide (c ≠ slash))
      (l := name.reverse)).eq_of_length hLength
    exact takeWhile_eq_self_iff.mp hSame

theorem lastComponent_eq (h : slash ∉ name) : lastComponent name = name := by
  unfold lastComponent
  rw [rtakeWhile_eq_self_iff]
  intro c hc
  apply decide_eq_true
  rintro rfl
  exact h hc

theorem setConfigDir_slash (dataDir : Str) (nodeId : Nat) :
    ∃ dir, setConfigDir dataDir nodeId = dir ++ [slash] := by
  unfold setConfigDir
  split
  · exact ⟨dataDir ++ ascii "config/" ++ (ascii "node" ++ Protocol.guint64Str nodeId),
      (append_assoc _ _ _).symm⟩
  · refine ⟨dataDir ++ ascii "config", ?_⟩
    rw [append_nil, append_assoc]
    rfl

/-- Whether a name in the directory is that of a file is a matter of the name. -/
theorem isFile_path (nodeId : Nat) (name : Str) :
    IsFile (setConfigDir dataDir nodeId ++ name) ↔ IsFile name := by
  rcases setConfigDir_slash dataDir nodeId with ⟨dir, hDir⟩
  unfold IsFile
  rw [hDir, lastComponent_append]

theorem directly_of_not_mem {dir : Str} (hSlash : slash ∉ name) (hFile : IsFile name) :
    Directly dir (dir ++ name) := by
  unfold IsFile at hFile
  rw [lastComponent_eq hSlash] at hFile
  exact ⟨name, rfl, hSlash, hFile⟩

/-- A name with a slash leads out of the directory, and is not in the one above it either. -/
theorem not_liesInside {numClusters : Nat} {rest : List Str}
    (hOpening : Opening input nodeId numClusters rest) (hSlash : slash ∈ name) :
    ¬ LiesInside dataDir input (setConfigDir dataDir nodeId ++ name) := by
  rintro (⟨base, hPath, hBase, -⟩ | ⟨nodeId', numClusters', rest', hOpening', base, hPath, hBase, -⟩)
  · apply hBase
    have hDir : setConfigDir dataDir 0 = dataDir ++ ascii "config/" := append_nil _
    unfold setConfigDir at hPath
    rw [if_neg (not_not.mpr rfl), append_nil, append_assoc (dataDir ++ _)] at hPath
    rw [← append_cancel_left hPath]
    exact mem_append_right _ hSlash
  · rcases hOpening with ⟨node, clusters, rfl, hNode, -⟩
    rcases hOpening' with ⟨node', clusters', hInput, hNode', -⟩
    obtain rfl : node = node' := (List.cons.inj hInput).1
    obtain rfl := hNode.unique hNode'
    exact hBase (append_cancel_left hPath ▸ hSlash)

/-! ## Every run -/

/-- The path holds a file now, and the others are as they were. -/
def Holding (path : Str) (fs fs' : Str → Option Str) : Prop :=
  (fs' path).isSome ∧ ∀ p, p ≠ path → fs' p = fs p

theorem holding_setFile (fs : Str → Option Str) (path c : Str) :
    Holding path fs (setFile fs path c) :=
  ⟨by rw [setFile_self]; rfl, fun _ => setFile_of_ne⟩

variable {fs' : Str → Option Str} {p : Str}

theorem Holding.setFile (hi : Holding path fs fs') (c : Str) :
    Holding path fs (setFile fs' path c) :=
  ⟨(holding_setFile fs' path c).1, fun p hp => (setFile_of_ne hp).trans (hi.2 p hp)⟩

theorem Holding.isSome (hi : Holding path fs fs') (hp : (fs p).isSome) : (fs' p).isSome := by
  by_cases hSame : p = path
  · exact hSame ▸ hi.1
  · rw [hi.2 p hSame]
    exact hp

theorem Holding.eq_or (hi : Holding path fs fs') (hp : (fs' p).isSome) :
    (fs p).isSome ∨ p = path := by
  by_cases hSame : p = path
  · exact .inr hSame
  · rw [hi.2 p hSame] at hp
    exact .inl hp

/-- An action that does not touch the files. -/
theorem files_of_ends {α : Type} {m : Op α} (hAfter : Attempt.After
      (fun _ h' => h'.files = h.files) (Failed fun h' => h'.files = h.files) (m h))
    (hEnds : Attempt.Ends m h h') : h'.files = h.files :=
  hAfter.ends (fun _ _ hFailed => hFailed.2) hEnds

theorem steady_files : Steady fun h' => h'.files = fs := ⟨fun _ hi => hi, fun _ hi => hi⟩

theorem insertName_ends {p : Nat} (hEnds : Attempt.Ends (insertName p) h h') :
    h'.files = h.files := by
  unfold insertName Attempt.Ends at hEnds
  dsimp only at hEnds
  split at hEnds
  · split at hEnds
    · rcases hEnds with ⟨a, hOk⟩ | ⟨code, hError⟩
      · exact absurd hOk nofun
      · cases hError
        rfl
    · rcases hEnds with ⟨a, hOk⟩ | ⟨code, hError⟩
      · cases hOk
        rfl
      · exact absurd hError nofun
  · rcases hEnds with ⟨a, hOk⟩ | ⟨code, hError⟩
    · exact absurd hOk nofun
    · exact absurd hError nofun

/-- After `ic_create_file` the path holds a file, or nothing has happened. -/
theorem createFile_ends (hEnds : Attempt.Ends (createFile path) h h') :
    h'.files = h.files ∨ Holding path h.files h'.files := by
  rcases hEnds with ⟨u, hOk⟩ | ⟨code, hError⟩
  · rcases createFile_eq_ok.mp hOk with ⟨-, rfl⟩
    exact .inr (holding_setFile h.files path [])
  · left
    unfold createFile at hError
    rcases (reply_after (@steady_files h.files) rfl).cases with
      ⟨_, h₁, hReply, -⟩ | ⟨code₁, h₁, hReply, hFailed⟩
    · rw [hReply] at hError
      exact absurd hError nofun
    · rw [hReply] at hError
      cases hError
      exact hFailed.2

theorem receiveLines_ends (hi : Holding path fs h.files)
    (hEnds : Attempt.Ends (receiveLines path numLines) h h') : Holding path fs h'.files := by
  have hSteady : Steady fun h => Holding path fs h.files := ⟨fun _ hi => hi, fun _ hi => hi⟩
  have hAfter : Attempt.After (fun _ h' => Holding path fs h'.files)
      (Failed fun h' => Holding path fs h'.files) (receiveLines path numLines h) :=
    receiveLines_steady hSteady (fun c hi => hi.setFile c) hi
  exact hAfter.ends (fun _ _ hFailed => hFailed.2) hEnds

theorem sendFileOk_ends (hEnds : Attempt.Ends sendFileOk h h') : h'.files = h.files :=
  files_of_ends (sendFileOk_steady steady_files (fun _ hi => hi) rfl) hEnds

/-- `handle_receive_file` without the end, where the name is freed. -/
theorem transfer_ends {p : Nat} (hEnds : Attempt.Ends (do
      insertName p
      createFile path
      receiveLines path numLines : Op Unit) h h') :
    h'.files = h.files ∨ Holding path h.files h'.files := by
  rcases ends_bind.mp hEnds with ⟨code, hError⟩ | ⟨_, h₂, hInsert, hRest⟩
  · exact .inl (insertName_ends (.inr ⟨code, hError⟩))
  · have hFiles : h₂.files = h.files := insertName_ends (.inl ⟨_, hInsert⟩)
    rcases ends_bind.mp hRest with ⟨code, hError⟩ | ⟨_, h₃, hCreate, hLines⟩
    · rw [← hFiles]
      exact createFile_ends (.inr ⟨code, hError⟩)
    · rcases createFile_eq_ok.mp hCreate with ⟨-, rfl⟩
      refine .inr (receiveLines_ends ?_ hLines)
      rw [← hFiles]
      exact holding_setFile h₂.files path []

theorem handleReceiveFile_eq : handleReceiveFile configDir name nodeId numLines h =
    andThen
      (do
        insertName h.next
        createFile (configDir nodeId ++ cStr name)
        receiveLines (configDir nodeId ++ cStr name) numLines : Op Unit)
      (fun h' => { h' with freed := h'.freed ++ [h.next] })
      { h with
        next := h.next + 1
        names := fun q => if q = h.next then configDir nodeId ++ cStr name else h.names q } := rfl

/-- A file of an installation is put at its path, or nothing happens. -/
theorem receiveFile_ends (hEnds : Attempt.Ends (receiveFile configDir nodeId name numLines) h h') :
    h'.files = h.files ∨ Holding (configDir nodeId ++ cStr name) h.files h'.files := by
  have hHandle : ∀ h', Attempt.Ends (handleReceiveFile configDir name nodeId numLines) h h' →
      h'.files = h.files ∨ Holding (configDir nodeId ++ cStr name) h.files h'.files := by
    intro h' hEnds
    unfold Attempt.Ends at hEnds
    rw [handleReceiveFile_eq] at hEnds
    rcases ends_andThen.mp hEnds with ⟨h₁, hTransfer, rfl⟩
    have hSame := transfer_ends hTransfer
    exact hSame
  unfold receiveFile at hEnds
  rcases ends_bind.mp hEnds with ⟨code, hError⟩ | ⟨_, h₁, hOk, hSend⟩
  · exact hHandle h' (.inr ⟨code, hError⟩)
  · have hFiles := sendFileOk_ends hSend
    rw [hFiles]
    exact hHandle h₁ (.inl ⟨_, hOk⟩)

/-- A sequence whose first part does not touch the files. -/
theorem ends_bind_files {α β : Type} {m : Op α} {f : α → Op β} {goal : Prop}
    (hm : ∀ h₁, Attempt.Ends m h h₁ → h₁.files = h.files) (hStop : h'.files = h.files → goal)
    (hf : ∀ a h₁, m h = .ok a h₁ → h₁.files = h.files → Attempt.Ends (f a) h₁ h' → goal)
    (hEnds : Attempt.Ends (m >>= f) h h') : goal := by
  rcases ends_bind.mp hEnds with ⟨code, hError⟩ | ⟨a, h₁, hOk, hRest⟩
  · exact hStop (hm h' (.inr ⟨code, hError⟩))
  · exact hf a h₁ hOk (hm h₁ (.inl ⟨a, hOk⟩)) hRest

theorem reply_ends (hEnds : Attempt.Ends reply h h') : h'.files = h.files :=
  files_of_ends (reply_after steady_files rfl) hEnds

theorem recSimpleStr_ends {str : Str} (hEnds : Attempt.Ends (recSimpleStr str) h h') :
    h'.files = h.files :=
  files_of_ends (recSimpleStr_after steady_files rfl) hEnds

theorem recNumber_ends {word : Str} (hEnds : Attempt.Ends (recNumber word) h h') :
    h'.files = h.files :=
  files_of_ends (recNumber_after steady_files rfl) hEnds

theorem recString_ends {word : Str} (hEnds : Attempt.Ends (recString word) h h') :
    h'.files = h.files :=
  files_of_ends (recString_after steady_files rfl) hEnds

theorem createConfigDir_ends (hEnds : Attempt.Ends createConfigDir h h') :
    h'.files = h.files := by
  have hMkdirs := ends_ignore.mp hEnds
  refine ends_bind_files (fun _ => reply_ends) id ?_ hMkdirs
  intro _ h₁ _ hFiles hReply
  exact (reply_ends hReply).trans hFiles

theorem handleReceiveFileAlone_ends
    (hEnds : Attempt.Ends (handleReceiveFileAlone configDir name nodeId numLines) h h') :
    h'.files = h.files ∨ Holding (configDir nodeId ++ cStr name) h.files h'.files := by
  refine ends_bind_files (fun _ => reply_ends) .inl ?_ hEnds
  intro _ h₁ _ hFiles hRest
  rw [← hFiles]
  right
  rcases ends_bind.mp hRest with ⟨code, hError⟩ | ⟨_, h₂, hOk, hLines⟩
  · exact absurd hError nofun
  · cases hOk
    exact receiveLines_ends (holding_setFile h₁.files _ []) hLines

/-- The command for config.ini alone puts it into the configuration directory. -/
theorem handleCopyConfigIni_ends (hEnds : Attempt.Ends (handleCopyConfigIni configDir) h h') :
    h'.files = h.files ∨ Holding (configDir 0 ++ configIni) h.files h'.files := by
  refine ends_bind_files (fun _ => recSimpleStr_ends) .inl ?_ hEnds
  intro _ h₁ _ hFiles₁ hEnds
  rw [← hFiles₁]
  refine ends_bind_files (fun _ => recNumber_ends) .inl ?_ hEnds
  intro numLines h₂ _ hFiles₂ hEnds
  rw [← hFiles₂]
  refine ends_bind_files (fun _ => createConfigDir_ends) .inl ?_ hEnds
  intro _ h₃ _ hFiles₃ hEnds
  rw [← hFiles₃]
  rcases ends_bind.mp hEnds with ⟨code, hError⟩ | ⟨_, h₄, hOk, hSend⟩
  · exact handleReceiveFileAlone_ends (.inr ⟨code, hError⟩)
  · rw [sendFileOk_ends hSend]
    exact handleReceiveFileAlone_ends (.inl ⟨_, hOk⟩)

/-! ## The installation -/

theorem holding_copied {lines : List Str} (hCopied : Copied file lines h h') :
    Holding file h.files h'.files := by
  rcases hCopied with ⟨-, h₁, ⟨rest, array, n, -, -, -, -, rfl⟩, rfl⟩
  exact holding_setFile h.files file (content lines)

/-- A round of the loop over the clusters puts a file at the path of the name that it has read. -/
theorem receiveCluster_ends (hEnds : Attempt.Ends (receiveCluster configDir nodeId) h h') :
    h'.files = h.files ∨ ∃ line count rest name numLines, h.input = line :: count :: rest ∧
      NameLine receiveClusterNameIniStr line name ∧ NumberLine numberOfLinesStr count numLines ∧
      Holding (configDir nodeId ++ cStr name) h.files h'.files := by
  refine ends_bind_files (fun _ => recString_ends) .inl ?_ hEnds
  intro name h₁ hName hFiles₁ hEnds
  rcases recString_eq_ok.mp hName with ⟨line, input₁, hInput, hLine, hRead⟩
  have hInput₁ : h₁.input = input₁ := by rw [hRead]
  rw [← hFiles₁]
  refine ends_bind_files (fun _ => recNumber_ends) .inl ?_ hEnds
  intro numLines h₂ hNumber hFiles₂ hEnds
  rcases recNumber_eq_ok.mp hNumber with ⟨count, rest, hRest, hCount, -⟩
  rw [← hFiles₂]
  rcases receiveFile_ends hEnds with hSame | hHolding
  · exact .inl hSame
  · right
    refine ⟨line, count, rest, name, numLines, ?_, hLine, hCount, hHolding⟩
    rw [hInput, ← hRest, hInput₁]

/-- A path that the loop over the clusters creates has a name that was announced, and the files
announced before are there. -/
theorem clusters_ends (hEnds : Attempt.Ends (loop n (receiveCluster configDir nodeId)) h h') :
    (∀ p, (h.files p).isSome → (h'.files p).isSome) ∧
      ∀ p, (h'.files p).isSome → (h.files p).isSome ∨
        ∃ sent line count rest name numLines, ClusterFiles h.input sent (line :: count :: rest) ∧
          sent.length < n ∧ NameLine receiveClusterNameIniStr line name ∧
          NumberLine numberOfLinesStr count numLines ∧
          (∀ file ∈ sent, (h'.files (CopyFiles.path configDir nodeId file)).isSome) ∧
          p = configDir nodeId ++ cStr name := by
  induction n generalizing h with
  | zero =>
    rcases hEnds with ⟨u, hOk⟩ | ⟨code, hError⟩
    · obtain ⟨-, rfl⟩ : u = () ∧ h' = h := pure_eq_ok.mp hOk
      exact ⟨fun _ hp => hp, fun _ hp => .inl hp⟩
    · exact absurd hError nofun
  | succ n ih =>
    have hFirst : ∀ h₁, Attempt.Ends (receiveCluster configDir nodeId) h h₁ →
        (∀ p, (h.files p).isSome → (h₁.files p).isSome) ∧
          ∀ p, (h₁.files p).isSome → (h.files p).isSome ∨
            ∃ line count rest name numLines, h.input = line :: count :: rest ∧
              NameLine receiveClusterNameIniStr line name ∧
              NumberLine numberOfLinesStr count numLines ∧ p = configDir nodeId ++ cStr name := by
      intro h₁ hEnds
      rcases receiveCluster_ends hEnds with
        hSame | ⟨line, count, rest, name, numLines, hInput, hLine, hCount, hHolding⟩
      · rw [hSame]
        exact ⟨fun _ hp => hp, fun _ hp => .inl hp⟩
      · refine ⟨fun _ hp => hHolding.isSome hp, fun p hp => ?_⟩
        rcases hHolding.eq_or hp with hOld | rfl
        · exact .inl hOld
        · exact .inr ⟨line, count, rest, name, numLines, hInput, hLine, hCount, rfl⟩
    -- a path of the first round, with nothing sent before
    have hNew : ∀ p, (∃ line count rest name numLines, h.input = line :: count :: rest ∧
          NameLine receiveClusterNameIniStr line name ∧
          NumberLine numberOfLinesStr count numLines ∧ p = configDir nodeId ++ cStr name) →
        ∃ sent line count rest name numLines, ClusterFiles h.input sent (line :: count :: rest) ∧
          sent.length < n + 1 ∧ NameLine receiveClusterNameIniStr line name ∧
          NumberLine numberOfLinesStr count numLines ∧
          (∀ file ∈ sent, (h'.files (CopyFiles.path configDir nodeId file)).isSome) ∧
          p = configDir nodeId ++ cStr name := by
      rintro p ⟨line, count, rest, name, numLines, hInput, hLine, hCount, rfl⟩
      exact ⟨[], line, count, rest, name, numLines, hInput ▸ .nil, Nat.succ_pos n, hLine, hCount,
        nofun, rfl⟩
    rcases ends_bind.mp hEnds with ⟨code, hError⟩ | ⟨_, h₁, hOk, hRest⟩
    · rcases hFirst h' (.inr ⟨code, hError⟩) with ⟨hKept, hMade⟩
      exact ⟨hKept, fun p hp => (hMade p hp).imp_right (hNew p)⟩
    · rcases hFirst h₁ (.inl ⟨_, hOk⟩) with ⟨hKept, hMade⟩
      rcases ih hRest with ⟨hKept', hMade'⟩
      refine ⟨fun p hp => hKept' p (hKept p hp), fun p hp => ?_⟩
      rcases hMade' p hp with hOld | ⟨sent, line, count, rest, name, numLines, hFiles, hLength,
        hLine, hCount, hSent, rfl⟩
      · exact (hMade p hOld).imp_right (hNew p)
      · right
        rcases receiveCluster_eq_ok.mp hOk with
          ⟨line₀, count₀, rest₀, name₀, lines₀, hInput₀, hLine₀, hCount₀, hCopied⟩
        refine ⟨(name₀, lines₀) :: sent, line, count, rest, name, numLines, ?_,
          Nat.succ_lt_succ hLength, hLine, hCount, ?_, rfl⟩
        · rw [hInput₀]
          refine .cons hLine₀ ⟨count₀, ?_, hCount₀, hCopied.short⟩ hFiles
          rw [cons_append, ← hCopied.input_eq]
        · exact forall_mem_cons.mpr ⟨hKept' _ (holding_copied hCopied).1, hSent⟩

theorem cStr_configIni : cStr configIni = configIni := by decide

theorem cStr_gridCommonIni : cStr gridCommonIni = gridCommonIni := by decide

/-- What is created after config.ini. -/
theorem receiveOthers_ends {numClusters : Nat}
    (hEnds : Attempt.Ends (receiveOthers configDir nodeId numClusters) h h')
    (hp : (h'.files p).isSome) :
    (h.files p).isSome ∨ p = configDir nodeId ++ gridCommonIni ∨
      ∃ gridCommon input₂ input₃ sent line count rest name numLines,
        h.input = receiveGridCommonIniStr :: input₂ ∧ FileLines input₂ gridCommon input₃ ∧
        ClusterFiles input₃ sent (line :: count :: rest) ∧ sent.length < numClusters ∧
        NameLine receiveClusterNameIniStr line name ∧ NumberLine numberOfLinesStr count numLines ∧
        (∀ file ∈ sent, (h'.files (CopyFiles.path configDir nodeId file)).isSome) ∧
        p = configDir nodeId ++ cStr name := by
  refine ends_bind_files (fun _ => recSimpleStr_ends) (fun hSame => .inl (hSame ▸ hp)) ?_ hEnds
  intro _ h₁ hGrid hFiles₁ hEnds₁
  rcases (recSimpleStr_eq_ok (by decide)).mp hGrid with ⟨input₂, hInput, hRead₁⟩
  have hInput₁ : h₁.input = input₂ := by rw [hRead₁]
  rw [← hFiles₁]
  refine ends_bind_files (fun _ => recNumber_ends) (fun hSame => .inl (hSame ▸ hp)) ?_ hEnds₁
  intro numLines h₂ hCount hFiles₂ hEnds₂
  rcases recNumber_eq_ok.mp hCount with ⟨count, lines, hNext₁, hCountLine, hRead₂⟩
  have hInput₂ : h₂.input = lines := by rw [hRead₂]
  rw [← hFiles₂]
  have hOld : ∀ h₃ : Host, Attempt.Ends (receiveFile configDir nodeId gridCommonIni numLines) h₂ h₃ →
      ∀ q, (h₃.files q).isSome → (h₂.files q).isSome ∨ q = configDir nodeId ++ gridCommonIni := by
    intro h₃ hFile q hq
    rcases receiveFile_ends hFile with hSame | hHolding
    · exact .inl (hSame ▸ hq)
    · rw [cStr_gridCommonIni] at hHolding
      exact hHolding.eq_or hq
  rcases ends_bind.mp hEnds₂ with ⟨code, hError⟩ | ⟨_, h₃, hFile, hLoop⟩
  · exact (hOld h' (.inr ⟨code, hError⟩) p hp).imp_right .inl
  · rcases (clusters_ends hLoop).2 p hp with hBefore | ⟨sent, line, count', rest, name, numLines',
      hSentFiles, hLength, hLine, hCountLine', hSent, rfl⟩
    · exact (hOld h₃ (.inl ⟨_, hFile⟩) p hBefore).imp_right .inl
    · rcases receiveFile_eq_ok.mp hFile with ⟨gridCommon, rfl, hCopied⟩
      have hLines : lines = gridCommon ++ [] :: h₃.input := hInput₂ ▸ hCopied.input_eq
      refine .inr (.inr ⟨gridCommon, input₂, h₃.input, sent, line, count', rest, name, numLines',
        hInput, ⟨count, ?_, hCountLine, hCopied.short⟩, hSentFiles, hLength, hLine, hCountLine',
        hSent, rfl⟩)
      rw [cons_append, ← hLines, ← hInput₁, hNext₁]

/-- Every path that an installation creates on an empty disk is the directory with config.ini, with
grid_common.ini, or with a name that is announced behind files that were created. -/
theorem copyFiles_creates (hEmpty : h.files = fun _ => none)
    (hEnds : Attempt.Ends (copyFiles configDir) h h') (hp : (h'.files p).isSome) :
    ∃ nodeId numClusters rest, Opening h.input nodeId numClusters rest ∧
      (p = configDir nodeId ++ configIni ∨ p = configDir nodeId ++ gridCommonIni ∨
        ∃ sent name, Announced h.input nodeId sent name ∧
          (∀ file ∈ sent, (h'.files (CopyFiles.path configDir nodeId file)).isSome) ∧
          p = configDir nodeId ++ cStr name) := by
  have hNothing : ∀ h₁ : Host, h₁.files = h.files → ¬ (h₁.files p).isSome := by
    intro h₁ hFiles hSome
    rw [hFiles, hEmpty] at hSome
    exact absurd hSome nofun
  refine ends_bind_files (fun _ => recNumber_ends) (fun hSame => absurd hp (hNothing h' hSame)) ?_
    hEnds
  intro nodeId h₁ hNode hFiles₁ hEnds₁
  rcases recNumber_eq_ok.mp hNode with ⟨node, input₁, hInput, hNodeLine, hRead₁⟩
  have hInput₁ : h₁.input = input₁ := by rw [hRead₁]
  refine ends_bind_files (fun _ => recNumber_ends)
    (fun hSame => absurd hp (hNothing h' (hSame.trans hFiles₁))) ?_ hEnds₁
  intro numClusters h₂ hClusters hFiles₂ hEnds₂
  rw [hFiles₁] at hFiles₂
  rcases recNumber_eq_ok.mp hClusters with ⟨clusters, input₂, hNext₁, hClustersLine, hRead₂⟩
  have hInput₂ : h₂.input = input₂ := by rw [hRead₂]
  refine ends_bind_files (fun _ => recSimpleStr_ends)
    (fun hSame => absurd hp (hNothing h' (hSame.trans hFiles₂))) ?_ hEnds₂
  intro _ h₃ hConfig hFiles₃ hEnds₃
  rw [hFiles₂] at hFiles₃
  rcases (recSimpleStr_eq_ok (by decide)).mp hConfig with ⟨input₃, hNext₂, hRead₃⟩
  have hInput₃ : h₃.input = input₃ := by rw [hRead₃]
  refine ends_bind_files (fun _ => recNumber_ends)
    (fun hSame => absurd hp (hNothing h' (hSame.trans hFiles₃))) ?_ hEnds₃
  intro numLines h₄ hCount hFiles₄ hEnds₄
  rw [hFiles₃] at hFiles₄
  rcases recNumber_eq_ok.mp hCount with ⟨count, input₄, hNext₃, hCountLine, hRead₄⟩
  have hInput₄ : h₄.input = input₄ := by rw [hRead₄]
  have hOpening : Opening h.input nodeId numClusters (count :: input₄) := by
    refine ⟨node, clusters, ?_, hNodeLine, hClustersLine⟩
    rw [hInput, ← hInput₁, hNext₁, ← hInput₂, hNext₂, ← hInput₃, hNext₃]
  refine ⟨nodeId, numClusters, count :: input₄, hOpening, ?_⟩
  refine ends_bind_files (fun _ => reply_ends)
    (fun hSame => absurd hp (hNothing h' (hSame.trans hFiles₄))) ?_ hEnds₄
  intro _ h₅ hReply hFiles₅ hEnds₅
  rw [hFiles₄] at hFiles₅
  have hInput₅ : h₅.input = input₄ := by
    rw [(reply_eq_ok.mp hReply).2]
    exact hInput₄
  -- the first file
  have hOld : ∀ h₆ : Host, Attempt.Ends (receiveFile configDir nodeId configIni numLines) h₅ h₆ →
      ∀ q, (h₆.files q).isSome → q = configDir nodeId ++ configIni := by
    intro h₆ hFile q hq
    rcases receiveFile_ends hFile with hSame | hHolding
    · rw [hSame, hFiles₅, hEmpty] at hq
      exact absurd hq nofun
    · rw [cStr_configIni, hFiles₅, hEmpty] at hHolding
      exact (hHolding.eq_or hq).resolve_left nofun
  rcases ends_bind.mp hEnds₅ with ⟨code, hError⟩ | ⟨_, h₆, hFile, hOthers⟩
  · exact .inl (hOld h' (.inr ⟨code, hError⟩) p hp)
  · rcases receiveOthers_ends hOthers hp with hBefore | rfl | ⟨gridCommon, input₆, input₇, sent,
      line, count', rest, name, numLines', hNext₆, hGridCommon, hSentFiles, hLength, hLine,
      hCountLine', hSent, rfl⟩
    · exact .inl (hOld h₆ (.inl ⟨_, hFile⟩) p hBefore)
    · exact .inr (.inl rfl)
    · rcases receiveFile_eq_ok.mp hFile with ⟨config, rfl, hCopied⟩
      have hLines : input₄ = config ++ [] :: h₆.input := hInput₅ ▸ hCopied.input_eq
      refine .inr (.inr ⟨sent, name, ⟨config, gridCommon, numClusters, numLines',
        count :: input₄, input₆, input₇, line, count', rest, hOpening,
        ⟨count, ?_, hCountLine, hCopied.short⟩, hGridCommon, hSentFiles, hLength, hLine,
        hCountLine'⟩, hSent, rfl⟩)
      rw [cons_append, ← hNext₆, ← hLines]

/-! ## One run -/

/-- An operation fails right after the file was created. -/
theorem receiveFile_stopped (hStored : Stored h) (hReplies : h.replies = [0, 1]) :
    ∃ code h', receiveFile configDir nodeId name numLines h = .error code h' ∧
      Holding (configDir nodeId ++ cStr name) h.files h'.files := by
  rcases hStored with ⟨slots, hSlots, hHead⟩
  rcases insertPtr_stored hSlots hHead h.next with ⟨array, hInsert, -, -⟩
  have hQuiet : Quiet 1 h.replies := by
    rw [hReplies]
    exact fun code hCode => mem_singleton.mp hCode
  have hNotOk : ∀ u h', handleReceiveFile configDir name nodeId numLines h ≠ .ok u h' := by
    intro u h' hOk
    rcases handleReceiveFile_eq_ok.mp hOk with ⟨lines, -, rest, array', n, -, -, hAll, -⟩
    rw [hReplies] at hAll
    have hOne : (1 : Nat) ∈ [0, 1].take (lines.length + 2) := by
      rw [take_succ_cons, take_succ_cons]
      exact mem_cons_of_mem 0 mem_cons_self
    exact absurd (hAll 1 hOne) Nat.one_ne_zero
  have hRun : ∃ h₁, handleReceiveFile configDir name nodeId numLines h =
      andThen
        (createFile (configDir nodeId ++ cStr name) >>= fun _ =>
          receiveLines (configDir nodeId ++ cStr name) numLines)
        (fun h' => { h' with freed := h'.freed ++ [h.next] }) h₁ ∧
      h₁.replies = h.replies ∧ h₁.files = h.files :=
    ⟨_, andThen_bind_of_ok
      (insertName_eq_ok (u := ()).mpr ⟨array, slots.length, hInsert, rfl⟩), rfl, rfl⟩
  rcases hRun with ⟨h₁, hRun, hReplies₁, hFiles₁⟩
  rw [← hReplies₁] at hQuiet
  rw [andThen_bind_of_ok (createFile_eq_ok (u := ()).mpr ⟨hQuiet, rfl⟩)] at hRun
  have hSteady : Steady fun h' => Holding (configDir nodeId ++ cStr name) h.files h'.files :=
    ⟨fun _ hi => hi, fun _ hi => hi⟩
  have hStart : Holding (configDir nodeId ++ cStr name) h.files
      (setFile h₁.files (configDir nodeId ++ cStr name) []) :=
    hFiles₁ ▸ holding_setFile h₁.files _ []
  have hLines : Attempt.After
      (fun _ h' => Holding (configDir nodeId ++ cStr name) h.files h'.files)
      (Failed fun h' => Holding (configDir nodeId ++ cStr name) h.files h'.files)
      (receiveLines (configDir nodeId ++ cStr name) numLines { h₁ with
        files := setFile h₁.files (configDir nodeId ++ cStr name) []
        replies := h₁.replies.drop 1 }) :=
    receiveLines_steady hSteady (fun c hi => hi.setFile c) hStart
  rcases hLines.cases with ⟨_, h₂, hOk, -⟩ | ⟨code, h₂, hError, -, hHolding⟩
  · rw [andThen_of_ok hOk] at hRun
    exact absurd hRun (hNotOk _ _)
  · rw [andThen_of_error hError] at hRun
    exact ⟨code, _, bind_of_error hRun, hHolding⟩

theorem quiet_replicate (k : Nat) (codes : List Nat) : Quiet k (List.replicate k 0 ++ codes) := by
  unfold Quiet
  rw [take_append_of_le_length (by rw [length_replicate]), take_of_length_le
    (by rw [length_replicate])]
  exact fun code hCode => (mem_replicate.mp hCode).2

theorem drop_replicate_append (k : Nat) (codes : List Nat) :
    (List.replicate k 0 ++ codes).drop k = codes := by
  conv_lhs => rw [← length_replicate (n := k) (a := 0)]
  rw [length_replicate, drop_left' length_replicate]

/-- A file that was sent holds the only paths that are new. -/
theorem Effect.eq_or (he : Effect configDir nodeId sent h h') (hp : (h'.files p).isSome) :
    (h.files p).isSome ∨ p ∈ sent.map (CopyFiles.path configDir nodeId) := by
  by_cases hMem : p ∈ sent.map (CopyFiles.path configDir nodeId)
  · exact .inr hMem
  · rw [he.files, foldl_setFile_of_not_mem (CopyFiles.path configDir nodeId)
      (fun file => content file.2) hMem] at hp
    exact .inl hp

/-- An announced name is created in the run in which the operation behind its creation is the first
one to fail, and nothing else is created behind the files before it. -/
theorem creates_announced (configDir : Nat → Str) (hAnnounced : Announced input nodeId sent name) :
    ∃ replies, Creates (copyFiles configDir) input replies (configDir nodeId ++ cStr name) ∧
      ∀ p, Creates (copyFiles configDir) input replies p →
        p = configDir nodeId ++ configIni ∨ p = configDir nodeId ++ gridCommonIni ∨
          p ∈ sent.map (CopyFiles.path configDir nodeId) ∨ p = configDir nodeId ++ cStr name := by
  rcases hAnnounced with ⟨config, gridCommon, numClusters, numLines, input₁, input₂, input₃, line,
    count, rest, hOpening, hConfig, hGridCommon, hSent, hLength, hLine, hCount⟩
  generalize hFirst : 1 + (fileOps (configIni, config) + fileOps (gridCommonIni, gridCommon)) = first
  generalize hOps : (sent.map fileOps).sum = ops
  rcases createPtrArray_spec with ⟨array, hCreate, hInv⟩
  let s : Start := ⟨input, fun _ => none, List.replicate (first + ops) 0 ++ [0, 1]⟩
  have hQuiet : Quiet first s.replies ∧ Quiet ops (s.replies.drop first) :=
    quiet_add.mp (quiet_replicate (first + ops) [0, 1])
  -- the first two files
  rcases copyFiles_clusters configDir (h := s.host array) hOpening hConfig hGridCommon
    (stored_host (s := s) hInv.stored) (hFirst ▸ hQuiet.1) with
    ⟨h₂, hCopy, hStored₂, hInput₂, hEffect₂⟩
  have hReplies₂ : h₂.replies = s.replies.drop first := by
    rw [hEffect₂.replies, ← hFirst, ← drop_drop]
    rfl
  -- the files before the name
  rcases receiveCluster_loop_of configDir nodeId hSent hInput₂ hStored₂
    (by rw [hReplies₂, hOps]; exact hQuiet.2) with ⟨h₃, hLoop, hStored₃, hInput₃, hEffect₃⟩
  have hReplies₃ : h₃.replies = [0, 1] := by
    rw [hEffect₃.replies, hReplies₂, hOps, drop_drop]
    exact drop_replicate_append (first + ops) [0, 1]
  -- the name
  rcases @receiveFile_stopped configDir name { h₃ with input := rest } nodeId numLines
    hStored₃ hReplies₃ with
    ⟨code, h', hStopped, hHolding⟩
  have hRound : receiveCluster configDir nodeId h₃ = .error code h' := by
    unfold receiveCluster
    refine (bind_of_ok (recString_eq_ok.mpr ⟨line, count :: rest, hInput₃, hLine, rfl⟩)).trans
      ?_
    refine (bind_of_ok (recNumber_eq_ok.mpr ⟨count, rest, rfl, hCount, rfl⟩)).trans ?_
    exact hStopped
  have hEnd : copyFiles configDir (s.host array) = .error code h' :=
    hCopy.trans (loop_of_error hLength hLoop hRound)
  refine ⟨s.replies, ⟨array, h', hCreate, .inr ⟨code, hEnd⟩, hHolding.1⟩, ?_⟩
  rintro p ⟨array', h'', hCreate', hEnds, hp⟩
  obtain rfl : array = array' := Option.some.inj (hCreate.symm.trans hCreate')
  obtain rfl : h' = h'' := by
    rcases hEnds with ⟨u, hOk⟩ | ⟨code', hError⟩
    · exact absurd (hEnd.symm.trans hOk) nofun
    · have hSame := hEnd.symm.trans hError
      cases hSame
      rfl
  rcases hHolding.eq_or hp with hp₃ | rfl
  · rcases Effect.eq_or hEffect₃ hp₃ with hp₂ | hMem
    · rcases Effect.eq_or hEffect₂ hp₂ with hp₀ | hMem
      · exact absurd hp₀ nofun
      · simp only [map_cons, map_nil, mem_cons, not_mem_nil, or_false,
          CopyFiles.path, cStr_configIni, cStr_gridCommonIni] at hMem
        exact hMem.imp_right .inl
    · exact .inr (.inr (.inl hMem))
  · exact .inr (.inr (.inr rfl))

/-! ## Containment -/

theorem isFile_configIni : IsFile configIni ∧ slash ∉ configIni := by
  unfold IsFile IsName
  decide

theorem isFile_gridCommonIni : IsFile gridCommonIni ∧ slash ∉ gridCommonIni := by
  unfold IsFile IsName
  decide

/-- The clean-up stops the program before a file is deleted, or has nothing to do. -/
theorem not_deletes {replies : List Nat} : ¬ Deletes configDir input replies path := by
  rintro ⟨array, code, h, h', -, -, hDelete, hNone⟩
  cases hNum : h.numFiles with
  | zero =>
    rw [hNum] at hDelete
    obtain rfl := Option.some.inj hDelete
    cases hNone
  | succ n =>
    rw [hNum, range_succ_eq_map, deleteFiles] at hDelete
    rcases Option.bind_eq_some_iff.mp hDelete with ⟨⟨ret, p⟩, -, hRest⟩
    dsimp only at hRest
    split at hRest
    · cases hRest
    · cases hRest

/-- A received name is shorter than the line, which fits into the buffer of the connection. -/
theorem recString_fits (hRec : recString receiveClusterNameIniStr h = .ok name h') :
    name.length + 1 ≤ maxFileNameSize := by
  rcases recString_eq_ok.mp hRec with ⟨line, rest, -, ⟨hShort, hLong, -, hName⟩, -⟩
  have hWord : receiveClusterNameIniStr.length = 7 := by decide
  have hPos : receiveClusterNameIniStr.length ≤
      Protocol.valuePos receiveClusterNameIniStr line := by
    unfold Protocol.valuePos
    split
    · exact Nat.le_succ _
    · exact Nat.le_refl _
  have hSize : configReadBufSize = 256 := rfl
  have hMax : maxFileNameSize = 255 := rfl
  rw [← hName, length_drop]
  omega

/-- Every file of both commands is put directly into the directory, whatever fails, if and only if
no name with a slash is announced. -/
theorem contained_iff (dataDir : Str) (input : List Str) :
    Contained dataDir input ↔ NamesInside input := by
  constructor
  · intro hContained nodeId sent name hAnnounced hSent hFile hSlash
    rcases creates_announced (setConfigDir dataDir) hAnnounced with ⟨replies, hCreates, hOnly⟩
    have hPossible : Possible (copyFiles (setConfigDir dataDir)) input replies := by
      intro p hp
      rcases hOnly p hp with rfl | rfl | hMem | rfl
      · exact (isFile_path _ _).mpr isFile_configIni.1
      · exact (isFile_path _ _).mpr isFile_gridCommonIni.1
      · rcases List.mem_map.mp hMem with ⟨file, hFileSent, rfl⟩
        exact (isFile_path _ _).mpr (hSent file hFileSent)
      · exact (isFile_path _ _).mpr hFile
    have hInside := hContained.created replies hPossible _ hCreates
    rcases hAnnounced with ⟨_, _, _, _, _, _, _, _, _, _, hOpening, -⟩
    exact not_liesInside hOpening hSlash hInside
  · intro hNames
    refine ⟨?_, ?_, ?_, ?_⟩
    · rintro replies p ⟨array, h, -, hEnds, hp⟩
      rcases handleCopyConfigIni_ends hEnds with hSame | hHolding
      · rw [hSame] at hp
        exact absurd hp nofun
      · rcases hHolding.eq_or hp with hOld | rfl
        · exact absurd hOld nofun
        · exact directly_of_not_mem isFile_configIni.2 isFile_configIni.1
    · rintro replies hPossible p hCreates
      rcases id hCreates with ⟨array, h, hArray, hEnds, hp⟩
      rcases copyFiles_creates rfl hEnds hp with ⟨nodeId, numClusters, rest, hOpening, hMade⟩
      refine Or.inr ⟨nodeId, numClusters, rest, hOpening, ?_⟩
      rcases hMade with rfl | rfl | ⟨sent, name, hAnnounced, hSent, rfl⟩
      · exact directly_of_not_mem isFile_configIni.2 isFile_configIni.1
      · exact directly_of_not_mem isFile_gridCommonIni.2 isFile_gridCommonIni.1
      · -- what was created before are files, and so is this one
        have hFile : IsFile (cStr name) := (isFile_path _ _).mp (hPossible _ hCreates)
        have hFiles : ∀ file ∈ sent, IsFile (cStr file.1) := fun file hMem =>
          (isFile_path nodeId _).mp (hPossible _ ⟨array, h, hArray, hEnds, hSent file hMem⟩)
        exact directly_of_not_mem (hNames nodeId sent name hAnnounced hFiles hFile) hFile
    · exact fun replies p hDeletes => absurd hDeletes not_deletes
    · exact fun h name h' hRec => recString_fits hRec

/-- The lines of an installation with one cluster, whose file is called "../../x". -/
def climbing : List Str :=
  [ascii "cluster server node id: 1", ascii "number of clusters: 1", receiveConfigIniStr,
    ascii "number of lines: 0", [], receiveGridCommonIniStr, ascii "number of lines: 0", [],
    ascii "receive ../../x", ascii "number of lines: 0", []]

/-- With "../../x" a file is created above the configuration directory. -/
theorem climbing_not_contained :
    Creates (copyFiles (setConfigDir (ascii "/data/"))) climbing []
        (ascii "/data/config/node1/../../x") ∧
      ¬ LiesInside (ascii "/data/") climbing (ascii "/data/config/node1/../../x") ∧
      ¬ Contained (ascii "/data/") climbing := by
  have hOpening : Opening climbing 1 1 (climbing.drop 3) :=
    ⟨_, _, rfl, ⟨by decide, by decide, by decide⟩, ⟨by decide, by decide, by decide⟩⟩
  have hConversation : Conversation climbing 1
      [(configIni, []), (gridCommonIni, []), (ascii "../../x", [])] := by
    refine ⟨[], [], [(ascii "../../x", [])], climbing.drop 3, climbing.drop 6, climbing.drop 8, [],
      hOpening, ⟨_, rfl, ⟨by decide, by decide, by decide⟩, nofun⟩,
      ⟨_, rfl, ⟨by decide, by decide, by decide⟩, nofun⟩, ?_, rfl⟩
    exact .cons ⟨by decide, by decide, by decide, by decide⟩
      ⟨_, rfl, ⟨by decide, by decide, by decide⟩, nofun⟩ .nil
  rcases createPtrArray_spec with ⟨array, hCreate, hInv⟩
  let s : Start := ⟨climbing, fun _ => none, []⟩
  rcases copyFiles_of (setConfigDir (ascii "/data/")) (h := s.host array) hConversation
    (stored_host (s := s) hInv.stored) (by simp [Quiet, s, Start.host]) with ⟨h, hOk⟩
  rcases copyFiles_eq_ok hOk with ⟨nodeId, sent, hConversation', -, hEffect⟩
  obtain ⟨rfl, rfl⟩ := hConversation.unique hConversation'
  have hCreates : Creates (copyFiles (setConfigDir (ascii "/data/"))) climbing []
      (ascii "/data/config/node1/../../x") := by
    have hFiles : h.files = List.foldl
        (fun fs file => setFile fs (CopyFiles.path (setConfigDir (ascii "/data/")) 1 file)
          (content file.2)) (fun _ => none)
        [(configIni, []), (gridCommonIni, []), (ascii "../../x", [])] := hEffect.files
    refine ⟨array, h, hCreate, Or.inl ⟨(), hOk⟩, ?_⟩
    rw [hFiles]
    decide
  have hOutside : ¬ LiesInside (ascii "/data/") climbing (ascii "/data/config/node1/../../x") :=
    @not_liesInside _ (ascii "../../x") _ _ _ _ hOpening (by decide)
  refine ⟨hCreates, hOutside, fun hContained => ?_⟩
  refine hOutside (hContained.created [] ?_ _ hCreates)
  rintro p ⟨array', h', hCreate', hEnds, hp⟩
  obtain rfl : array = array' := Option.some.inj (hCreate.symm.trans hCreate')
  obtain rfl : h = h' := by
    rcases hEnds with ⟨u, hOk'⟩ | ⟨code, hError⟩
    · have hSame := hOk.symm.trans hOk'
      cases hSame
      rfl
    · cases hOk.symm.trans hError
  rcases Effect.eq_or hEffect hp with hOld | hMem
  · cases hOld
  · rcases List.mem_map.mp hMem with ⟨file, hFile, rfl⟩
    have hAll : ∀ file ∈ [(configIni, ([] : List Str)), (gridCommonIni, []), (ascii "../../x", [])],
        IsFile (cStr file.1) := by
      unfold IsFile IsName
      decide
    exact (isFile_path _ _).mpr (hAll file hFile)

end IClaustron.Pcntrl.Containment
