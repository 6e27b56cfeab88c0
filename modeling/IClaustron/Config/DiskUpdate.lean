import IClaustron.Config.VersionFile
import IClaustron.Lib.Faulty
import IClaustron.Lib.Overwrite

/-!
# Config.DiskUpdate — a new configuration version on disk

Model of ic_write_full_config_to_disk in api/ic_apic_conf_writer.ic. The new
configuration is written to files of its own, then config_version.ini is overwritten,
then the files of the old version are removed. A run may be cut off in front of every
file operation, or one file operation may fail; the file handles come from port/ic_port.c,
where every file is opened with O_SYNC.

The text of a configuration file is a list of buffers, each of them written by one
call; what is in it is of no concern here. Memory is there when it is needed.

Scope limits: ic_write_file, which goes on after a short write, is one operation, so a run is not
cut off within it.

* `Updated` — what the comment at the beginning of the function promises;
* `disk_update_iff` — the runs in which it is kept.
-/

namespace IClaustron.Config.DiskUpdate

open Lib Faulty Protocol List Function

/-! ## Files -/

abbrev Fs := Bytes → Option Bytes

/-- ENOENT. -/
def enoent : Nat := 2
/-- IC_ERROR_FAILED_TO_CREATE_CONFIG_VERSION. -/
def errorFailedToCreateConfigVersion : Nat := 7088

/-- The system calls. `write` appends to a file that was created before, `overwrite`
writes at the beginning of a file that was opened. -/
inductive FileOp where
  | unlink (path : Bytes)
  | create (path : Bytes)
  | write (path data : Bytes)
  | openFile (path : Bytes)
  | overwrite (path data : Bytes)
  | close (path : Bytes)
  | fileLength (path : Bytes)
  | read (path : Bytes)
deriving DecidableEq

/-- An error number, or the bytes that were read. -/
abbrev Reply := Except Nat Bytes

def sem : FileOp → Fs → Fs × Reply
  | .unlink path, fs =>
    match fs path with
    | none => (fs, .error enoent)
    | some _ => (update fs path none, .ok [])
  | .create path, fs => (update fs path (some []), .ok [])
  | .write path data, fs => (update fs path ((fs path).map (· ++ data)), .ok [])
  | .openFile path, fs =>
    match fs path with
    | none => (fs, .error enoent)
    | some _ => (fs, .ok [])
  | .overwrite path data, fs =>
    (update fs path ((fs path).map fun old => data ++ old.drop data.length), .ok [])
  | .close _, fs => (fs, .ok [])
  | .fileLength _, fs => (fs, .ok [])
  | .read path, fs => (fs, .ok ((fs path).getD []))

/-- An operation on a file that is there fails. -/
def bad (_ : FileOp) (r : Reply) : Prop := ∃ code, r = .error code ∧ code ≠ 0 ∧ code ≠ enoent

abbrev FileProg := Prog FileOp Reply

/-- The error number of a system call, 0 when there is none. -/
def code (op : FileOp) : FileProg Nat := do
  match ← Prog.op op with
  | .ok _ => pure 0
  | .error code => pure code

/-- `if ((error= x)) goto error; y`. -/
def checked (x y : FileProg Nat) : FileProg Nat := do
  let error ← x
  if error ≠ 0 then pure error else y

/-- `ic_delete_file`. A file that is not there counts as deleted. -/
def deleteFile (path : Bytes) : FileProg Nat := do
  let error ← code (.unlink path)
  pure (if error = enoent then 0 else error)

/-- `ic_close_file`; nobody looks at its return code. -/
def closeFile (path : Bytes) : FileProg Unit := do
  let _ ← code (.close path)

/-- `ic_get_file_contents`. -/
def getFileContents (path : Bytes) : FileProg (Except Nat Bytes) := do
  let error ← code (.openFile path)
  if error ≠ 0 then pure (.error error)
  else
    let error ← code (.fileLength path)
    if error ≠ 0 then pure (.error error) else Prog.op (.read path)

/-! ## Configurations -/

/-- The name of the version file without its ending. -/
def configVersionString : Bytes := configString ++ versionFileString

/-- A set of configurations: the text of config.ini, of grid_common.ini and of one file
for each cluster. -/
structure Configs where
  grid : List Bytes
  common : List Bytes
  clusters : List (Bytes × List Bytes)
  nonempty : clusters ≠ []
  distinct : (clusters.map Prod.fst).Nodup
  reserved : ∀ name ∈ clusters.map Prod.fst,
    name ≠ configString ∧ name ≠ gridCommonConfigString ∧ name ≠ configVersionString

/-- All files of a configuration, by name. -/
def Configs.files (cfg : Configs) : List (Bytes × List Bytes) :=
  (configString, cfg.grid) :: (gridCommonConfigString, cfg.common) :: cfg.clusters

/-! ## Model -/

section

variable (configDir : Bytes)

/-- The loop of `remove_config_files` over the clusters. -/
def removeClusterFiles (version : Nat) : List (Bytes × List Bytes) → FileProg Nat
  | [] => pure 0
  | cluster :: clusters =>
    checked (deleteFile (configFileName configDir cluster.1 version))
      (removeClusterFiles version clusters)

/-- `remove_config_files`. In the place of grid_common.ini it deletes config.ini a second
time. -/
def removeConfigFiles (cfg : Configs) (version : Nat) : FileProg Nat :=
  checked (deleteFile (configFileName configDir configString version)) <|
  checked (deleteFile (configFileName configDir configString version)) <|
  removeClusterFiles configDir version cfg.clusters

/-- `ic_write_dynamic_array_to_disk`. -/
def writeDynamicArrayToDisk (path : Bytes) : List Bytes → FileProg Nat
  | [] => pure 0
  | buf :: bufs => checked (code (.write path buf)) (writeDynamicArrayToDisk path bufs)

/-- `write_grid_config_file` and `write_cluster_config_file`. -/
def writeFile (name : Bytes) (version : Nat) (text : List Bytes) : FileProg Nat :=
  let path := configFileName configDir name version
  checked (code (.create path)) do
    let error ← writeDynamicArrayToDisk path text
    closeFile path
    pure error

/-- `write_config_files`, over the files of the configuration. -/
def writeConfigFiles (version : Nat) : List (Bytes × List Bytes) → FileProg Nat
  | [] => pure 0
  | file :: files =>
    checked (writeFile configDir file.1 version file.2) (writeConfigFiles version files)

/-- `write_cv_file`. -/
def writeCvFile (cv : ConfigVersion) : FileProg Nat := do
  let path := configVersionFileName configDir
  let create : FileProg Nat := checked (code (.create path)) do
    closeFile path
    pure 0
  let error ← checked (if cv.version = 0 then create else pure 0) <|
    checked (code (.openFile path)) do
      let error ← code (.overwrite path (cvBuf cv))
      closeFile path
      pure error
  pure (if error = enoent then errorFailedToCreateConfigVersion else error)

/-- `read_config_version_file`. -/
def readConfigVersionFile : FileProg (Except Nat ConfigVersion) := do
  match ← getFileContents (configVersionFileName configDir) with
  | .error error => pure (if error = enoent then .ok ⟨0, configStateIdle, 0⟩ else .error error)
  | .ok data => pure (readCv data)

/-- `write_config_version_file`. -/
def writeConfigVersionFile (cv : ConfigVersion) : FileProg Nat :=
  checked (writeCvFile configDir cv) do
    match ← readConfigVersionFile configDir with
    | .error error => pure error
    | .ok read => pure (if read ≠ cv then 1 else 0)

/-- `ic_write_full_config_to_disk`: the return code, and the new value of
`*old_config_version_number`. -/
def writeFullConfigToDisk (oldVersion pid : Nat) (cfg : Configs) : FileProg (Nat × Nat) := do
  -- step 0
  let error ← (if 1 < oldVersion then removeConfigFiles configDir cfg (oldVersion - 1) else pure 0)
  if error ≠ 0 then pure (error, oldVersion)
  else
    -- steps 1 and 2
    let error ← checked (writeConfigFiles configDir (oldVersion + 1) cfg.files)
      (writeConfigVersionFile configDir ⟨oldVersion + 1, configStateBusy, pid⟩)
    if error ≠ 0 then
      let _ ← removeConfigFiles configDir cfg (oldVersion + 1)
      if oldVersion = 0 then
        let _ ← deleteFile (configVersionFileName configDir)
      pure (error, oldVersion)
    else
      -- step 3
      let error ← (if 0 < oldVersion then removeConfigFiles configDir cfg oldVersion else pure 0)
      if error ≠ 0 then pure (error, oldVersion)
      else pure (0, oldVersion + 1)

end

/-! ## What the update is for -/

section

variable (configDir : Bytes)

/-- The version that `read_config_version_file` finds. -/
def recorded (fs : Fs) : Option Nat :=
  match fs (configVersionFileName configDir) with
  | none => some 0
  | some data => (readCv data).toOption.map ConfigVersion.version

/-- All files of the configuration are there, with all of their text. -/
def Complete (cfg : Configs) (version : Nat) (fs : Fs) : Prop :=
  ∀ file ∈ cfg.files, fs (configFileName configDir file.1 version) = some file.2.flatten

/-- The old configuration is the recorded one, or the new one is. -/
def Atomic (old new : Configs) (v : Nat) (fs : Fs) : Prop :=
  (recorded configDir fs = some v ∧ Complete configDir old v fs) ∨
    (recorded configDir fs = some (v + 1) ∧ Complete configDir new (v + 1) fs)

/-- The run was cut off, or an operation has failed. -/
def Faulted (hist : List (Event FileOp Reply)) (res : Option (Nat × Nat)) : Prop :=
  res = none ∨ ∃ op r, Event.failed op r ∈ hist

/-- A disturbed update leaves one of the two configurations, and an undisturbed one leaves
the new one alone. -/
structure Updated (old new : Configs) (v : Nat) (fs : Fs) (hist : List (Event FileOp Reply))
    (res : Option (Nat × Nat)) : Prop where
  disturbed : Faulted hist res → Atomic configDir old new v fs
  undisturbed : ¬ Faulted hist res →
    res = some (0, v + 1) ∧ recorded configDir fs = some (v + 1) ∧
      Complete configDir new (v + 1) fs ∧
      ∀ file ∈ old.files, fs (configFileName configDir file.1 v) = none

/-- The version file was overwritten. -/
def Switched (hist : List (Event FileOp Reply)) : Prop :=
  ∃ data, Event.done (.overwrite (configVersionFileName configDir) data) ∈ hist

/-- The operations that read the version file back. -/
def readBackOps : List FileOp :=
  [.openFile (configVersionFileName configDir), .fileLength (configVersionFileName configDir),
    .read (configVersionFileName configDir)]

/-- Reading the version file has failed. -/
def ReadBackFails (hist : List (Event FileOp Reply)) : Prop :=
  ∃ op ∈ readBackOps configDir, ∃ r, Event.failed op r ∈ hist

/-- The runs that keep the promise. -/
def Kept (v : Nat) (hist : List (Event FileOp Reply)) (res : Option (Nat × Nat)) : Prop :=
  Faulted hist res ∧
    (Switched configDir hist → v < 2 ^ 32 ∧ (ReadBackFails configDir hist → v = 0))

end

/-! ## Operations on the files of one version -/

variable {configDir : Bytes} {c c' : Conf Fs FileOp Reply} {cfg old new : Configs} {v w : Nat}

/-- Operations on the files of version `w` with a name in `N`. -/
inductive Touches (configDir : Bytes) (N : List Bytes) (w : Nat) : FileOp → Prop where
  | unlink {name : Bytes} : name ∈ N → Touches configDir N w (.unlink (configFileName configDir name w))
  | create {name : Bytes} : name ∈ N → Touches configDir N w (.create (configFileName configDir name w))
  | write {name : Bytes} (data : Bytes) : name ∈ N →
    Touches configDir N w (.write (configFileName configDir name w) data)
  | close {name : Bytes} : name ∈ N → Touches configDir N w (.close (configFileName configDir name w))

variable {name path : Bytes} {fs : Fs} {P : FileOp → Prop}

theorem sem_frame {N : List Bytes} {op : FileOp} (h : Touches configDir N w op)
    (hpath : ∀ name ∈ N, path ≠ configFileName configDir name w) :
    (sem op fs).1 path = fs path := by
  cases h with
  | @unlink name hname =>
    dsimp only [sem]
    split
    · rfl
    · exact update_of_ne (hpath name hname) _ _
  | @create name hname => exact update_of_ne (hpath name hname) _ _
  | @write name data hname => exact update_of_ne (hpath name hname) _ _
  | close => rfl

section

variable {α : Type} {p : FileProg α} {res : Option α} {N : List Bytes}

/-- All other files are as before. -/
theorem run_frame (hrun : Run sem bad p c c' res) (hp : p.Only (Touches configDir N w))
    (hpath : ∀ name ∈ N, path ≠ configFileName configDir name w) :
    c'.state path = c.state path := by
  refine hrun.state_only (I := fun fs => fs path = c.state path) hp ?_ rfl
  intro op fs hop hfs
  rw [sem_frame hop hpath, hfs]

theorem touches_overwrite {data : Bytes} : ¬ Touches configDir N w (.overwrite path data) := nofun

theorem touches_readBack {op : FileOp} (hop : op ∈ readBackOps configDir) :
    ¬ Touches configDir N w op := by
  simp only [readBackOps, mem_cons, not_mem_nil, or_false] at hop
  rcases hop with rfl | rfl | rfl
  · nofun
  · nofun
  · nofun

theorem run_switched (hrun : Run sem bad p c c' res) (hp : p.Only (Touches configDir N w)) :
    Switched configDir c'.hist ↔ Switched configDir c.hist := by
  rcases hrun.hist_only hp with ⟨events, hhist, hevents⟩
  rw [hhist]
  constructor
  · rintro ⟨data, h⟩
    rcases mem_append.mp h with h | h
    · exact ⟨data, h⟩
    · exact absurd (hevents _ h) touches_overwrite
  · rintro ⟨data, h⟩
    exact ⟨data, mem_append_left _ h⟩

theorem run_readBackFails (hrun : Run sem bad p c c' res) (hp : p.Only (Touches configDir N w)) :
    ReadBackFails configDir c'.hist ↔ ReadBackFails configDir c.hist := by
  rcases hrun.hist_only hp with ⟨events, hhist, hevents⟩
  rw [hhist]
  constructor
  · rintro ⟨op, hop, r, h⟩
    rcases mem_append.mp h with h | h
    · exact ⟨op, hop, r, h⟩
    · exact absurd (hevents _ h) (touches_readBack hop)
  · rintro ⟨op, hop, r, h⟩
    exact ⟨op, hop, r, mem_append_left _ h⟩

end

/-! ## Runs of the parts -/

theorem code_cases {op : FileOp} {res : Option Nat} (hrun : Run sem bad (code op) c c' res) :
    (c' = ⟨(sem op c.state).1, c.hist ++ [.done op], c.spare⟩ ∧
        res = some (match (sem op c.state).2 with
          | .ok _ => 0
          | .error error => error)) ∨
      (c.spare = true ∧ c' = ⟨c.state, c.hist, false⟩ ∧ res = none) ∨
      (c.spare = true ∧ ∃ error, error ≠ 0 ∧ error ≠ enoent ∧
        c' = ⟨c.state, c.hist ++ [.failed op (.error error)], false⟩ ∧ res = some error) := by
  rcases run_bind hrun with ⟨c₁, r, hop, hrest⟩ | ⟨hop, rfl⟩
  · rcases run_op hop with ⟨rfl, hr⟩ | ⟨_, _, hr⟩ | ⟨hspare, r', ⟨error, rfl, hne, hnoent⟩, rfl, hr⟩
    · cases hr
      left
      revert hrest
      rcases (sem op c.state).2 with error | data
      · intro hrest
        exact run_pure hrest
      · intro hrest
        exact run_pure hrest
    · cases hr
    · cases hr
      rcases run_pure hrest with ⟨rfl, rfl⟩
      exact .inr (.inr ⟨hspare, error, hne, hnoent, rfl, rfl⟩)
  · rcases run_op hop with ⟨_, hr⟩ | ⟨hspare, rfl, _⟩ | ⟨_, _, _, _, hr⟩
    · cases hr
    · exact .inr (.inl ⟨hspare, rfl, rfl⟩)
    · cases hr

theorem checked_cases {x y : FileProg Nat} {res : Option Nat}
    (hrun : Run sem bad (checked x y) c c' res) :
    (∃ c₁, Run sem bad x c c₁ (some 0) ∧ Run sem bad y c₁ c' res) ∨
      (Run sem bad x c c' res ∧ res ≠ some 0) := by
  rcases run_bind hrun with ⟨c₁, error, hx, hrest⟩ | ⟨hx, rfl⟩
  · by_cases herror : error = 0
    · subst herror
      exact .inl ⟨c₁, hx, hrest⟩
    · rw [if_pos herror] at hrest
      rcases run_pure hrest with ⟨rfl, rfl⟩
      exact .inr ⟨hx, fun h => herror (Option.some.inj h)⟩
  · exact .inr ⟨hx, nofun⟩

theorem only_code {op : FileOp} (hop : P op) : (code op).Only P := by
  refine only_bind (only_op hop) ?_
  rintro (error | data)
  · exact trivial
  · exact trivial

theorem only_checked {x y : FileProg Nat} (hx : x.Only P) (hy : y.Only P) :
    (checked x y).Only P := by
  refine only_bind hx ?_
  intro error
  split_ifs
  · exact trivial
  · exact hy

theorem only_deleteFile (hop : P (.unlink path)) : (deleteFile path).Only P :=
  only_bind (only_code hop) fun _ => trivial

theorem only_closeFile (hop : P (.close path)) : (closeFile path).Only P :=
  only_bind (only_code hop) fun _ => trivial

/-! ### Removing files -/

/-- The names that `remove_config_files` goes through. -/
def Configs.removed (cfg : Configs) : List Bytes := configString :: cfg.clusters.map Prod.fst

theorem only_removeClusterFiles {N : List Bytes} {clusters : List (Bytes × List Bytes)}
    (hN : ∀ cluster ∈ clusters, cluster.1 ∈ N) :
    (removeClusterFiles configDir w clusters).Only (Touches configDir N w) := by
  induction clusters with
  | nil => exact trivial
  | cons cluster clusters ih =>
    refine only_checked (only_deleteFile (.unlink (hN cluster mem_cons_self))) (ih ?_)
    intro other hother
    exact hN other (mem_cons_of_mem _ hother)

theorem only_removeConfigFiles (cfg : Configs) (w : Nat) :
    (removeConfigFiles configDir cfg w).Only (Touches configDir cfg.removed w) := by
  have hconfig : (deleteFile (configFileName configDir configString w)).Only
      (Touches configDir cfg.removed w) := only_deleteFile (.unlink mem_cons_self)
  refine only_checked hconfig (only_checked hconfig (only_removeClusterFiles ?_))
  intro cluster hcluster
  exact mem_cons_of_mem _ (mem_map_of_mem hcluster)

theorem deleteFile_cases {res : Option Nat} (hrun : Run sem bad (deleteFile path) c c' res) :
    c'.state path = none ∨ (c.spare = true ∧ c'.state = c.state) := by
  have hcode : ∀ error, Run sem bad (code (.unlink path)) c c' error →
      c'.state path = none ∨ (c.spare = true ∧ c'.state = c.state) := by
    intro error hcode
    rcases code_cases hcode with ⟨rfl, _⟩ | ⟨hspare, rfl, _⟩ | ⟨hspare, _, _, _, rfl, _⟩
    · left
      dsimp only [sem]
      split
      next h => exact h
      next => exact update_self _ _ _
    · exact .inr ⟨hspare, rfl⟩
    · exact .inr ⟨hspare, rfl⟩
  rcases run_bind hrun with ⟨c₁, error, hunlink, hrest⟩ | ⟨hunlink, rfl⟩
  · rcases run_pure hrest with ⟨rfl, _⟩
    exact hcode _ hunlink
  · exact hcode _ hunlink

/-- A file that is deleted after the fault is gone. -/
theorem deleteFile_gone {res : Option Nat} (hrun : Run sem bad (deleteFile path) c c' res)
    (hspare : c.spare = false) : c'.state path = none := by
  rcases deleteFile_cases hrun with h | ⟨h, _⟩
  · exact h
  · rw [hspare] at h
    cases h

theorem removeConfigFiles_gone {res : Option Nat}
    (hrun : Run sem bad (removeConfigFiles configDir cfg w) c c' res) (hspare : c.spare = false) :
    c'.state (configFileName configDir configString w) = none := by
  rcases checked_cases hrun with ⟨c₁, hfirst, hrest⟩ | ⟨hfirst, _⟩
  · have hspare₁ := (hfirst.spare hspare).1
    rcases checked_cases hrest with ⟨c₂, hsecond, hclusters⟩ | ⟨hsecond, _⟩
    · have hgone := deleteFile_gone hsecond hspare₁
      have honly : (removeClusterFiles configDir w cfg.clusters).Only
          (Touches configDir (cfg.clusters.map Prod.fst) w) :=
        only_removeClusterFiles fun cluster hcluster => mem_map_of_mem hcluster
      rw [run_frame hclusters honly, hgone]
      intro name hname heq
      exact (cfg.reserved name hname).1 (configFileName_inj heq).1.symm
    · exact deleteFile_gone hsecond hspare₁
  · exact deleteFile_gone hfirst hspare

/-! ### Writing files -/

theorem Configs.mem_files {file : Bytes × List Bytes} (hfile : file ∈ cfg.files) :
    file.1 ∈ cfg.files.map Prod.fst := mem_map_of_mem hfile

theorem Configs.nodup_files (cfg : Configs) : (cfg.files.map Prod.fst).Nodup := by
  have hnames : configString ≠ gridCommonConfigString := by decide
  simp only [Configs.files, map_cons, nodup_cons]
  refine ⟨?_, ?_, cfg.distinct⟩
  · intro hmem
    rcases mem_cons.mp hmem with heq | hmem
    · exact hnames heq
    · exact (cfg.reserved _ hmem).1 rfl
  · intro hmem
    exact (cfg.reserved _ hmem).2.1 rfl

theorem Configs.ne_version (cfg : Configs) :
    ∀ name ∈ cfg.files.map Prod.fst, name ≠ configVersionString := by
  have hconfig : configString ≠ configVersionString := by decide
  have hcommon : gridCommonConfigString ≠ configVersionString := by decide
  intro name hname
  simp only [Configs.files, map_cons, mem_cons] at hname
  rcases hname with rfl | rfl | hname
  · exact hconfig
  · exact hcommon
  · exact (cfg.reserved name hname).2.2

theorem only_writeDynamicArrayToDisk {N : List Bytes} (hname : name ∈ N) (text : List Bytes) :
    (writeDynamicArrayToDisk (configFileName configDir name w) text).Only
      (Touches configDir N w) := by
  induction text with
  | nil => exact trivial
  | cons buf bufs ih => exact only_checked (only_code (.write buf hname)) ih

theorem only_writeFile {N : List Bytes} (hname : name ∈ N) (text : List Bytes) :
    (writeFile configDir name w text).Only (Touches configDir N w) := by
  refine only_checked (only_code (.create hname)) ?_
  refine only_bind (only_writeDynamicArrayToDisk hname text) ?_
  intro error
  exact only_bind (only_closeFile (.close hname)) fun _ => trivial

theorem only_writeConfigFiles {N : List Bytes} {files : List (Bytes × List Bytes)}
    (hN : ∀ file ∈ files, file.1 ∈ N) :
    (writeConfigFiles configDir w files).Only (Touches configDir N w) := by
  induction files with
  | nil => exact trivial
  | cons file files ih =>
    refine only_checked (only_writeFile (hN file mem_cons_self) file.2) (ih ?_)
    intro other hother
    exact hN other (mem_cons_of_mem _ hother)

theorem closeFile_state {res : Option Unit} (hrun : Run sem bad (closeFile path) c c' res) :
    c'.state = c.state := by
  rcases run_bind hrun with ⟨c₁, error, hcode, hrest⟩ | ⟨hcode, rfl⟩
  · rcases run_pure hrest with ⟨rfl, _⟩
    rcases code_cases hcode with ⟨rfl, _⟩ | ⟨_, rfl, _⟩ | ⟨_, _, _, _, rfl, _⟩
    · rfl
    · rfl
    · rfl
  · rcases code_cases hcode with ⟨rfl, _⟩ | ⟨_, rfl, _⟩ | ⟨_, _, _, _, rfl, _⟩
    · rfl
    · rfl
    · rfl

/-- An array that was written with success is behind what was in the file. -/
theorem writeDynamicArrayToDisk_ok {data : Bytes} {text : List Bytes}
    (hrun : Run sem bad (writeDynamicArrayToDisk path text) c c' (some 0))
    (hdata : c.state path = some data) : c'.state path = some (data ++ text.flatten) := by
  induction text generalizing c data with
  | nil =>
    rcases run_pure hrun with ⟨rfl, _⟩
    rw [hdata, flatten_nil, append_nil]
  | cons buf bufs ih =>
    rcases checked_cases hrun with ⟨c₁, hwrite, hrest⟩ | ⟨_, hne⟩
    · rcases code_cases hwrite with ⟨rfl, _⟩ | ⟨_, _, h⟩ | ⟨_, error, hne, _, _, h⟩
      · have hstate : (sem (.write path buf) c.state).1 path = some (data ++ buf) := by
          simp [sem, hdata]
        rw [ih hrest hstate, flatten_cons, append_assoc]
      · cases h
      · exact absurd (Option.some.inj h).symm hne
    · exact absurd rfl hne

theorem writeFile_ok {text : List Bytes}
    (hrun : Run sem bad (writeFile configDir name w text) c c' (some 0)) :
    c'.state (configFileName configDir name w) = some text.flatten := by
  rcases checked_cases hrun with ⟨c₁, hcreate, hrest⟩ | ⟨_, hne⟩
  · rcases code_cases hcreate with ⟨rfl, _⟩ | ⟨_, _, h⟩ | ⟨_, error, hne, _, _, h⟩
    · rcases run_bind hrest with ⟨c₂, error, hwrite, htail⟩ | ⟨_, h⟩
      · rcases run_bind htail with ⟨c₃, _, hclose, hret⟩ | ⟨_, h⟩
        · rcases run_pure hret with ⟨rfl, herror⟩
          cases herror
          have hempty : (sem (.create (configFileName configDir name w)) c.state).1
              (configFileName configDir name w) = some [] := update_self _ _ _
          rw [closeFile_state hclose, writeDynamicArrayToDisk_ok hwrite hempty, nil_append]
        · cases h
      · cases h
    · cases h
    · exact absurd (Option.some.inj h).symm hne
  · exact absurd rfl hne

theorem writeConfigFiles_ok {files : List (Bytes × List Bytes)}
    (hnodup : (files.map Prod.fst).Nodup)
    (hrun : Run sem bad (writeConfigFiles configDir w files) c c' (some 0)) :
    ∀ file ∈ files, c'.state (configFileName configDir file.1 w) = some file.2.flatten := by
  induction files generalizing c with
  | nil => nofun
  | cons first files ih =>
    rw [map_cons, nodup_cons] at hnodup
    rcases checked_cases hrun with ⟨c₁, hwrite, hrest⟩ | ⟨_, hne⟩
    · have hfirst : c'.state (configFileName configDir first.1 w) = some first.2.flatten := by
        -- the files after the first have other names
        rw [run_frame hrest (only_writeConfigFiles fun file hfile => mem_map_of_mem hfile)]
        · exact writeFile_ok hwrite
        · intro name hname heq
          rw [(configFileName_inj heq).1] at hnodup
          exact hnodup.1 hname
      intro file hfile
      rcases mem_cons.mp hfile with rfl | hfile
      · exact hfirst
      · exact ih hnodup.2 hrest file hfile
    · exact absurd rfl hne

/-! ### The version file -/

section

variable {h : List (Event FileOp Reply)} {op : FileOp} {r : Reply} {cv : ConfigVersion}

@[simp] theorem switched_done : Switched configDir (h ++ [.done op]) ↔
    Switched configDir h ∨ ∃ data, op = .overwrite (configVersionFileName configDir) data := by
  simp [Switched, exists_or, eq_comm]

@[simp] theorem switched_failed :
    Switched configDir (h ++ [.failed op r]) ↔ Switched configDir h := by
  simp [Switched]

@[simp] theorem readBackFails_done :
    ReadBackFails configDir (h ++ [.done op]) ↔ ReadBackFails configDir h := by
  simp [ReadBackFails]

@[simp] theorem readBackFails_failed : ReadBackFails configDir (h ++ [.failed op r]) ↔
    ReadBackFails configDir h ∨ op ∈ readBackOps configDir := by
  constructor
  · rintro ⟨op', hop', r', h'⟩
    rcases mem_append.mp h' with h' | h'
    · exact .inl ⟨op', hop', r', h'⟩
    · rcases mem_singleton.mp h' with ⟨⟩
      exact .inr hop'
  · rintro (⟨op', hop', r', h'⟩ | hop)
    · exact ⟨op', hop', r', mem_append_left _ h'⟩
    · exact ⟨op, hop, r, by simp⟩

/-- Closing a file changes nothing but the history. -/
theorem closeFile_cases {res : Option Unit} (hrun : Run sem bad (closeFile path) c c' res) :
    c'.state = c.state ∧ (Switched configDir c'.hist ↔ Switched configDir c.hist) ∧
      (ReadBackFails configDir c'.hist ↔ ReadBackFails configDir c.hist) := by
  have hpath : FileOp.close path ∉ readBackOps configDir := by simp [readBackOps]
  have hcode : ∀ error, Run sem bad (code (.close path)) c c' error →
      c'.state = c.state ∧ (Switched configDir c'.hist ↔ Switched configDir c.hist) ∧
        (ReadBackFails configDir c'.hist ↔ ReadBackFails configDir c.hist) := by
    intro error hcode
    rcases code_cases hcode with ⟨rfl, _⟩ | ⟨_, rfl, _⟩ | ⟨_, _, _, _, rfl, _⟩
    · simp [sem]
    · simp
    · simp [hpath]
  rcases run_bind hrun with ⟨c₁, error, hclose, hrest⟩ | ⟨hclose, rfl⟩
  · rcases run_pure hrest with ⟨rfl, _⟩
    exact hcode _ hclose
  · exact hcode _ hclose

/-- The version file is left alone, or all of it is replaced. -/
def Replaced (configDir : Bytes) (cv : ConfigVersion) (c c' : Conf Fs FileOp Reply)
    (res : Option Nat) : Prop :=
  (c'.state = c.state ∧ ¬ Switched configDir c'.hist ∧ res ≠ some 0) ∨
    (c'.state = update c.state (configVersionFileName configDir) (some (cvBuf cv)) ∧
      Switched configDir c'.hist ∧ ¬ ReadBackFails configDir c'.hist ∧
      (res = some 0 ∨ res = none))

theorem overwriteCv_cases {data : Bytes} {res : Option Nat} (hsmall : cv.Small)
    (hdata : c.state (configVersionFileName configDir) = some data)
    (hlen : data.length = cvFileSize) (hswitched : ¬ Switched configDir c.hist)
    (hreadBack : ¬ ReadBackFails configDir c.hist)
    (hrun : Run sem bad (do
      let error ← code (.overwrite (configVersionFileName configDir) (cvBuf cv))
      closeFile (configVersionFileName configDir)
      pure error) c c' res) : Replaced configDir cv c c' res := by
  have hdrop : data.drop (cvBuf cv).length = [] := by
    rw [length_cvBuf hsmall.tenDigits, ← hlen, drop_length]
  have hstate : (sem (.overwrite (configVersionFileName configDir) (cvBuf cv)) c.state).1 =
      update c.state (configVersionFileName configDir) (some (cvBuf cv)) := by
    simp [sem, hdata, hdrop]
  rcases run_bind hrun with ⟨c₁, error, hcode, hrest⟩ | ⟨hcode, rfl⟩
  · have hclosed : c'.state = c₁.state ∧ (Switched configDir c'.hist ↔ Switched configDir c₁.hist) ∧
        (ReadBackFails configDir c'.hist ↔ ReadBackFails configDir c₁.hist) ∧
        (res = some error ∨ res = none) := by
      rcases run_bind hrest with ⟨c₂, _, hclose, hret⟩ | ⟨hclose, rfl⟩
      · rcases run_pure hret with ⟨rfl, rfl⟩
        rcases closeFile_cases hclose with ⟨h₁, h₂, h₃⟩
        exact ⟨h₁, h₂, h₃, .inl rfl⟩
      · rcases closeFile_cases hclose with ⟨h₁, h₂, h₃⟩
        exact ⟨h₁, h₂, h₃, .inr rfl⟩
    rcases hclosed with ⟨hsame, hsw, hrb, hres⟩
    rcases code_cases hcode with ⟨rfl, herror⟩ | ⟨_, _, herror⟩ | ⟨_, error', hne, _, rfl, herror⟩
    · right
      cases herror
      refine ⟨hsame.trans hstate, hsw.mpr (by simp), ?_, hres⟩
      rw [hrb, readBackFails_done]
      exact hreadBack
    · cases herror
    · left
      cases herror
      refine ⟨hsame, ?_, ?_⟩
      · rw [hsw, switched_failed]
        exact hswitched
      · rcases hres with rfl | rfl
        · simpa using hne
        · nofun
  · rcases code_cases hcode with ⟨_, herror⟩ | ⟨_, rfl, _⟩ | ⟨_, _, _, _, _, herror⟩
    · cases herror
    · exact .inl ⟨rfl, hswitched, nofun⟩
    · cases herror

theorem writeCvFile_cases {data : Bytes} {res : Option Nat} (hsmall : cv.Small)
    (hpos : cv.version ≠ 0) (hdata : c.state (configVersionFileName configDir) = some data)
    (hlen : data.length = cvFileSize) (hswitched : ¬ Switched configDir c.hist)
    (hreadBack : ¬ ReadBackFails configDir c.hist)
    (hrun : Run sem bad (writeCvFile configDir cv) c c' res) : Replaced configDir cv c c' res := by
  unfold writeCvFile at hrun
  dsimp only at hrun
  rw [if_neg hpos] at hrun
  -- what is returned for the inner error number
  have hcode : ∀ error, error ≠ 0 →
      (if error = enoent then errorFailedToCreateConfigVersion else error) ≠ 0 := by
    intro error herror
    split_ifs
    · decide
    · exact herror
  have hinner : ∀ inner, Run sem bad (checked (pure 0)
      (checked (code (.openFile (configVersionFileName configDir))) do
        let error ← code (.overwrite (configVersionFileName configDir) (cvBuf cv))
        closeFile (configVersionFileName configDir)
        pure error)) c c' inner → Replaced configDir cv c c' inner := by
    intro inner hinner
    rcases checked_cases hinner with ⟨c₁, hpure, hrest⟩ | ⟨hpure, hne⟩
    · rcases run_pure hpure with ⟨rfl, _⟩
      rcases checked_cases hrest with ⟨c₂, hopen, hwrite⟩ | ⟨hopen, hne⟩
      · rcases code_cases hopen with ⟨rfl, _⟩ | ⟨_, _, herror⟩ | ⟨_, _, hne, _, _, herror⟩
        · have hsame : (sem (.openFile (configVersionFileName configDir)) c₁.state).1 = c₁.state := by
            simp [sem, hdata]
          have hreplaced := overwriteCv_cases hsmall (by rw [hsame, hdata]) hlen
            (by simpa using hswitched) (by simpa using hreadBack) hwrite
          unfold Replaced at hreplaced ⊢
          rwa [hsame] at hreplaced
        · cases herror
        · exact absurd (Option.some.inj herror).symm hne
      · left
        rcases code_cases hopen with ⟨rfl, rfl⟩ | ⟨_, rfl, rfl⟩ | ⟨_, _, hne, _, rfl, rfl⟩
        · simp [sem, hdata] at hne
        · exact ⟨rfl, hswitched, nofun⟩
        · exact ⟨rfl, by simpa using hswitched, by simpa using hne⟩
    · rcases run_pure hpure with ⟨_, rfl⟩
      exact absurd rfl hne
  rcases run_bind hrun with ⟨c₁, error, hfile, hret⟩ | ⟨hfile, rfl⟩
  · rcases run_pure hret with ⟨rfl, rfl⟩
    rcases hinner _ hfile with ⟨h₁, h₂, h₃⟩ | ⟨h₁, h₂, h₃, h₄⟩
    · refine .inl ⟨h₁, h₂, ?_⟩
      have hne : error ≠ 0 := by simpa using h₃
      simpa using hcode error hne
    · refine .inr ⟨h₁, h₂, h₃, .inl ?_⟩
      rcases h₄ with h₄ | h₄
      · cases h₄
        rfl
      · cases h₄
  · exact hinner none hfile

/-- An operation of the reading: it is done, or the run is cut off, or the reading fails. -/
theorem readBack_code_cases {data : Bytes} {res : Option Nat}
    (hrun : Run sem bad (code op) c c' res)
    (hop : op = .openFile (configVersionFileName configDir) ∨
      op = .fileLength (configVersionFileName configDir))
    (hdata : c.state (configVersionFileName configDir) = some data) :
    (c' = ⟨c.state, c.hist ++ [.done op], c.spare⟩ ∧ res = some 0) ∨
      (c' = ⟨c.state, c.hist, false⟩ ∧ res = none) ∨
      (∃ error, error ≠ 0 ∧ error ≠ enoent ∧ res = some error ∧
        c' = ⟨c.state, c.hist ++ [.failed op (.error error)], false⟩) := by
  rcases code_cases hrun with ⟨rfl, rfl⟩ | ⟨_, rfl, rfl⟩ | ⟨_, error, hne, hnoent, rfl, rfl⟩
  · left
    rcases hop with rfl | rfl
    · simp [sem, hdata]
    · simp [sem]
  · exact .inr (.inl ⟨rfl, rfl⟩)
  · exact .inr (.inr ⟨error, hne, hnoent, rfl, rfl⟩)

theorem getFileContents_cases {data : Bytes} {res : Option (Except Nat Bytes)}
    (hdata : c.state (configVersionFileName configDir) = some data)
    (hswitched : Switched configDir c.hist) (hreadBack : ¬ ReadBackFails configDir c.hist)
    (hrun : Run sem bad (getFileContents (configVersionFileName configDir)) c c' res) :
    c'.state = c.state ∧ Switched configDir c'.hist ∧
      ((¬ ReadBackFails configDir c'.hist ∧ (res = none ∨ res = some (.ok data))) ∨
        (ReadBackFails configDir c'.hist ∧ c'.spare = false ∧
          ∃ error, error ≠ 0 ∧ error ≠ enoent ∧ res = some (.error error))) := by
  rcases run_bind hrun with ⟨c₁, error, hopen, hrest⟩ | ⟨hopen, rfl⟩
  · rcases readBack_code_cases hopen (.inl rfl) hdata with
      ⟨rfl, h⟩ | ⟨rfl, h⟩ | ⟨error, hne, hnoent, h, rfl⟩
    · cases h
      rw [if_neg (not_not.mpr rfl)] at hrest
      rcases run_bind hrest with ⟨c₂, error, hlength, hread⟩ | ⟨hlength, rfl⟩
      · rcases readBack_code_cases hlength (.inr rfl) hdata with
          ⟨rfl, h⟩ | ⟨rfl, h⟩ | ⟨error, hne, hnoent, h, rfl⟩
        · cases h
          rw [if_neg (not_not.mpr rfl)] at hread
          rcases run_op hread with ⟨rfl, rfl⟩ | ⟨_, rfl, rfl⟩ | ⟨_, r, ⟨error, rfl, hne, hnoent⟩, rfl, rfl⟩
          · refine ⟨rfl, by simpa [-append_assoc] using hswitched,
              .inl ⟨by simpa [-append_assoc] using hreadBack, .inr ?_⟩⟩
            simp [sem, hdata]
          · exact ⟨rfl, by simpa [-append_assoc] using hswitched,
              .inl ⟨by simpa [-append_assoc] using hreadBack, .inl rfl⟩⟩
          · exact ⟨rfl, by simpa [-append_assoc] using hswitched,
              .inr ⟨by simp [-append_assoc, readBackOps], rfl, error, hne, hnoent, rfl⟩⟩
        · cases h
        · cases h
          rw [if_pos hne] at hread
          rcases run_pure hread with ⟨rfl, rfl⟩
          exact ⟨rfl, by simpa [-append_assoc] using hswitched,
            .inr ⟨by simp [-append_assoc, readBackOps], rfl, error, hne, hnoent, rfl⟩⟩
      · rcases readBack_code_cases hlength (.inr rfl) hdata with
          ⟨rfl, h⟩ | ⟨rfl, h⟩ | ⟨error, hne, hnoent, h, rfl⟩
        · cases h
        · exact ⟨rfl, by simpa [-append_assoc] using hswitched,
            .inl ⟨by simpa [-append_assoc] using hreadBack, .inl rfl⟩⟩
        · cases h
    · cases h
    · cases h
      rw [if_pos hne] at hrest
      rcases run_pure hrest with ⟨rfl, rfl⟩
      exact ⟨rfl, by simpa [-append_assoc] using hswitched,
        .inr ⟨by simp [-append_assoc, readBackOps], rfl, error, hne, hnoent, rfl⟩⟩
  · rcases readBack_code_cases hopen (.inl rfl) hdata with
      ⟨rfl, h⟩ | ⟨rfl, h⟩ | ⟨error, hne, hnoent, h, rfl⟩
    · cases h
    · exact ⟨rfl, by simpa [-append_assoc] using hswitched,
        .inl ⟨by simpa [-append_assoc] using hreadBack, .inl rfl⟩⟩
    · cases h

/-- The version file as it is read back. -/
theorem readConfigVersionFile_cases {data : Bytes} {res : Option (Except Nat ConfigVersion)}
    (hdata : c.state (configVersionFileName configDir) = some data)
    (hswitched : Switched configDir c.hist) (hreadBack : ¬ ReadBackFails configDir c.hist)
    (hrun : Run sem bad (readConfigVersionFile configDir) c c' res) :
    c'.state = c.state ∧ Switched configDir c'.hist ∧
      ((¬ ReadBackFails configDir c'.hist ∧ (res = none ∨ res = some (readCv data))) ∨
        (ReadBackFails configDir c'.hist ∧ c'.spare = false ∧
          ∃ error, error ≠ 0 ∧ res = some (.error error))) := by
  rcases run_bind hrun with ⟨c₁, contents, hget, hrest⟩ | ⟨hget, rfl⟩
  · rcases getFileContents_cases hdata hswitched hreadBack hget with
      ⟨h₁, h₂, ⟨h₃, h | h⟩ | ⟨h₃, h₄, error, hne, hnoent, h⟩⟩
    · cases h
    · cases h
      rcases run_pure hrest with ⟨rfl, rfl⟩
      exact ⟨h₁, h₂, .inl ⟨h₃, .inr rfl⟩⟩
    · cases h
      dsimp only at hrest
      rw [if_neg hnoent] at hrest
      rcases run_pure hrest with ⟨rfl, rfl⟩
      exact ⟨h₁, h₂, .inr ⟨h₃, h₄, error, hne, rfl⟩⟩
  · rcases getFileContents_cases hdata hswitched hreadBack hget with
      ⟨h₁, h₂, ⟨h₃, _⟩ | ⟨_, _, _, _, _, h⟩⟩
    · exact ⟨h₁, h₂, .inl ⟨h₃, .inl rfl⟩⟩
    · cases h

/-- Overwriting the version file and reading it back. -/
theorem writeConfigVersionFile_cases {data : Bytes} {res : Option Nat} (hsmall : cv.Small)
    (hpos : cv.version ≠ 0) (hdata : c.state (configVersionFileName configDir) = some data)
    (hlen : data.length = cvFileSize) (hswitched : ¬ Switched configDir c.hist)
    (hreadBack : ¬ ReadBackFails configDir c.hist)
    (hrun : Run sem bad (writeConfigVersionFile configDir cv) c c' res) :
    (c'.state = c.state ∧ ¬ Switched configDir c'.hist ∧ res ≠ some 0) ∨
      (c'.state = update c.state (configVersionFileName configDir) (some (cvBuf cv)) ∧
        Switched configDir c'.hist ∧
        ((res = none ∧ ¬ ReadBackFails configDir c'.hist) ∨
          (res = some 0 ∧ ¬ ReadBackFails configDir c'.hist ∧ cv.version ≤ 2 ^ 32) ∨
          (∃ error, error ≠ 0 ∧ res = some error ∧ ReadBackFails configDir c'.hist ∧
            c'.spare = false) ∨
          (∃ error, error ≠ 0 ∧ res = some error ∧ 2 ^ 32 < cv.version))) := by
  rcases checked_cases hrun with ⟨c₁, hwrite, hrest⟩ | ⟨hwrite, hne⟩
  · rcases writeCvFile_cases hsmall hpos hdata hlen hswitched hreadBack hwrite with
      ⟨_, _, h⟩ | ⟨hstate, hsw, hrb, _⟩
    · exact absurd rfl h
    · right
      have hbuf : c₁.state (configVersionFileName configDir) = some (cvBuf cv) := by
        rw [hstate, update_self]
      rcases run_bind hrest with ⟨c₂, contents, hread, hret⟩ | ⟨hread, rfl⟩
      · rcases readConfigVersionFile_cases hbuf hsw hrb hread with
          ⟨h₁, h₂, ⟨h₃, h | h⟩ | ⟨h₃, h₄, error, hne, h⟩⟩
        · cases h
        · cases h
          rw [readCv_cvBuf hsmall] at hret
          split_ifs at hret with hlarge
          · rcases run_pure hret with ⟨rfl, rfl⟩
            refine ⟨h₁.trans hstate, h₂, .inr (.inr (.inr ⟨errorSyntaxError, by decide, rfl, hlarge⟩))⟩
          · dsimp only at hret
            rw [if_neg (not_not.mpr rfl)] at hret
            rcases run_pure hret with ⟨rfl, rfl⟩
            exact ⟨h₁.trans hstate, h₂, .inr (.inl ⟨rfl, h₃, Nat.not_lt.mp hlarge⟩)⟩
        · cases h
          rcases run_pure hret with ⟨rfl, rfl⟩
          exact ⟨h₁.trans hstate, h₂, .inr (.inr (.inl ⟨error, hne, rfl, h₃, h₄⟩))⟩
      · rcases readConfigVersionFile_cases hbuf hsw hrb hread with
          ⟨h₁, h₂, ⟨h₃, _⟩ | ⟨_, _, _, _, h⟩⟩
        · exact ⟨h₁.trans hstate, h₂, .inl ⟨rfl, h₃⟩⟩
        · cases h
  · rcases writeCvFile_cases hsmall hpos hdata hlen hswitched hreadBack hwrite with
      h | ⟨hstate, hsw, hrb, rfl | rfl⟩
    · exact .inl h
    · exact absurd rfl hne
    · exact .inr ⟨hstate, hsw, .inl ⟨rfl, hrb⟩⟩

end

/-! ## Whole runs -/

theorem configVersionFileName_ne (hname : name ≠ configVersionString) (w : Nat) :
    configVersionFileName configDir ≠ configFileName configDir name w := by
  rw [configVersionFileName_eq]
  intro heq
  exact hname (configFileName_inj heq).1.symm

theorem Configs.removed_ne_version (cfg : Configs) : ∀ name ∈ cfg.removed, name ≠ configVersionString := by
  intro name hname
  refine cfg.ne_version name ?_
  rcases mem_cons.mp hname with rfl | hname
  · exact mem_cons_self
  · exact mem_cons_of_mem _ (mem_cons_of_mem _ hname)

theorem Configs.removed_ne_common (cfg : Configs) :
    ∀ name ∈ cfg.removed, name ≠ gridCommonConfigString := by
  have hconfig : configString ≠ gridCommonConfigString := by decide
  intro name hname
  rcases mem_cons.mp hname with rfl | hname
  · exact hconfig
  · exact (cfg.reserved name hname).2.1

/-- Nothing has happened to the version file and to the files of version `v`. -/
structure Untouched (configDir : Bytes) (v : Nat) (fs₀ : Fs) (c : Conf Fs FileOp Reply) : Prop where
  cvFile : c.state (configVersionFileName configDir) = fs₀ (configVersionFileName configDir)
  files : ∀ name ≠ configVersionString,
    c.state (configFileName configDir name v) = fs₀ (configFileName configDir name v)
  switched : ¬ Switched configDir c.hist

/-- And no operation on the version file has failed. -/
structure Early (configDir : Bytes) (v : Nat) (fs₀ : Fs) (c : Conf Fs FileOp Reply) : Prop
    extends Untouched configDir v fs₀ c where
  readBack : ¬ ReadBackFails configDir c.hist

theorem Early.run {α : Type} {p : FileProg α} {res : Option α} {N : List Bytes} {fs₀ : Fs}
    (h : Early configDir v fs₀ c) (hrun : Run sem bad p c c' res)
    (hp : p.Only (Touches configDir N w)) (hN : ∀ name ∈ N, name ≠ configVersionString)
    (hw : v ≠ w) : Early configDir v fs₀ c' := by
  refine ⟨⟨?_, ?_, ?_⟩, ?_⟩
  · rw [run_frame hrun hp, h.cvFile]
    intro name hname
    exact configVersionFileName_ne (hN name hname) w
  · intro name hname
    rw [run_frame hrun hp, h.files name hname]
    intro other _ heq
    exact hw (configFileName_inj heq).2
  · rw [run_switched hrun hp]
    exact h.switched
  · rw [run_readBackFails hrun hp]
    exact h.readBack

theorem only_deleteCvFile :
    (deleteFile (configVersionFileName configDir)).Only
      (Touches configDir [configVersionString] 0) := by
  rw [configVersionFileName_eq]
  exact only_deleteFile (.unlink mem_cons_self)

theorem cvFile_ne (hname : name ≠ configVersionString) :
    ∀ other ∈ [configVersionString],
      configFileName configDir name w ≠ configFileName configDir other 0 := by
  intro other hother heq
  rw [mem_singleton.mp hother] at heq
  exact hname (configFileName_inj heq).1

/-- The way out after an error: the files of the new version are removed, and those of the
old one stay. -/
structure BackedOut (configDir : Bytes) (v : Nat) (c c' : Conf Fs FileOp Reply) : Prop where
  files : ∀ name ≠ configVersionString,
    c'.state (configFileName configDir name v) = c.state (configFileName configDir name v)
  cvFile : c'.state (configVersionFileName configDir) = c.state (configVersionFileName configDir) ∨
    (v = 0 ∧ c'.state (configVersionFileName configDir) = none)
  switched : Switched configDir c'.hist ↔ Switched configDir c.hist
  readBack : ReadBackFails configDir c'.hist ↔ ReadBackFails configDir c.hist
  gone : c.spare = false →
    c'.state (configFileName configDir configString (v + 1)) = none ∧
      (v = 0 → c'.state (configVersionFileName configDir) = none)

theorem removeConfigFiles_backedOut {res : Option Nat} (hv : v = 0 → res = none)
    (hrun : Run sem bad (removeConfigFiles configDir cfg (v + 1)) c c' res) :
    BackedOut configDir v c c' := by
  have honly : (removeConfigFiles configDir cfg (v + 1)).Only _ := only_removeConfigFiles cfg (v + 1)
  constructor
  · intro name _
    rw [run_frame hrun honly]
    intro other _ heq
    exact absurd (configFileName_inj heq).2 (Nat.succ_ne_self v).symm
  · left
    rw [run_frame hrun honly]
    intro name hname
    exact configVersionFileName_ne (cfg.removed_ne_version name hname) (v + 1)
  · exact run_switched hrun honly
  · exact run_readBackFails hrun honly
  · intro hspare
    refine ⟨removeConfigFiles_gone hrun hspare, ?_⟩
    intro hzero
    exact absurd (hv hzero) (hrun.spare hspare).2

/-- In front of version 1 the version file is removed too. -/
theorem removeAll_backedOut {c₁ : Conf Fs FileOp Reply} {error : Nat} {res : Option Nat} (hv : v = 0)
    (hfiles : Run sem bad (removeConfigFiles configDir cfg (v + 1)) c c₁ (some error))
    (hcv : Run sem bad (deleteFile (configVersionFileName configDir)) c₁ c' res) :
    BackedOut configDir v c c' := by
  have honly : (removeConfigFiles configDir cfg (v + 1)).Only _ := only_removeConfigFiles cfg (v + 1)
  have honly' : (deleteFile (configVersionFileName configDir)).Only _ := only_deleteCvFile
  constructor
  · intro name hname
    rw [run_frame hcv honly' (cvFile_ne hname), run_frame hfiles honly]
    intro other _ heq
    exact absurd (configFileName_inj heq).2 (Nat.succ_ne_self v).symm
  · rcases deleteFile_cases hcv with hnone | ⟨_, hsame⟩
    · exact .inr ⟨hv, hnone⟩
    · left
      rw [hsame, run_frame hfiles honly]
      intro name hname
      exact configVersionFileName_ne (cfg.removed_ne_version name hname) (v + 1)
  · rw [run_switched hcv honly', run_switched hfiles honly]
  · rw [run_readBackFails hcv honly', run_readBackFails hfiles honly]
  · intro hspare
    have hspare₁ := (hfiles.spare hspare).1
    refine ⟨?_, fun _ => deleteFile_gone hcv hspare₁⟩
    have hname : configString ≠ configVersionString := by decide
    rw [run_frame hcv honly' (cvFile_ne hname)]
    exact removeConfigFiles_gone hfiles hspare

theorem errorPath_backedOut {error : Nat} {res : Option (Nat × Nat)}
    (hrun : Run sem bad (do
      let _ ← removeConfigFiles configDir cfg (v + 1)
      if v = 0 then
        let _ ← deleteFile (configVersionFileName configDir)
      pure (error, v)) c c' res) : BackedOut configDir v c c' := by
  rcases run_bind hrun with ⟨c₁, error', hfiles, hrest⟩ | ⟨hfiles, rfl⟩
  · split_ifs at hrest with hv
    · rcases run_bind hrest with ⟨c₂, error₂, hcv, hret⟩ | ⟨hcv, rfl⟩
      · rcases run_pure hret with ⟨rfl, _⟩
        exact removeAll_backedOut hv hfiles hcv
      · exact removeAll_backedOut hv hfiles hcv
    · rcases run_pure hrest with ⟨rfl, _⟩
      exact removeConfigFiles_backedOut (fun h => absurd h hv) hfiles
  · exact removeConfigFiles_backedOut (fun _ => rfl) hfiles

/-- How a run can end. -/
inductive Outcome (configDir : Bytes) (old new : Configs) (v : Nat) (c : Conf Fs FileOp Reply) :
    Prop where
  | untouched : recorded configDir c.state = some v → Complete configDir old v c.state →
    ¬ Switched configDir c.hist → Outcome configDir old new v c
  | switched : recorded configDir c.state = some (v + 1) → Complete configDir new (v + 1) c.state →
    Switched configDir c.hist → v < 2 ^ 32 → ¬ ReadBackFails configDir c.hist →
    Outcome configDir old new v c
  | unreadable : recorded configDir c.state = none → Switched configDir c.hist → 2 ^ 32 ≤ v →
    Outcome configDir old new v c
  | backedOut : recorded configDir c.state = some v → Complete configDir old v c.state →
    v = 0 → Outcome configDir old new v c
  | lost : recorded configDir c.state ≠ some v →
    c.state (configFileName configDir configString (v + 1)) = none →
    Switched configDir c.hist → ReadBackFails configDir c.hist → v ≠ 0 →
    Outcome configDir old new v c

theorem Outcome.atomic_iff (h : Outcome configDir old new v c) :
    Atomic configDir old new v c.state ↔
      (Switched configDir c.hist → v < 2 ^ 32 ∧ (ReadBackFails configDir c.hist → v = 0)) := by
  cases h with
  | untouched hrec hold hsw => exact iff_of_true (.inl ⟨hrec, hold⟩) fun h => absurd h hsw
  | switched hrec hnew hsw hv hrb =>
    exact iff_of_true (.inr ⟨hrec, hnew⟩) fun _ => ⟨hv, fun h => absurd h hrb⟩
  | unreadable hrec hsw hv =>
    refine iff_of_false ?_ fun h => absurd (h hsw).1 (Nat.not_lt.mpr hv)
    rintro (⟨h, _⟩ | ⟨h, _⟩)
    · rw [hrec] at h
      cases h
    · rw [hrec] at h
      cases h
  | backedOut hrec hold hv =>
    exact iff_of_true (.inl ⟨hrec, hold⟩) fun _ => ⟨by omega, fun _ => hv⟩
  | lost hrec hgone hsw hrb hv =>
    refine iff_of_false ?_ fun h => hv ((h hsw).2 hrb)
    rintro (⟨h, _⟩ | ⟨_, h⟩)
    · exact hrec h
    · have hconfig := h (configString, new.grid) mem_cons_self
      rw [hgone] at hconfig
      cases hconfig

theorem recorded_of_cvFile {cv : ConfigVersion} (hsmall : cv.Small)
    (hfs : fs (configVersionFileName configDir) = some (cvBuf cv)) :
    recorded configDir fs = if 2 ^ 32 < cv.version then none else some cv.version := by
  unfold recorded
  rw [hfs]
  dsimp only
  rw [readCv_cvBuf hsmall]
  split_ifs
  · rfl
  · rfl

theorem recorded_of_missing (hfs : fs (configVersionFileName configDir) = none) :
    recorded configDir fs = some 0 := by
  unfold recorded
  rw [hfs]

theorem recorded_congr {fs' : Fs}
    (h : fs (configVersionFileName configDir) = fs' (configVersionFileName configDir)) :
    recorded configDir fs = recorded configDir fs' := by
  unfold recorded
  rw [h]

theorem Complete.congr {fs' : Fs} (hcfg : Complete configDir cfg w fs)
    (h : ∀ name ≠ configVersionString,
      fs' (configFileName configDir name w) = fs (configFileName configDir name w)) :
    Complete configDir cfg w fs' := by
  intro file hfile
  rw [h file.1 (cfg.ne_version file.1 (Configs.mem_files hfile)), hcfg file hfile]

section

variable {fs₀ : Fs}

/-- What is as in the beginning is as the old configuration wants it. -/
theorem Untouched.outcome (h : Untouched configDir v fs₀ c)
    (hrec : recorded configDir fs₀ = some v) (hold : Complete configDir old v fs₀) :
    Outcome configDir old new v c := by
  refine .untouched ?_ (hold.congr h.files) h.switched
  rw [recorded_congr h.cvFile, hrec]

/-- An error before the switch. -/
theorem BackedOut.outcome (h : BackedOut configDir v c c') (hc : Untouched configDir v fs₀ c)
    (hrec : recorded configDir fs₀ = some v) (hold : Complete configDir old v fs₀) :
    Outcome configDir old new v c' := by
  refine .untouched ?_ ((hold.congr hc.files).congr h.files) ?_
  · rcases h.cvFile with hsame | ⟨rfl, hnone⟩
    · rw [recorded_congr (hsame.trans hc.cvFile), hrec]
    · exact recorded_of_missing hnone
  · rw [h.switched]
    exact hc.switched

theorem cleanUp_early {res : Option Nat} (h : Early configDir v fs₀ c)
    (hrun : Run sem bad (if 1 < v then removeConfigFiles configDir cfg (v - 1) else pure 0) c c' res) :
    Early configDir v fs₀ c' := by
  split_ifs at hrun with hv
  · exact h.run hrun (only_removeConfigFiles cfg (v - 1)) cfg.removed_ne_version (by omega)
  · rcases run_pure hrun with ⟨rfl, _⟩
    exact h

theorem writeConfigFiles_early {res : Option Nat} (h : Early configDir v fs₀ c)
    (hrun : Run sem bad (writeConfigFiles configDir (v + 1) cfg.files) c c' res) :
    Early configDir v fs₀ c' :=
  h.run hrun (only_writeConfigFiles fun _ hfile => Configs.mem_files hfile) cfg.ne_version
    (Nat.succ_ne_self v).symm

/-- The end of a run: the common file of the old version is there in any case. -/
structure Ended (configDir : Bytes) (old new : Configs) (v : Nat) (fs₀ : Fs)
    (c : Conf Fs FileOp Reply) : Prop where
  outcome : Outcome configDir old new v c
  common : c.state (configFileName configDir gridCommonConfigString v) =
    fs₀ (configFileName configDir gridCommonConfigString v)

theorem common_ne_version : gridCommonConfigString ≠ configVersionString := by decide

/-- Behind the switch, with the files of the new version in their place. -/
structure Behind (configDir : Bytes) (new : Configs) (v : Nat) (fs₀ : Fs) (cv : ConfigVersion)
    (c : Conf Fs FileOp Reply) : Prop where
  small : cv.Small
  version : cv.version = v + 1
  cvFile : c.state (configVersionFileName configDir) = some (cvBuf cv)
  files : Complete configDir new (v + 1) c.state
  old : ∀ name ≠ configVersionString,
    c.state (configFileName configDir name v) = fs₀ (configFileName configDir name v)
  switched : Switched configDir c.hist

variable {cv : ConfigVersion}

section

variable (h : Behind configDir new v fs₀ cv c)

include h

theorem Behind.recorded :
    recorded configDir c.state = if 2 ^ 32 < v + 1 then none else some (v + 1) := by
  rw [recorded_of_cvFile h.small h.cvFile, h.version]

/-- The run is cut off, or goes on to the removal of the old files. -/
theorem Behind.outcome (hreadBack : ¬ ReadBackFails configDir c.hist) :
    Outcome configDir old new v c := by
  have hrec := h.recorded
  split_ifs at hrec with hv
  · exact .unreadable hrec h.switched (by omega)
  · exact .switched hrec h.files h.switched (by omega) hreadBack

/-- Step 3 removes files of the old version, and never the common one. -/
theorem Behind.removeOld {res : Option Nat} (hreadBack : ¬ ReadBackFails configDir c.hist)
    (hrun : Run sem bad (if 0 < v then removeConfigFiles configDir cfg v else pure 0) c c' res) :
    Ended configDir old new v fs₀ c' := by
  split_ifs at hrun with hv
  · have honly : (removeConfigFiles configDir cfg v).Only _ := only_removeConfigFiles cfg v
    have hcv : c'.state (configVersionFileName configDir) = c.state (configVersionFileName configDir) := by
      refine run_frame hrun honly ?_
      intro name hname
      exact configVersionFileName_ne (cfg.removed_ne_version name hname) v
    have hnew : ∀ name ≠ configVersionString,
        c'.state (configFileName configDir name (v + 1)) =
          c.state (configFileName configDir name (v + 1)) := by
      intro name _
      refine run_frame hrun honly ?_
      intro other _ heq
      exact absurd (configFileName_inj heq).2 (Nat.succ_ne_self v)
    have hcommon : c'.state (configFileName configDir gridCommonConfigString v) =
        c.state (configFileName configDir gridCommonConfigString v) := by
      refine run_frame hrun honly ?_
      intro name hname heq
      exact cfg.removed_ne_common name hname (configFileName_inj heq).1.symm
    refine ⟨?_, hcommon.trans (h.old _ common_ne_version)⟩
    have hrec := h.recorded
    rw [← recorded_congr hcv] at hrec
    have hsw := (run_switched hrun honly).mpr h.switched
    split_ifs at hrec with hlarge
    · exact .unreadable hrec hsw (by omega)
    · refine .switched hrec (h.files.congr hnew) hsw (by omega) ?_
      rw [run_readBackFails hrun honly]
      exact hreadBack
  · rcases run_pure hrun with ⟨rfl, _⟩
    exact ⟨h.outcome hreadBack, h.old _ common_ne_version⟩

/-- The way out behind the switch: it removes files of the version that is recorded now. -/
theorem Behind.backOut (hold : Complete configDir old v fs₀) (hout : BackedOut configDir v c c')
    (hwhy : (ReadBackFails configDir c.hist ∧ c.spare = false) ∨ 2 ^ 32 ≤ v) :
    Ended configDir old new v fs₀ c' := by
  refine ⟨?_, (hout.files _ common_ne_version).trans (h.old _ common_ne_version)⟩
  have hsw := hout.switched.mpr h.switched
  have hrec := h.recorded
  rcases hwhy with ⟨hrb, hspare⟩ | hv
  · by_cases hzero : v = 0
    · refine .backedOut ?_ ((hold.congr h.old).congr hout.files) hzero
      rw [recorded_of_missing ((hout.gone hspare).2 hzero), hzero]
    · rcases hout.cvFile with hsame | ⟨hzero', _⟩
      · refine .lost ?_ (hout.gone hspare).1 hsw (hout.readBack.mpr hrb) hzero
        rw [recorded_congr hsame, hrec]
        split_ifs
        · nofun
        · simp
      · exact absurd hzero' hzero
  · rcases hout.cvFile with hsame | ⟨hzero, _⟩
    · refine .unreadable ?_ hsw hv
      rw [recorded_congr hsame, hrec, if_pos (by omega)]
    · omega

end

end

section

variable {fs₀ : Fs} {cv₀ : ConfigVersion} {data : Bytes} {pid : Nat}

/-- Steps 1 and 2, and what follows them. -/
theorem switch_ended {res : Option Nat} (hdata : fs₀ (configVersionFileName configDir) = some data)
    (hcv : readCv data = .ok cv₀) (hversion : cv₀.version = v) (hpid : pid ≤ 2 ^ 32)
    (h : Early configDir v fs₀ c)
    (hrun : Run sem bad (checked (writeConfigFiles configDir (v + 1) new.files)
      (writeConfigVersionFile configDir ⟨v + 1, configStateBusy, pid⟩)) c c' res) :
    (Untouched configDir v fs₀ c' ∧ res ≠ some 0) ∨
      (Behind configDir new v fs₀ ⟨v + 1, configStateBusy, pid⟩ c' ∧
        ((res = none ∧ ¬ ReadBackFails configDir c'.hist) ∨
          (res = some 0 ∧ ¬ ReadBackFails configDir c'.hist) ∨
          (res ≠ none ∧ res ≠ some 0 ∧
            ((ReadBackFails configDir c'.hist ∧ c'.spare = false) ∨ 2 ^ 32 ≤ v)))) := by
  have hread := readCv_ok hcv
  rw [hversion] at hread
  have hsmall : (⟨v + 1, configStateBusy, pid⟩ : ConfigVersion).Small :=
    ⟨Nat.succ_le_succ hread.2, le_refl _, hpid⟩
  rcases checked_cases hrun with ⟨c₁, hwrite, hcvFile⟩ | ⟨hwrite, hne⟩
  · have h₁ := writeConfigFiles_early h hwrite
    have hnew : Complete configDir new (v + 1) c₁.state := writeConfigFiles_ok new.nodup_files hwrite
    rcases writeConfigVersionFile_cases hsmall (Nat.succ_ne_zero v) (h₁.cvFile.trans hdata) hread.1
      h₁.switched h₁.readBack hcvFile with ⟨hstate, hsw, hne⟩ | ⟨hstate, hsw, hres⟩
    · refine .inl ⟨⟨?_, ?_, hsw⟩, hne⟩
      · rw [hstate, h₁.cvFile]
      · intro name hname
        rw [hstate, h₁.files name hname]
    · right
      have hfiles : ∀ name ≠ configVersionString, ∀ w, c'.state (configFileName configDir name w) =
          c₁.state (configFileName configDir name w) := by
        intro name hname w
        rw [hstate, update_of_ne (configVersionFileName_ne hname w).symm]
      have hbehind : Behind configDir new v fs₀ ⟨v + 1, configStateBusy, pid⟩ c' := by
        refine ⟨hsmall, rfl, ?_, hnew.congr fun name hname => hfiles name hname (v + 1), ?_, hsw⟩
        · rw [hstate, update_self]
        · intro name hname
          rw [hfiles name hname v, h₁.files name hname]
      refine ⟨hbehind, ?_⟩
      rcases hres with hres | ⟨hres, hrb, _⟩ | ⟨error, hne, rfl, hrb⟩ | ⟨error, hne, rfl, hlarge⟩
      · exact .inl hres
      · exact .inr (.inl ⟨hres, hrb⟩)
      · exact .inr (.inr ⟨nofun, by simpa using hne, .inl hrb⟩)
      · exact .inr (.inr ⟨nofun, by simpa using hne, .inr (Nat.lt_succ_iff.mp hlarge)⟩)
  · exact .inl ⟨(writeConfigFiles_early h hwrite).toUntouched, hne⟩

/-- Every run ends in one of the ways of `Outcome`. -/
theorem writeFullConfigToDisk_ended {res : Option (Nat × Nat)}
    (hdata : fs₀ (configVersionFileName configDir) = some data) (hcv : readCv data = .ok cv₀)
    (hversion : cv₀.version = v) (hpid : pid ≤ 2 ^ 32) (hold : Complete configDir old v fs₀)
    (hrun : Run sem bad (writeFullConfigToDisk configDir v pid new) ⟨fs₀, [], true⟩ c' res) :
    Ended configDir old new v fs₀ c' := by
  have hrec : recorded configDir fs₀ = some v := by
    unfold recorded
    rw [hdata]
    dsimp only
    rw [hcv, ← hversion]
    rfl
  have hended : ∀ c, Untouched configDir v fs₀ c → Ended configDir old new v fs₀ c := by
    intro c h
    exact ⟨h.outcome hrec hold, h.files _ common_ne_version⟩
  have hstart : Early configDir v fs₀ ⟨fs₀, [], true⟩ := by
    refine ⟨⟨rfl, fun _ _ => rfl, ?_⟩, ?_⟩
    · rintro ⟨_, h⟩
      cases h
    · rintro ⟨_, _, _, h⟩
      cases h
  unfold writeFullConfigToDisk at hrun
  rcases run_bind hrun with ⟨c₁, error, hclean, hrest⟩ | ⟨hclean, rfl⟩
  · have h₁ := cleanUp_early hstart hclean
    by_cases herror : error ≠ 0
    · rw [if_pos herror] at hrest
      rcases run_pure hrest with ⟨rfl, _⟩
      exact hended _ h₁.toUntouched
    · rw [if_neg herror] at hrest
      rcases run_bind hrest with ⟨c₂, error, hswitch, hrest⟩ | ⟨hswitch, rfl⟩
      · rcases switch_ended hdata hcv hversion hpid h₁ hswitch with
          ⟨h₂, hne⟩ | ⟨h₂, ⟨h, _⟩ | ⟨h, hrb⟩ | ⟨_, hne, hwhy⟩⟩
        · have hne' : error ≠ 0 := by simpa using hne
          rw [if_pos hne'] at hrest
          have hout := errorPath_backedOut hrest
          exact ⟨hout.outcome h₂ hrec hold, (hout.files _ common_ne_version).trans
            (h₂.files _ common_ne_version)⟩
        · cases h
        · cases h
          rw [if_neg (not_not.mpr rfl)] at hrest
          rcases run_bind hrest with ⟨c₃, error, hremove, hret⟩ | ⟨hremove, rfl⟩
          · have h₃ : Ended configDir old new v fs₀ c₃ := h₂.removeOld hrb hremove
            split_ifs at hret
            · rcases run_pure hret with ⟨rfl, _⟩
              exact h₃
            · rcases run_pure hret with ⟨rfl, _⟩
              exact h₃
          · exact h₂.removeOld hrb hremove
        · have hne' : error ≠ 0 := by simpa using hne
          rw [if_pos hne'] at hrest
          exact h₂.backOut hold (errorPath_backedOut hrest) hwhy
      · rcases switch_ended hdata hcv hversion hpid h₁ hswitch with
          ⟨h₂, _⟩ | ⟨h₂, ⟨_, hrb⟩ | ⟨h, _⟩ | ⟨h, _⟩⟩
        · exact hended _ h₂
        · exact ⟨h₂.outcome hrb, h₂.old _ common_ne_version⟩
        · cases h
        · exact absurd rfl h
  · exact hended _ (cleanUp_early hstart hclean).toUntouched

/-- An update keeps its promise in the runs with a fault, unless the fault is one of the
reading behind the switch, or the new version is too large to be read. Without a fault the
common file of the old version is always left. -/
theorem disk_update_iff {res : Option (Nat × Nat)}
    (hdata : fs₀ (configVersionFileName configDir) = some data) (hcv : readCv data = .ok cv₀)
    (hversion : cv₀.version = v) (hpid : pid ≤ 2 ^ 32) (hold : Complete configDir old v fs₀)
    (hrun : Run sem bad (writeFullConfigToDisk configDir v pid new) ⟨fs₀, [], true⟩ c' res) :
    Updated configDir old new v c'.state c'.hist res ↔ Kept configDir v c'.hist res := by
  have hended : Ended configDir old new v fs₀ c' :=
    writeFullConfigToDisk_ended hdata hcv hversion hpid hold hrun
  have hatomic := hended.outcome.atomic_iff
  constructor
  · intro h
    have hfaulted : Faulted c'.hist res := by
      by_contra hno
      have hfile : (gridCommonConfigString, old.common) ∈ old.files :=
        List.mem_cons_of_mem _ List.mem_cons_self
      have hgone := (h.undisturbed hno).2.2.2 _ hfile
      rw [hended.common, hold _ hfile] at hgone
      cases hgone
    exact ⟨hfaulted, hatomic.mp (h.disturbed hfaulted)⟩
  · rintro ⟨hfaulted, hcond⟩
    exact ⟨fun _ => hatomic.mpr hcond, fun hno => absurd hfaulted hno⟩

end

/-! ### A configuration with one cluster -/

/-- All files of the configuration are empty. -/
def oneCluster : Configs where
  grid := []
  common := []
  clusters := [(ascii "c", [])]
  nonempty := by decide
  distinct := by decide
  reserved := by decide

local instance instLawfulBEqBytes : LawfulBEq Bytes := inferInstance

/-- The directory of version 1. -/
def firstVersion : Fs := fun path =>
  if path = configVersionFileName [] then some (cvBuf ⟨1, configStateBusy, 7⟩)
  else if path ∈ oneCluster.files.map (fun file => configFileName [] file.1 1) then some []
  else none

theorem firstVersion_small : (⟨1, configStateBusy, 7⟩ : ConfigVersion).Small :=
  ⟨by decide, by decide, by decide⟩

theorem firstVersion_cvFile :
    firstVersion (configVersionFileName []) = some (cvBuf ⟨1, configStateBusy, 7⟩) := if_pos rfl

theorem firstVersion_read :
    readCv (cvBuf ⟨1, configStateBusy, 7⟩) = .ok ⟨1, configStateBusy, 7⟩ := by
  rw [readCv_cvBuf firstVersion_small]
  rfl

theorem firstVersion_complete : Complete [] oneCluster 1 firstVersion := by
  intro file hfile
  have hname := oneCluster.ne_version file.1 (Configs.mem_files hfile)
  have htext : file.2.flatten = [] := by
    simp only [Configs.files, oneCluster, mem_cons, not_mem_nil, or_false] at hfile
    rcases hfile with rfl | rfl | rfl
    · rfl
    · rfl
    · rfl
  unfold firstVersion
  rw [if_neg (configVersionFileName_ne hname 1).symm, if_pos (mem_map_of_mem hfile), htext]

theorem cutOff_run : ∃ c',
    Run sem bad (writeFullConfigToDisk [] 1 7 oneCluster) ⟨firstVersion, [], true⟩ c' none ∧
      Switched [] c'.hist ∧ ¬ ReadBackFails [] c'.hist := by
  apply Exists.intro
  apply And.intro
  · -- the six operations of step 1, then the version file is opened and overwritten
    iterate 8 apply Run.done
    exact Run.stop
  · refine ⟨by simp [Switched], ?_⟩
    rintro ⟨op, hop, r, h⟩
    simp at h

/-- Cut off right behind the switch, the new configuration is there. -/
theorem disk_update_cut_off : ∃ c',
    Run sem bad (writeFullConfigToDisk [] 1 7 oneCluster) ⟨firstVersion, [], true⟩ c' none ∧
      Switched [] c'.hist ∧ Updated [] oneCluster oneCluster 1 c'.state c'.hist none := by
  rcases cutOff_run with ⟨c', hrun, hsw, hrb⟩
  refine ⟨c', hrun, hsw, ?_⟩
  refine (disk_update_iff firstVersion_cvFile firstVersion_read rfl (by decide) firstVersion_complete
    hrun).mpr ⟨Or.inl rfl, fun _ => ⟨by decide, fun h => absurd h hrb⟩⟩

/-- The update from version 1 to version 2 leaves grid_common.ini.1. -/
theorem common_file_left : ∃ c' res,
    Run sem bad (writeFullConfigToDisk [] 1 7 oneCluster) ⟨firstVersion, [], true⟩ c' res ∧
      ¬ Faulted c'.hist res ∧
      c'.state (configFileName [] gridCommonConfigString 1) = some [] ∧
      ¬ Updated [] oneCluster oneCluster 1 c'.state c'.hist res := by
  rcases exists_undisturbed sem bad (writeFullConfigToDisk [] 1 7 oneCluster) ⟨firstVersion, [], true⟩ with
    ⟨c', ret, hrun, hhist⟩
  have hended : Ended [] oneCluster oneCluster 1 firstVersion c' :=
    writeFullConfigToDisk_ended firstVersion_cvFile firstVersion_read rfl (by decide)
      firstVersion_complete hrun
  have hfile : (gridCommonConfigString, []) ∈ oneCluster.files :=
    List.mem_cons_of_mem _ List.mem_cons_self
  have hcommon := hended.common.trans (firstVersion_complete _ hfile)
  have hfaulted : ¬ Faulted c'.hist (some ret) := by
    rintro (h | ⟨op, r, h⟩)
    · cases h
    · cases hhist op r h
  refine ⟨c', some ret, hrun, hfaulted, hcommon, ?_⟩
  intro h
  have hgone := (h.undisturbed hfaulted).2.2.2 _ hfile
  rw [hcommon] at hgone
  cases hgone

end IClaustron.Config.DiskUpdate
