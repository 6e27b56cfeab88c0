import IClaustron.Config.ClusterReader

/-!
# Config.ClusterMemory — what the reading of a cluster keeps

* `core_completeSection` — the end of a section changes only structs and `comm_config`.
* `bits_of_completeSection` — what a section has when it has been ended.
-/

namespace IClaustron.Config.ClusterReader

open Lib Lib.Attempt Protocol

variable {env : Env} {s s' : Load} {pass : Pass} {n : Nat} {name data : Bytes} {e : ConfigEntry}
  {t : ConfigType} {ptr : StructPtr} {value : UInt64} {conf : ConfObject}

/-! ## What the end of a section leaves alone -/

namespace Load

/-- The state without the contents of the structs and of `comm_config`. -/
def core (s : Load) : Load :=
  { s with defaults := fun _ => .zero, structs := fun _ => .zero, commConfig := fun _ => none,
           currentNumComms := 0 }

@[simp] theorem core_assign (s : Load) (ptr : StructPtr) (conf : ConfObject) :
    (s.assign ptr conf).core = s.core := by
  cases ptr <;> rfl

@[simp] theorem deref_assign (s : Load) (ptr : StructPtr) (conf : ConfObject) :
    (s.assign ptr conf).deref ptr = conf := by
  cases ptr <;> exact Function.update_self ..

end Load

/-- What the end of a section does not touch: the strings of a struct, and `comm_config`, can change
without it. -/
structure Stable (P : Load → Prop) : Prop where
  assign : ∀ s ptr conf, conf.num = (s.deref ptr).num → P s → P (s.assign ptr conf)
  comm : ∀ s config n, P s → P { s with commConfig := config, currentNumComms := n }

theorem stable_core (Q : Load → Prop) : Stable fun s => Q s.core where
  assign s ptr conf _ hs := by
    show Q (s.assign ptr conf).core
    rwa [Load.core_assign]
  comm _ _ _ hs := hs

section Stable

variable {P : Load → Prop}

theorem keeps_mandatoryError (bits : UInt64) : Keeps P (mandatoryError t bits) := by
  intro s hs
  unfold mandatoryError
  split_ifs
  · exact hs
  · trivial

theorem keeps_ifComplete {mandatory : UInt64} {rest : Attempt Load Nat Unit} (h : Keeps P rest) :
    Keeps P (ifComplete ptr t mandatory rest) := by
  intro s hs
  unfold ifComplete
  dsimp only
  split_ifs
  · exact keeps_mandatoryError _ s hs
  · exact h s hs

variable (hP : Stable P)

include hP

theorem keeps_setDefault {name : String} {value : Load → Option CString} :
    Keeps P (modify fun s => s.assign ptr (setDefaultStr (s.deref ptr) name (value s)) :
      Attempt Load Nat Unit) := by
  intro s hs
  refine hP.assign s ptr _ ?_ hs
  unfold setDefaultStr
  split_ifs <;> rfl

theorem keeps_ensureNodeNameSet : Keeps P (ensureNodeNameSet env ptr) := by
  intro s hs
  unfold ensureNodeNameSet
  dsimp only
  split_ifs
  · exact hP.assign s ptr _ rfl hs
  · exact hs
  · exact hs

theorem keeps_ensureNodeDataPathSet : Keeps P (ensureNodeDataPathSet env ptr) := by
  intro s hs
  unfold ensureNodeDataPathSet
  dsimp only
  split_ifs
  · exact hP.assign s ptr _ rfl hs
  · exact hs
  · exact hs

theorem keeps_ensureDataServerPathsSet :
    Keeps P (ensureDataServerPathsSet ptr : Attempt Load Nat Unit) := by
  intro s hs
  refine hP.assign s ptr _ ?_ hs
  unfold setDefaultStr
  split_ifs <;> rfl

theorem keeps_ensureHostnameSet {hostname nodeId : String} :
    Keeps P (ensureHostnameSet ptr hostname nodeId) := by
  intro s hs
  unfold ensureHostnameSet
  dsimp only
  split_ifs
  · cases s.nodeAt ((s.deref ptr).num nodeId).toNat with
    | some conf => exact hP.assign s ptr _ rfl hs
    | none => trivial
  · exact hs

theorem keeps_addComm : Keeps P (addComm ptr) := by
  intro s hs
  unfold addComm
  split_ifs
  · exact hP.comm s _ _ hs
  · trivial

theorem keeps_ensureNodeSet : Keeps P (ensureNodeSet env ptr) :=
  keeps_bind (keeps_ensureNodeNameSet hP) fun _ =>
    keeps_bind (keeps_setDefault hP) fun _ => keeps_ensureNodeDataPathSet hP

theorem keeps_completeStruct : Keeps P (completeStruct env ptr t) := by
  have hNode : ∀ t mandatory, Keeps P (ifComplete ptr t mandatory (ensureNodeSet env ptr)) :=
    fun _ _ => keeps_ifComplete (keeps_ensureNodeSet hP)
  cases t with
  | noConfig => exact keeps_pure
  | system => exact fun _ _ => trivial
  | shm => exact fun _ _ => trivial
  | dataServer =>
    exact keeps_ifComplete
      (keeps_bind (keeps_ensureNodeSet hP) fun _ => keeps_ensureDataServerPathsSet hP)
  | comm =>
    exact keeps_ifComplete (keeps_bind (keeps_addComm hP) fun _ =>
      keeps_bind (keeps_ensureHostnameSet hP) fun _ => keeps_ensureHostnameSet hP)
  | client | clusterServer | sqlServer | repServer | fileServer | restore | clusterManager =>
    exact hNode _ _

theorem keeps_completeSection : Keeps P (completeSection env pass) := by
  intro s hs
  unfold completeSection
  split_ifs
  · exact hs
  · cases s.currentNodeConfig with
    | some ptr => exact keeps_completeStruct hP s hs
    | none => trivial

end Stable

theorem core_completeSection (h : completeSection env pass s = .ok () s') : s'.core = s.core := by
  have hKeeps : Keeps (fun s' : Load => s'.core = s.core) (completeSection env pass) :=
    keeps_completeSection (stable_core (· = s.core))
  have hAfter := hKeeps s rfl
  rw [h] at hAfter
  exact hAfter

/-! ## Sections that have been ended -/

theorem bits_of_ifComplete {mandatory : UInt64} {rest : Attempt Load Nat Unit}
    (h : ifComplete ptr t mandatory rest s = .ok () s') :
    (s.deref ptr).num mandatoryBitsName = mandatory := by
  unfold ifComplete mandatoryError at h
  by_contra hNe
  rw [if_pos hNe] at h
  split_ifs at h

/-- The mandatory parameters of a section that is ended. -/
def endBits : ConfigType → UInt64
  | .dataServer => mandatoryBits .dataServer
  | .comm => mandatoryBits .comm
  | _ => mandatoryBits .client

/-- The end of a section asks for its mandatory parameters. -/
theorem bits_of_completeSection (hDefault : s.defaultSection = false)
    (hKind : s.currentNodeConfigType ∈ sectionNames.map (·.2))
    (hPtr : s.currentNodeConfig = some ptr) (h : completeSection env .build s = .ok () s') :
    (s.deref ptr).num mandatoryBitsName = endBits s.currentNodeConfigType := by
  unfold completeSection at h
  cases hType : s.currentNodeConfigType with
  | noConfig | system | shm =>
    rw [hType] at hKind
    simp [sectionNames] at hKind
  | _ =>
    rw [if_neg (by simp [hDefault, hType]), hPtr, hType] at h
    exact bits_of_ifComplete h

end IClaustron.Config.ClusterReader
