import Mathlib.Data.List.Nodup

/-!
# Lib.Assoc — lists of entries with distinct keys

Search and removal by key in a list of (key, value) pairs, as a hash table does
them within a bucket: the first entry with the key is taken.
-/

namespace Lib.Assoc

open List

variable {κ ν : Type*} {l : List (κ × ν)} {k k' : κ} {v v' : ν}

/-- No key occurs twice. -/
def Keyed (l : List (κ × ν)) : Prop := (l.map Prod.fst).Nodup

/-- An entry is determined by its key. -/
theorem Keyed.unique (hl : Keyed l) (h : (k, v) ∈ l) (h' : (k, v') ∈ l) : v = v' := by
  have heq := inj_on_of_nodup_map hl h h' rfl
  exact (Prod.mk.inj heq).2

theorem Keyed.cons (hl : Keyed l) (h : ∀ v, (k, v) ∉ l) : Keyed ((k, v) :: l) := by
  unfold Keyed at hl ⊢
  rw [map_cons, nodup_cons]
  refine ⟨fun hmem => ?_, hl⟩
  obtain ⟨⟨k', v'⟩, he, rfl⟩ := mem_map.mp hmem
  exact h v' he

variable [DecidableEq κ]

/-- The value of the first entry with the key. -/
def search (l : List (κ × ν)) (k : κ) : Option ν := (l.find? fun e => e.1 = k).map Prod.snd

/-- The list without the first entry with the key. -/
def remove (l : List (κ × ν)) (k : κ) : List (κ × ν) := l.eraseP fun e => e.1 = k

theorem mem_of_search (h : search l k = some v) : (k, v) ∈ l := by
  unfold search at h
  obtain ⟨⟨k', v'⟩, hfind, rfl⟩ := Option.map_eq_some_iff.mp h
  have hk : k' = k := by simpa using find?_some hfind
  rw [← hk]
  exact mem_of_find?_eq_some hfind

theorem not_mem_of_search (h : search l k = none) (v : ν) : (k, v) ∉ l := by
  unfold search at h
  rw [Option.map_eq_none_iff, find?_eq_none] at h
  intro hmem
  exact h _ hmem (by simp)

theorem search_of_not_mem (h : ∀ v, (k, v) ∉ l) : search l k = none := by
  cases hs : search l k with
  | none => rfl
  | some v => exact absurd (mem_of_search hs) (h v)

theorem Keyed.search (hl : Keyed l) (h : (k, v) ∈ l) : search l k = some v := by
  cases hs : Assoc.search l k with
  | none => exact absurd h (not_mem_of_search hs v)
  | some v' => rw [hl.unique h (mem_of_search hs)]

theorem Keyed.remove (hl : Keyed l) (k : κ) : Keyed (remove l k) :=
  hl.sublist (eraseP_sublist.map _)

theorem mem_remove (hl : Keyed l) : (k', v') ∈ remove l k ↔ (k', v') ∈ l ∧ k' ≠ k := by
  unfold Assoc.remove
  by_cases hk : k' = k
  · subst hk
    refine ⟨fun h => ?_, fun h => absurd rfl h.2⟩
    -- the entry would be there twice
    exfalso
    induction l with
    | nil => cases h
    | cons e l ih =>
      unfold Keyed at hl
      rw [map_cons, nodup_cons] at hl
      by_cases he : e.1 = k'
      · rw [eraseP_cons_of_pos (by simpa using he)] at h
        exact hl.1 (mem_map.mpr ⟨_, h, he.symm⟩)
      · rw [eraseP_cons_of_neg (by simpa using he), mem_cons] at h
        rcases h with rfl | h
        · exact he rfl
        · exact ih hl.2 h
  · rw [mem_eraseP_of_neg (by simpa using hk)]
    exact ⟨fun h => ⟨h, hk⟩, fun h => h.1⟩

end Lib.Assoc
