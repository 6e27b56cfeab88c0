import IClaustron.Lib.Run
import IClaustron.SockBuf.Pool
import Mathlib.Data.List.Lattice
import Mathlib.Data.List.Nodup
import Mathlib.Data.List.Perm.Subperm
import Mathlib.Data.List.Range

/-!
# SockBuf.Conservation — where every page of the pool is

Every page object of a pool is on the free list, on the local free list of one
caller, or handed out. `Owned` is the inductive form of this: one owner for
every page, and the lists the owners hold.

* `getSockBufPage_inv`, `Owned.layOut`, `Owned.return_single` — the steps that
  keep it;
* `Owned.return_many` — a return of two or more page objects links them in the
  reverse order, but makes the first of them the head of the free list, so all
  pages behind it are lost;
* `pages_conserved_iff_single_returns` — the runs that keep every page.
-/

namespace IClaustron.SockBuf

open Lib Option Function
open List hiding Chain chain_cons

/-! ## Memory lemmas -/

@[simp] theorem link_setNext (mem : Mem) (p : PageId) (v : Option PageId) :
    link (setNext mem p v) = update (link mem) p v := by
  funext q
  by_cases h : q = p
  · subst h
    simp [link, setNext]
  · simp [link, setNext, h]

/-- A write that keeps the link field of the page keeps all links. -/
theorem link_update (mem : Mem) (p : PageId) (v : Page) (h : v.next = (mem p).next) :
    link (update mem p v) = link mem := by
  funext q
  by_cases hq : q = p
  · subst hq
    simp [link, h]
  · simp [link, hq]

@[simp] theorem link_initPage (mem : Mem) (p : PageId) : link (initPage mem p) = link mem :=
  link_update mem p _ rfl

@[simp] theorem setNext_self_size (mem : Mem) (p q : PageId) (v : Option PageId) :
    (setNext mem p v q).size = (mem q).size := by
  by_cases h : q = p
  · subst h
    simp [setNext]
  · simp [setNext, h]

@[simp] theorem setNext_self_sockBuf (mem : Mem) (p q : PageId) (v : Option PageId) :
    (setNext mem p v q).sockBuf = (mem q).sockBuf := by
  by_cases h : q = p
  · subst h
    simp [setNext]
  · simp [setNext, h]

/-- The objects behind a page only depend on its size and buffer fields. -/
theorem objPages_congr {ps : Nat} {mem mem' : Mem} {p : PageId}
    (hsize : (mem' p).size = (mem p).size) (hbuf : (mem' p).sockBuf = (mem p).sockBuf) :
    objPages ps mem' p = objPages ps mem p := by
  simp [objPages, hsize, hbuf]

theorem objPages_of_size_zero {ps : Nat} {mem : Mem} {p : PageId} (h : (mem p).size = 0) :
    objPages ps mem p = [p] := by
  simp [objPages, h]

/-- What the initialisation loop does to the first `n` pages of a chain. -/
theorem initPages_spec (n : Nat) {mem : Mem} {a : Option PageId} {l : List PageId}
    (last : Option PageId) (h : Chain (link mem) a l) :
    link (initPages n mem a last).1 = link mem ∧
    (∀ p ∉ l.take n, (initPages n mem a last).1 p = mem p) ∧
    (∀ p ∈ l.take n, ((initPages n mem a last).1 p).size = 0) ∧
    (initPages n mem a last).2 = (l.take n).getLast?.or last := by
  induction n generalizing mem a l last with
  | zero => simp [initPages]
  | succ n ih =>
    cases l with
    | nil =>
      rw [chain_nil] at h
      subst h
      simp [initPages]
    | cons x xs =>
      obtain ⟨rfl, h⟩ := h
      have hchain : Chain (link mem) (some x) (x :: xs) := ⟨rfl, h⟩
      have hnd : x ∉ xs := (nodup_cons.mp hchain.nodup).1
      have hxs : Chain (link (initPage mem x)) (mem x).next xs := by
        rw [link_initPage]
        exact h
      obtain ⟨h₁, h₂, h₃, h₄⟩ := ih (some x) hxs
      simp only [initPages, take_succ_cons]
      refine ⟨by simpa using h₁, fun p hp => ?_, fun p hp => ?_, ?_⟩
      · rw [mem_cons, not_or] at hp
        exact (h₂ p hp.2).trans (update_of_ne hp.1 _ _)
      · rcases mem_cons.mp hp with rfl | hp
        · have hx : p ∉ xs.take n := fun hin => hnd (mem_of_mem_take hin)
          rw [h₂ p hx]
          simp [initPage]
        · exact h₃ p hp
      · rw [h₄]
        cases hx : xs.take n with
        | nil => simp
        | cons y ys => simp [getLast?_cons]

/-! ## The return loop -/

theorem mem_objPages_self (ps : Nat) (mem : Mem) (p : PageId) : p ∈ objPages ps mem p := by
  unfold objPages
  split
  · split <;> simp
  · simp

theorem subset_flatMap_objPages (ps : Nat) (mem : Mem) {l : List PageId} {p : PageId} (h : p ∈ l) :
    p ∈ l.flatMap (objPages ps mem) :=
  mem_flatMap.mpr ⟨p, h, mem_objPages_self ps mem p⟩

/-- Pages whose fields are not written keep the objects behind them. -/
theorem flatMap_objPages_congr {ps : Nat} {mem mem' : Mem} {l : List PageId}
    (h : ∀ p ∈ l, mem' p = mem p) :
    l.flatMap (objPages ps mem') = l.flatMap (objPages ps mem) := by
  refine flatMap_congr fun p hp => objPages_congr ?_ ?_
  · rw [h p hp]
  · rw [h p hp]

/-- A page handed out by a pool without page data either is its own buffer or
has a whole page object as its buffer. -/
def BufOk (ps : Nat) (mem : Mem) (p : PageId) : Prop :=
  ps = 0 → (mem p).size ≠ 0 → (mem p).size = stdCacheLineSize ∧ ∃ q, (mem p).sockBuf = .page q

/-- The loop visits the objects of the chain in order; it ends at the last of
them, leaves all other pages alone and links the first one to `prev`. -/
theorem returnLoop_spec (ps fuel : Nat) {mem : Mem} {page : PageId} {rest : List PageId}
    (prev : Option PageId) (hchain : Chain (link mem) (some page) (page :: rest))
    (hbuf : ∀ p ∈ page :: rest, BufOk ps mem p)
    (hnd : ((page :: rest).flatMap (objPages ps mem)).Nodup)
    (hfuel : ((page :: rest).flatMap (objPages ps mem)).length ≤ fuel) :
    ∃ mem' last, returnLoop ps fuel mem page prev = some (mem', last) ∧
      ((page :: rest).flatMap (objPages ps mem)).getLast? = some last ∧
      (∀ x ∉ (page :: rest).flatMap (objPages ps mem), mem' x = mem x) ∧
      link mem' page = prev := by
  induction fuel generalizing mem page rest prev with
  | zero =>
    have hmem := subset_flatMap_objPages ps mem (l := page :: rest) mem_cons_self
    have hpos := length_pos_of_mem hmem
    omega
  | succ fuel ih =>
    have hrest : Chain (link mem) (mem page).next rest := hchain.2
    by_cases hsecond : ps = 0 ∧ (mem page).size ≠ 0
    · -- the buffer of `page` is a second page object, which the loop visits next
      obtain ⟨hsize, q, hq⟩ := hbuf page mem_cons_self hsecond.1 hsecond.2
      have hobj : objPages ps mem page = [page, q] := by simp [objPages, hsecond, hq]
      simp only [flatMap_cons, hobj, cons_append, nil_append, nodup_cons,
        mem_cons, not_or] at hnd hfuel ⊢
      obtain ⟨⟨hpq, hpr⟩, hqr, hnd⟩ := hnd
      set mem₁ := reclaimPage (relinkPage mem page prev) q (mem page).next with hmem₁
      have hout : ∀ x, x ≠ page → x ≠ q → mem₁ x = mem x := by
        intro x hx hx'
        simp [hmem₁, reclaimPage, relinkPage, hx, hx']
      have hne : ∀ x ∈ rest, mem₁ x = mem x := by
        intro x hx
        have hx' := subset_flatMap_objPages ps mem hx
        refine hout x ?_ ?_
        · rintro rfl
          exact hpr hx'
        · rintro rfl
          exact hqr hx'
      have hlinkq : link mem₁ q = (mem page).next := by simp [hmem₁, link, reclaimPage]
      have hlinkp : link mem₁ page = prev := by
        simp [hmem₁, link, reclaimPage, relinkPage, hpq]
      have hsizeq : (mem₁ q).size = 0 := by simp [hmem₁, reclaimPage]
      have hflat : (q :: rest).flatMap (objPages ps mem₁) = q :: rest.flatMap (objPages ps mem) := by
        rw [flatMap_cons, objPages_of_size_zero hsizeq, flatMap_objPages_congr hne]
        rfl
      have hchain₁ : Chain (link mem₁) (some q) (q :: rest) := by
        rw [chain_cons, hlinkq]
        exact ⟨rfl, hrest.congr fun x hx => by rw [link, link, hne x hx]⟩
      have hbuf₁ : ∀ p ∈ q :: rest, BufOk ps mem₁ p := by
        intro p hp hps hsz
        rcases mem_cons.mp hp with rfl | hp
        · exact absurd hsizeq hsz
        · rw [hne p hp] at hsz ⊢
          exact hbuf p (mem_cons_of_mem _ hp) hps hsz
      obtain ⟨mem', last, hrun, hlast, hframe, -⟩ := ih (some page) hchain₁ hbuf₁
        (by rw [hflat]; exact nodup_cons.mpr ⟨hqr, hnd⟩)
        (by rw [hflat]; simpa using hfuel)
      rw [hflat] at hlast hframe
      refine ⟨mem', last, ?_, by simpa [getLast?_cons_cons] using hlast, ?_, ?_⟩
      · rw [returnLoop, if_pos hsecond, if_neg (by simp [hsize])]
        simp only [hq]
        exact hrun
      · intro x hx
        rw [hframe x (by simpa using hx.2)]
        exact hout x hx.1 hx.2.1
      · rw [link, hframe page (by simp [hpq, hpr])]
        exact hlinkp
    · -- `page` is a plain page
      have hobj : objPages ps mem page = [page] := by simp [objPages, hsecond]
      simp only [flatMap_cons, hobj, cons_append, nil_append, nodup_cons,
        mem_cons, not_or] at hnd hfuel ⊢
      obtain ⟨hpr, hnd⟩ := hnd
      set mem₁ := if ps = 0 then dropBuf (relinkPage mem page prev) page
        else relinkPage mem page prev with hmem₁
      have hout : ∀ x, x ≠ page → mem₁ x = mem x := by
        intro x hx
        by_cases hps : ps = 0 <;> simp [hmem₁, hps, dropBuf, relinkPage, hx]
      have hlinkp : link mem₁ page = prev := by
        by_cases hps : ps = 0 <;> simp [hmem₁, hps, link, dropBuf, relinkPage]
      have hne : ∀ x ∈ rest, mem₁ x = mem x := by
        intro x hx
        refine hout x ?_
        rintro rfl
        exact hpr (subset_flatMap_objPages ps mem hx)
      cases rest with
      | nil =>
        rw [chain_nil] at hrest
        refine ⟨mem₁, page, ?_, by simp, fun x hx => hout x hx.1, hlinkp⟩
        simp only [returnLoop, if_neg hsecond, hrest, hmem₁]
      | cons r rs =>
        have hnext : (mem page).next = some r := hrest.1
        have hflat := @flatMap_objPages_congr ps _ _ _ hne
        have hchain₁ : Chain (link mem₁) (some r) (r :: rs) := by
          rw [← hnext]
          exact hrest.congr fun x hx => by rw [link, link, hne x hx]
        have hbuf₁ : ∀ p ∈ r :: rs, BufOk ps mem₁ p := by
          intro p hp hps hsz
          rw [hne p hp] at hsz ⊢
          exact hbuf p (mem_cons_of_mem _ hp) hps hsz
        obtain ⟨mem', last, hrun, hlast, hframe, -⟩ := ih (some page) hchain₁ hbuf₁
          (by rw [hflat]; exact hnd) (by rw [hflat]; simpa using hfuel)
        rw [hflat] at hlast hframe
        refine ⟨mem', last, ?_, ?_, ?_, ?_⟩
        · simp only [returnLoop, if_neg hsecond, hnext]
          exact hrun
        · rw [getLast?_cons, hlast]
          rfl
        · intro x hx
          rw [hframe x hx.2]
          exact hout x hx.1
        · rw [link, hframe page hpr]
          exact hlinkp

/-! ## Laying out pages -/

theorem setUpPages_spec (ps n base : Nat) (mem : Mem) :
    (∀ q, q < base ∨ base + n ≤ q → setUpPagesInLinkedList ps n base mem q = mem q) ∧
    ∀ q, base ≤ q → q < base + n → link (setUpPagesInLinkedList ps n base mem) q = some (q + 1) := by
  induction n generalizing base mem with
  | zero => exact ⟨fun q _ => rfl, fun q h₁ h₂ => by omega⟩
  | succ n ih =>
    obtain ⟨hout, hin⟩ := ih (base + 1) (update mem base
      { next := some (base + 1), size := ps, refCount := 0,
        sockBuf := if ps = 0 then .null else .dataArea base })
    simp only [setUpPagesInLinkedList]
    refine ⟨fun q hq => ?_, fun q h₁ h₂ => ?_⟩
    · have hne : q ≠ base := by omega
      rw [hout q (by omega)]
      exact update_of_ne hne _ _
    · by_cases hq : q = base
      · subst hq
        rw [link, hout q (by omega)]
        simp
      · exact hin q (by omega) (by omega)

/-- Consecutive pages linked upwards form a segment. -/
theorem seg_range' {next : PageId → Option PageId} {base n : Nat}
    (h : ∀ q, base ≤ q → q < base + n → next q = some (q + 1)) :
    Seg next (some base) (List.range' base n) (some (base + n)) := by
  induction n generalizing base with
  | zero => simp
  | succ n ih =>
    rw [range'_succ, seg_cons, h base (by omega) (by omega)]
    refine ⟨rfl, ?_⟩
    have hs : Seg next (some (base + 1)) (List.range' (base + 1) n) _ :=
      ih fun q h₁ h₂ => h q (by omega) (by omega)
    rwa [Nat.add_assoc, Nat.add_comm 1 n] at hs

/-- The laid-out pages, with the last one linked to `tail`, come before the
chain that starts at `tail`. -/
theorem chain_setUpPages {ps n base : Nat} {mem : Mem} {tail : Option PageId} {l : List PageId}
    (hn : 0 < n) (h : Chain (link mem) tail l) (hl : ∀ p ∈ l, p < base) :
    Chain (link (setNext (setUpPagesInLinkedList ps n base mem) (base + n - 1) tail)) (some base)
      (List.range' base n ++ l) := by
  obtain ⟨m, rfl⟩ : ∃ m, n = m + 1 := ⟨n - 1, by omega⟩
  obtain ⟨hout, hin⟩ := setUpPages_spec ps (m + 1) base mem
  have hlast : base + (m + 1) - 1 = base + m := by omega
  rw [hlast, link_setNext, Chain, seg_append]
  refine ⟨tail, ?_, ?_⟩
  · rw [range'_concat, seg_append]
    refine ⟨some (base + m), Seg.update ?_ (seg_range' fun q h₁ h₂ => hin q h₁ (by omega)), ?_⟩
    · simp
    · simp
  · refine Seg.congr (fun p hp => ?_) h
    have hp' := hl p hp
    have hne : p ≠ base + m := Nat.ne_of_lt (Nat.lt_add_right m hp')
    rw [update_of_ne hne, link, link, hout p (Or.inl hp')]

/-! ## Where a page is -/

/-- The places a page can be in. -/
inductive Place where
  | pool
  | localList (c : Nat)
  | out
deriving DecidableEq

def At (w : World) (p : PageId) : Place → Prop
  | .pool => OnChain (link w.pool.mem) w.pool.firstPage p
  | .localList c => OnChain (link w.pool.mem) (w.locals c) p
  | .out => p ∈ outPages w

/-- Every page ever laid out is in exactly one place, nothing else is in any
place, no page is handed out twice, and the lists are NULL terminated. -/
structure Conserved (w : World) : Prop where
  pool_acyclic : ∃ l, Chain (link w.pool.mem) w.pool.firstPage l
  locals_acyclic : ∀ c, ∃ l, Chain (link w.pool.mem) (w.locals c) l
  one_place : ∀ p < w.pool.numPages, ∃! pl, At w p pl
  only_pages : ∀ p pl, At w p pl → p < w.pool.numPages
  out_once : (outPages w).Nodup

/-- The inductive invariant: an owner for every page, with the lists that the
owners hold. Having one owner function makes the places disjoint. -/
structure Owned (w : World) (free : List PageId) (loc : Nat → List PageId)
    (owner : PageId → Option Place) : Prop where
  free_chain : Chain (link w.pool.mem) w.pool.firstPage free
  loc_chain : ∀ c, Chain (link w.pool.mem) (w.locals c) (loc c)
  loc_size : ∀ c, ∀ p ∈ loc c, (w.pool.mem p).size = 0
  out_buf : ∀ p ∈ w.out, BufOk w.pool.pageSize w.pool.mem p
  mem_free : ∀ p, p ∈ free ↔ owner p = some .pool
  mem_loc : ∀ c p, p ∈ loc c ↔ owner p = some (.localList c)
  mem_out : ∀ p, p ∈ outPages w ↔ owner p = some .out
  allocated : ∀ p, p < w.pool.numPages ↔ owner p ≠ none
  out_nodup : (outPages w).Nodup

def Inv (w : World) : Prop := ∃ free loc owner, Owned w free loc owner

variable {w : World} {free : List PageId} {loc : Nat → List PageId} {owner : PageId → Option Place}

theorem Owned.at_iff (h : Owned w free loc owner) (p : PageId) (pl : Place) :
    At w p pl ↔ owner p = some pl := by
  cases pl with
  | pool => exact h.free_chain.onChain_iff.trans (h.mem_free p)
  | localList c => exact (h.loc_chain c).onChain_iff.trans (h.mem_loc c p)
  | out => exact h.mem_out p

theorem Inv.conserved (h : Inv w) : Conserved w := by
  obtain ⟨free, loc, owner, h⟩ := h
  refine ⟨⟨free, h.free_chain⟩, fun c => ⟨loc c, h.loc_chain c⟩, fun p hp => ?_, fun p pl hat => ?_,
    h.out_nodup⟩
  · obtain ⟨pl, hpl⟩ := ne_none_iff_exists'.mp ((h.allocated p).mp hp)
    refine ⟨pl, (h.at_iff p pl).mpr hpl, fun pl' hpl' => ?_⟩
    have howner := (h.at_iff p pl').mp hpl'
    rw [hpl] at howner
    exact (Option.some.inj howner).symm
  · rw [h.at_iff] at hat
    rw [h.allocated, hat]
    exact some_ne_none pl

/-! ## Getting pages -/

/-- The state of the world after `low_get_sock_buf_page` gave a page to the caller. -/
def afterGet (w : World) (caller : Option Nat) (r : Pool × Option (Option PageId) × Option PageId) :
    World :=
  { pool := r.1, locals := putLocal w.locals caller r.2.1, out := r.2.2.toList ++ w.out }

section

variable (h : Owned w free loc owner)

include h

theorem Owned.out_owner {p : PageId} (hp : p ∈ w.out) : owner p = some .out :=
  (h.mem_out p).mp (subset_flatMap_objPages _ _ hp)

/-- Handing out a page `f` of size 0. The pages that users already hold are not
touched; the lists and owners of the others may be rearranged. -/
theorem Owned.handOut {mem' : Mem} (first' : Option PageId) {locals' : Nat → Option PageId}
    {free' : List PageId} {loc' : Nat → List PageId} {owner' : PageId → Option Place} {f : PageId}
    (hfree : Chain (link mem') first' free') (hloc : ∀ c, Chain (link mem') (locals' c) (loc' c))
    (hlocsize : ∀ c, ∀ p ∈ loc' c, (mem' p).size = 0) (hsize : (mem' f).size = 0)
    (hkeep : ∀ p ∈ w.out, mem' p = w.pool.mem p) (hf : owner f ≠ some .out)
    (hmemfree : ∀ p, p ∈ free' ↔ owner' p = some .pool)
    (hmemloc : ∀ c p, p ∈ loc' c ↔ owner' p = some (.localList c))
    (hmemout : ∀ p, owner' p = some .out ↔ p = f ∨ owner p = some .out)
    (halloc : ∀ p, owner' p = none ↔ owner p = none) :
    Owned ⟨{ w.pool with mem := mem', firstPage := first' }, locals', f :: w.out⟩ free' loc'
      owner' := by
  have hout : outPages ⟨{ w.pool with mem := mem', firstPage := first' }, locals', f :: w.out⟩ =
      f :: outPages w := by
    simp only [outPages, flatMap_cons, objPages_of_size_zero hsize]
    rw [flatMap_objPages_congr hkeep]
    rfl
  refine ⟨hfree, hloc, hlocsize, fun p hp => ?_, hmemfree, hmemloc, fun p => ?_, fun p => ?_, ?_⟩
  · rcases mem_cons.mp hp with rfl | hp
    · intro _ hne
      exact absurd hsize hne
    · change BufOk _ mem' p
      rw [BufOk, hkeep p hp]
      exact h.out_buf p hp
  · rw [hout, hmemout, mem_cons, h.mem_out]
  · change p < w.pool.numPages ↔ _
    rw [h.allocated p, Ne, Ne, halloc]
  · rw [hout]
    refine nodup_cons.mpr ⟨fun hin => ?_, h.out_nodup⟩
    exact hf ((h.mem_out f).mp hin)

/-- A page that is not out is none of the pages that users hold. -/
theorem Owned.ne_of_mem_out {f p : PageId} (hf : owner f ≠ some .out) (hp : p ∈ w.out) : p ≠ f := by
  rintro rfl
  exact hf (h.out_owner hp)

/-- Taking the first page of a local free list. -/
theorem Owned.takeLocal {c : Nat} {f : PageId} (hf : w.locals c = some f) :
    Inv ⟨{ w.pool with mem := setNext w.pool.mem f none },
      update w.locals c (w.pool.mem f).next, f :: w.out⟩ := by
  have hc := h.loc_chain c
  rw [hf] at hc
  obtain ⟨rest, hloc⟩ := hc.eq_cons
  rw [hloc] at hc
  have hown : owner f = some (.localList c) := (h.mem_loc c f).mp (by simp [hloc])
  have hfr : f ∉ rest := (nodup_cons.mp hc.nodup).1
  have hnout : owner f ≠ some .out := by simp [hown]
  refine ⟨free, update loc c rest, update owner f (some .out),
    h.handOut w.pool.firstPage ?_ ?_ ?_ ?_ ?_ hnout ?_ ?_ ?_ ?_⟩
  · rw [link_setNext]
    refine Seg.update (fun hin => ?_) h.free_chain
    simp [(h.mem_free f).mp hin] at hown
  · intro c'
    rw [link_setNext]
    by_cases hcc : c' = c
    · subst hcc
      simp only [update_self]
      exact Seg.update hfr hc.2
    · simp only [update_of_ne hcc]
      refine Seg.update (fun hin => ?_) (h.loc_chain c')
      rw [(h.mem_loc c' f).mp hin] at hown
      cases hown
      exact hcc rfl
  · intro c' p hp
    rw [setNext_self_size]
    by_cases hcc : c' = c
    · subst hcc
      rw [update_self] at hp
      exact h.loc_size c' p (by simp [hloc, hp])
    · rw [update_of_ne hcc] at hp
      exact h.loc_size c' p hp
  · rw [setNext_self_size]
    exact h.loc_size c f (by simp [hloc])
  · intro p hp
    exact update_of_ne (h.ne_of_mem_out hnout hp) _ _
  · intro p
    have hmem := h.mem_free p
    grind [update_apply]
  · intro c' p
    have hmem := h.mem_loc c' p
    grind [update_apply]
  · intro p
    grind [update_apply]
  · intro p
    grind [update_apply]

/-- Fetching `f` and the `batch` after it from the pool: `f` is handed out, and
the batch becomes the local free list of the caller that passed an empty one.
`mem'` is the memory after the pages were initialised and cut off. -/
theorem Owned.takePool {f : PageId} (batch rest : List PageId) {mem' : Mem} {first' : Option PageId}
    {locals' : Nat → Option PageId} (c : Nat) (hfree : free = f :: (batch ++ rest))
    (hempty : batch ≠ [] → w.locals c = none) (hsize : ∀ p ∈ f :: batch, (mem' p).size = 0)
    (hkeep : ∀ p ∉ f :: batch, mem' p = w.pool.mem p) (hrest : Chain (link mem') first' rest)
    (hlocals : ∀ c', c' ≠ c → locals' c' = w.locals c')
    (hlocal : if batch = [] then locals' c = w.locals c else Chain (link mem') (locals' c) batch) :
    Inv ⟨{ w.pool with mem := mem', firstPage := first' }, locals', f :: w.out⟩ := by
  have hnd : (f :: (batch ++ rest)).Nodup := hfree ▸ h.free_chain.nodup
  have hpool : ∀ p ∈ f :: (batch ++ rest), owner p = some .pool := fun p hp =>
    (h.mem_free p).mp (hfree ▸ hp)
  have hmoved : ∀ p ∈ f :: batch, owner p = some .pool := fun p hp =>
    hpool p (by grind)
  have hloc_empty : batch ≠ [] → loc c = [] := fun hne => by
    have hc := h.loc_chain c
    rw [hempty hne] at hc
    exact chain_none.mp hc
  -- a local free list that is not filled here keeps its pages and its chain
  have hother : ∀ c', (c' = c → batch = []) → Chain (link mem') (locals' c') (loc c') := by
    intro c' hcc
    have hhead : locals' c' = w.locals c' := by
      by_cases hc' : c' = c
      · rw [if_pos (hcc hc')] at hlocal
        rw [hc', hlocal]
      · exact hlocals c' hc'
    rw [hhead]
    refine (h.loc_chain c').congr fun p hp => ?_
    have hown := (h.mem_loc c' p).mp hp
    rw [link, link, hkeep p fun hin => by rw [hmoved p hin] at hown; cases hown]
  refine ⟨rest, fun c' => if c' = c ∧ batch ≠ [] then batch else loc c',
    fun p => if p = f then some .out else if p ∈ batch then some (.localList c) else owner p,
    h.handOut first' hrest ?_ ?_ (hsize f mem_cons_self) ?_ ?_ ?_ ?_ ?_ ?_⟩
  · intro c'
    by_cases hcc : c' = c ∧ batch ≠ []
    · rw [if_neg hcc.2] at hlocal
      rw [if_pos hcc, hcc.1]
      exact hlocal
    · rw [if_neg hcc]
      exact hother c' fun hc' => by
        by_contra hne
        exact hcc ⟨hc', hne⟩
  · intro c' p hp
    by_cases hcc : c' = c ∧ batch ≠ []
    · rw [if_pos hcc] at hp
      exact hsize p (mem_cons_of_mem f hp)
    · rw [if_neg hcc] at hp
      have hown := (h.mem_loc c' p).mp hp
      rw [hkeep p fun hin => by rw [hmoved p hin] at hown; cases hown]
      exact h.loc_size c' p hp
  · intro p hp
    have hown := h.out_owner hp
    exact hkeep p fun hin => by rw [hmoved p hin] at hown; cases hown
  · rw [hmoved f mem_cons_self]
    simp
  · intro p
    have hmem := h.mem_free p
    rw [hfree] at hmem
    grind
  · intro c' p
    have hmem := h.mem_loc c' p
    have hp := hpool p
    grind
  · intro p
    have hp := hpool p
    grind
  · intro p
    have hp := hpool p
    grind

end

/-- What a caller relies on after `low_get_sock_buf_page`. -/
structure GetOk (w : World) (caller : Option Nat)
    (r : Pool × Option (Option PageId) × Option PageId) : Prop where
  inv : Inv (afterGet w caller r)
  local_eq : r.2.1 = caller.map (afterGet w caller r).locals
  pageSize_eq : r.1.pageSize = w.pool.pageSize
  page_fresh : ∀ p, r.2.2 = some p → (r.1.mem p).size = 0 ∧ (r.1.mem p).next = none
  keep_out : ∀ p ∈ w.out, r.1.mem p = w.pool.mem p

/-- Fetching pages for a caller whose local free list, if passed, is empty. -/
theorem fetchPages_ok (h : Owned w free loc owner) (caller : Option Nat) (num : Nat)
    {r : Pool × Option (Option PageId) × Option PageId}
    (hempty : ∀ c, caller = some c → w.locals c = none) (hnum : caller = none → num = 1)
    (hr : fetchPages w.pool (caller.map w.locals) num = some r) : GetOk w caller r := by
  have hput : putLocal w.locals caller (caller.map w.locals) = w.locals := by
    cases caller with
    | none => rfl
    | some c => simp [putLocal]
  unfold fetchPages at hr
  split at hr
  · cases hr
  rename_i hnum0
  obtain ⟨k, rfl⟩ := Nat.exists_eq_succ_of_ne_zero hnum0
  have hfree := h.free_chain
  cases hfirst : w.pool.firstPage with
  | none =>
    -- the pool is empty
    simp only [hfirst, advance_none, Option.some.injEq] at hr
    subst hr
    have hw : afterGet w caller ({ w.pool with firstPage := none }, caller.map w.locals, none) = w := by
      simp only [afterGet, hput, toList_none, nil_append]
      rw [← hfirst]
    refine ⟨?_, by rw [hw], rfl, fun p hp => (by cases hp), fun _ _ => rfl⟩
    rw [hw]
    exact ⟨free, loc, owner, h⟩
  | some f =>
    rw [hfirst] at hfree
    obtain ⟨rest, rfl⟩ := hfree.eq_cons
    obtain ⟨hlink, hsame, hzero, hlast⟩ := initPages_spec (k + 1) none hfree
    obtain ⟨hseg, hdrop⟩ := hfree.advance (k + 1)
    rw [take_succ_cons] at hsame hzero hlast hseg
    rw [drop_succ_cons] at hdrop
    have hnd := hfree.nodup
    rw [← take_append_drop k rest] at hnd
    set mem₁ := (initPages (k + 1) w.pool.mem (some f) none).1
    set first' := advance (link w.pool.mem) (k + 1) (some f)
    rw [or_none] at hlast
    simp only [hfirst, hlast, Option.some.injEq] at hr
    have hkeep : ∀ p ∈ w.out, p ∉ f :: rest.take k := by
      intro p hp hin
      have hfree : p ∈ f :: rest := by grind [mem_of_mem_take]
      rw [h.mem_free, h.out_owner hp] at hfree
      cases hfree
    rcases eq_nil_or_concat' (rest.take k) with hbatch | ⟨init, x, hbatch⟩
    · -- only one page was fetched
      simp only [hbatch, getLast?_singleton, cutBatch, ne_eq, not_true_eq_false, and_false,
        if_false] at hr
      subst hr
      refine ⟨?_, by simp [afterGet, hput], rfl, fun p hp => ?_, fun p hp => ?_⟩
      · simp only [afterGet, hput, toList_some, singleton_append]
        refine h.takePool [] (rest.drop k) (caller.getD 0) ?_ (by simp) ?_ ?_ ?_
          (fun _ _ => rfl) (by simp)
        · simpa [hbatch] using (take_append_drop k rest).symm
        · simpa [hbatch] using hzero
        · intro p hp
          rw [setNext, update_of_ne (by simpa using hp)]
          exact hsame p (by simpa [hbatch] using hp)
        · rw [link_setNext, hlink]
          exact Seg.update (by grind) hdrop
      · cases hp
        refine ⟨?_, by simp [setNext]⟩
        rw [setNext_self_size]
        exact hzero f mem_cons_self
      · change setNext mem₁ f none p = _
        rw [setNext, update_of_ne fun hpf => hkeep p hp (by simp [hpf])]
        exact hsame p (hkeep p hp)
    · -- the pages up to `x` become the local free list
      obtain ⟨c, rfl⟩ : ∃ c, caller = some c := by
        cases caller with
        | none => simp [show k = 0 by simpa using hnum rfl] at hbatch
        | some c => exact ⟨c, rfl⟩
      have hxf : x ≠ f := by grind
      have hgl : (f :: rest.take k).getLast? = some x := by simp [hbatch, getLast?_cons]
      simp only [hgl, cutBatch, map_some, isSome_some, ne_eq, hxf, not_false_eq_true,
        and_self, if_true] at hr
      subst hr
      refine ⟨?_, by simp [afterGet, putLocal], rfl, fun p hp => ?_, fun p hp => ?_⟩
      · simp only [afterGet, putLocal, toList_some, singleton_append]
        refine h.takePool (rest.take k) (rest.drop k) c ?_ ?_ ?_ ?_ ?_ ?_ ?_
        · rw [take_append_drop]
        · exact fun _ => hempty c rfl
        · intro p hp
          rw [setNext_self_size, setNext_self_size]
          exact hzero p hp
        · intro p hp
          have hpx : p ≠ x := by
            rintro rfl
            exact hp (by simp [hbatch])
          rw [setNext, update_of_ne (by grind), setNext, update_of_ne hpx]
          exact hsame p hp
        · rw [link_setNext, link_setNext, hlink]
          exact Seg.update (by grind) (Seg.update (by grind) hdrop)
        · intro c' hc'
          exact update_of_ne hc' _ _
        · rw [if_neg (by simp [hbatch]), link_setNext, link_setNext, hlink, update_self,
            hbatch]
          rw [hbatch] at hseg hnd
          have hxinit : x ∉ init := by grind
          have hcut := Seg.cut hxinit hseg.2
          have hhead : (mem₁ f).next = link w.pool.mem f := by rw [← hlink]; rfl
          rw [hhead]
          exact Seg.update (by grind) hcut
      · cases hp
        refine ⟨?_, by simp [setNext]⟩
        rw [setNext_self_size, setNext_self_size]
        exact hzero f mem_cons_self
      · change setNext (setNext mem₁ x none) f none p = _
        rw [setNext, update_of_ne fun hpf => hkeep p hp (by simp [hpf]), setNext,
          update_of_ne fun hpx => hkeep p hp (by simp [hpx, hbatch])]
        exact hsame p (hkeep p hp)

theorem lowGet_ok (h : Inv w) (caller : Option Nat) (num : Nat)
    {r : Pool × Option (Option PageId) × Option PageId}
    (hr : lowGetSockBufPage w.pool (caller.map w.locals) num = some r) : GetOk w caller r := by
  obtain ⟨free, loc, owner, h⟩ := h
  cases caller with
  | none => exact fetchPages_ok h none 1 (fun c hc => by cases hc) (fun _ => rfl) hr
  | some c =>
    cases hf : w.locals c with
    | none =>
      simp only [lowGetSockBufPage, map_some, hf] at hr
      refine fetchPages_ok h (some c) num (fun c' hc' => ?_) (fun hc => by cases hc) (by simpa [hf] using hr)
      cases hc'
      exact hf
    | some f =>
      simp only [lowGetSockBufPage, map_some, hf, Option.some.injEq] at hr
      subst hr
      obtain ⟨rest, hrest⟩ := (hf ▸ h.loc_chain c).eq_cons
      refine ⟨h.takeLocal hf, by simp [afterGet, putLocal], rfl, fun p hp => ?_, fun p hp => ?_⟩
      · cases hp
        refine ⟨?_, by simp [setNext]⟩
        rw [setNext_self_size]
        exact h.loc_size c f (by simp [hrest])
      · refine update_of_ne (h.ne_of_mem_out ?_ hp) _ _
        rw [(h.mem_loc c f).mp (by simp [hrest])]
        simp

/-! ## Returning pages -/

/-- A memory in which the pages of `chain` are linked to each other, and that
agrees with `mem` in everything else. -/
structure Linked (mem mem₀ : Mem) (chain : List PageId) : Prop where
  is_chain : Chain (link mem₀) chain.head? chain
  keep : ∀ x ∉ chain, mem₀ x = mem x
  size : ∀ x, (mem₀ x).size = (mem x).size
  sockBuf : ∀ x, (mem₀ x).sockBuf = (mem x).sockBuf

theorem linkChain_linked (mem : Mem) {chain : List PageId} (hnd : chain.Nodup) :
    Linked mem (linkChain mem chain) chain := by
  induction chain generalizing mem with
  | nil => exact ⟨rfl, fun _ _ => rfl, fun _ => rfl, fun _ => rfl⟩
  | cons p rest ih =>
    obtain ⟨hp, hnd⟩ := nodup_cons.mp hnd
    cases rest with
    | nil =>
      refine ⟨⟨rfl, by simp [linkChain]⟩, fun x hx => ?_, fun x => ?_, fun x => ?_⟩
      · exact update_of_ne (by simpa using hx) _ _
      · simp [linkChain]
      · simp [linkChain]
    | cons q rest =>
      have hq := ih (setNext mem p (some q)) hnd
      simp only [linkChain]
      refine ⟨⟨rfl, ?_⟩, fun x hx => ?_, fun x => ?_, fun x => ?_⟩
      · have hlink : link (linkChain (setNext mem p (some q)) (q :: rest)) p = some q := by
          rw [link, hq.keep p hp]
          simp [setNext]
        rw [hlink]
        exact hq.is_chain
      · rw [mem_cons, not_or] at hx
        rw [hq.keep x hx.2]
        exact update_of_ne hx.1 _ _
      · simpa using hq.size x
      · simpa using hq.sockBuf x

section

variable (h : Owned w free loc owner)

include h

/-- Pages that two different users hold have no object in common. -/
theorem Owned.disjoint_obj {x y : PageId} (hx : x ∈ w.out) (hy : y ∈ w.out) (hne : x ≠ y) :
    List.Disjoint (objPages w.pool.pageSize w.pool.mem x) (objPages w.pool.pageSize w.pool.mem y) := by
  have hpw := (nodup_flatMap.mp h.out_nodup).2
  have : Std.Symm (onFun List.Disjoint (objPages w.pool.pageSize w.pool.mem)) :=
    ⟨fun _ _ hd => List.Disjoint.symm hd⟩
  exact hpw.forall hx hy hne

theorem Owned.obj_nodup {chain : List PageId} (hnd : chain.Nodup) (hsub : ∀ p ∈ chain, p ∈ w.out) :
    (chain.flatMap (objPages w.pool.pageSize w.pool.mem)).Nodup := by
  refine nodup_flatMap.mpr ⟨fun x hx => ?_, ?_⟩
  · exact (nodup_flatMap.mp h.out_nodup).1 x (hsub x hx)
  · exact hnd.pairwise_of_forall_ne fun x hx y hy hne => h.disjoint_obj (hsub x hx) (hsub y hy) hne

theorem Owned.obj_owner {chain : List PageId} (hsub : ∀ p ∈ chain, p ∈ w.out) {x : PageId}
    (hx : x ∈ chain.flatMap (objPages w.pool.pageSize w.pool.mem)) : owner x = some .out := by
  obtain ⟨p, hp, hx⟩ := mem_flatMap.mp hx
  exact (h.mem_out x).mp (mem_flatMap.mpr ⟨p, hsub p hp, hx⟩)

/-- What `return_sock_buf_page` does with a chain of handed-out pages: the pages
outside it are left alone, the last object of the chain is linked to the old
free list, and the new free list starts at the first page, which keeps the NULL
link that the loop gave it unless it is also the last one. -/
theorem Owned.returned {mem₀ : Mem} {inPage : PageId} {rest : List PageId}
    (hnd : (inPage :: rest).Nodup) (hsub : ∀ p ∈ inPage :: rest, p ∈ w.out)
    (hlinked : Linked w.pool.mem mem₀ (inPage :: rest)) :
    ∃ mem' last, returnSockBufPage { w.pool with mem := mem₀ } inPage =
        some { w.pool with mem := setNext mem' last w.pool.firstPage, firstPage := some inPage } ∧
      ((inPage :: rest).flatMap (objPages w.pool.pageSize w.pool.mem)).getLast? = some last ∧
      (∀ x ∉ (inPage :: rest).flatMap (objPages w.pool.pageSize w.pool.mem),
        mem' x = w.pool.mem x) ∧
      link mem' inPage = none := by
  have hflat : (inPage :: rest).flatMap (objPages w.pool.pageSize mem₀) =
      (inPage :: rest).flatMap (objPages w.pool.pageSize w.pool.mem) :=
    flatMap_congr fun p _ => objPages_congr (hlinked.size p) (hlinked.sockBuf p)
  have hobj := h.obj_nodup hnd hsub
  have hlen : ((inPage :: rest).flatMap (objPages w.pool.pageSize w.pool.mem)).length ≤
      w.pool.numPages := by
    have hrange : ((inPage :: rest).flatMap (objPages w.pool.pageSize w.pool.mem)) ⊆
        List.range w.pool.numPages := by
      intro x hx
      rw [mem_range, h.allocated, h.obj_owner hsub hx]
      simp
    simpa using (hobj.subperm hrange).length_le
  have hbuf : ∀ p ∈ inPage :: rest, BufOk w.pool.pageSize mem₀ p := by
    intro p hp
    rw [BufOk, hlinked.size, hlinked.sockBuf]
    exact h.out_buf p (hsub p hp)
  obtain ⟨mem', last, hrun, hlast, hframe, hhead⟩ :=
    returnLoop_spec w.pool.pageSize (w.pool.numPages + 1) none hlinked.is_chain hbuf
      (by rw [hflat]; exact hobj) (by rw [hflat]; omega)
  rw [hflat] at hlast hframe
  refine ⟨mem', last, ?_, hlast, fun x hx => ?_, hhead⟩
  · simp only [returnSockBufPage, hrun, map_some]
  · rw [hframe x hx]
    exact hlinked.keep x fun hin => hx (subset_flatMap_objPages _ _ hin)

/-- What the remaining users hold is not touched by a return. -/
theorem Owned.outPages_returned {mem' : Mem} (first' : Option PageId)
    (locals' : Nat → Option PageId) {chain : List PageId} (hsub : ∀ p ∈ chain, p ∈ w.out)
    (hkeep : ∀ x ∉ chain.flatMap (objPages w.pool.pageSize w.pool.mem), mem' x = w.pool.mem x)
    (x : PageId) :
    x ∈ outPages ⟨{ w.pool with mem := mem', firstPage := first' }, locals',
        w.out.filter (· ∉ chain)⟩ ↔
      x ∈ outPages w ∧ x ∉ chain.flatMap (objPages w.pool.pageSize w.pool.mem) := by
  have hdisj : ∀ y ∈ w.out, y ∉ chain → ∀ x ∈ objPages w.pool.pageSize w.pool.mem y,
      x ∉ chain.flatMap (objPages w.pool.pageSize w.pool.mem) := by
    intro y hy hyc x hx hin
    obtain ⟨z, hz, hxz⟩ := mem_flatMap.mp hin
    have hne : y ≠ z := by
      rintro rfl
      exact hyc hz
    exact h.disjoint_obj hy (hsub z hz) hne hx hxz
  have hsame : ∀ y ∈ w.out, y ∉ chain →
      objPages w.pool.pageSize mem' y = objPages w.pool.pageSize w.pool.mem y := by
    intro y hy hyc
    have := hkeep y (hdisj y hy hyc y (mem_objPages_self _ _ y))
    exact objPages_congr (by rw [this]) (by rw [this])
  simp only [outPages, mem_flatMap, mem_filter, decide_eq_true_eq]
  constructor
  · rintro ⟨y, ⟨hy, hyc⟩, hx⟩
    rw [hsame y hy hyc] at hx
    exact ⟨⟨y, hy, hx⟩, fun hin => hdisj y hy hyc x hx (mem_flatMap.mpr hin)⟩
  · rintro ⟨⟨y, hy, hx⟩, hno⟩
    have hyc : y ∉ chain := fun hyc => hno ⟨y, hyc, hx⟩
    exact ⟨y, ⟨hy, hyc⟩, by rwa [hsame y hy hyc]⟩

/-- Giving back a single page object puts it first on the free list. -/
theorem Owned.return_single {mem₀ : Mem} {p : PageId} (hp : p ∈ w.out)
    (hlinked : Linked w.pool.mem mem₀ [p]) (hobj : objPages w.pool.pageSize w.pool.mem p = [p])
    {pool' : Pool} (hr : returnSockBufPage { w.pool with mem := mem₀ } p = some pool') :
    Inv { w with pool := pool', out := w.out.filter (· ∉ [p]) } := by
  have hsub : ∀ q ∈ [p], q ∈ w.out := by simpa using hp
  obtain ⟨mem', last, hrun, hlast, hkeep, -⟩ := h.returned (by simp) hsub hlinked
  have hflat : [p].flatMap (objPages w.pool.pageSize w.pool.mem) = [p] := by simp [hobj]
  rw [hflat] at hlast hkeep
  obtain rfl : p = last := by simpa using hlast
  rw [hrun] at hr
  cases hr
  have hown := h.out_owner hp
  have hkeep' : ∀ x, x ≠ p → setNext mem' p w.pool.firstPage x = w.pool.mem x := by
    intro x hx
    rw [setNext, update_of_ne hx]
    exact hkeep x (by simpa using hx)
  have hkeep'' : ∀ x ∉ [p].flatMap (objPages w.pool.pageSize w.pool.mem),
      setNext mem' p w.pool.firstPage x = w.pool.mem x := fun x hx =>
    hkeep' x (by simpa [hflat] using hx)
  have hout := h.outPages_returned (some p) w.locals hsub hkeep''
  refine ⟨p :: free, loc, update owner p (some .pool), ?_, ?_, ?_, ?_, ?_, ?_, ?_, ?_, ?_⟩
  · rw [chain_cons]
    refine ⟨rfl, ?_⟩
    have hpf : p ∉ free := fun hin => by simp [(h.mem_free p).mp hin] at hown
    rw [show link (setNext mem' p w.pool.firstPage) p = w.pool.firstPage by simp]
    refine h.free_chain.congr fun x hx => ?_
    have hne : x ≠ p := by
      rintro rfl
      exact hpf hx
    exact (congrArg Page.next (hkeep' x hne)).symm
  · intro c
    refine (h.loc_chain c).congr fun x hx => ?_
    have hne : x ≠ p := by
      rintro rfl
      simp [(h.mem_loc c x).mp hx] at hown
    exact (congrArg Page.next (hkeep' x hne)).symm
  · intro c x hx
    change (setNext mem' p w.pool.firstPage x).size = 0
    rw [hkeep' x (by rintro rfl; simp [(h.mem_loc c x).mp hx] at hown)]
    exact h.loc_size c x hx
  · intro x hx
    obtain ⟨hx, hxp⟩ : x ∈ w.out ∧ x ≠ p := by simpa using hx
    change BufOk _ (setNext mem' p w.pool.firstPage) x
    rw [BufOk, hkeep' x hxp]
    exact h.out_buf x hx
  · intro x
    have hmem := h.mem_free x
    grind [update_apply]
  · intro c x
    have hmem := h.mem_loc c x
    grind [update_apply]
  · intro x
    rw [hout, hflat, h.mem_out]
    grind [update_apply]
  · intro x
    have hmem := h.allocated x
    change x < w.pool.numPages ↔ _
    grind [update_apply]
  · have hcongr : outPages { w with
        pool := { w.pool with mem := setNext mem' p w.pool.firstPage, firstPage := some p },
        out := w.out.filter (· ∉ [p]) } =
        (w.out.filter (· ∉ [p])).flatMap (objPages w.pool.pageSize w.pool.mem) := by
      refine flatMap_objPages_congr fun x hx => hkeep' x ?_
      simpa using (mem_filter.mp hx).2
    obtain ⟨heach, hpw⟩ := nodup_flatMap.mp h.out_nodup
    rw [hcongr]
    exact nodup_flatMap.mpr
      ⟨fun x hx => heach x (mem_filter.mp hx).1, hpw.sublist filter_sublist⟩

/-- Giving back more than one page object loses all of them but the first: the
new free list is that page alone. -/
theorem Owned.return_many {mem₀ : Mem} {inPage : PageId} {rest : List PageId}
    (hnd : (inPage :: rest).Nodup) (hsub : ∀ p ∈ inPage :: rest, p ∈ w.out)
    (hlinked : Linked w.pool.mem mem₀ (inPage :: rest))
    (hmany : ((inPage :: rest).flatMap (objPages w.pool.pageSize w.pool.mem)).length ≠ 1)
    {pool' : Pool} (hr : returnSockBufPage { w.pool with mem := mem₀ } inPage = some pool') :
    ¬ Conserved { w with pool := pool', out := w.out.filter (· ∉ inPage :: rest) } := by
  obtain ⟨mem', last, hrun, hlast, hkeep, hhead⟩ := h.returned hnd hsub hlinked
  rw [hrun] at hr
  cases hr
  set es := (inPage :: rest).flatMap (objPages w.pool.pageSize w.pool.mem) with hes
  have hlast_mem : last ∈ es := mem_of_getLast? hlast
  have hin_mem : inPage ∈ es := subset_flatMap_objPages _ _ mem_cons_self
  have hhead_es : es.head? = some inPage := by
    rw [hes, flatMap_cons]
    unfold objPages
    split
    · split <;> rfl
    · rfl
  -- the last object is not the first page, so the first page keeps its NULL link
  have hne : last ≠ inPage := by
    intro heq
    have hnodup : es.Nodup := h.obj_nodup hnd hsub
    cases hcons : es with
    | nil => simp [hcons] at hin_mem
    | cons e tl =>
      rw [hcons] at hhead_es hlast hnodup hmany
      cases tl with
      | nil => exact hmany rfl
      | cons e' tl =>
        simp only [head?_cons, Option.some.injEq] at hhead_es
        rw [getLast?_cons_cons] at hlast
        have := mem_of_getLast? hlast
        grind
  have hfree : Chain (link (setNext mem' last w.pool.firstPage)) (some inPage) [inPage] := by
    rw [chain_cons, link_setNext, update_of_ne hne.symm, hhead]
    exact ⟨rfl, rfl⟩
  have hkeep' : ∀ x ∉ es, setNext mem' last w.pool.firstPage x = w.pool.mem x := by
    intro x hx
    have hxl : x ≠ last := by
      rintro rfl
      exact hx hlast_mem
    rw [setNext, update_of_ne hxl]
    exact hkeep x hx
  have hown : owner last = some .out := h.obj_owner hsub hlast_mem
  intro hcons
  have halloc : last < w.pool.numPages := by
    rw [h.allocated, hown]
    simp
  obtain ⟨pl, hat, -⟩ := hcons.one_place last halloc
  cases pl with
  | pool =>
    have hin : last ∈ [inPage] := hfree.onChain_iff.mp hat
    exact hne (by simpa using hin)
  | localList c =>
    have hloc : Chain (link (setNext mem' last w.pool.firstPage)) (w.locals c) (loc c) := by
      refine (h.loc_chain c).congr fun x hx => ?_
      have hx' : x ∉ es := fun hin => by
        have := h.obj_owner hsub hin
        rw [(h.mem_loc c x).mp hx] at this
        cases this
      exact (congrArg Page.next (hkeep' x hx')).symm
    have hin : last ∈ loc c := hloc.onChain_iff.mp hat
    rw [h.mem_loc, hown] at hin
    cases hin
  | out =>
    have hin := (h.outPages_returned (some inPage) w.locals hsub hkeep'
      last).mp hat
    exact hin.2 hlast_mem

/-! ## `get_sock_buf_page` -/

/-- A write to a page that a user holds, with the objects behind the pages in
the users' hands rearranged but the same. -/
theorem Owned.write_out {p : PageId} (hp : p ∈ w.out) {v : Page} {out' : List PageId}
    (hnext : v.next = (w.pool.mem p).next)
    (hbuf : ∀ x ∈ out', BufOk w.pool.pageSize (update w.pool.mem p v) x)
    (hperm : (out'.flatMap (objPages w.pool.pageSize (update w.pool.mem p v))).Perm
      (outPages w)) :
    Inv { w with pool := { w.pool with mem := update w.pool.mem p v }, out := out' } := by
  have hown := h.out_owner hp
  have hlink := link_update w.pool.mem p v hnext
  refine ⟨free, loc, owner, ?_, fun c => ?_, fun c x hx => ?_, hbuf, h.mem_free, h.mem_loc,
    fun x => ?_, h.allocated, hperm.nodup_iff.mpr h.out_nodup⟩
  · rw [hlink]
    exact h.free_chain
  · rw [hlink]
    exact h.loc_chain c
  · have hne : x ≠ p := by
      rintro rfl
      rw [(h.mem_loc c x).mp hx] at hown
      cases hown
    have hsame : update w.pool.mem p v x = w.pool.mem x := update_of_ne hne _ _
    exact (congrArg Page.size hsame).trans (h.loc_size c x hx)
  · exact hperm.mem_iff.trans (h.mem_out x)

theorem Owned.useBufArea {p : PageId} (hp : p ∈ w.out) (hsize : (w.pool.mem p).size = 0) :
    Inv { w with pool := { w.pool with mem := useBufArea w.pool.mem p } } := by
  have hsz : ∀ x, (SockBuf.useBufArea w.pool.mem p x).size = (w.pool.mem x).size := by
    intro x
    by_cases hx : x = p
    · subst hx
      simp [SockBuf.useBufArea]
    · simp [SockBuf.useBufArea, hx]
  have hsame : ∀ x, x ≠ p → SockBuf.useBufArea w.pool.mem p x = w.pool.mem x := fun x hx =>
    update_of_ne hx _ _
  refine h.write_out hp rfl (fun x hx => ?_) (List.Perm.of_eq (flatMap_congr fun x _ => ?_))
  · change BufOk _ (SockBuf.useBufArea w.pool.mem p) x
    by_cases hxp : x = p
    · intro _ hne
      rw [hsz, hxp] at hne
      exact absurd hsize hne
    · rw [BufOk, hsame x hxp]
      exact h.out_buf x hx
  · change objPages _ (SockBuf.useBufArea w.pool.mem p) x = _
    by_cases hxp : x = p
    · rw [hxp, objPages_of_size_zero (by rw [hsz]; exact hsize), objPages_of_size_zero hsize]
    · exact objPages_congr (hsz x) (by rw [hsame x hxp])

/-- A second page object in the user's hands becomes the buffer of a page. -/
theorem Owned.useSecond {p q : PageId} {rest : List PageId} (hout : w.out = q :: p :: rest)
    (hp : (w.pool.mem p).size = 0) (hq : (w.pool.mem q).size = 0) (hps : w.pool.pageSize = 0) :
    Inv { w with pool := { w.pool with mem := useSecond w.pool.mem p q }, out := p :: rest } := by
  have hnd := h.out_nodup
  have hold : outPages w = q :: p :: rest.flatMap (objPages 0 w.pool.mem) := by
    simp [outPages, hout, hps, objPages_of_size_zero hp, objPages_of_size_zero hq]
  have hrest : ∀ x ∈ rest, SockBuf.useSecond w.pool.mem p q x = w.pool.mem x := by
    intro x hx
    refine update_of_ne ?_ _ _
    rintro rfl
    rw [hold] at hnd
    have := subset_flatMap_objPages 0 w.pool.mem hx
    grind
  refine h.write_out (p := p) (by simp [hout]) rfl (fun x hx => ?_) ?_
  · change BufOk _ (SockBuf.useSecond w.pool.mem p q) x
    rcases mem_cons.mp hx with rfl | hx
    · intro _ _
      simp [SockBuf.useSecond]
    · rw [BufOk, hrest x hx]
      exact h.out_buf x (by simp [hout, hx])
  · change List.Perm (List.flatMap (objPages _ (SockBuf.useSecond w.pool.mem p q)) _) _
    have hobj : objPages 0 (SockBuf.useSecond w.pool.mem p q) p = [p, q] := by
      simp [objPages, SockBuf.useSecond, stdCacheLineSize]
    rw [hold, hps, flatMap_cons, flatMap_objPages_congr hrest, hobj]
    exact List.Perm.swap q p _

end

/-- The local free lists after two calls of `low_get_sock_buf_page`. -/
theorem putLocal_putLocal (locals : Nat → Option PageId) {caller : Option Nat}
    {free₁ free₂ : Option (Option PageId)} (h : free₂.isSome = caller.isSome) :
    putLocal (putLocal locals caller free₁) caller free₂ = putLocal locals caller free₂ := by
  cases caller with
  | none => rfl
  | some c =>
    obtain ⟨head, rfl⟩ := isSome_iff_exists.mp h
    cases free₁ <;> simp [putLocal]

theorem getSockBufPage_inv (h : Inv w) (bufSize : Nat) (caller : Option Nat) (num : Nat)
    {r : Pool × Option (Option PageId) × Option PageId}
    (hr : getSockBufPage w.pool bufSize (caller.map w.locals) num = some r) :
    Inv (afterGet w caller r) := by
  unfold getSockBufPage at hr
  obtain ⟨⟨pool₁, free₁, page⟩, hlow, hr⟩ := bind_eq_some_iff.mp hr
  have hget := lowGet_ok h caller num hlow
  cases page with
  | none =>
    cases hr
    exact hget.inv
  | some p =>
    obtain ⟨free, loc, owner, h₁⟩ := hget.inv
    have hp : p ∈ (afterGet w caller (pool₁, free₁, some p)).out := by simp [afterGet]
    have hsize : (pool₁.mem p).size = 0 := (hget.page_fresh p rfl).1
    simp only at hr
    split_ifs at hr with hbuf hps hbig hsmall
    · cases hr
      exact hget.inv
    · cases hr
      exact hget.inv
    · cases hr
      exact h₁.useBufArea hp hsize
    · -- a second page object is needed
      obtain ⟨⟨pool₂, free₂, second⟩, hlow₂, hr⟩ := bind_eq_some_iff.mp hr
      have hlocal₁ : free₁ = caller.map (afterGet w caller (pool₁, free₁, some p)).locals :=
        hget.local_eq
      rw [hlocal₁] at hlow₂
      have hget₂ := lowGet_ok (w := afterGet w caller (pool₁, free₁, some p)) hget.inv caller num hlow₂
      have hlocals : putLocal (putLocal w.locals caller free₁) caller free₂ =
          putLocal w.locals caller free₂ := by
        refine putLocal_putLocal _ ?_
        have hsome := congrArg Option.isSome hget₂.local_eq
        simpa using hsome
      obtain ⟨free', loc', owner', h₂⟩ := hget₂.inv
      have hsize₂ : pool₂.mem p = pool₁.mem p := hget₂.keep_out p hp
      cases second with
      | none =>
        -- there is none: the first page goes back
        simp only at hr
        obtain ⟨pool₃, hret, hr⟩ := bind_eq_some_iff.mp hr
        cases hr
        have hlinked : Linked pool₂.mem pool₂.mem [p] := by
          refine ⟨⟨rfl, ?_⟩, fun _ _ => rfl, fun _ => rfl, fun _ => rfl⟩
          change (pool₂.mem p).next = none
          rw [hsize₂]
          exact (hget.page_fresh p rfl).2
        have hret' := h₂.return_single (p := p) (by simp [afterGet]) hlinked
          (objPages_of_size_zero (by rw [← hsize, ← hsize₂]; rfl)) hret
        have hpw : p ∉ w.out := by
          intro hin
          have hnd := h₁.out_nodup
          simp only [outPages, afterGet, toList_some, singleton_append,
            flatMap_cons, objPages_of_size_zero hsize] at hnd
          exact (nodup_cons.mp hnd).1 (subset_flatMap_objPages _ _ hin)
        have hfilter : (p :: w.out).filter (· ∉ [p]) = w.out := by
          have hall : ∀ x ∈ w.out, (decide (x ∉ [p])) = true := by
            intro x hx
            have hne : x ≠ p := by
              rintro rfl
              exact hpw hx
            simpa using hne
          simpa using filter_eq_self.mpr hall
        simp only [afterGet, toList_none, toList_some, nil_append,
          singleton_append, hlocals, hfilter] at hret' ⊢
        exact hret'
      | some q =>
        cases hr
        have hpageSize : pool₂.pageSize = 0 := by
          rw [show pool₂.pageSize = pool₁.pageSize from hget₂.pageSize_eq]
          simpa using hps
        have hatt := @Owned.useSecond _ _ _ _ h₂ p q w.out rfl
          (by rw [← hsize, ← hsize₂]; rfl) (hget₂.page_fresh q rfl).1 hpageSize
        simp only [afterGet, hlocals, toList_some, singleton_append] at hatt ⊢
        exact hatt

/-! ## New pages -/

theorem Owned.layOut (h : Owned w free loc owner) {n : Nat} (hn : 0 < n) (segments : Nat) :
    Inv { w with
      pool := { w.pool with
        mem := setNext (setUpPagesInLinkedList w.pool.pageSize n w.pool.numPages w.pool.mem)
          (w.pool.numPages + n - 1) w.pool.firstPage
        numPages := w.pool.numPages + n
        firstPage := some w.pool.numPages
        allocSegments := segments } } := by
  set mem' := setNext (setUpPagesInLinkedList w.pool.pageSize n w.pool.numPages w.pool.mem)
    (w.pool.numPages + n - 1) w.pool.firstPage with hmem'
  have hkeep : ∀ p, owner p ≠ none → mem' p = w.pool.mem p := by
    intro p hp
    have hlt : p < w.pool.numPages := (h.allocated p).mpr hp
    have hne : p ≠ w.pool.numPages + n - 1 :=
      Nat.ne_of_lt (hlt.trans_le (Nat.le_sub_one_of_lt (Nat.lt_add_of_pos_right hn)))
    rw [hmem', setNext, update_of_ne hne]
    exact (setUpPages_spec w.pool.pageSize n w.pool.numPages w.pool.mem).1 p (Or.inl hlt)
  have hout : w.out.flatMap (objPages w.pool.pageSize mem') = outPages w := by
    refine flatMap_objPages_congr fun p hp => hkeep p ?_
    rw [h.out_owner hp]
    simp
  have hold : ∀ p, owner p ≠ none → ¬ w.pool.numPages ≤ p := by
    intro p hp hle
    have hlt := (h.allocated p).mpr hp
    omega
  refine ⟨List.range' w.pool.numPages n ++ free, loc,
    fun p => if w.pool.numPages ≤ p ∧ p < w.pool.numPages + n then some .pool else owner p,
    ?_, ?_, ?_, ?_, ?_, ?_, ?_, ?_, ?_⟩
  · refine chain_setUpPages hn h.free_chain fun p hp => (h.allocated p).mpr ?_
    rw [(h.mem_free p).mp hp]
    simp
  · intro c
    refine (h.loc_chain c).congr fun p hp => ?_
    refine (congrArg Page.next (hkeep p ?_)).symm
    rw [(h.mem_loc c p).mp hp]
    simp
  · intro c p hp
    refine (congrArg Page.size (hkeep p ?_)).trans (h.loc_size c p hp)
    rw [(h.mem_loc c p).mp hp]
    simp
  · intro p hp
    change BufOk _ mem' p
    rw [BufOk, hkeep p (by rw [h.out_owner hp]; simp)]
    exact h.out_buf p hp
  · intro p
    have hmem := h.mem_free p
    have hp := hold p
    rw [mem_append, mem_range'_1]
    grind
  · intro c p
    have hmem := h.mem_loc c p
    have hp := hold p
    grind
  · intro p
    have hmem := h.mem_out p
    have hp := hold p
    change p ∈ w.out.flatMap (objPages w.pool.pageSize mem') ↔ _
    rw [hout]
    grind
  · intro p
    have hmem := h.allocated p
    change p < w.pool.numPages + n ↔ _
    by_cases hp : w.pool.numPages ≤ p ∧ p < w.pool.numPages + n
    · simp [hp]
    · rw [if_neg hp, ← hmem]
      omega
  · change (w.out.flatMap (objPages w.pool.pageSize mem')).Nodup
    rw [hout]
    exact h.out_nodup

theorem start_inv {pageSize noOfPages : Nat} {pool : Pool}
    (hpool : createSockBuf pageSize noOfPages = some pool) : Inv (start pool) := by
  unfold createSockBuf at hpool
  split at hpool
  · cases hpool
  rename_i hn
  cases hpool
  have hempty : Owned (start ⟨fun _ => ⟨none, 0, 0, .null⟩, 0, pageSize, none, 0⟩) [] (fun _ => [])
      (fun _ => none) := by
    refine ⟨rfl, fun _ => rfl, ?_, ?_, ?_, ?_, ?_, ?_, ?_⟩ <;> simp [start, outPages]
  have hnew := hempty.layOut (Nat.pos_of_ne_zero hn) 1
  simpa only [start, Nat.zero_add] using hnew

/-! ## Runs -/

/-- The return gives back exactly one page object. -/
def SingleReturn (w : World) : Op → Prop
  | .get _ _ _ => True
  | .inc _ _ => True
  | .ret chain => (chain.flatMap (objPages w.pool.pageSize w.pool.mem)).length = 1

theorem step_inv (w : World) (op : Op) (w' : World) (hok : SingleReturn w op)
    (hstep : step w op = some w') (h : Inv w) : Inv w' := by
  cases op with
  | get bufSize caller num =>
    obtain ⟨r, hget, hr⟩ := bind_eq_some_iff.mp hstep
    cases hr
    exact getSockBufPage_inv h bufSize caller num hget
  | inc n ok =>
    simp only [step, incSockBuf] at hstep
    split_ifs at hstep with hmalloc hn hseg
    · cases hstep
      exact h
    · cases hstep
    · cases hstep
      obtain ⟨free, loc, owner, h⟩ := h
      exact h.layOut (Nat.pos_of_ne_zero hn) _
    · cases hstep
      exact h
  | ret chain =>
    cases chain with
    | nil => cases hstep
    | cons inPage rest =>
      simp only [step] at hstep
      split_ifs at hstep with hchain
      obtain ⟨pool', hret, hw'⟩ := map_eq_some_iff.mp hstep
      cases hw'
      obtain ⟨free, loc, owner, h⟩ := h
      -- one object means one page, which is its own object
      have hlen : ((inPage :: rest).flatMap (objPages w.pool.pageSize w.pool.mem)).length = 1 := hok
      have hself := length_pos_of_mem (mem_objPages_self w.pool.pageSize w.pool.mem inPage)
      rw [flatMap_cons, length_append] at hlen
      have hrest : rest = [] := by
        rw [eq_nil_iff_forall_not_mem]
        intro x hx
        have hpos := length_pos_of_mem (subset_flatMap_objPages w.pool.pageSize w.pool.mem hx)
        omega
      subst hrest
      have hobj : objPages w.pool.pageSize w.pool.mem inPage = [inPage] := by
        obtain ⟨x, hx⟩ := length_eq_one_iff.mp (by simpa using hlen)
        have hmem := mem_objPages_self w.pool.pageSize w.pool.mem inPage
        rw [hx] at hmem ⊢
        simp at hmem
        rw [hmem]
      exact h.return_single (hchain.2 inPage mem_cons_self) (linkChain_linked _ hchain.1) hobj hret

theorem step_break (w : World) (op : Op) (w' : World) (hok : ¬ SingleReturn w op)
    (hstep : step w op = some w') (h : Inv w) : ¬ Conserved w' := by
  cases op with
  | get bufSize caller num => exact absurd trivial hok
  | inc n ok => exact absurd trivial hok
  | ret chain =>
    cases chain with
    | nil => cases hstep
    | cons inPage rest =>
      simp only [step] at hstep
      split_ifs at hstep with hchain
      obtain ⟨pool', hret, hw'⟩ := map_eq_some_iff.mp hstep
      cases hw'
      obtain ⟨free, loc, owner, h⟩ := h
      exact h.return_many hchain.1 hchain.2 (linkChain_linked _ hchain.1) hok hret

/-- In every run of a pool, every page is in exactly one place in all states
reached if and only if each return gives back a single page object. -/
theorem pages_conserved_iff_single_returns {pageSize noOfPages : Nat} {pool : Pool}
    (hpool : createSockBuf pageSize noOfPages = some pool) (ops : List Op) :
    Run.Always step Conserved (start pool) ops ↔ Run.Along step SingleReturn (start pool) ops :=
  Run.always_iff_along step SingleReturn Inv Conserved (fun _ => Inv.conserved) step_inv step_break
    ops (start_inv hpool)

theorem conserved_after_single_returns : ∃ pool, createSockBuf 0 3 = some pool ∧
    Run.Always step Conserved (start pool)
      [.get 0 (some 4) 2, .get 40 none 1, .inc 2 true, .ret [2], .ret [0]] := by
  have hpool : createSockBuf 0 3 = some _ := rfl
  refine ⟨_, hpool, (pages_conserved_iff_single_returns hpool _).mpr ?_⟩
  intro w₁ h₁
  cases h₁
  refine ⟨trivial, fun w₂ h₂ => ?_⟩
  cases h₂
  refine ⟨trivial, fun w₃ h₃ => ?_⟩
  cases h₃
  refine ⟨trivial, fun w₄ h₄ => ?_⟩
  cases h₄
  refine ⟨rfl, fun w₅ h₅ => ?_⟩
  cases h₅
  exact ⟨rfl, trivial⟩

/-- Two pages are fetched and given back as one chain: page 1 is in no place. -/
theorem chain_of_two_lost : ∃ pool, createSockBuf 32768 2 = some pool ∧
    ¬ Run.Always step Conserved (start pool)
      [.get 0 none 1, .get 0 none 1, .ret [0, 1]] := by
  obtain ⟨pool, w, hpool, hrun, hfirst, hnext, hlocals, hout, hnum⟩ :
      ∃ pool w, createSockBuf 32768 2 = some pool ∧
        Run.exec step (start pool) [.get 0 none 1, .get 0 none 1, .ret [0, 1]] = some w ∧
        w.pool.firstPage = some 0 ∧ link w.pool.mem 0 = none ∧ (∀ c, w.locals c = none) ∧
        w.out = [] ∧ 1 < w.pool.numPages := by
    refine ⟨_, _, rfl, rfl, ?_, ?_, ?_, ?_, ?_⟩
    · rfl
    · rfl
    · exact fun _ => rfl
    · decide
    · decide
  refine ⟨pool, hpool, fun h => ?_⟩
  obtain ⟨pl, hat, -⟩ := (h _ w (List.prefix_refl _) hrun).one_place 1 hnum
  cases pl with
  | pool =>
    -- the free list is page 0 alone
    have hfree : Chain (link w.pool.mem) w.pool.firstPage [0] := ⟨hfirst, hnext⟩
    simpa using hfree.onChain_iff.mp hat
  | localList c =>
    have hlist : Chain (link w.pool.mem) (w.locals c) [] := hlocals c
    simpa using hlist.onChain_iff.mp hat
  | out => simp [At, outPages, hout] at hat

end IClaustron.SockBuf
