import IClaustron.Lib.Chain
import Mathlib.Data.List.Basic

/-!
# SockBuf.Pool — the socket buffer page pool

Model of comm/ic_sock_buf.c. A pool hands out `IC_SOCK_BUF_PAGE` objects from a
singly linked free list; a caller may keep a local free list that is filled in
batches. Page objects are numbered in the order in which they are laid out, so
a pointer to a page is its number and NULL is `none`.

`none` as the result of an operation is an abort of the program: a failed
`ic_require`/`ic_assert`, or a NULL pointer that is followed.
-/

namespace IClaustron.SockBuf

open Lib

/-- IC_STD_CACHE_LINE_SIZE: the size of a page object. -/
def stdCacheLineSize : Nat := 128

/-- The bytes of `buf_area`: what is left of the page object after the three
pointers, `size`, `ref_count` and the opaque area. -/
def smallBufSize : Nat := stdCacheLineSize - 64

/-- MAX_ALLOC_SEGMENTS. -/
def maxAllocSegments : Nat := 8

/-- IC_ERROR_MEM_ALLOC. -/
def errorMemAlloc : Nat := 7005

abbrev PageId := Nat

/-- What the `sock_buf` field of a page can point to: nothing, the data area
laid out for a page, the `buf_area` inside the page object itself, or another
page object used as storage. -/
inductive BufRef where
  | null
  | dataArea (p : PageId)
  | bufArea (p : PageId)
  | page (p : PageId)
deriving DecidableEq

/-- IC_SOCK_BUF_PAGE. -/
structure Page where
  next : Option PageId
  size : Nat
  refCount : Nat
  sockBuf : BufRef
deriving DecidableEq

/-- The page objects in memory. -/
abbrev Mem := PageId → Page

/-- The `next_sock_buf_page` fields. -/
def link (mem : Mem) : PageId → Option PageId := fun p => (mem p).next

/-- `page->next_sock_buf_page= v`. -/
def setNext (mem : Mem) (p : PageId) (v : Option PageId) : Mem :=
  Function.update mem p { mem p with next := v }

/-- IC_SOCK_BUF with the page objects it has laid out; the pages are numbered
`0 .. numPages - 1`. -/
structure Pool where
  mem : Mem
  numPages : Nat
  pageSize : Nat
  firstPage : Option PageId
  allocSegments : Nat

/-! ## Getting a page -/

/-- `page->size= 0; page->ref_count= 0`. -/
def initPage (mem : Mem) (p : PageId) : Mem :=
  Function.update mem p { mem p with size := 0, refCount := 0 }

/-- The loop of `low_get_sock_buf_page` that initialises the fetched pages;
it also returns the last page visited. -/
def initPages : Nat → Mem → Option PageId → Option PageId → Mem × Option PageId
  | 0, mem, _, last => (mem, last)
  | _ + 1, mem, none, last => (mem, last)
  | n + 1, mem, some p, _ =>
    initPages n (initPage mem p) (mem p).next (some p)

/-- The end of `low_get_sock_buf_page`: when a local free list was passed and
more than one page was fetched, the pages after the first become that list. -/
def cutBatch (mem : Mem) (freeRecPages : Option (Option PageId)) (firstPage : PageId) :
    Option PageId → Mem × Option (Option PageId)
  | none => (mem, freeRecPages)
  | some lastPage =>
    if freeRecPages.isSome ∧ lastPage ≠ firstPage then
      (setNext mem lastPage none, some (mem firstPage).next)
    else (mem, freeRecPages)

/-- The part of `low_get_sock_buf_page` that takes `num` pages off the global
free list. -/
def fetchPages (buf : Pool) (freeRecPages : Option (Option PageId)) (num : Nat) :
    Option (Pool × Option (Option PageId) × Option PageId) :=
  -- ic_assert(num_pages_to_preallocate > 0)
  if num = 0 then none
  else
    let nextPage := advance (link buf.mem) num buf.firstPage
    match buf.firstPage with
    | none => some ({ buf with firstPage := nextPage }, freeRecPages, none)
    | some firstPage =>
      let (mem, lastPage) := initPages num buf.mem (some firstPage) none
      let (mem, freeRecPages) := cutBatch mem freeRecPages firstPage lastPage
      some ({ buf with mem := setNext mem firstPage none, firstPage := nextPage },
        freeRecPages, some firstPage)

/-- `low_get_sock_buf_page`. `freeRecPages` is `none` when the caller passes no
local free list, and the head of the list otherwise; the updated head is
returned with the page. -/
def lowGetSockBufPage (buf : Pool) (freeRecPages : Option (Option PageId)) (numToPreallocate : Nat) :
    Option (Pool × Option (Option PageId) × Option PageId) :=
  match freeRecPages with
  | some (some firstPage) =>
    some ({ buf with mem := setNext buf.mem firstPage none },
      some (buf.mem firstPage).next, some firstPage)
  | some none => fetchPages buf (some none) numToPreallocate
  -- Without a local free list there is nothing to preallocate into.
  | none => fetchPages buf none 1

/-! ## Returning pages -/

/-- `page->next_sock_buf_page= prev_page; page->ref_count= 0`. -/
def relinkPage (mem : Mem) (page : PageId) (prevPage : Option PageId) : Mem :=
  Function.update mem page { mem page with next := prevPage, refCount := 0 }

/-- `page->sock_buf= NULL`. -/
def dropBuf (mem : Mem) (page : PageId) : Mem :=
  Function.update mem page { mem page with sockBuf := .null }

/-- The buffer of a page becomes a page object again, followed by `nextPage`. -/
def reclaimPage (mem : Mem) (page : PageId) (nextPage : Option PageId) : Mem :=
  Function.update mem page { next := nextPage, size := 0, refCount := 0, sockBuf := .null }

/-- The loop of `return_sock_buf_page`: every page of the chain is linked to
the one before it; a page whose buffer is a second page object is followed by
that object. Returns the memory and `prev_page`. -/
def returnLoop (pageSize : Nat) : Nat → Mem → PageId → Option PageId → Option (Mem × PageId)
  | 0, _, _, _ => none
  | fuel + 1, mem, page, prevPage =>
    if pageSize = 0 ∧ (mem page).size ≠ 0 then
      -- ic_require(this_page_size == IC_STD_CACHE_LINE_SIZE)
      if (mem page).size ≠ stdCacheLineSize then none
      else
        match (mem page).sockBuf with
        | .page second =>
          returnLoop pageSize fuel
            (reclaimPage (relinkPage mem page prevPage) second (mem page).next) second (some page)
        | _ => none
    else
      let mem' := if pageSize = 0 then dropBuf (relinkPage mem page prevPage) page
        else relinkPage mem page prevPage
      match (mem page).next with
      | none => some (mem', page)
      | some next => returnLoop pageSize fuel mem' next (some page)

/-- `return_sock_buf_page`. A chain of distinct pages is shorter than the bound
given to the loop; a cyclic one keeps the code in its loop for ever. -/
def returnSockBufPage (buf : Pool) (inPage : PageId) : Option Pool :=
  (returnLoop buf.pageSize (buf.numPages + 1) buf.mem inPage none).map fun (mem, prevPage) =>
    { buf with mem := setNext mem prevPage buf.firstPage, firstPage := some inPage }

/-- The page uses the `buf_area` in its own object as buffer. -/
def useBufArea (mem : Mem) (page : PageId) : Mem :=
  Function.update mem page { mem page with sockBuf := .bufArea page }

/-- The page uses a second page object as buffer. -/
def useSecond (mem : Mem) (page second : PageId) : Mem :=
  Function.update mem page { mem page with size := stdCacheLineSize, sockBuf := .page second }

/-- `get_sock_buf_page`. -/
def getSockBufPage (buf : Pool) (bufSize : Nat) (freeRecPages : Option (Option PageId))
    (numToPreallocate : Nat) : Option (Pool × Option (Option PageId) × Option PageId) := do
  let (buf, freeRecPages, sockBufPage) ← lowGetSockBufPage buf freeRecPages numToPreallocate
  match sockBufPage with
  | none => some (buf, freeRecPages, none)
  | some page =>
    if bufSize = 0 then some (buf, freeRecPages, some page)
    else if buf.pageSize ≠ 0 then none
    else if bufSize > stdCacheLineSize then some (buf, freeRecPages, some page)
    else if bufSize ≤ smallBufSize then
      some ({ buf with mem := useBufArea buf.mem page }, freeRecPages, some page)
    else
      -- The buffer needs a second page object as its storage.
      let (buf, freeRecPages, secondPage) ← lowGetSockBufPage buf freeRecPages numToPreallocate
      match secondPage with
      | none => do
        let buf ← returnSockBufPage buf page
        some (buf, freeRecPages, none)
      | some second =>
        some ({ buf with mem := useSecond buf.mem page second }, freeRecPages, some page)

/-! ## Laying out pages -/

/-- The loop of `set_up_pages_in_linked_list`: page `p` is linked to page
`p + 1` and given its data area. -/
def setUpPagesInLinkedList (pageSize : Nat) : Nat → PageId → Mem → Mem
  | 0, _, mem => mem
  | n + 1, p, mem =>
    setUpPagesInLinkedList pageSize n (p + 1)
      (Function.update mem p
        { next := some (p + 1), size := pageSize, refCount := 0,
          sockBuf := if pageSize = 0 then .null else .dataArea p })

/-- `inc_sock_buf`: the pool and the return code; `mallocOk` is the outcome of
the allocation of the new segment. -/
def incSockBuf (buf : Pool) (noOfPages : Nat) (mallocOk : Bool) : Option (Pool × Nat) :=
  if !mallocOk then some (buf, errorMemAlloc)
  -- ic_assert(no_of_pages)
  else if noOfPages = 0 then none
  else if buf.allocSegments < maxAllocSegments then
    let mem := setUpPagesInLinkedList buf.pageSize noOfPages buf.numPages buf.mem
    let mem := setNext mem (buf.numPages + noOfPages - 1) buf.firstPage
    some ({ buf with
      mem, numPages := buf.numPages + noOfPages, firstPage := some buf.numPages,
      allocSegments := buf.allocSegments + 1 }, 0)
  else
    -- No room to remember the segment: it is freed again.
    some (buf, errorMemAlloc)

/-- `ic_create_sock_buf` when its allocations succeed; NULL for an empty pool. -/
def createSockBuf (pageSize noOfPages : Nat) : Option Pool :=
  if noOfPages = 0 then none
  else
    let mem := setUpPagesInLinkedList pageSize noOfPages 0 fun _ => ⟨none, 0, 0, .null⟩
    some
      { mem := setNext mem (noOfPages - 1) none
        numPages := noOfPages
        pageSize := pageSize
        firstPage := some 0
        allocSegments := 1 }

/-! ## Callers -/

/-- The page objects behind a page handed out by `get_sock_buf_page`: the page,
and the second object when that is its buffer. -/
def objPages (pageSize : Nat) (mem : Mem) (p : PageId) : List PageId :=
  if pageSize = 0 ∧ (mem p).size ≠ 0 then
    match (mem p).sockBuf with
    | .page second => [p, second]
    | _ => [p]
  else [p]

/-- A caller links the pages it gives back. -/
def linkChain (mem : Mem) : List PageId → Mem
  | [] => mem
  | [p] => setNext mem p none
  | p :: q :: rest => linkChain (setNext mem p (some q)) (q :: rest)

/-- A pool with its users: the local free list of every caller, and the pages
that were handed out and not given back. -/
structure World where
  pool : Pool
  locals : Nat → Option PageId
  out : List PageId

/-- The operations on a pool. `get` names the caller whose local free list is
passed, `ret` the chain of handed-out pages that is given back. -/
inductive Op where
  | get (bufSize : Nat) (caller : Option Nat) (numToPreallocate : Nat)
  | inc (noOfPages : Nat) (mallocOk : Bool)
  | ret (chain : List PageId)
deriving DecidableEq

/-- The caller's variable behind `free_rec_pages` after the call. -/
def putLocal (locals : Nat → Option PageId) : Option Nat → Option (Option PageId) →
    Nat → Option PageId
  | some c, some head => Function.update locals c head
  | _, _ => locals

def step (w : World) : Op → Option World
  | .get bufSize caller num => do
    let (pool, freeRecPages, page) ← getSockBufPage w.pool bufSize (caller.map w.locals) num
    some { pool, locals := putLocal w.locals caller freeRecPages, out := page.toList ++ w.out }
  | .inc noOfPages mallocOk =>
    (incSockBuf w.pool noOfPages mallocOk).map fun (pool, _) => { w with pool }
  | .ret chain =>
    match chain with
    | [] => none
    | inPage :: _ =>
      if chain.Nodup ∧ ∀ p ∈ chain, p ∈ w.out then
        (returnSockBufPage { w.pool with mem := linkChain w.pool.mem chain } inPage).map fun pool =>
          { w with pool, out := w.out.filter (· ∉ chain) }
      else none

/-- A new pool: nothing handed out, all local free lists empty. -/
def start (pool : Pool) : World := ⟨pool, fun _ => none, []⟩

/-- All page objects in the hands of users. -/
def outPages (w : World) : List PageId :=
  w.out.flatMap (objPages w.pool.pageSize w.pool.mem)

end IClaustron.SockBuf
