import Ipm.Lib.Threads
import Ipm.Memory.Unmap

/-!
# Closing a handle that has not been told

An address space with an owner for every page that a handle has mapped. `ipm_memory_close` and
`ipm_memory_clean` take the length of the body from the header of the block, where whoever grew it last
has put it, and the address from the handle, where a remapping that succeeds has put `NULL`. The handle
knows neither: what it has mapped is of the length it had when it was mapped, and where it was mapped.

`Fits` is the condition that this makes no difference, and in every state of a run whose closing calls
meet it, it says exactly which handles can be closed without harm.
-/

set_option autoImplicit false

namespace Ipm

open Lib

/-! ## Handles and their pages -/

/-- A handle of a process; `id` tells it from all others. -/
structure MapHandle where
  id : Nat
  pid : Nat
  memory : Memory
  deriving DecidableEq

namespace MapHandle

def block (h : MapHandle) : SharedMemoryBlock := h.memory.realMemory

/-- What a handle maps once and for all: its claims, and the header page of its block. -/
def Fixed (h : MapHandle) (page : Nat) : Prop :=
  h.memory.activeClaims.Range h.memory.activeClaims.size page ∨
    Covers h.block.header memoryPageSize page

end MapHandle

structure MapSys where
  kernel : Kernel
  procs : Nat → Proc
  -- by process and page, the handle that has mapped it
  owner : Nat → Nat → Option Nat
  handles : List MapHandle

inductive MapEvent where
  | remap (i : Nat) (call : RemapCall) (env : RemapEnv)
  | close (i : Nat) (ctx : Context) (lock : IpmResult) (claims real : Os)
  | clean (i : Nat) (claims real : Os)
  /-- The rest of a program maps and unmaps. -/
  | program (pid : Nat) (pages : Nat → Option Page)

namespace MapSys

/-- The owners after a call of `h` that has left its process as `p`: what is new there is the handle's. -/
def ownerAfter (s : MapSys) (h : MapHandle) (p : Proc) (pid page : Nat) : Option Nat :=
  if pid = h.pid then
    if p.pages page = none then none
    else if p.pages page = (s.procs pid).pages page then s.owner pid page
    else some h.id
  else s.owner pid page

/-- A call of `h` has returned in `w`. -/
def settle (s : MapSys) (h : MapHandle) (w : World) (handles : List MapHandle) : MapSys :=
  { kernel := w.kernel
    procs := Function.update s.procs h.pid w.proc
    owner := s.ownerAfter h w.proc
    handles := handles }

/-- A process that is stopped takes its handles with it. -/
def ended (s : MapSys) (pid : Nat) (k : Kernel) : MapSys :=
  { s with kernel := k, handles := s.handles.filter fun g => decide (g.pid ≠ pid) }

/-- What a handle's process sees. -/
def world (s : MapSys) (h : MapHandle) : World := ⟨s.kernel, s.procs h.pid⟩

def step (b : Build) (s : MapSys) : MapEvent → Option MapSys
  | .remap i call env =>
    (s.handles[i]?).bind fun h =>
      match call.run b env h.memory (s.world h) with
      | .ret (.ok r) w => some (s.settle h w (s.handles.set i { h with memory := r.memory }))
      | .ret (.error _) _ => none
      | .stop _ w => some (s.ended h.pid w.kernel)
  | .close i ctx lock claims real =>
    (s.handles[i]?).bind fun h =>
      match ipmMemoryClose b ctx lock claims real h.memory (s.world h) with
      | .ret _ w => some (s.settle h w (s.handles.eraseIdx i))
      | .stop _ w => some (s.ended h.pid w.kernel)
  | .clean i claims real =>
    (s.handles[i]?).bind fun h =>
      match ipmMemoryClean b claims real h.memory (s.world h) with
      | .ret _ w => some (s.settle h w (s.handles.eraseIdx i))
      | .stop _ w => some (s.ended h.pid w.kernel)
  | .program pid pages =>
    some { s with procs := Function.update s.procs pid { s.procs pid with pages := pages } }

/-- `block_size` in the header of a handle's block. -/
def blockSize (s : MapSys) (h : MapHandle) : UInt64 := (s.kernel.header h.block.obj).blockSize

/-! ## The property, and its condition -/

/-- Of the pages of its process, exactly those of `h` have gone. -/
def Exactly (s : MapSys) (h : MapHandle) (w : World) : Prop :=
  ∀ page, w.proc.pages page =
    if s.owner h.pid page = some h.id then none else (s.procs h.pid).pages page

/-- **Closing unmaps what the handle mapped**, with either call. -/
structure Unmaps (b : Build) (s : MapSys) (h : MapHandle) : Prop where
  clean : ∀ claims real : Os, ∃ w,
    ipmMemoryClean b claims real h.memory (s.world h) = .ret (.ok ()) w ∧ s.Exactly h w
  close : ∀ (ctx : Context) (lock : IpmResult) (claims real : Os),
    h.memory.Releases b lock s.kernel → ∃ w,
      ipmMemoryClose b ctx lock claims real h.memory (s.world h) = .ret (.ok ()) w ∧ s.Exactly h w

/-- A handle that can be closed without harm. With an address of its own, it has not more mapped than
`munmap` gets from there for the size of the block, and whatever is mapped behind it, up to the end the
block would have there, is its own; without one, it has nothing mapped but what is at `NULL`. -/
structure Fits (s : MapSys) (h : MapHandle) : Prop where
  page : memoryPageSize.toNat ≤ (s.kernel.objs h.block.obj).length
  known : h.block.memory = 0 → ∀ page, s.owner h.pid page = some h.id →
    h.Fixed page ∨ Reaches 0 (s.blockSize h) page
  long : h.block.memory ≠ 0 → ∀ page, Covers h.block.memory h.block.size page →
    Reaches h.block.memory (s.blockSize h) page
  behind : ∀ page, Reaches h.block.memory (s.blockSize h) page →
    h.block.memory = 0 ∨ ¬ Covers h.block.memory h.block.size page →
    (s.procs h.pid).pages page ≠ none → s.owner h.pid page = some h.id

/-- What the calls of a run keep to. Two things are `mmap`'s word: a new mapping is put where nothing is,
and the rest of a program leaves the pages of the handles alone. -/
def Careful (s : MapSys) : MapEvent → Prop
  | .remap i call env => ∀ h ∈ s.handles[i]?,
      (h.block.memory = 0 → ∀ page, Reaches 0 h.block.size page →
        (s.procs h.pid).pages page = none) ∧
      ∀ addr, env.os.bodyMmap = .ok addr → ∀ page, Reaches addr (call.target (s.blockSize h)) page →
        (s.procs h.pid).pages page = none ∨ Reaches h.block.memory h.block.size page
  | .close i _ _ _ _ => ∀ h ∈ s.handles[i]?, s.Fits h
  | .clean i _ _ => ∀ h ∈ s.handles[i]?, s.Fits h
  | .program pid pages => ∀ page, s.owner pid page ≠ none → pages page = (s.procs pid).pages page

/-- A handle of the block of `obj` and `cobj`, with its pages its own; what it has mapped once and for
all was mapped where there are addresses. -/
structure HandleOk (obj cobj : Nat) (s : MapSys) (h : MapHandle) : Prop where
  real : h.block.obj = obj
  claims : h.memory.activeClaims.obj = cobj
  realFree : h.block.hasOwnership = false
  claimsFree : h.memory.activeClaims.hasOwnership = false
  size : h.memory.activeClaims.size = (s.kernel.header cobj).blockSize
  claimsSpace : h.memory.activeClaims.InSpace h.memory.activeClaims.size
  headerSpace : InSpace h.block.header memoryPageSize
  fixed : ∀ page, h.Fixed page → s.owner h.pid page = some h.id
  body : h.block.memory ≠ 0 → ∀ page, Covers h.block.memory h.block.size page →
    s.owner h.pid page = some h.id ∧ ¬ h.Fixed page
  only : h.block.memory ≠ 0 → ∀ page, s.owner h.pid page = some h.id →
    h.Fixed page ∨ Covers h.block.memory h.block.size page

/-- Handles of one block, each with pages of its own. -/
structure Owned (obj cobj : Nat) (s : MapSys) : Prop where
  ne : cobj ≠ obj
  page : memoryPageSize.toNat ≤ (s.kernel.objs cobj).length
  handles : ∀ h ∈ s.handles, s.HandleOk obj cobj h
  mapped : ∀ pid page id, s.owner pid page = some id → (s.procs pid).pages page ≠ none
  ids : s.handles.Pairwise fun g h => g.id ≠ h.id

variable {b : Build} {s s' : MapSys} {obj cobj i : Nat} {h : MapHandle} {a : MapEvent} {w : World}

/-! ## One call -/

theorem Owned.closable (hok : Owned obj cobj s) (hh : h ∈ s.handles)
    (hpage : memoryPageSize.toNat ≤ (s.kernel.objs h.block.obj).length) :
    h.memory.Closable s.kernel := by
  have hhandle := hok.handles h hh
  refine ⟨?_, hpage, hhandle.claimsFree, hhandle.realFree⟩
  rw [hhandle.claims]
  exact hok.page

/-- What a closing call goes for: the fixed pages, and what the header says of the body. -/
theorem HandleOk.closingAll_iff (hhandle : s.HandleOk obj cobj h) (page : Nat) :
    (s.world h).closingAll h.memory page ↔
      h.Fixed page ∨ Reaches h.block.memory (s.blockSize h) page := by
  have hclaims : (s.world h).closing h.memory.activeClaims =
      h.memory.activeClaims.Range h.memory.activeClaims.size := by
    rw [← hhandle.claimsSpace.reach_eq, World.closing, hhandle.claims, hhandle.size]
    rfl
  have hreal : (s.world h).closing h.memory.realMemory page ↔
      Reaches h.block.memory (s.blockSize h) page ∨ Covers h.block.header memoryPageSize page := by
    rw [← reaches_of_inSpace hhandle.headerSpace]
    exact Iff.rfl
  rw [World.closingAll, hclaims, hreal, MapHandle.Fixed, or_assoc, or_comm (a := Reaches _ _ page)]

/-- All of the handle's pages are among them. -/
theorem Fits.whole (hfits : s.Fits h) (hhandle : s.HandleOk obj cobj h) {page : Nat}
    (hown : s.owner h.pid page = some h.id) :
    h.Fixed page ∨ Reaches h.block.memory (s.blockSize h) page := by
  by_cases hnull : h.block.memory = 0
  · rw [hnull]
    exact hfits.known hnull page hown
  · exact (hhandle.only hnull page hown).imp_right (hfits.long hnull page)

/-- None of anybody else is. -/
theorem Fits.alone (hfits : s.Fits h) (hhandle : s.HandleOk obj cobj h) {page : Nat}
    (hreaches : Reaches h.block.memory (s.blockSize h) page)
    (hmapped : (s.procs h.pid).pages page ≠ none) : s.owner h.pid page = some h.id := by
  by_cases hnull : h.block.memory = 0
  · exact hfits.behind page hreaches (.inl hnull) hmapped
  · by_cases hbody : Covers h.block.memory h.block.size page
    · exact (hhandle.body hnull page hbody).1
    · exact hfits.behind page hreaches (.inr hbody) hmapped

theorem Fits.exactly (hfits : s.Fits h) (hok : Owned obj cobj s) (hh : h ∈ s.handles)
    (hunmapped : Unmapped ((s.world h).closingAll h.memory) (s.world h) w) : s.Exactly h w := by
  have hhandle := hok.handles h hh
  intro page
  by_cases hown : s.owner h.pid page = some h.id
  · rw [if_pos hown]
    exact hunmapped.gone page ((hhandle.closingAll_iff page).mpr (hfits.whole hhandle hown))
  · rw [if_neg hown]
    by_cases hgoes : (s.world h).closingAll h.memory page
    · rw [hunmapped.gone page hgoes]
      rcases (hhandle.closingAll_iff page).mp hgoes with hfixed | hreaches
      · exact absurd (hhandle.fixed page hfixed) hown
      · by_contra hmapped
        exact hown (hfits.alone hhandle hreaches fun hnone => hmapped hnone.symm)
    · exact hunmapped.kept page hgoes

theorem Fits.unmaps (hfits : s.Fits h) (hok : Owned obj cobj s) (hh : h ∈ s.handles) :
    s.Unmaps b h := by
  have hclosable : h.memory.Closable (s.world h).kernel := hok.closable hh hfits.page
  constructor
  · intro claims real
    obtain ⟨_, w, hret, hunmapped⟩ := (ipmMemoryClean_unmaps b claims real (E := fun _ _ => False)
      (S := fun _ _ => False) hclosable).exists_ret (fun _ _ h => h) fun _ _ h => h
    exact ⟨w, hret, hfits.exactly hok hh hunmapped⟩
  · intro ctx lock claims real hreleases
    obtain ⟨_, w, hret, hunmapped⟩ := (ipmMemoryClose_unmaps b ctx lock claims real
      (E := fun _ _ => False) hclosable).exists_ret (fun _ _ h => h) fun _ _ h => h.2 hreleases
    exact ⟨w, hret, hfits.exactly hok hh hunmapped⟩

/-- A clean that comes to its end has found the header page. -/
theorem page_of_clean {memory : Memory} {claims real : Os} {w' : World}
    (hown : memory.realMemory.hasOwnership = false)
    (h : ipmMemoryClean b claims real memory w = .ret (.ok ()) w') :
    memoryPageSize.toNat ≤ (w.kernel.objs memory.realMemory.obj).length := by
  obtain ⟨_, w1, hclaims, hrest⟩ := Prog.exists_of_bind_ok h
  obtain ⟨_, w2, hreal, -⟩ := Prog.exists_of_bind_ok hrest
  have hk : w1.kernel = w.kernel := (sharedMemoryBlockClean_keeps.ignore w).of_ret hclaims
  rw [← hk]
  by_contra hcut
  obtain ⟨w3, hstop⟩ := sharedMemoryBlockClean_fault (w := w1) b real hown (Nat.lt_of_not_le hcut)
  rw [Prog.ignore, hstop] at hreal
  cases hreal

theorem Unmaps.fits (hunmaps : s.Unmaps b h) (hok : Owned obj cobj s) (hh : h ∈ s.handles) :
    s.Fits h := by
  have hhandle := hok.handles h hh
  obtain ⟨w, hret, hexactly⟩ := hunmaps.clean .willing .willing
  have hpage : memoryPageSize.toNat ≤ (s.kernel.objs h.block.obj).length :=
    page_of_clean (w := s.world h) hhandle.realFree hret
  have hunmapped : Unmapped ((s.world h).closingAll h.memory) (s.world h) w :=
    (ipmMemoryClean_unmaps b .willing .willing (E := fun _ _ => True) (S := fun _ _ => True)
      (w := s.world h) (hok.closable hh hpage)).of_ret hret
  have hwhole : ∀ page, s.owner h.pid page = some h.id →
      h.Fixed page ∨ Reaches h.block.memory (s.blockSize h) page := by
    intro page hown
    by_contra hnot
    have hkept := hunmapped.kept page fun hgoes => hnot ((hhandle.closingAll_iff page).mp hgoes)
    rw [hexactly page, if_pos hown] at hkept
    exact hok.mapped _ _ _ hown hkept.symm
  refine ⟨hpage, ?_, ?_, ?_⟩
  · intro hnull page hown
    rw [← hnull]
    exact hwhole page hown
  · intro hne page hcovered
    obtain ⟨hown, hnot⟩ := hhandle.body hne page hcovered
    exact (hwhole page hown).resolve_left hnot
  · intro page hreaches _ hmapped
    by_contra hother
    have hgone := hunmapped.gone page ((hhandle.closingAll_iff page).mpr (.inr hreaches))
    rw [hexactly page, if_neg hother] at hgone
    exact hmapped hgone

/-! ## Runs -/

/-- A page that stays as it is keeps its owner. -/
theorem ownerAfter_of_same {page id : Nat} {p : Proc} (hown : s.owner h.pid page = some id)
    (hmapped : (s.procs h.pid).pages page ≠ none)
    (hsame : p.pages page = (s.procs h.pid).pages page) : s.ownerAfter h p h.pid page = some id := by
  rw [ownerAfter, if_pos rfl, hsame, if_neg hmapped, if_pos rfl]
  exact hown

/-- Who owns a page after a call owned it before, unless the call has mapped it. -/
theorem owner_of_ownerAfter {pid page id : Nat} {p : Proc}
    (hown : s.ownerAfter h p pid page = some id)
    (hnew : id = h.id → pid = h.pid → p.pages page = (s.procs h.pid).pages page) :
    s.owner pid page = some id := by
  unfold ownerAfter at hown
  split at hown
  · rename_i hpid
    split at hown
    · cases hown
    · split at hown
      · exact hown
      · rename_i hchanged
        rw [hpid] at hchanged
        exact absurd (hnew (Option.some.inj hown).symm hpid) hchanged
  · exact hown

/-- **A call of one handle is no concern of the others**, when it leaves their pages alone. -/
theorem HandleOk.settle {g : MapHandle} (hid : g.id ≠ h.id) (hg : s.HandleOk obj cobj g)
    (hmapped : ∀ pid page id,
      s.owner pid page = some id → (s.procs pid).pages page ≠ none)
    (hsize : (w.kernel.header cobj).blockSize = (s.kernel.header cobj).blockSize)
    (hkept : ∀ page, s.owner h.pid page = some g.id →
      w.proc.pages page = (s.procs h.pid).pages page) (handles : List MapHandle) :
    (s.settle h w handles).HandleOk obj cobj g := by
  have howner : ∀ page, s.owner g.pid page = some g.id →
      (s.settle h w handles).owner g.pid page = some g.id := by
    intro page hown
    show s.ownerAfter h w.proc g.pid page = _
    by_cases hpid : g.pid = h.pid
    · rw [hpid] at hown ⊢
      exact ownerAfter_of_same hown (hmapped _ _ _ hown) (hkept page hown)
    · rw [ownerAfter, if_neg hpid]
      exact hown
  refine ⟨hg.real, hg.claims, hg.realFree, hg.claimsFree, hg.size.trans hsize.symm, hg.claimsSpace,
    hg.headerSpace, ?_, ?_, ?_⟩
  · intro page hfixed
    exact howner page (hg.fixed page hfixed)
  · intro hne page hcovered
    obtain ⟨hown, hnot⟩ := hg.body hne page hcovered
    exact ⟨howner page hown, hnot⟩
  · intro hne page hown
    exact hg.only hne page (owner_of_ownerAfter hown fun hsame => absurd hsame hid)

/-- What is mapped after a call has an owner only if it is mapped. -/
theorem mapped_settle (hmapped : ∀ pid page id,
      s.owner pid page = some id → (s.procs pid).pages page ≠ none) (handles : List MapHandle)
    (pid page id : Nat) (hown : (s.settle h w handles).owner pid page = some id) :
    ((s.settle h w handles).procs pid).pages page ≠ none := by
  change s.ownerAfter h w.proc pid page = some id at hown
  show (Function.update s.procs h.pid w.proc pid).pages page ≠ none
  unfold ownerAfter at hown
  by_cases hpid : pid = h.pid
  · rw [if_pos hpid] at hown
    rw [hpid, Function.update_self]
    intro hnone
    rw [if_pos hnone] at hown
    cases hown
  · rw [if_neg hpid] at hown
    rw [Function.update_of_ne hpid]
    exact hmapped pid page id hown

/-- Handles go with their process, and the others stay as they are. -/
theorem Owned.ended {k : Kernel} (hok : Owned obj cobj s) (pid : Nat)
    (hlength : (k.objs cobj).length = (s.kernel.objs cobj).length)
    (hsize : (k.header cobj).blockSize = (s.kernel.header cobj).blockSize) :
    Owned obj cobj (s.ended pid k) := by
  refine ⟨hok.ne, hok.page.trans_eq hlength.symm, ?_, hok.mapped, hok.ids.filter _⟩
  intro g hg
  have hg' := hok.handles g (List.mem_of_mem_filter hg)
  exact ⟨hg'.real, hg'.claims, hg'.realFree, hg'.claimsFree, hg'.size.trans hsize.symm, hg'.claimsSpace,
    hg'.headerSpace, hg'.fixed, hg'.body, hg'.only⟩

theorem id_ne (hok : Owned obj cobj s) {j : Nat} {g : MapHandle} (hget : s.handles[i]? = some h)
    (hj : s.handles[j]? = some g) (hji : j ≠ i) : g.id ≠ h.id :=
  pairwise_of_ne (R := fun g h => g.id ≠ h.id) hok.ids (fun _ _ hne => hne.symm) hj hget hji

/-- **A handle is closed**, and fits. -/
theorem Owned.closed (hok : Owned obj cobj s) (hget : s.handles[i]? = some h) (hfits : s.Fits h)
    (hunmapped : Unmapped ((s.world h).closingAll h.memory) (s.world h) w) :
    Owned obj cobj (s.settle h w (s.handles.eraseIdx i)) := by
  have hexactly := hfits.exactly hok (List.mem_of_getElem? hget) hunmapped
  have hextent : w.extent cobj = (s.world h).extent cobj := congrFun hunmapped.extent cobj
  refine ⟨hok.ne, hok.page.trans_eq (congrArg Prod.fst hextent).symm, ?_, mapped_settle hok.mapped _, ?_⟩
  · intro g hg
    obtain ⟨j, hji, hj⟩ := List.mem_eraseIdx_iff_getElem?.mp hg
    have hid := id_ne hok hget hj hji
    apply (hok.handles g (List.mem_of_getElem? hj)).settle hid hok.mapped (congrArg Prod.snd hextent)
    intro page hown
    have hother : s.owner h.pid page ≠ some h.id := by
      rw [hown]
      exact fun hsame => hid (Option.some.inj hsame)
    rw [hexactly page, if_neg hother]
  · exact hok.ids.sublist (List.eraseIdx_sublist _ _)

/-- **A handle is remapped**: what goes is its own, and what comes is put where nothing is. -/
theorem Owned.remapped {memory : Memory} {size : UInt64} {os : Os} (hok : Owned obj cobj s)
    (hget : s.handles[i]? = some h) (hclaims : memory.activeClaims = h.memory.activeClaims)
    (hremapping : Remapping os size h.block (s.procs h.pid) memory.realMemory w.proc)
    (hlow : h.block.memory = 0 → ∀ page, Reaches 0 h.block.size page →
      (s.procs h.pid).pages page = none)
    (hnew : ∀ addr, os.bodyMmap = .ok addr → ∀ page, Reaches addr size page →
      (s.procs h.pid).pages page = none ∨ Reaches h.block.memory h.block.size page)
    (hk : w.kernel.objs cobj = s.kernel.objs cobj) :
    Owned obj cobj (s.settle h w (s.handles.set i { h with memory := memory })) := by
  have hhandle := hok.handles h (List.mem_of_getElem? hget)
  have hsize : (w.kernel.header cobj).blockSize = (s.kernel.header cobj).blockSize := by
    rw [Kernel.header, hk]
    rfl
  -- where a page with an owner changes, it is one of the handle's body
  have hbody : ∀ page id, s.owner h.pid page = some id →
      w.proc.pages page = (s.procs h.pid).pages page ∨ id = h.id ∧ ¬ h.Fixed page := by
    intro page id hown
    have hreached : Reaches h.block.memory h.block.size page → id = h.id ∧ ¬ h.Fixed page := by
      intro hreaches
      by_cases hnull : h.block.memory = 0
      · rw [hnull] at hreaches
        exact absurd (hlow hnull page hreaches) (hok.mapped _ _ _ hown)
      · obtain ⟨hmine, hnot⟩ := hhandle.body hnull page hreaches.2
        exact ⟨Option.some.inj (hown.symm.trans hmine), hnot⟩
    rcases hremapping.pages page with hsame | hold | ⟨addr, haddr, hmapped⟩
    · exact .inl hsame
    · exact .inr (hreached hold)
    · rcases hnew addr haddr page hmapped with hnone | hold
      · exact absurd hnone (hok.mapped _ _ _ hown)
      · exact .inr (hreached hold)
  refine ⟨hok.ne, ?_, ?_, mapped_settle hok.mapped _, ?_⟩
  · show _ ≤ (w.kernel.objs cobj).length
    rw [hk]
    exact hok.page
  · intro g hg
    rcases mem_set_or hg with rfl | ⟨j, hji, hj⟩
    · have hfixed : MapHandle.Fixed { h with memory := memory } = h.Fixed := by
        unfold MapHandle.Fixed MapHandle.block
        rw [hclaims, hremapping.header]
        rfl
      refine ⟨?_, ?_, ?_, ?_, ?_, ?_, ?_, ?_, ?_, ?_⟩
      · exact (congrArg File.obj hremapping.memFd).trans hhandle.real
      · exact (congrArg SharedMemoryBlock.obj hclaims).trans hhandle.claims
      · exact hremapping.hasOwnership.trans hhandle.realFree
      · exact (congrArg SharedMemoryBlock.hasOwnership hclaims).trans hhandle.claimsFree
      · exact (congrArg SharedMemoryBlock.size hclaims).trans (hhandle.size.trans hsize.symm)
      · show memory.activeClaims.InSpace memory.activeClaims.size
        rw [hclaims]
        exact hhandle.claimsSpace
      · show InSpace memory.realMemory.header memoryPageSize
        rw [hremapping.header]
        exact hhandle.headerSpace
      · intro page hpage
        rw [hfixed] at hpage
        have hown := hhandle.fixed page hpage
        apply ownerAfter_of_same hown (hok.mapped _ _ _ hown)
        rcases hbody page h.id hown with hsame | ⟨-, hnot⟩
        · exact hsame
        · exact absurd hpage hnot
      · intro hne page hcovered
        obtain ⟨hmemory, hold, hpages⟩ := hremapping.same hne
        have hcovered' : Covers h.block.memory h.block.size page := by
          rw [← hmemory, ← hold]
          exact hcovered
        obtain ⟨hown, hnot⟩ := hhandle.body (hmemory ▸ hne) page hcovered'
        rw [hfixed]
        exact ⟨ownerAfter_of_same hown (hok.mapped _ _ _ hown) (congrFun hpages page), hnot⟩
      · intro hne page hown
        obtain ⟨hmemory, hold, hpages⟩ := hremapping.same hne
        have hbefore := owner_of_ownerAfter hown fun _ _ => congrFun hpages page
        rw [hfixed]
        show _ ∨ Covers memory.realMemory.memory memory.realMemory.size page
        rw [hmemory, hold]
        exact hhandle.only (hmemory ▸ hne) page hbefore
    · have hid := id_ne hok hget hj hji
      apply (hok.handles g (List.mem_of_getElem? hj)).settle hid hok.mapped hsize
      intro page hown
      rcases hbody page g.id hown with hsame | ⟨hmine, -⟩
      · exact hsame
      · exact absurd hmine hid
  · exact pairwise_set hok.ids hget (fun _ hne => hne) fun _ hne => hne

/-- The rest of a program. -/
theorem Owned.program (hok : Owned obj cobj s) {pid : Nat} {pages : Nat → Option Page}
    (hleft : ∀ page, s.owner pid page ≠ none → pages page = (s.procs pid).pages page) :
    Owned obj cobj
      { s with procs := Function.update s.procs pid { s.procs pid with pages := pages } } := by
  refine ⟨hok.ne, hok.page, ?_, ?_, hok.ids⟩
  · intro g hg
    have hg' := hok.handles g hg
    exact ⟨hg'.real, hg'.claims, hg'.realFree, hg'.claimsFree, hg'.size, hg'.claimsSpace, hg'.headerSpace,
      hg'.fixed, hg'.body, hg'.only⟩
  · intro pid' page id hown
    have hmapped := hok.mapped pid' page id hown
    show (Function.update s.procs pid _ pid').pages page ≠ none
    by_cases hpid : pid' = pid
    · subst hpid
      rw [Function.update_self]
      show pages page ≠ none
      rw [hleft page fun hnone => Option.some_ne_none id (hown.symm.trans hnone)]
      exact hmapped
    · rw [Function.update_of_ne hpid]
      exact hmapped

theorem Owned.step (hok : Owned obj cobj s) (hcareful : s.Careful a)
    (hs : step b s a = some s') : Owned obj cobj s' := by
  cases a with
  | remap i call env =>
    obtain ⟨h, hget, hout⟩ := Option.bind_eq_some_iff.mp hs
    obtain ⟨hlow, hnew⟩ := hcareful h hget
    have hmem := List.mem_of_getElem? hget
    have hne : cobj ≠ h.memory.realMemory.obj := by
      rw [show h.memory.realMemory.obj = obj from (hok.handles h hmem).real]
      exact hok.ne
    have hframe : Prog.Post (call.run b env h.memory) (s.world h) _ _ _ := call.run_elsewhere _
    have hran : Prog.Post (call.run b env h.memory) (s.world h) _ (fun _ _ => True) _ := call.run_post
    have hremapping : Prog.Post (call.run b env h.memory) (s.world h) _ (fun _ _ => True) _ :=
      call.run_remapping
    cases hrun : call.run b env h.memory (s.world h) with
    | ret res w =>
      rw [hrun] at hout
      cases res with
      | ok r =>
        obtain rfl := Option.some.inj hout
        obtain ⟨hclaims, hremap⟩ := hremapping.of_ret hrun
        have hk : w.kernel.objs cobj = s.kernel.objs cobj :=
          congrFun (hframe.of_ret hrun) ⟨cobj, hne⟩
        cases hran.of_ret hrun with
        | short _ hpages => exact hok.remapped hget rfl (.untouched hpages) hlow hnew hk
        | reached _ hsize _ _ _ =>
          rw [hsize] at hremap
          exact hok.remapped hget hclaims hremap hlow hnew hk
      | error res => cases hout
    | stop why w =>
      rw [hrun] at hout
      obtain rfl := Option.some.inj hout
      have hk : w.kernel.objs cobj = s.kernel.objs cobj :=
        congrFun (hframe.of_stop hrun) ⟨cobj, hne⟩
      apply hok.ended
      · rw [hk]
      · rw [Kernel.header, hk]
        rfl
  | close i ctx lock claims real =>
    obtain ⟨h, hget, hout⟩ := Option.bind_eq_some_iff.mp hs
    have hfits := hcareful h hget
    have hpost := ipmMemoryClose_unmaps b ctx lock claims real (w := s.world h)
      (E := fun _ _ => False) (hok.closable (List.mem_of_getElem? hget) hfits.page)
    cases hrun : ipmMemoryClose b ctx lock claims real h.memory (s.world h) with
    | ret res w =>
      rw [hrun] at hout
      obtain rfl := Option.some.inj hout
      cases res with
      | ok _ => exact hok.closed hget hfits (hpost.of_ret hrun)
      | error e => exact (hpost.of_error hrun).elim
    | stop why w =>
      rw [hrun] at hout
      obtain rfl := Option.some.inj hout
      have hextent : w.extent cobj = (s.world h).extent cobj := congrFun (hpost.of_stop hrun).1 cobj
      exact hok.ended h.pid (congrArg Prod.fst hextent) (congrArg Prod.snd hextent)
  | clean i claims real =>
    obtain ⟨h, hget, hout⟩ := Option.bind_eq_some_iff.mp hs
    have hfits := hcareful h hget
    obtain ⟨_, w, hrun, hunmapped⟩ := (ipmMemoryClean_unmaps b claims real (w := s.world h)
      (E := fun _ _ => False) (S := fun _ _ => False)
      (hok.closable (List.mem_of_getElem? hget) hfits.page)).exists_ret (fun _ _ h => h) fun _ _ h => h
    rw [hrun] at hout
    obtain rfl := Option.some.inj hout
    exact hok.closed hget hfits hunmapped
  | program pid pages =>
    obtain rfl := Option.some.inj hs
    exact hok.program hcareful

/-- **What closing unmaps.** In every state of a run whose closing calls fit, a handle can be closed or
cleaned up with exactly its own pages going exactly when it fits. -/
theorem unmaps_iff_fits {s₀ : MapSys} (h₀ : Owned obj cobj s₀)
    (hr : Reach (MapSys.step b) Careful s₀ s) (hget : s.handles[i]? = some h) :
    s.Unmaps b h ↔ s.Fits h := by
  have hok : Owned obj cobj s := hr.invariant h₀ fun _ _ _ hs hcareful hstep => hs.step hcareful hstep
  have hmem := List.mem_of_getElem? hget
  constructor
  · intro hunmaps
    exact hunmaps.fits hok hmem
  · intro hfits
    exact hfits.unmaps hok hmem

/-! ## A handle that has not been told -/

/-- An environment that maps a body and a header at given addresses. -/
def mapsAt (body header : Nat) : Os :=
  { Os.willing with bodyMmap := .ok body, headerMmap := .ok header }

/-- Where the handles below have their claims, their headers and their bodies. -/
def startPages : List Nat := [16, 17, 48, 32]

def startOwner (pid page : Nat) : Option Nat :=
  if pid < 2 ∧ page ∈ startPages then some pid else none

/-- Process 0 creates a block of one page and process 1, which may have something mapped behind the
place where the body comes to be, opens it. -/
def twoHandles (neighbour : Option Page) : Option MapSys :=
  match ipmMemoryCreate ⟨false⟩ ⟨fun e => e⟩
      ⟨true, mapsAt 0x10000 0x11000, ⟨0, 0, 0, 0, 0⟩, ⟨0, 0, 0⟩, mapsAt 0x20000 0x30000, .willing⟩
      4096 .a .readWrite ⟨.empty, .initial⟩ with
  | .ret (.ok writer) w =>
    match ipmMemoryOpen ⟨false⟩ ⟨fun e => e⟩
        ⟨true, mapsAt 0x20000 0x30000, mapsAt 0x10000 0x11000, .willing⟩ .a .readWrite
        ⟨w.kernel, { Proc.initial with pages := fun page => if page = 33 then neighbour else none }⟩ with
    | .ret (.ok reader) w' =>
      some { kernel := w'.kernel
             procs := fun pid => if pid = 0 then w.proc else w'.proc
             owner := startOwner
             handles := [⟨0, 0, writer⟩, ⟨1, 1, reader⟩] }
    | _ => none
  | _ => none

/-- A handle as it was opened. -/
def asOpened (h : MapHandle) : Bool :=
  decide (h.id < 2 ∧ h.pid = h.id ∧ h.block.obj = 1 ∧ h.memory.activeClaims.obj = 0 ∧
    h.block.hasOwnership = false ∧ h.memory.activeClaims.hasOwnership = false ∧
    h.memory.activeClaims.size = 4096 ∧ h.memory.activeClaims.memory = 0x10000 ∧
    h.memory.activeClaims.header = 0x11000 ∧ h.block.header = 0x30000 ∧
    h.block.memory = 0x20000 ∧ h.block.size = 4096)

theorem covers_page {k page : Nat} : Covers (k * 4096) 4096 page ↔ page = k := by
  have hpage : (4096 : UInt64).toNat = 4096 := rfl
  rw [Covers, pageSize_eq, hpage]
  omega

theorem fixed_asOpened (hh : asOpened h = true) (page : Nat) :
    h.Fixed page ↔ page = 16 ∨ page = 17 ∨ page = 48 := by
  obtain ⟨-, -, -, -, -, -, hsize, hmemory, hheader, hreal, -, -⟩ := of_decide_eq_true hh
  unfold MapHandle.Fixed SharedMemoryBlock.Range
  rw [hsize, hmemory, hheader, hreal, or_assoc]
  have hpage : memoryPageSize = 4096 := rfl
  rw [hpage, covers_page (k := 16), covers_page (k := 17), covers_page (k := 48)]

theorem body_asOpened (hh : asOpened h = true) (page : Nat) :
    Covers h.block.memory h.block.size page ↔ page = 32 := by
  obtain ⟨-, -, -, -, -, -, -, -, -, -, hmemory, hsize⟩ := of_decide_eq_true hh
  rw [hmemory, hsize]
  exact covers_page (k := 32)

theorem handleOk_asOpened (hh : asOpened h = true) (howner : s.owner = startOwner)
    (hsize : (s.kernel.header 0).blockSize = 4096) : s.HandleOk 1 0 h := by
  obtain ⟨hid, hpid, hreal, hclaims, hfree, hfree', hclaimsSize, hclaimsMemory, hclaimsHeader, hheader,
    hmemory, -⟩ := of_decide_eq_true hh
  have hown : ∀ page, s.owner h.pid page = some h.id ↔ page ∈ startPages := by
    intro page
    rw [howner, startOwner, hpid]
    simp [hid]
  refine ⟨hreal, hclaims, hfree, hfree', hclaimsSize.trans hsize.symm, ?_, ?_, ?_, ?_, ?_⟩
  · rw [SharedMemoryBlock.InSpace, hclaimsSize, hclaimsMemory, hclaimsHeader]
    decide
  · rw [hheader]
    decide
  · intro page hfixed
    rw [hown]
    rcases (fixed_asOpened hh page).mp hfixed with rfl | rfl | rfl <;> decide
  · intro _ page hcovered
    obtain rfl := (body_asOpened hh page).mp hcovered
    rw [hown, fixed_asOpened hh]
    decide
  · intro _ page hmine
    rw [hown] at hmine
    rw [fixed_asOpened hh, body_asOpened hh]
    simpa [startPages, or_assoc] using hmine

/-- The rest of `Owned`, evaluated. -/
def ready (s : MapSys) : Bool :=
  s.handles.all asOpened && decide ((s.kernel.header 0).blockSize = 4096) &&
    decide (memoryPageSize.toNat ≤ (s.kernel.objs 0).length) &&
    [0, 1].all (fun pid => startPages.all fun page => ((s.procs pid).pages page).isSome) &&
    decide (s.handles.Pairwise fun g h => g.id ≠ h.id)

theorem owned_of_ready (hready : s.ready = true) (howner : s.owner = startOwner) : Owned 1 0 s := by
  simp only [ready, Bool.and_eq_true, List.all_eq_true, decide_eq_true_eq] at hready
  obtain ⟨⟨⟨⟨hhandles, hsize⟩, hpage⟩, hmapped⟩, hids⟩ := hready
  refine ⟨Nat.zero_ne_one, hpage, ?_, ?_, hids⟩
  · intro g hg
    exact handleOk_asOpened (hhandles g hg) howner hsize
  · intro pid page id hown
    rw [howner, startOwner] at hown
    split at hown
    · rename_i hin
      have hpid : pid ∈ [0, 1] := by
        simp only [List.mem_cons, List.not_mem_nil, or_false]
        omega
      exact Option.isSome_iff_ne_none.mp (hmapped pid hpid page hin.2)
    · cases hown

theorem owner_twoHandles {neighbour : Option Page} (hs : twoHandles neighbour = some s) :
    s.owner = startOwner := by
  unfold twoHandles at hs
  split at hs
  · split at hs
    · rw [← Option.some.inj hs]
    · cases hs
  · cases hs

/-- Process 0 grows the block to two pages. -/
def growth : MapEvent := .remap 0 (.resizeGrow 8192) { RemapEnv.willing with os := mapsAt 0x40000 0 }

/-- The handle of process 1 is as it was opened, the block has two pages, and behind the one of the
handle there is `neighbour`. -/
def untold (neighbour : Option Page) (s : MapSys) : Bool :=
  decide (memoryPageSize.toNat ≤ (s.kernel.objs 1).length ∧ (s.procs 1).pages 33 = neighbour ∧
    s.owner 1 33 = none) &&
  (s.handles[1]?).any fun h => asOpened h && decide (h.pid = 1 ∧ s.blockSize h = 8192)

/-- What is to be evaluated of a run of one growth. -/
def growsOnce (neighbour : Option Page) : Bool :=
  (twoHandles neighbour).any fun s₀ => s₀.ready &&
    decide ((s₀.procs 0).pages 64 = none ∧ (s₀.procs 0).pages 65 = none) &&
    (s₀.handles[0]?).any (fun h => decide (h.pid = 0 ∧ h.block.memory ≠ 0)) &&
    (step ⟨false⟩ s₀ growth).any (untold neighbour)

theorem exists_untold (neighbour : Option Page) (htest : growsOnce neighbour = true) :
    ∃ s₀ s h, Owned 1 0 s₀ ∧ Reach (MapSys.step ⟨false⟩) Careful s₀ s ∧ s.handles[1]? = some h ∧
      untold neighbour s = true ∧ asOpened h = true ∧ h.pid = 1 ∧ s.blockSize h = 8192 := by
  obtain ⟨s₀, hs₀, htest⟩ := (Option.any_eq_true _ _).mp htest
  simp only [Bool.and_eq_true] at htest
  obtain ⟨⟨⟨hready, hfree⟩, hfirst⟩, hstep⟩ := htest
  obtain ⟨s, hs, huntold⟩ := (Option.any_eq_true _ _).mp hstep
  have hcareful : s₀.Careful growth := by
    intro g hg
    obtain ⟨g', hg', hat⟩ := (Option.any_eq_true _ _).mp hfirst
    obtain rfl := Option.some.inj (hg'.symm.trans hg)
    obtain ⟨hpid, hne⟩ := of_decide_eq_true hat
    refine ⟨fun hnull => absurd hnull hne, ?_⟩
    rintro addr ⟨⟩ page ⟨-, hcovered⟩
    have hlength : (RemapCall.target (s₀.blockSize g') (.resizeGrow 8192)).toNat = 8192 := rfl
    have hpage : page = 64 ∨ page = 65 := by
      rw [Covers, pageSize_eq, hlength] at hcovered
      omega
    obtain ⟨h64, h65⟩ := of_decide_eq_true hfree
    left
    rw [hpid]
    rcases hpage with rfl | rfl
    · exact h64
    · exact h65
  have hlast := ((Bool.and_eq_true _ _).mp huntold).2
  obtain ⟨h, hget, hat⟩ := (Option.any_eq_true _ _).mp hlast
  obtain ⟨hopened, hpid⟩ := (Bool.and_eq_true _ _).mp hat
  exact ⟨s₀, s, h, owned_of_ready hready (owner_twoHandles hs₀), .next .init hcareful hs, hget, huntold,
    hopened, of_decide_eq_true hpid⟩

/-- With nothing behind its page, the handle of process 1 can be closed. -/
theorem unmaps_untold :
    ∃ s₀ s h, Owned 1 0 s₀ ∧ Reach (MapSys.step ⟨false⟩) Careful s₀ s ∧ s.handles[1]? = some h ∧
      h.block.size = 4096 ∧ s.blockSize h = 8192 ∧ s.Unmaps ⟨false⟩ h := by
  obtain ⟨s₀, s, h, hok, hr, hget, huntold, hopened, hpid, hsize⟩ :=
    exists_untold none (by decide +kernel)
  obtain ⟨-, -, hobj, -, -, -, -, -, -, -, hmemory, hown⟩ := of_decide_eq_true hopened
  obtain ⟨hpage, hnone, -⟩ := of_decide_eq_true ((Bool.and_eq_true _ _).mp huntold).1
  refine ⟨s₀, s, h, hok, hr, hget, hown, hsize, (unmaps_iff_fits hok hr hget).mpr ?_⟩
  have hlength : (8192 : UInt64).toNat = 8192 := rfl
  refine ⟨?_, ?_, ?_, ?_⟩
  · rw [hobj]
    exact hpage
  · intro hnull
    rw [hmemory] at hnull
    cases hnull
  · intro _ page hcovered
    obtain rfl := (body_asOpened hopened page).mp hcovered
    rw [hmemory, hsize]
    refine ⟨by decide, ?_⟩
    rw [Covers, pageSize_eq, hlength]
    omega
  · rintro page ⟨-, hcovered⟩ hnot hmapped
    rw [body_asOpened hopened] at hnot
    rw [hmemory, hsize, Covers, pageSize_eq, hlength] at hcovered
    have hbehind : page = 33 := by
      rcases hnot with hnull | hne
      · rw [hmemory] at hnull
        cases hnull
      · omega
    rw [hpid, hbehind] at hmapped
    exact absurd hnone hmapped

/-- With something of the process there, closing the handle takes it away. -/
theorem neighbour_unmapped :
    ∃ s₀ s h, Owned 1 0 s₀ ∧ Reach (MapSys.step ⟨false⟩) Careful s₀ s ∧ s.handles[1]? = some h ∧
      s.owner h.pid 33 = none ∧ (s.procs h.pid).pages 33 = some ⟨7, 0, .readWrite⟩ ∧
      ¬ s.Unmaps ⟨false⟩ h := by
  obtain ⟨s₀, s, h, hok, hr, hget, huntold, hopened, hpid, hsize⟩ :=
    exists_untold (some ⟨7, 0, .readWrite⟩) (by decide +kernel)
  obtain ⟨-, -, -, -, -, -, -, -, -, -, hmemory, -⟩ := of_decide_eq_true hopened
  obtain ⟨-, hmapped, howner⟩ := of_decide_eq_true ((Bool.and_eq_true _ _).mp huntold).1
  rw [← hpid] at hmapped howner
  refine ⟨s₀, s, h, hok, hr, hget, howner, hmapped, ?_⟩
  intro hunmaps
  have hok' : Owned 1 0 s := hr.invariant hok fun _ _ _ hs hcareful hstep => hs.step hcareful hstep
  have hfits := hunmaps.fits hok' (List.mem_of_getElem? hget)
  have hreaches : Reaches h.block.memory (s.blockSize h) 33 := by
    rw [hmemory, hsize]
    decide
  have hmine := hfits.behind 33 hreaches (.inr ?_) ?_
  · rw [howner] at hmine
    cases hmine
  · rw [body_asOpened hopened]
    decide
  · rw [hmapped]
    exact Option.some_ne_none _

end MapSys

end Ipm
