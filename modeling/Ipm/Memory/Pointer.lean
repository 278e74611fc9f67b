import Ipm.Memory.Remap

/-!
# Where a handle points

The fields `shared_memory_block_update_mapping` looks at are what the previous call has left in them, so
that they tell the truth about the address space is a property of whole histories of calls. The
histories are of whole calls on any handles of any block, several of them perhaps in one process.

The address of a new mapping is not stored: `block->memory` stays `NULL` and the call reports success.
`Still` is the condition that no call gets that far, and under it a handle points at the whole of what
was last mapped for it, or at nothing after a failure.
-/

set_option autoImplicit false

namespace Ipm

open Lib

/-- A handle of a process, and what the last update of its mapping returned. -/
structure RemapHandle where
  pid : Nat
  memory : Memory
  lastRemap : Option IpmResult

def RemapHandle.block (h : RemapHandle) : SharedMemoryBlock := h.memory.realMemory

structure RemapSys where
  kernel : Kernel
  procs : Nat → Proc
  handles : List RemapHandle
  -- the handle, the mode and the result, if the last call got to an update
  returned : Option (Nat × AccessMode × IpmResult)

/-- A call with handle `i`. -/
structure RemapEvent where
  i : Nat
  call : RemapCall
  env : RemapEnv

namespace RemapSys

/-- A process that is stopped takes its handles with it. -/
def step (b : Build) (s : RemapSys) (a : RemapEvent) : Option RemapSys :=
  (s.handles[a.i]?).bind fun h =>
    match a.call.run b a.env h.memory ⟨s.kernel, s.procs h.pid⟩ with
    | .ret (.ok r) w =>
      some { kernel := w.kernel
             procs := Function.update s.procs h.pid w.proc
             handles := s.handles.set a.i
               { h with memory := r.memory
                        lastRemap := if r.asked.isSome then some r.res else h.lastRemap }
             returned := r.asked.map fun mode => (a.i, mode, r.res) }
    | .ret (.error _) _ => none
    | .stop _ w =>
      some { kernel := w.kernel
             procs := s.procs
             handles := s.handles.filter fun g => decide (g.pid ≠ h.pid)
             returned := none }

/-- `block_size` in the header of a handle's block. -/
def blockSize (s : RemapSys) (h : RemapHandle) : UInt64 := (s.kernel.header h.block.obj).blockSize

/-- No call maps anything: it does not get to the update, or the mapping is up to date, or `mmap`
fails. -/
def Still (b : Build) (s : RemapSys) (a : RemapEvent) : Prop :=
  ∀ h ∈ s.handles[a.i]?, a.call.Reaches b a.env (s.blockSize h) h.block →
    h.block.UpToDate (a.call.target (s.blockSize h)) (a.call.mode h.block) ∨
      mmapFails a.env.os.bodyMmap (a.call.target (s.blockSize h)) = true

instance (b : Build) (s : RemapSys) (a : RemapEvent) : Decidable (s.Still b a) :=
  inferInstanceAs (Decidable (∀ h ∈ s.handles[a.i]?, _))

/-- Handle `h` points at the whole of its block, mapped with `mode`, and asking for that again changes
nothing. -/
structure AtBlock (s : RemapSys) (h : RemapHandle) (mode : AccessMode) : Prop where
  ne_null : ipmMemoryPointer h.memory ≠ 0
  shows : (s.procs h.pid).Shows (ipmMemoryPointer h.memory) (s.blockSize h) h.block.obj mode
  size : h.block.size = s.blockSize h
  again : ∀ ctx os, sharedMemoryBlockUpdateMapping ctx os h.block mode ⟨s.kernel, s.procs h.pid⟩ =
    .ret (.ok (.success, h.block)) ⟨s.kernel, s.procs h.pid⟩

/-- **Handles point where they should.** -/
structure Pointing (s : RemapSys) : Prop where
  remapped : ∀ i mode, s.returned = some (i, mode, .success) →
    ∀ h, s.handles[i]? = some h → s.AtBlock h mode
  null : ∀ h ∈ s.handles, ipmMemoryPointer h.memory = 0 →
    ∃ res, h.lastRemap = some res ∧ res ≠ .success

/-- No page of a process belongs to two handles. -/
def Apart (g h : RemapHandle) : Prop :=
  g.pid = h.pid → ∀ page, ¬ (Covers g.block.memory g.block.size page ∧
    Covers h.block.memory h.block.size page)

/-- Handles as `ipm_memory_create` and `ipm_memory_open` have left them. -/
structure Opened (s : RemapSys) : Prop where
  mapped : ∀ h ∈ s.handles, h.block.Mapped (s.procs h.pid)
  apart : s.handles.Pairwise Apart
  returned : s.returned = none

/-- What every call keeps. -/
structure PointsOk (s : RemapSys) : Prop where
  shows : ∀ h ∈ s.handles, h.block.memory ≠ 0 →
    (s.procs h.pid).Shows h.block.memory h.block.size h.block.obj h.block.accessMode
  lost : ∀ h ∈ s.handles, h.block.memory = 0 →
    h.block.size = 0 ∧ ∃ res, h.lastRemap = some res ∧ res ≠ .success
  apart : s.handles.Pairwise Apart

variable {s s' : RemapSys} {a : RemapEvent}

theorem Opened.pointsOk (h : Opened s) : PointsOk s := by
  refine ⟨fun g hg _ => (h.mapped g hg).2, ?_, h.apart⟩
  intro g hg hnull
  exact absurd hnull (h.mapped g hg).1

theorem apart_symm (g h : RemapHandle) (hgh : Apart g h) : Apart h g := by
  intro hpid page hboth
  exact hgh hpid.symm page ⟨hboth.2, hboth.1⟩

/-- **A call of one handle is no concern of the others**: it may unmap what was its own. -/
theorem PointsOk.set {i : Nat} {h h' : RemapHandle} {k' : Kernel} {p' : Proc}
    {returned : Option (Nat × AccessMode × IpmResult)} (hok : PointsOk s)
    (hget : s.handles[i]? = some h) (hpid : h'.pid = h.pid)
    (hpages : ∀ page, p'.pages page = (s.procs h.pid).pages page ∨
      p'.pages page = none ∧ Covers h.block.memory h.block.size page)
    (hshows : h'.block.memory ≠ 0 →
      p'.Shows h'.block.memory h'.block.size h'.block.obj h'.block.accessMode)
    (hlost : h'.block.memory = 0 →
      h'.block.size = 0 ∧ ∃ res, h'.lastRemap = some res ∧ res ≠ .success)
    (hcovers : ∀ page, Covers h'.block.memory h'.block.size page →
      Covers h.block.memory h.block.size page) :
    PointsOk ⟨k', Function.update s.procs h.pid p', s.handles.set i h', returned⟩ := by
  refine ⟨?_, forall_mem_set hok.lost (fun _ _ hg => hg) hlost, pairwise_set hok.apart hget ?_ ?_⟩
  · intro g hg hne
    show (Function.update s.procs h.pid p' g.pid).Shows _ _ _ _
    rcases mem_set_or hg with rfl | ⟨j, hji, hj⟩
    · rw [hpid, Function.update_self]
      exact hshows hne
    · have hold := hok.shows g (List.mem_of_getElem? hj) hne
      by_cases hsame : g.pid = h.pid
      · rw [hsame, Function.update_self]
        rw [hsame] at hold
        apply hold.keep
        · intro page hpage
          rcases hpages page with hkept | ⟨-, hown⟩
          · exact hkept
          · have hapart := pairwise_of_ne hok.apart apart_symm hj hget hji
            exact absurd ⟨hpage, hown⟩ (hapart hsame page)
        · intro page
          rcases hpages page with hkept | ⟨hnone, -⟩
          · exact .inl hkept
          · exact .inr hnone
      · rw [Function.update_of_ne hsame]
        exact hold
  · intro g hapart hsame page hboth
    exact hapart (hpid.symm.trans hsame) page ⟨hcovers page hboth.1, hboth.2⟩
  · intro g hapart hsame page hboth
    exact hapart (hsame.trans hpid) page ⟨hboth.1, hcovers page hboth.2⟩

/-- A process that is stopped. -/
theorem PointsOk.stop (hok : PointsOk s) (f : RemapHandle → Bool) (k' : Kernel) :
    PointsOk ⟨k', s.procs, s.handles.filter f, none⟩ := by
  refine ⟨?_, ?_, hok.apart.filter f⟩
  · intro g hg
    exact hok.shows g (List.mem_of_mem_filter hg)
  · intro g hg
    exact hok.lost g (List.mem_of_mem_filter hg)

/-- A call that got to the update has not mapped anything: the mapping is as it was, or gone. -/
theorem updated_of_still {os : Os} {block real : SharedMemoryBlock} {size : UInt64}
    {mode : AccessMode} {p p' : Proc} {res : IpmResult} (h : Updated os block size mode p res real p')
    (hstill : block.UpToDate size mode ∨ mmapFails os.bodyMmap size = true) :
    res = .success ∧ real = block ∧ p' = p ∧ block.UpToDate size mode ∨
    res ≠ .success ∧ real = { block with memory := 0, size := 0, accessMode := .readOnly } ∧
      ∀ page, p'.pages page =
        if Reaches block.memory block.size page then none else p.pages page := by
  cases h with
  | kept h => exact .inl ⟨rfl, rfl, rfl, h⟩
  | lost h hfails hpages => exact .inr ⟨nofun, rfl, hpages⟩
  | moved h hmaps =>
    rcases hstill with hup | hfails
    · exact absurd hup h
    · rw [hmaps] at hfails
      cases hfails

/-- What a step can do. -/
theorem step_cases {b : Build} (hs : step b s a = some s') :
    ∃ h, s.handles[a.i]? = some h ∧
      ((∃ r w, Ran b a.env h.memory a.call ⟨s.kernel, s.procs h.pid⟩ r w ∧
          s' = ⟨w.kernel, Function.update s.procs h.pid w.proc, s.handles.set a.i
            { h with memory := r.memory
                     lastRemap := if r.asked.isSome then some r.res else h.lastRemap },
            r.asked.map fun mode => (a.i, mode, r.res)⟩) ∨
        ∃ w : World, s' = ⟨w.kernel, s.procs,
          s.handles.filter fun g => decide (g.pid ≠ h.pid), none⟩) := by
  obtain ⟨h, hget, hout⟩ := Option.bind_eq_some_iff.mp hs
  refine ⟨h, hget, ?_⟩
  have hpost : Prog.Post (a.call.run b a.env h.memory) ⟨s.kernel, s.procs h.pid⟩ _
      (fun _ _ => True) _ := a.call.run_post
  cases hrun : a.call.run b a.env h.memory ⟨s.kernel, s.procs h.pid⟩ with
  | ret res w =>
    rw [hrun] at hout
    cases res with
    | ok r => exact .inl ⟨r, w, hpost.of_ret hrun, (Option.some.inj hout).symm⟩
    | error res => cases hout
  | stop why w =>
    rw [hrun] at hout
    exact .inr ⟨w, (Option.some.inj hout).symm⟩

/-- A mapping that was up to date is the whole of the block. -/
theorem atBlock_of_upToDate {h : RemapHandle} {mode : AccessMode} (hok : PointsOk s)
    (hget : h ∈ s.handles) (hup : h.block.UpToDate (s.blockSize h) mode)
    (hlen : memoryPageSize.toNat ≤ (s.kernel.objs h.block.obj).length) : s.AtBlock h mode := by
  obtain ⟨hsize, hmode, hne⟩ := hup
  refine ⟨hne, ?_, hsize, ?_⟩
  · rw [← hsize, hmode]
    exact hok.shows h hget hne
  · intro ctx os
    exact updateMapping_upToDate ctx os hlen ⟨hsize, hmode, hne⟩

theorem PointsOk.pointing (hok : PointsOk s)
    (hremapped : ∀ i mode, s.returned = some (i, mode, .success) →
      ∀ h, s.handles[i]? = some h → s.AtBlock h mode) : Pointing s :=
  ⟨hremapped, fun h hh hnull => (hok.lost h hh hnull).2⟩

/-- A call that left the mapping alone. -/
theorem PointsOk.keep {i : Nat} {h : RemapHandle} {k' : Kernel} {p' : Proc}
    {returned : Option (Nat × AccessMode × IpmResult)} (hok : PointsOk s) (last : Option IpmResult)
    (hget : s.handles[i]? = some h) (hpages : p'.pages = (s.procs h.pid).pages)
    (hlast : h.block.memory = 0 → last = h.lastRemap) :
    PointsOk ⟨k', Function.update s.procs h.pid p', s.handles.set i { h with lastRemap := last },
      returned⟩ := by
  have hmem := List.mem_of_getElem? hget
  apply hok.set hget
  · rfl
  · intro page
    exact .inl (congrFun hpages page)
  · intro hne
    exact (hok.shows h hmem hne).same hpages
  · intro hnull
    show _ ∧ ∃ res, last = some res ∧ _
    rw [hlast hnull]
    exact hok.lost h hmem hnull
  · intro page hpage
    exact hpage

/-- A call that unmapped and did not get a new mapping. -/
theorem PointsOk.unmap {i : Nat} {h : RemapHandle} {k' : Kernel} {p' : Proc} {res : IpmResult}
    {returned : Option (Nat × AccessMode × IpmResult)} (hok : PointsOk s)
    (hget : s.handles[i]? = some h)
    (hpages : ∀ page, p'.pages page =
      if Reaches h.block.memory h.block.size page then none else (s.procs h.pid).pages page)
    (hres : res ≠ .success) :
    PointsOk ⟨k', Function.update s.procs h.pid p', s.handles.set i
      { h with memory := { h.memory with
                 realMemory := { h.block with memory := 0, size := 0, accessMode := .readOnly } }
               lastRemap := some res }, returned⟩ := by
  apply hok.set hget
  · rfl
  · intro page
    rw [hpages]
    by_cases hown : Reaches h.block.memory h.block.size page
    · exact .inr ⟨if_pos hown, hown.2⟩
    · exact .inl (if_neg hown)
  · intro hne
    exact absurd rfl hne
  · intro _
    exact ⟨rfl, res, rfl, hres⟩
  · intro page hpage
    exact absurd hpage (not_covers_null page)

/-- **One call.** -/
theorem PointsOk.step {b : Build} (hok : PointsOk s) (hstill : Still b s a)
    (hs : step b s a = some s') : PointsOk s' ∧ Pointing s' := by
  obtain ⟨h, hget, ⟨r, w, hran, rfl⟩ | ⟨w, rfl⟩⟩ := step_cases hs
  · cases hran with
    | short hshort hpages =>
      have hok' : PointsOk ⟨w.kernel, _, _, none⟩ := hok.keep _ hget hpages fun _ => rfl
      exact ⟨hok', hok'.pointing nofun⟩
    | @reached res real p _ hreach hsize hlen hpages hupdated =>
      rcases updated_of_still hupdated (hstill h hget hreach) with
        ⟨rfl, rfl, hp, hup⟩ | ⟨hres, rfl, hp⟩
      · have hok' : PointsOk ⟨w.kernel, _, _, some (a.i, a.call.mode h.block, .success)⟩ :=
          hok.keep (some .success) hget (hp ▸ hpages) fun hnull => absurd hnull hup.2.2
        refine ⟨hok', hok'.pointing ?_⟩
        rintro _ _ ⟨⟩ g hg
        rw [← hsize] at hup
        have hlt := (List.getElem?_eq_some_iff.mp hget).1
        rw [List.getElem?_set_self hlt] at hg
        obtain rfl := Option.some.inj hg
        exact atBlock_of_upToDate hok' (List.mem_of_getElem? (List.getElem?_set_self hlt)) hup hlen
      · rw [hpages] at hp
        have hok' : PointsOk ⟨w.kernel, _, _, some (a.i, a.call.mode h.block, res)⟩ :=
          hok.unmap hget hp hres
        refine ⟨hok', hok'.pointing ?_⟩
        rintro _ _ ⟨⟩
        exact absurd rfl hres
  · have hok' := hok.stop (fun g => decide (g.pid ≠ h.pid)) w.kernel
    exact ⟨hok', hok'.pointing nofun⟩

/-- A stopped process loses a handle at least. -/
theorem length_stop_lt {h : RemapHandle} {i : Nat} (hget : s.handles[i]? = some h) :
    (s.handles.filter fun g => decide (g.pid ≠ h.pid)).length < s.handles.length := by
  apply List.length_filter_lt_length_iff_exists.mpr
  exact ⟨h, List.mem_of_getElem? hget, by simp⟩

/-- **A new mapping is lost**: the call that got it says so to no one. -/
theorem still_of_pointing {b : Build} (hs : step b s a = some s')
    (hlive : s'.handles.length = s.handles.length) (hpointing : Pointing s') : Still b s a := by
  obtain ⟨h, hget, ⟨r, w, hran, rfl⟩ | ⟨w, rfl⟩⟩ := step_cases hs
  · intro g hg hreach
    obtain rfl := Option.some.inj (hget.symm.trans hg)
    cases hran with
    | short hshort hpages => exact absurd hreach hshort
    | reached _ hsize hlen hpages hupdated =>
      cases hupdated with
      | kept hup => exact .inl hup
      | lost _ hfails _ => exact .inr hfails
      | moved _ _ =>
        have hlt := (List.getElem?_eq_some_iff.mp hget).1
        have hat := hpointing.remapped a.i _ rfl _ (List.getElem?_set_self hlt)
        exact absurd rfl hat.ne_null
  · exact absurd hlive (Nat.ne_of_lt (length_stop_lt hget))

/-! ## Runs -/

/-- **Handles keep pointing at their blocks**, for as long as no call gets a new mapping; the first
one that does, and returns, leaves a handle that points nowhere. -/
theorem pointing_of_still {b : Build} {s₀ : RemapSys} (h₀ : Opened s₀)
    (hr : Reach (step b) (Still b) s₀ s) :
    s.Pointing ∧ ∀ a s', step b s a = some s' → s'.handles.length = s.handles.length →
      (s'.Pointing ↔ Still b s a) := by
  have hok₀ : PointsOk s₀ ∧ Pointing s₀ := by
    refine ⟨h₀.pointsOk, h₀.pointsOk.pointing ?_⟩
    intro i mode hreturned
    rw [h₀.returned] at hreturned
    cases hreturned
  obtain ⟨hok, hpointing⟩ : PointsOk s ∧ Pointing s :=
    hr.invariant (I := fun s => PointsOk s ∧ Pointing s) hok₀
      fun _ _ _ h hstill hs => h.1.step hstill hs
  refine ⟨hpointing, fun a s' hs hlive => ⟨still_of_pointing hs hlive, ?_⟩⟩
  intro hstill
  exact (hok.step hstill hs).2

/-- The addresses of `Os.willing`, in a process that has nothing mapped. -/
theorem places_willing (size : UInt64) : Os.willing.Places .initial size where
  ne_null := by
    rintro _ ⟨⟩
    decide
  body := by
    rintro _ ⟨⟩
    decide
  header := by
    rintro _ ⟨⟩
    decide
  apart := by
    rintro _ _ ⟨⟩ ⟨⟩ page ⟨hbody, hheader⟩
    simp only [Covers, pageSize_eq] at hbody hheader
    omega
  ends := by
    intro addr _ obj access
    exact (Option.some_ne_none _).symm

/-- A handle of block `a`; the calls of this module do not look at its claims. -/
def handleOf (pid : Nat) (real : SharedMemoryBlock) : RemapHandle :=
  { pid := pid
    memory := { blockName := .a
                realMemory := real
                activeClaims := { real with accessMode := .readWrite, memFd := ⟨4, 1⟩ } }
    lastRemap := none }

/-- Process 0 creates a block of one page, and process 1 opens it to read. -/
def readAndWritten : Option RemapSys :=
  match sharedMemoryBlockCreate ⟨false⟩ ⟨fun e => e⟩ .willing .a 1 4096 .readWrite
      ⟨.empty, .initial⟩ with
  | .ret (.ok writer) w =>
    match sharedMemoryBlockOpen ⟨fun e => e⟩ .willing .a 1 .readOnly ⟨w.kernel, .initial⟩ with
    | .ret (.ok reader) w' =>
      some { kernel := w'.kernel
             procs := fun pid => if pid = 0 then w.proc else w'.proc
             handles := [handleOf 0 writer, handleOf 1 reader]
             returned := none }
    | _ => none
  | _ => none

theorem opened_readAndWritten (h : readAndWritten = some s) : Opened s := by
  unfold readAndWritten at h
  split at h
  · rename_i writer w hcreate
    split at h
    · rename_i reader w' hopen
      obtain rfl := Option.some.inj h
      refine ⟨?_, ?_, rfl⟩
      · intro g hg
        rcases List.mem_pair.mp hg with rfl | rfl
        · exact sharedMemoryBlockCreate_mapped_post.of_ret hcreate (places_willing _)
        · exact sharedMemoryBlockOpen_mapped_post.of_ret hopen (places_willing _)
      · refine List.pairwise_pair.mpr ?_
        intro hpid
        cases hpid
    · cases h
  · cases h

/-- A run from there. -/
theorem exists_opened_trace (b : Build) {G : RemapSys → RemapEvent → Prop}
    {g : RemapSys → RemapEvent → Bool} {t : RemapSys → Bool} (acts : List RemapEvent)
    (hg : ∀ s a, g s a = true → G s a)
    (hrun : (readAndWritten.any fun s => (runGuarded (step b) g s acts).any t) = true) :
    ∃ s₀ s, Opened s₀ ∧ Reach (step b) G s₀ s ∧ t s = true := by
  obtain ⟨s₀, hs₀, htest⟩ := (Option.any_eq_true _ _).mp hrun
  obtain ⟨s, hr, ht⟩ := exists_reach_of_trace (P := fun s => t s = true) acts hg (fun _ h => h) htest
  exact ⟨s₀, s, opened_readAndWritten hs₀, hr, ht⟩

/-- The reader loses its mapping when it asks to write; the writer has nothing to do. -/
def unmoved : List RemapEvent :=
  [⟨1, .sync, .willing⟩, ⟨1, .changeAccess .readWrite, .full⟩, ⟨0, .resizeGrow 4096, .willing⟩,
   ⟨0, .sync, .willing⟩]

def writerThere (s : RemapSys) : Bool :=
  decide (s.returned = some (0, .readWrite, .success) ∧
    s.handles.map (fun h => (ipmMemoryPointer h.memory, h.lastRemap)) =
      [(0x10000, some .success), (0, some .errOsOutOfMemory)])

theorem pointing_unmoved :
    ∃ s₀ s, Opened s₀ ∧ Reach (step ⟨false⟩) (Still ⟨false⟩) s₀ s ∧ s.writerThere = true ∧
      s.Pointing ∧ ∀ a s', step ⟨false⟩ s a = some s' → s'.handles.length = s.handles.length →
        (s'.Pointing ↔ Still ⟨false⟩ s a) := by
  obtain ⟨s₀, s, h₀, hr, ht⟩ := exists_opened_trace ⟨false⟩ (G := Still ⟨false⟩)
    (g := fun s a => decide (s.Still ⟨false⟩ a)) (t := writerThere) unmoved
    (fun _ _ h => of_decide_eq_true h) (by decide +kernel)
  exact ⟨s₀, s, h₀, hr, ht, pointing_of_still h₀ hr⟩

/-! ## Where it goes wrong -/

/-- A handle that points nowhere although its last call remapped it. -/
def nowhere (s : RemapSys) : Bool :=
  s.handles.any fun h => decide (ipmMemoryPointer h.memory = 0 ∧ h.lastRemap = some .success)

theorem not_pointing_of_nowhere (h : s.nowhere = true) : ¬ s.Pointing := by
  intro hpointing
  obtain ⟨g, hg, htest⟩ := List.any_eq_true.mp h
  obtain ⟨hnull, hlast⟩ := of_decide_eq_true htest
  obtain ⟨res, hres, hne⟩ := hpointing.null g hg hnull
  exact hne (Option.some.inj (hres.symm.trans hlast))

/-- The reader asks to write, and nothing fails. -/
theorem changeAccess_not_pointing :
    ∃ s₀ s, Opened s₀ ∧ Reach (step ⟨false⟩) (fun _ _ => True) s₀ s ∧
      s.returned = some (1, .readWrite, .success) ∧ ¬ s.Pointing := by
  obtain ⟨s₀, s, h₀, hr, ht⟩ := exists_opened_trace ⟨false⟩ (G := fun _ _ => True)
    (g := fun _ _ => true)
    (t := fun s => decide (s.returned = some (1, .readWrite, .success)) && s.nowhere)
    [⟨1, .changeAccess .readWrite, .willing⟩] (fun _ _ _ => trivial) (by decide +kernel)
  obtain ⟨hreturned, hnowhere⟩ := (Bool.and_eq_true _ _).mp ht
  exact ⟨s₀, s, h₀, hr, of_decide_eq_true hreturned, not_pointing_of_nowhere hnowhere⟩

end RemapSys

end Ipm
