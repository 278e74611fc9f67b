import Ipm.Block.Ownership
import Ipm.Claim.Answers
import Ipm.Core.Mutex
import Ipm.Memory.Remap

/-!
# A growth that fails

`shared_memory_block_resize` with the mutex it takes: the lock before the critical section and the three
unlocks after it, one on each way out. Run with its mutex it does what `Block/Shared.lean` says of it,
and gives back what it has taken (`sharedMemoryBlockResizeBy_of_ret`).

A failure before the size is written leaves everything as it was. A failure after it, in the remapping,
leaves a handle that has nothing mapped and says so: its size is 0 and it may not write, so whatever is
claimed through it is refused, until something is mapped again.
-/

set_option autoImplicit false

namespace Ipm

open Lib

/-! ## The function with its mutex -/

/-- A process and the `segment_mutex` of the block it works on. -/
structure Segment where
  world : World
  mutex : RobustMutex Nat

abbrev SegmentCall (α : Type) : Type := Prog Segment IpmResult α

/-- What is done without touching the mutex. -/
def beside {α : Type} (p : Call α) : SegmentCall α := fun s =>
  (p s.world).within fun w => { s with world := w }

/-- `ipm_mutex_lock(&block->header->segment_mutex)`. A mutex in other hands is waited for. -/
def lockSegment (me : Nat) (refused : Option Errno) : SegmentCall IpmResult := fun s =>
  match ipmMutexLockBy s.mutex me refused s.world.proc.errno with
  | some (res, mutex) => .ret (.ok res) { s with mutex := mutex }
  | none => .stop .spin s

/-- `ipm_mutex_unlock(&block->header->segment_mutex)`; its result is dropped everywhere. -/
def unlockSegment (me : Nat) : SegmentCall Unit :=
  .update fun s => { s with mutex := s.mutex.unlock me }

/-- `shared_memory_block_resize`, called by process `me`. -/
def sharedMemoryBlockResizeBy (b : Build) (ctx : Context) (os : Os) (me : Nat)
    (refused : Option Errno) (block : SharedMemoryBlock) (newSize : UInt64) :
    SegmentCall (IpmResult × SharedMemoryBlock) := do
  beside (resizeCheck b block newSize)
  let semRes ← lockSegment me refused
  if semRes ≠ .success then
    beside (ipmError ctx)
    return (semRes, block)
  else if newSize = (← beside (getHeader block.obj)).blockSize then
    -- Block was already truncated to the correct size
    unlockSegment me
    if newSize ≠ block.size then
      beside (sharedMemoryBlockUpdateMapping ctx os block block.accessMode)
    else return (.success, block)
  else if ← beside (ftruncate os block.memFd (memoryPageSize + newSize)) then
    beside (setHeader block.obj fun h => { h with blockSize := newSize })
    unlockSegment me
    beside (sharedMemoryBlockUpdateMapping ctx os block block.accessMode)
  else
    unlockSegment me
    beside (ipmError ctx)
    return (resizeTruncateError (← beside errno), block)

/-- The mutex as a call that locked it with `lock` leaves it. -/
def givenBack (me : Nat) (lock : IpmResult) (mutex : RobustMutex Nat) : RobustMutex Nat :=
  if lock = .success then mutex.unlock me else mutex

variable {b : Build} {ctx : Context} {os : Os} {me : Nat} {refused : Option Errno}
variable {block : SharedMemoryBlock} {newSize : UInt64} {w w' : World} {m m' : RobustMutex Nat}
variable {lock : IpmResult}

theorem beside_ret {α : Type} {p : Call α} {r : Except IpmResult α} (h : p w = .ret r w') :
    beside p ⟨w, m⟩ = .ret r ⟨w', m⟩ := by
  rw [beside, h, Outcome.within_ret]

theorem beside_bind {α β : Type} {p : Call α} {k : α → SegmentCall β} {a : α}
    (h : p w = .ret (.ok a) w') : (beside p >>= k) ⟨w, m⟩ = k a ⟨w', m⟩ :=
  Prog.bind_ok (beside_ret h)

theorem lockSegment_bind {α : Type} {k : IpmResult → SegmentCall α}
    (h : ipmMutexLockBy m me refused w.proc.errno = some (lock, m')) :
    (lockSegment me refused >>= k) ⟨w, m⟩ = k lock ⟨w, m'⟩ := by
  apply Prog.bind_ok
  simp only [lockSegment, h]

theorem unlockSegment_bind {α : Type} {k : Unit → SegmentCall α} :
    (unlockSegment me >>= k) ⟨w, m⟩ = k () ⟨w, m.unlock me⟩ :=
  Prog.bind_ok rfl

/-- The checks only look. -/
theorem resizeCheck_keeps_world : Prog.Keeps (fun w => w) (resizeCheck b block newSize) := by
  refine Prog.Keeps.bind ?_ fun hd => (Prog.Keeps.assert _ _).bind fun _ =>
    (Prog.Keeps.assert _ _).bind fun _ => .assert _ _
  intro w
  exact getHeader_any_post.mapRet fun _ _ h => h.1

/-- **With its mutex the function does the same**, and gives the mutex back. -/
theorem sharedMemoryBlockResizeBy_of_ret {r : IpmResult × SharedMemoryBlock}
    (hlock : ipmMutexLockBy m me refused w.proc.errno = some (lock, m'))
    (h : sharedMemoryBlockResize b ctx os lock block newSize w = .ret (.ok r) w') :
    sharedMemoryBlockResizeBy b ctx os me refused block newSize ⟨w, m⟩ =
      .ret (.ok r) ⟨w', givenBack me lock m'⟩ := by
  obtain ⟨_, w1, hcheck, hrest⟩ := Prog.exists_of_bind_ok h
  have hkept : w1 = w := (resizeCheck_keeps_world w).of_ret hcheck
  rw [hkept] at hcheck hrest
  obtain ⟨sec, w2, hsection, hremap⟩ := Prog.exists_of_bind_ok hrest
  rw [sharedMemoryBlockResizeBy, beside_bind hcheck, lockSegment_bind hlock, givenBack]
  unfold resizeSection at hsection
  by_cases hgot : lock ≠ .success
  · rw [if_pos hgot] at hsection
    rw [if_pos hgot, if_neg hgot]
    obtain ⟨_, w3, herror, hret⟩ := Prog.exists_of_bind_ok hsection
    cases hret
    cases hremap
    rw [beside_bind herror]
    rfl
  · rw [if_neg hgot] at hsection
    rw [if_neg hgot, if_pos (not_not.mp hgot)]
    obtain ⟨hd, w3, hheader, hsection⟩ := Prog.exists_of_bind_ok hsection
    rw [beside_bind hheader]
    by_cases hsame : newSize = hd.blockSize
    · rw [if_pos hsame] at hsection
      cases hsection
      rw [if_pos hsame, unlockSegment_bind]
      rw [resizeRemap] at hremap
      by_cases hsize : newSize ≠ block.size
      · rw [if_pos hsize] at hremap
        rw [if_pos hsize, beside_ret hremap]
      · rw [if_neg hsize] at hremap
        cases hremap
        rw [if_neg hsize]
        rfl
    · rw [if_neg hsame] at hsection
      rw [if_neg hsame]
      obtain ⟨done, w4, htruncate, hsection⟩ := Prog.exists_of_bind_ok hsection
      rw [beside_bind htruncate]
      cases done with
      | true =>
        obtain ⟨_, w5, hwrite, hret⟩ := Prog.exists_of_bind_ok hsection
        cases hret
        rw [resizeRemap] at hremap
        rw [if_pos rfl, beside_bind hwrite, unlockSegment_bind, beside_ret hremap]
      | false =>
        obtain ⟨_, w5, herror, hsection⟩ := Prog.exists_of_bind_ok hsection
        obtain ⟨e, w6, herrno, hret⟩ := Prog.exists_of_bind_ok hsection
        cases hret
        cases hremap
        rw [if_neg Bool.false_ne_true, unlockSegment_bind, beside_bind herror, beside_bind herrno]
        rfl

/-- Whoever has the mutex after the call had it before, and was refused it. -/
theorem owner_givenBack_iff {errno : Errno}
    (hlock : ipmMutexLockBy m me refused errno = some (lock, m')) :
    (givenBack me lock m').owner = some me ↔ m.owner = some me ∧ lock ≠ .success := by
  by_cases hgot : lock = .success
  · rw [givenBack, if_pos hgot, RobustMutex.owner_unlock]
    constructor
    · intro hmine
      split_ifs at hmine with hown
      exact absurd hmine hown
    · rintro ⟨-, hrefused⟩
      exact absurd hgot hrefused
  · rw [givenBack, if_neg hgot, owner_of_not_locks (not_locks_of_refused hlock hgot) hlock]
    exact (and_iff_left hgot).symm

/-! ## It returns -/

/-- What `shared_memory_block_resize` asserts of the size it is given. -/
structure ResizeAsserts (size newSize : UInt64) : Prop where
  grows : size ≤ newSize
  pages : newSize &&& memoryPageSizeMask = 0
  pos : 0 < newSize

theorem getHeader_ret {obj : Nat} (hlen : memoryPageSize.toNat ≤ (w.kernel.objs obj).length) :
    getHeader obj w = .ret (.ok (w.kernel.header obj)) w := by
  rw [getHeader, if_neg (Nat.not_lt.mpr hlen)]

theorem assert_ret {c : Bool} (h : c = true) : (Prog.assert b c : Call Unit) w = .ret (.ok ()) w := by
  rw [h]
  exact Build.check_true b w _

theorem resizeCheck_ret (hlen : memoryPageSize.toNat ≤ (w.kernel.objs block.obj).length)
    (h : ResizeAsserts (w.kernel.header block.obj).blockSize newSize) :
    resizeCheck b block newSize w = .ret (.ok ()) w := by
  rw [resizeCheck, Prog.bind_ok (getHeader_ret hlen),
    Prog.bind_ok (assert_ret (decide_eq_true h.grows)),
    Prog.bind_ok (assert_ret (beq_iff_eq.mpr h.pages))]
  exact assert_ret (decide_eq_true h.pos)

/-- The new length has room for the header page. -/
theorem toNat_page_add (hroom : newSize.toNat + memoryPageSize.toNat < lengthLimit) :
    (memoryPageSize + newSize).toNat = newSize.toNat + memoryPageSize.toNat := by
  rw [UInt64.toNat_add, Nat.add_comm]
  apply Nat.mod_eq_of_lt
  exact hroom.trans (by decide)

theorem ftruncate_ret (block : SharedMemoryBlock) (htruncate : os.ftruncate = none)
    (hroom : newSize.toNat + memoryPageSize.toNat < lengthLimit) (w : World) :
    ∃ w', ftruncate os block.memFd (memoryPageSize + newSize) w = .ret (.ok true) w' ∧
      memoryPageSize.toNat ≤ (w'.kernel.objs block.obj).length := by
  have hlength := toNat_page_add hroom
  have hfits : ¬ lengthLimit ≤ (memoryPageSize + newSize).toNat := by
    rw [hlength]
    exact Nat.not_le.mpr hroom
  simp only [ftruncate, if_neg hfits, htruncate]
  refine ⟨_, rfl, ?_⟩
  show _ ≤ ((w.kernel.modifyObj block.obj _).objs block.obj).length
  rw [Kernel.objs_modifyObj_self, ShmObject.length_resize, hlength]
  exact Nat.le_add_left _ _

theorem setHeader_ret {obj : Nat} (f : Header → Header)
    (hlen : memoryPageSize.toNat ≤ (w.kernel.objs obj).length) :
    ∃ w', setHeader obj f w = .ret (.ok ()) w' ∧
      (w'.kernel.objs obj).length = (w.kernel.objs obj).length := by
  rw [setHeader, if_neg (Nat.not_lt.mpr hlen)]
  refine ⟨_, rfl, ?_⟩
  rw [Kernel.objs_modifyObj_self]

/-- The critical section comes to its end, and the header page is still there. -/
theorem resizeSection_ret (ctx : Context) (os : Os) (lock : IpmResult)
    (hlen : memoryPageSize.toNat ≤ (w.kernel.objs block.obj).length)
    (hroom : newSize.toNat + memoryPageSize.toNat < lengthLimit) :
    ∃ sec w', resizeSection ctx os lock block newSize w = .ret (.ok sec) w' ∧
      memoryPageSize.toNat ≤ (w'.kernel.objs block.obj).length := by
  unfold resizeSection
  by_cases hgot : lock ≠ .success
  · rw [if_pos hgot]
    exact ⟨_, _, rfl, hlen⟩
  · rw [if_neg hgot, Prog.bind_ok (getHeader_ret hlen)]
    by_cases hsame : newSize = (w.kernel.header block.obj).blockSize
    · rw [if_pos hsame]
      exact ⟨_, _, rfl, hlen⟩
    · have hfits : ¬ lengthLimit ≤ (memoryPageSize + newSize).toNat := by
        rw [toNat_page_add hroom]
        exact Nat.not_le.mpr hroom
      rw [if_neg hsame]
      cases htruncate : os.ftruncate with
      | some f =>
        have hfails : ftruncate os block.memFd (memoryPageSize + newSize) w =
            .ret (.ok false) (w.setErrno f.errno) := by
          simp only [ftruncate, if_neg hfits, htruncate]
        rw [Prog.bind_ok hfails]
        exact ⟨_, _, rfl, hlen⟩
      | none =>
        obtain ⟨w1, hdone, hpage⟩ := ftruncate_ret block htruncate hroom w
        obtain ⟨w2, hwrite, hlength⟩ := setHeader_ret (fun h => { h with blockSize := newSize }) hpage
        rw [Prog.bind_ok hdone, if_pos rfl, Prog.bind_ok hwrite]
        exact ⟨_, _, rfl, hlength ▸ hpage⟩

theorem updateMapping_ret (ctx : Context) (os : Os) (mode : AccessMode)
    (hlen : memoryPageSize.toNat ≤ (w.kernel.objs block.obj).length) :
    ∃ r w', sharedMemoryBlockUpdateMapping ctx os block mode w = .ret (.ok r) w' := by
  have hpost : Prog.Post (sharedMemoryBlockUpdateMapping ctx os block mode) w (fun _ _ => True)
      (fun _ _ => False) fun _ _ => False := by
    refine (getHeader_post hlen).bind fun hd w1 _ => ?_
    dsimp only
    split
    · exact Prog.Post.pure trivial
    · refine munmap_post.bind fun _ w2 _ => mmap_post.bind fun r w3 _ => ?_
      cases r with
      | none => exact ipmError_post.bind fun _ w4 _ => Prog.Post.pure trivial
      | some addr => exact Prog.Post.pure trivial
  obtain ⟨r, w', hret, -⟩ := hpost.exists_ret (fun _ _ h => h) fun _ _ h => h
  exact ⟨r, w', hret⟩

theorem resizeRemap_ret (newSize : UInt64) (ctx : Context) (os : Os) (sec : Section)
    (hlen : memoryPageSize.toNat ≤ (w.kernel.objs block.obj).length) :
    ∃ r w', resizeRemap ctx os block newSize sec w = .ret (.ok r) w' := by
  cases sec with
  | refused res => exact ⟨_, _, rfl⟩
  | same =>
    rw [resizeRemap]
    split
    · exact updateMapping_ret ctx os block.accessMode hlen
    · exact ⟨_, _, rfl⟩
  | grown => exact updateMapping_ret ctx os block.accessMode hlen

/-! ## What it leaves -/

/-- Nothing is mapped, and the handle says so. -/
def SharedMemoryBlock.lost (block : SharedMemoryBlock) : SharedMemoryBlock :=
  { block with memory := 0, size := 0, accessMode := .readOnly }

/-- The call gets to the remapping, has something to remap and is refused it. -/
def RemapRefused (os : Os) (lock : IpmResult) (block : SharedMemoryBlock) (size newSize : UInt64) :
    Prop :=
  lock = .success ∧ (if newSize = size then newSize ≠ block.size else os.ftruncate = none) ∧
    ¬ block.UpToDate newSize block.accessMode ∧ mmapFails os.bodyMmap newSize = true

/-- **Atomic up to the remapping.** What a call that returned `r` has done to the object of its block. -/
structure AtomicResize (os : Os) (lock : IpmResult) (block : SharedMemoryBlock) (newSize : UInt64)
    (k k' : Kernel) (r : IpmResult × SharedMemoryBlock) : Prop where
  -- a lock or a truncation that fails
  refused : lock ≠ .success ∨
      newSize ≠ (k.header block.obj).blockSize ∧ os.ftruncate ≠ none →
    r.1 ≠ .success ∧ r.2 = block ∧ k' = k
  -- the size is not written before the object has it
  written : (k'.header block.obj).blockSize ≠ (k.header block.obj).blockSize →
    lock = .success ∧ os.ftruncate = none ∧ (k'.header block.obj).blockSize = newSize ∧
      (k'.objs block.obj).length = newSize.toNat + memoryPageSize.toNat
  -- only the remapping fails
  lost : RemapRefused os lock block (k.header block.obj).blockSize newSize →
    r = (.errOsOutOfMemory, block.lost) ∧ (k'.header block.obj).blockSize = newSize ∧
      if newSize = (k.header block.obj).blockSize then k' = k
      else (k'.objs block.obj).length = newSize.toNat + memoryPageSize.toNat

/-- An update that had something to do and could not map. -/
theorem Updated.eq_lost {block real : SharedMemoryBlock} {size : UInt64} {mode : AccessMode}
    {p p' : Proc} {res : IpmResult} (h : Updated os block size mode p res real p')
    (hneeded : ¬ block.UpToDate size mode) (hfails : mmapFails os.bodyMmap size = true) :
    (res, real) = (.errOsOutOfMemory, block.lost) := by
  cases h with
  | kept hup => exact absurd hup hneeded
  | lost _ _ _ => rfl
  | moved _ hmaps =>
    rw [hmaps] at hfails
    cases hfails

/-- What the critical section did is what the call did, but for the handle. -/
theorem atomicResize_of_section {sec : Section} {w₁ w₂ : World} {r : IpmResult × SharedMemoryBlock}
    (hroom : newSize.toNat + memoryPageSize.toNat < lengthLimit)
    (hdone : SectionDone os lock block newSize w.kernel w₁.kernel sec)
    (hentered : sec.Entered os lock newSize (w.kernel.header block.obj).blockSize)
    (hremap : resizeRemap ctx os block newSize sec w₁ = .ret (.ok r) w₂) :
    AtomicResize os lock block newSize w.kernel w₂.kernel r := by
  have hlength := toNat_page_add hroom
  have hafter := (resizeRemap_post (E := fun _ _ => True)).of_ret hremap
  cases sec with
  | refused res =>
    obtain ⟨hk, hres⟩ := hdone
    cases hremap
    refine ⟨fun _ => ⟨hres, rfl, hk⟩, fun hne => absurd (by rw [hk]) hne, ?_⟩
    rintro ⟨hgot, hpast, -, -⟩
    obtain ⟨hne, hfails⟩ := hentered hgot
    rw [if_neg hne] at hpast
    exact absurd ⟨hpast, by rw [hlength]; exact hroom⟩ hfails
  | same =>
    obtain ⟨hk, hsame⟩ := hdone
    have hk₂ : w₂.kernel = w.kernel := hafter.1.trans hk
    refine ⟨?_, fun hne => absurd (by rw [hk₂]) hne, ?_⟩
    · rintro (hrefused | ⟨hne, -⟩)
      · exact absurd hentered hrefused
      · exact absurd hsame hne
    · rintro ⟨-, hpast, hneeded, hfails⟩
      rw [if_pos hsame] at hpast
      have hremaps : Section.same.remaps block newSize = true := decide_eq_true hpast
      have hupdated := ((resizeRemap_updated_post (E := fun _ _ => True) hremaps).of_ret hremap).2.2
      rw [hk, ← hsame] at hupdated
      refine ⟨hupdated.eq_lost hneeded hfails, ?_, ?_⟩
      · rw [hk₂]
        exact hsame.symm
      · rw [if_pos hsame]
        exact hk₂
  | grown =>
    obtain ⟨hgot, htruncate, -, -, hk⟩ := hdone
    have hk₂ : w₂.kernel = w.kernel.modifyObj block.obj (ShmObject.grown newSize) :=
      hafter.1.trans hk
    have hsize : (w₂.kernel.header block.obj).blockSize = newSize := by
      rw [hk₂]
      exact GrowSys.blockSize_grown
    have hlen : (w₂.kernel.objs block.obj).length = newSize.toNat + memoryPageSize.toNat := by
      rw [hk₂, Kernel.objs_modifyObj_self, ← hlength]
      exact ShmObject.length_resize _ _
    refine ⟨?_, fun _ => ⟨hgot, htruncate, hsize, hlen⟩, ?_⟩
    · rintro (hrefused | ⟨-, hrefused⟩)
      · exact absurd hgot hrefused
      · exact absurd htruncate hrefused
    · rintro ⟨-, -, hneeded, hfails⟩
      have hupdated := ((resizeRemap_updated_post (E := fun _ _ => True) rfl).of_ret hremap).2.2
      rw [hk, GrowSys.blockSize_grown] at hupdated
      refine ⟨hupdated.eq_lost hneeded hfails, hsize, ?_⟩
      rw [if_neg hentered.2]
      exact hlen

theorem sharedMemoryBlockResize_ret (b : Build) (ctx : Context) (os : Os) (lock : IpmResult)
    (hlen : memoryPageSize.toNat ≤ (w.kernel.objs block.obj).length)
    (hassert : ResizeAsserts (w.kernel.header block.obj).blockSize newSize)
    (hroom : newSize.toNat + memoryPageSize.toNat < lengthLimit) :
    ∃ r w', sharedMemoryBlockResize b ctx os lock block newSize w = .ret (.ok r) w' ∧
      AtomicResize os lock block newSize w.kernel w'.kernel r := by
  obtain ⟨sec, w₁, hsection, hlen₁⟩ := resizeSection_ret ctx os lock hlen hroom
  obtain ⟨r, w₂, hremap⟩ := resizeRemap_ret newSize ctx os sec hlen₁
  refine ⟨r, w₂, ?_, ?_⟩
  · rw [sharedMemoryBlockResize, Prog.bind_ok (resizeCheck_ret hlen hassert),
      Prog.bind_ok hsection]
    exact hremap
  · exact atomicResize_of_section hroom
      ((resizeSection_post (E := fun _ _ => True)).of_ret hsection)
      ((resizeSection_entered_post (E := fun _ _ => True)).of_ret hsection) hremap

/-! ## Claims through a lost handle -/

/-- What the calls of a handle have made of it, until one of them has it remapped. Between two of them
other handles and other processes do what they like. The region calls leave the handle alone. -/
inductive NotRemapped (b : Build) (memory : Memory) : Memory → Prop
  | none : NotRemapped b memory memory
  | call {memory' : Memory} {e : RemapEnv} {call : RemapCall} {w w' : World} {r : Remapped}
      (h : NotRemapped b memory memory') (hrun : call.run b e memory' w = .ret (.ok r) w')
      (hfail : ¬ (r.asked.isSome = true ∧ r.res = .success)) : NotRemapped b memory r.memory

/-- What the region calls see of a handle. -/
def Memory.handle (memory : Memory) : Handle :=
  ⟨memory.realMemory.accessId, memory.realMemory.size, memory.realMemory.accessMode⟩

/-- Every claim that does not wrap is refused, before the list is looked at. -/
def RefusesClaims (b : Build) (memory : Memory) : Prop :=
  ∀ (lock : IpmResult) (access : AccessMode) (offset count : UInt64) (list : ClaimList)
    (waits : List Wait), count ≠ 0 → offset.toNat + count.toNat < 2 ^ 64 →
    ∃ res, (res = .errBadValue ∨ res = .errBadAccess) ∧
      ipmMemoryClaimRegion b memory.handle lock access offset count list waits =
        ⟨[], .returned res none⟩

theorem NotRemapped.lost {memory memory' : Memory} (h : NotRemapped b memory memory')
    (hlost : memory.realMemory = memory.realMemory.lost) :
    memory'.realMemory = memory'.realMemory.lost := by
  induction h with
  | none => exact hlost
  | @call memory' e call w w' r h hrun hfail ih =>
    have hran := (call.run_post (E := fun _ _ => True)).of_ret hrun
    cases hran with
    | short _ _ => exact ih
    | @reached res real p w' hreach hsize hlen hpages hupdated =>
      cases hupdated with
      | kept hup =>
        -- a handle with nothing mapped is never up to date
        rw [ih] at hup
        exact absurd rfl hup.2.2
      | lost _ _ _ => rfl
      | moved _ _ => exact absurd ⟨rfl, rfl⟩ hfail

theorem refusesClaims_of_lost (b : Build) {memory : Memory}
    (hlost : memory.realMemory = memory.realMemory.lost) : RefusesClaims b memory := by
  intro lock access offset count list waits hcount hwrap
  have hassert : ¬ (b.ndebug = false ∧ count = 0) := fun hbad => hcount hbad.2
  have hpast : memory.handle.size < offset + count := by
    have hzero : memory.handle.size = 0 := by
      show memory.realMemory.size = 0
      rw [hlost]
      rfl
    have hpos : 0 < count.toNat := by
      apply Nat.pos_of_ne_zero
      intro hnat
      exact hcount (UInt64.toNat_inj.mp hnat)
    rw [hzero, UInt64.lt_iff_toNat_lt, UInt64.toNat_add, Nat.mod_eq_of_lt hwrap]
    show 0 < offset.toNat + count.toNat
    omega
  by_cases hwrite : memory.handle.accessMode = .readOnly ∧ access = .readWrite
  · refine ⟨.errBadAccess, .inr rfl, ?_⟩
    simp only [ipmMemoryClaimRegion, if_neg hassert, claimRegionCheck, if_pos hwrite]
  · refine ⟨.errBadValue, .inl rfl, ?_⟩
    simp only [ipmMemoryClaimRegion, if_neg hassert, claimRegionCheck, if_neg hwrite, if_pos hpast]

/-- **A failed growth is atomic up to the remapping.** The call returns, with the mutex exactly if the
caller already had it and was refused it for that; what it leaves is `AtomicResize`, and a handle that
it has left without a mapping refuses every claim for as long as it has none. -/
theorem resize_atomic (b : Build) (ctx : Context) (os : Os)
    (hlen : memoryPageSize.toNat ≤ (w.kernel.objs block.obj).length)
    (hassert : ResizeAsserts (w.kernel.header block.obj).blockSize newSize)
    (hroom : newSize.toNat + memoryPageSize.toNat < lengthLimit)
    (hlock : ipmMutexLockBy m me refused w.proc.errno = some (lock, m')) :
    ∃ r s, sharedMemoryBlockResizeBy b ctx os me refused block newSize ⟨w, m⟩ = .ret (.ok r) s ∧
      (s.mutex.owner = some me ↔ m.owner = some me ∧ lock ≠ .success) ∧
      AtomicResize os lock block newSize w.kernel s.world.kernel r ∧
      (RemapRefused os lock block (w.kernel.header block.obj).blockSize newSize →
        ∀ memory memory', memory.realMemory = r.2 → NotRemapped b memory memory' →
          RefusesClaims b memory') := by
  obtain ⟨r, w', hret, hatomic⟩ := sharedMemoryBlockResize_ret b ctx os lock hlen hassert hroom
  refine ⟨r, _, sharedMemoryBlockResizeBy_of_ret hlock hret, ?_, hatomic, ?_⟩
  · exact owner_givenBack_iff hlock
  · intro hrefused memory memory' hmemory hcalls
    apply refusesClaims_of_lost
    apply hcalls.lost
    rw [hmemory, (hatomic.lost hrefused).1]
    rfl

/-- Both handles of `GrowSys.pair` may grow its block by a page. -/
theorem GrowSys.pair_grows (block : SharedMemoryBlock) (hobj : block.obj = 0) :
    memoryPageSize.toNat ≤ (GrowSys.pair.kernel.objs block.obj).length ∧
      ResizeAsserts (GrowSys.pair.kernel.header block.obj).blockSize 8192 := by
  rw [hobj]
  exact ⟨by decide +kernel, by decide +kernel, by decide, by decide⟩

/-- A block of one page is grown to two, and then nothing more can be mapped. -/
theorem resize_atomic_full :
    ∃ r s, sharedMemoryBlockResizeBy ⟨false⟩ ⟨fun e => e⟩ RemapEnv.full.os 7 none
        (GrowSys.pageBlock 3) 8192 ⟨⟨GrowSys.pair.kernel, .initial⟩, .free⟩ = .ret (.ok r) s ∧
      s.mutex.owner ≠ some 7 ∧ r = (.errOsOutOfMemory, (GrowSys.pageBlock 3).lost) ∧
      (s.world.kernel.header 0).blockSize = 8192 ∧ (s.world.kernel.objs 0).length = 12288 ∧
      ∀ memory memory', memory.realMemory = r.2 → NotRemapped ⟨false⟩ memory memory' →
        RefusesClaims ⟨false⟩ memory' := by
  have hlock : ipmMutexLockBy (.free : RobustMutex Nat) 7 none Proc.initial.errno =
      some (.success, .held 7) := rfl
  obtain ⟨hlen, hassert⟩ := GrowSys.pair_grows (GrowSys.pageBlock 3) rfl
  obtain ⟨r, s, hret, howner, hatomic, hclaims⟩ := resize_atomic (w := ⟨GrowSys.pair.kernel, .initial⟩)
    ⟨false⟩ ⟨fun e => e⟩ RemapEnv.full.os hlen hassert (by decide) hlock
  have hrefused : RemapRefused RemapEnv.full.os .success (GrowSys.pageBlock 3)
      (GrowSys.pair.kernel.header 0).blockSize 8192 := by
    refine ⟨rfl, ?_, by decide, by decide⟩
    rw [if_neg (by decide +kernel)]
    rfl
  obtain ⟨hr, hsize, hlen⟩ := hatomic.lost hrefused
  refine ⟨r, s, hret, ?_, hr, hsize, ?_, hclaims hrefused⟩
  · intro hmine
    exact absurd rfl (howner.mp hmine).2
  · rw [if_neg (by decide +kernel)] at hlen
    exact hlen

/-- A process that has locked the block as a whole grows it: it is refused the mutex that it has, and has
it still when the call returns. -/
theorem resize_keeps_whole :
    ∃ whole r s, acquireMemoryBlockWhole 7 Proc.initial.errno (GrowSys.pageBlock 3) .free =
        some (.success, whole, .held 7) ∧
      ResizeAsserts (GrowSys.pair.kernel.header whole.obj).blockSize 8192 ∧
      sharedMemoryBlockResizeBy ⟨false⟩ ⟨fun e => e⟩ .willing 7 none whole 8192
        ⟨⟨GrowSys.pair.kernel, .initial⟩, .held 7⟩ = .ret (.ok r) s ∧
      r.1 ≠ .success ∧ s.mutex.owner = some 7 := by
  have hlock : ipmMutexLockBy (.held 7 : RobustMutex Nat) 7 none Proc.initial.errno =
      some (.errOsUnexpected, .held 7) := rfl
  obtain ⟨hlen, hassert⟩ :=
    GrowSys.pair_grows { GrowSys.pageBlock 3 with hasOwnership := true } rfl
  obtain ⟨r, w, hret, hatomic⟩ := sharedMemoryBlockResize_ret (w := ⟨GrowSys.pair.kernel, .initial⟩)
    ⟨false⟩ ⟨fun e => e⟩ .willing .errOsUnexpected hlen hassert (by decide)
  refine ⟨_, r, _, rfl, hassert, sharedMemoryBlockResizeBy_of_ret hlock hret, ?_, rfl⟩
  exact (hatomic.refused (.inl nofun)).1

end Ipm
