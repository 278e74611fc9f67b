import Ipm.Block.Unmap
import Ipm.Memory.Grow

/-!
# The calls that remap a handle

`ipm_memory_sync`, `ipm_memory_change_access` and `ipm_memory_resize_grow` remap a handle through one
function, `shared_memory_block_update_mapping`, which leaves the mapping alone when it looks right and
otherwise unmaps and maps again. `Updated` is what it does to a handle and its address space, and
`Ran` what a call comes to by way of it.
-/

set_option autoImplicit false

namespace Ipm

open Lib

/-- `ipm_memory_pointer`. -/
def ipmMemoryPointer (memory : Memory) : Nat := memory.realMemory.memory

/-- `mmap` will say `MAP_FAILED`. -/
def mmapFails (res : Except Failure Nat) (length : UInt64) : Bool :=
  decide (¬ Maps res length)

/-- What the environment answers to one call. -/
structure RemapEnv where
  ctx : Context
  os : Os
  lock : IpmResult

/-- An environment in which every call succeeds. -/
def RemapEnv.willing : RemapEnv := ⟨⟨fun e => e⟩, .willing, .success⟩

/-- One in which nothing more can be mapped. -/
def RemapEnv.full : RemapEnv :=
  { RemapEnv.willing with os := { Os.willing with bodyMmap := .error ⟨.ENOMEM, nofun, nofun⟩ } }

/-! ## The calls -/

inductive RemapCall where
  | sync
  | changeAccess (access : AccessMode)
  | resizeGrow (newSize : UInt64)
  deriving DecidableEq, Repr

/-- What a call has come to: the mode `shared_memory_block_update_mapping` was asked for, if it was
called, beside the result and the handle. -/
structure Remapped where
  asked : Option AccessMode
  res : IpmResult
  memory : Memory

/-- Whether `shared_memory_block_resize` remaps after its critical section. -/
def Section.remaps (block : SharedMemoryBlock) (newSize : UInt64) : Section → Bool
  | refused _ => false
  | same => decide (newSize ≠ block.size)
  | grown => true

/-- `ipm_memory_resize_grow`, with a note of whether it remapped. -/
def resizeGrowNoted (b : Build) (e : RemapEnv) (memory : Memory) (newSize : UInt64) :
    Call Remapped := do
  match ← growCheck b e.ctx memory.realMemory newSize with
  | none => return ⟨none, .errBadValue, memory⟩
  | some newSize =>
    let sec ← resizeSection e.ctx e.os e.lock memory.realMemory newSize
    let (res, real) ← resizeRemap e.ctx e.os memory.realMemory newSize sec
    let asked :=
      if sec.remaps memory.realMemory newSize then some memory.realMemory.accessMode else none
    return ⟨asked, res, { memory with realMemory := real }⟩

/-- Without the note it is the function. -/
theorem resizeGrowNoted_eq (b : Build) (e : RemapEnv) (memory : Memory) (newSize : UInt64) :
    (do let r ← resizeGrowNoted b e memory newSize; return (r.res, r.memory)) =
      ipmMemoryResizeGrow b e.ctx e.os e.lock memory newSize := by
  rw [ipmMemoryResizeGrow_eq, resizeGrowNoted, bind_assoc]
  refine bind_congr fun r => ?_
  cases r with
  | none => rw [pure_bind]
  | some newSize => simp only [bind_assoc, pure_bind]

namespace RemapCall

def run (b : Build) (e : RemapEnv) (memory : Memory) : RemapCall → Call Remapped
  | sync => do
    let (res, after) ← ipmMemorySync e.ctx e.os memory
    return ⟨some memory.realMemory.accessMode, res, after⟩
  | changeAccess access => do
    let (res, after) ← ipmMemoryChangeAccess e.ctx e.os memory access
    return ⟨some access, res, after⟩
  | resizeGrow newSize => resizeGrowNoted b e memory newSize

/-- The mode a call remaps with. -/
def mode (block : SharedMemoryBlock) : RemapCall → AccessMode
  | changeAccess access => access
  | _ => block.accessMode

/-- `block_size` by the time a call remaps, when it was `size` before. -/
def target (size : UInt64) : RemapCall → UInt64
  | resizeGrow newSize => roundSize newSize
  | _ => size

/-- A call gets to `shared_memory_block_update_mapping`: a growth that is neither refused nor without
anything to do. -/
def Reaches (b : Build) (e : RemapEnv) (size : UInt64) (block : SharedMemoryBlock) : RemapCall → Prop
  | resizeGrow newSize =>
    ¬ roundSize newSize < block.size ∧
    (b.ndebug = false → size ≤ roundSize newSize ∧ roundSize newSize > 0) ∧ e.lock = .success ∧
    (if roundSize newSize = size then roundSize newSize ≠ block.size
      else e.os.ftruncate = none ∧ (memoryPageSize + roundSize newSize).toNat < lengthLimit)
  | _ => True

instance (b : Build) (e : RemapEnv) (size : UInt64) (block : SharedMemoryBlock) (call : RemapCall) :
    Decidable (call.Reaches b e size block) :=
  match call with
  | sync => inferInstanceAs (Decidable True)
  | changeAccess _ => inferInstanceAs (Decidable True)
  | resizeGrow _ => inferInstanceAs (Decidable (_ ∧ _ ∧ _ ∧ _))

end RemapCall

/-! ## What `shared_memory_block_update_mapping` does -/

section Calls

variable {b : Build} {ctx : Context} {os : Os} {e : RemapEnv} {w w' : World}
variable {block : SharedMemoryBlock} {mode : AccessMode} {memory : Memory}

/-- The mapping already is what is asked for, as far as the handle knows. -/
def SharedMemoryBlock.UpToDate (block : SharedMemoryBlock) (size : UInt64) (mode : AccessMode) :
    Prop :=
  block.size = size ∧ mode = block.accessMode ∧ block.memory ≠ 0

instance (block : SharedMemoryBlock) (size : UInt64) (mode : AccessMode) :
    Decidable (block.UpToDate size mode) := inferInstanceAs (Decidable (_ ∧ _ ∧ _))

/-- The three ways it ends, for a block whose header says `size`. -/
inductive Updated (os : Os) (block : SharedMemoryBlock) (size : UInt64) (mode : AccessMode)
    (p : Proc) : IpmResult → SharedMemoryBlock → Proc → Prop
  | kept (h : block.UpToDate size mode) : Updated os block size mode p .success block p
  | lost {p' : Proc} (h : ¬ block.UpToDate size mode) (hfails : mmapFails os.bodyMmap size = true)
      (hpages : ∀ page, p'.pages page =
        if Reaches block.memory block.size page then none else p.pages page) :
      Updated os block size mode p .errOsOutOfMemory
        { block with memory := 0, size := 0, accessMode := .readOnly } p'
  | moved {p' : Proc} (h : ¬ block.UpToDate size mode) (hmaps : mmapFails os.bodyMmap size = false) :
      Updated os block size mode p .success
        { block with accessMode := mode, size := size, memory := 0 } p'

theorem mmap_fails_post {res : Except Failure Nat} {file : File} {length offset : UInt64}
    {E : IpmResult → World → Prop} {S : Stop → World → Prop} :
    Prog.Post (mmap res file length mode offset) w
      (fun r w' => w'.kernel = w.kernel ∧
        if mmapFails res length then r = none ∧ w'.proc.pages = w.proc.pages else r.isSome = true)
      E S := by
  refine mmap_cases_post.mapRet fun r w' h => ?_
  cases h with
  | mapped hmaps hres =>
    have hno : mmapFails res length = false := decide_eq_false (not_not.mpr hmaps)
    rw [if_neg (Bool.eq_false_iff.mp hno)]
    exact ⟨rfl, rfl⟩
  | refused hnot =>
    have hyes : mmapFails res length = true := decide_eq_true hnot
    rw [if_pos hyes]
    exact ⟨rfl, rfl, rfl⟩

/-- What stays mapped after an `munmap`. -/
theorem munmap_pages_post {addr : Nat} {length : UInt64} {E : IpmResult → World → Prop}
    {S : Stop → World → Prop} :
    Prog.Post (munmap os addr length) w
      (fun _ w' => w'.kernel = w.kernel ∧ ∀ page, w'.proc.pages page =
        if Reaches addr length page then none else w.proc.pages page) E S := by
  have hends : Prog.Post (munmap os addr length) w (fun _ w' => w'.kernel = w.kernel ∧
      Unmapped (Reaches addr length) w w') (fun _ _ => False ∧ False) (fun _ _ => False ∧ False) :=
    munmap_post.and munmap_unmaps
  refine hends.mono (fun _ w' h => ⟨h.1, fun page => ?_⟩) (fun _ _ h => h.1.elim) fun _ _ h => h.1.elim
  split
  · rename_i hreaches
    exact h.2.gone page hreaches
  · rename_i hnot
    exact h.2.kept page hnot

/-- **What an update does.** -/
theorem updateMapping_updated_post {E : IpmResult → World → Prop} :
    Prog.Post (sharedMemoryBlockUpdateMapping ctx os block mode) w
      (fun r w' => w'.kernel = w.kernel ∧
        memoryPageSize.toNat ≤ (w.kernel.objs block.obj).length ∧
        Updated os block (w.kernel.header block.obj).blockSize mode w.proc r.1 r.2 w'.proc)
      E (fun _ _ => True) := by
  have hheader : Prog.Post (getHeader block.obj) w
      (fun hd w' => w' = w ∧ hd = w.kernel.header block.obj ∧
        memoryPageSize.toNat ≤ (w.kernel.objs block.obj).length) E (fun _ _ => True) := by
    rw [Prog.post_iff, getHeader]
    by_cases h : (w.kernel.objs block.obj).length < memoryPageSize.toNat
    · simp [h]
    · simp [h, Nat.le_of_not_lt h]
  refine hheader.bind fun hd w1 h1 => ?_
  obtain ⟨rfl, rfl, hlen⟩ := h1
  dsimp only
  split
  · rename_i hsame
    exact Prog.Post.pure ⟨rfl, hlen, .kept hsame⟩
  · rename_i hneeded
    refine munmap_pages_post.bind fun _ w2 h2 => mmap_fails_post.bind fun r w3 h3 => ?_
    obtain ⟨hk, h3⟩ := h3
    have hkernel := hk.trans h2.1
    split at h3
    · rename_i hfails
      obtain ⟨rfl, hpages⟩ := h3
      have herror : Prog.Post (ipmError ctx) w3 (fun _ w4 => w4.kernel = w3.kernel ∧
          w4.proc.pages = w3.proc.pages) E (fun _ _ => True) := Prog.post_iff.mpr ⟨rfl, rfl⟩
      refine herror.bind fun _ w4 h4 => Prog.Post.pure ⟨h4.1.trans hkernel, hlen, ?_⟩
      refine .lost hneeded hfails fun page => ?_
      rw [h4.2, hpages, h2.2]
    · rename_i hmaps
      obtain ⟨addr, rfl⟩ := Option.isSome_iff_exists.mp h3
      exact Prog.Post.pure ⟨hkernel, hlen, .moved hneeded (Bool.eq_false_iff.mpr hmaps)⟩

/-- An update of a mapping that is up to date does nothing. -/
theorem updateMapping_upToDate (ctx : Context) (os : Os)
    (hlen : memoryPageSize.toNat ≤ (w.kernel.objs block.obj).length)
    (h : block.UpToDate (w.kernel.header block.obj).blockSize mode) :
    sharedMemoryBlockUpdateMapping ctx os block mode w = .ret (.ok (.success, block)) w := by
  have hget : getHeader block.obj w = .ret (.ok (w.kernel.header block.obj)) w := by
    rw [getHeader, if_neg (Nat.not_lt.mpr hlen)]
  rw [sharedMemoryBlockUpdateMapping, Prog.bind_ok hget]
  exact congrFun (if_pos h) w

/-! ## What the calls do -/

section Pages

theorem growCheck_keepsPages {newSize : UInt64} : KeepsPages (growCheck b ctx block newSize) := by
  unfold growCheck
  split
  · exact ipmError_keepsPages.bind fun _ => .pure _
  · refine Prog.Keeps.bind ?_ fun _ => .pure _
    refine getHeader_keepsPages.bind fun _ => (Prog.Keeps.assert _ _).bind fun _ => ?_
    exact (Prog.Keeps.assert _ _).bind fun _ => .assert _ _

theorem resizeSection_keepsPages {lock : IpmResult} {newSize : UInt64} :
    KeepsPages (resizeSection ctx os lock block newSize) := by
  unfold resizeSection
  split
  · exact ipmError_keepsPages.bind fun _ => .pure _
  · refine getHeader_keepsPages.bind fun _ => ?_
    split
    · exact .pure _
    · refine ftruncate_keepsPages.bind fun done => ?_
      split
      · exact setHeader_keepsPages.bind fun _ => .pure _
      · exact ipmError_keepsPages.bind fun _ => errno_keepsPages.bind fun _ => .pure _

end Pages

/-- The checks of a growth, for any build. -/
theorem growCheck_lets_post {newSize : UInt64} {E : IpmResult → World → Prop} :
    Prog.Post (growCheck b ctx block newSize) w
      (fun r w' => w'.kernel = w.kernel ∧ (r = none → roundSize newSize < block.size) ∧
        ∀ size ∈ r, size = roundSize newSize ∧
        ¬ roundSize newSize < block.size ∧ (b.ndebug = false →
          (w.kernel.header block.obj).blockSize ≤ roundSize newSize ∧ roundSize newSize > 0))
      E (fun _ _ => True) := by
  unfold growCheck
  split
  · rename_i hlt
    exact ipmError_post.bind fun _ w1 h1 => Prog.Post.pure ⟨h1, fun _ => hlt, nofun⟩
  · rename_i hle
    refine (resizeCheck_post.mapStop fun _ _ _ => trivial).bind
      fun _ w1 h1 => Prog.Post.pure ⟨h1.1, nofun, ?_⟩
    rintro _ ⟨⟩
    exact ⟨rfl, hle, h1.2⟩

theorem ftruncate_fails_post {file : File} {length : UInt64} {E : IpmResult → World → Prop}
    {S : Stop → World → Prop} :
    Prog.Post (ftruncate os file length) w
      (fun done _ => done = true ∨ ¬ (os.ftruncate = none ∧ length.toNat < lengthLimit)) E S := by
  rw [Prog.post_iff, ftruncate]
  by_cases hbig : lengthLimit ≤ length.toNat
  · simp [hbig, Nat.not_lt.mpr hbig]
  · cases os.ftruncate with
    | some f => simp [hbig]
    | none => simp [hbig]

/-- Who gets past the lock, and who truncates. -/
def Section.Entered (os : Os) (lock : IpmResult) (newSize size : UInt64) : Section → Prop
  | refused _ => lock = .success →
      newSize ≠ size ∧ ¬ (os.ftruncate = none ∧ (memoryPageSize + newSize).toNat < lengthLimit)
  | same => lock = .success
  | grown => lock = .success ∧ newSize ≠ size

theorem resizeSection_entered_post {lock : IpmResult} {newSize : UInt64}
    {E : IpmResult → World → Prop} :
    Prog.Post (resizeSection ctx os lock block newSize) w
      (fun sec _ => sec.Entered os lock newSize (w.kernel.header block.obj).blockSize) E
      (fun _ _ => True) := by
  unfold resizeSection
  split
  · rename_i hlock
    exact ipmError_post.bind fun _ w1 h1 => Prog.Post.pure fun h => absurd h hlock
  · rename_i hlock
    rw [not_not] at hlock
    refine (getHeader_any_post.mapStop fun _ _ _ => trivial).bind fun hd w1 h1 => ?_
    obtain ⟨rfl, rfl⟩ := h1
    split
    · exact Prog.Post.pure hlock
    · rename_i hne
      refine ftruncate_fails_post.bind fun done w2 h2 => ?_
      cases done with
      | true =>
        refine (setHeader_any_post.mapStop fun _ _ _ => trivial).bind fun _ w3 h3 => ?_
        exact Prog.Post.pure ⟨hlock, hne⟩
      | false =>
        refine ipmError_post.bind fun _ w3 h3 => errno_post.bind fun _ w4 h4 => ?_
        exact Prog.Post.pure fun _ => ⟨hne, h2.resolve_left nofun⟩

/-- What a call of a handle comes to: it does not get to an update of the mapping, or that is what
it does last. -/
inductive Ran (b : Build) (e : RemapEnv) (memory : Memory) (call : RemapCall) (w : World) :
    Remapped → World → Prop
  | short {res : IpmResult} {w' : World}
      (hshort : ¬ call.Reaches b e (w.kernel.header memory.realMemory.obj).blockSize memory.realMemory)
      (hpages : w'.proc.pages = w.proc.pages) :
      Ran b e memory call w ⟨none, res, memory⟩ w'
  | reached {res : IpmResult} {real : SharedMemoryBlock} {p : Proc} {w' : World}
      (hreach : call.Reaches b e (w.kernel.header memory.realMemory.obj).blockSize memory.realMemory)
      (hsize : (w'.kernel.header memory.realMemory.obj).blockSize =
        call.target (w.kernel.header memory.realMemory.obj).blockSize)
      (hlen : memoryPageSize.toNat ≤ (w'.kernel.objs memory.realMemory.obj).length)
      (hpages : p.pages = w.proc.pages)
      (h : Updated e.os memory.realMemory (call.target (w.kernel.header memory.realMemory.obj).blockSize)
        (call.mode memory.realMemory) p res real w'.proc) :
      Ran b e memory call w
        ⟨some (call.mode memory.realMemory), res, { memory with realMemory := real }⟩ w'

/-- The remapping of a growth that has got through its critical section. -/
theorem resizeRemap_updated_post {newSize : UInt64} {sec : Section} {E : IpmResult → World → Prop}
    (hsec : sec.remaps block newSize = true) :
    Prog.Post (resizeRemap ctx os block newSize sec) w
      (fun r w' => w'.kernel = w.kernel ∧
        memoryPageSize.toNat ≤ (w.kernel.objs block.obj).length ∧
        Updated os block (w.kernel.header block.obj).blockSize block.accessMode w.proc r.1 r.2 w'.proc)
      E (fun _ _ => True) := by
  cases sec with
  | refused res => cases hsec
  | same =>
    rw [resizeRemap, if_pos (of_decide_eq_true hsec)]
    exact updateMapping_updated_post
  | grown => exact updateMapping_updated_post

theorem resizeRemap_short {newSize : UInt64} {sec : Section}
    (hsec : sec.remaps block newSize = false) :
    ∃ res, ∀ ctx os, resizeRemap ctx os block newSize sec = pure (res, block) := by
  cases sec with
  | refused res => exact ⟨res, fun _ _ => rfl⟩
  | same =>
    refine ⟨.success, fun ctx os => ?_⟩
    rw [resizeRemap, if_neg (of_decide_eq_false hsec)]
  | grown => cases hsec

/-- The size in the header when a growth remaps is the one it was asked for. -/
theorem resizeGrow_reaches {newSize : UInt64} {k k' : Kernel} {sec : Section}
    (hle : ¬ roundSize newSize < block.size)
    (hassert : b.ndebug = false →
      (k.header block.obj).blockSize ≤ roundSize newSize ∧ roundSize newSize > 0)
    (hdone : SectionDone e.os e.lock block (roundSize newSize) k k' sec)
    (hentered : sec.Entered e.os e.lock (roundSize newSize) (k.header block.obj).blockSize)
    (hsec : sec.remaps block (roundSize newSize) = true) :
    (RemapCall.resizeGrow newSize).Reaches b e (k.header block.obj).blockSize block ∧
      (k'.header block.obj).blockSize = roundSize newSize := by
  cases sec with
  | refused res => cases hsec
  | same =>
    obtain ⟨rfl, hsize⟩ := hdone
    refine ⟨⟨hle, hassert, hentered, ?_⟩, hsize.symm⟩
    rw [if_pos hsize]
    exact of_decide_eq_true hsec
  | grown =>
    obtain ⟨hlock, htrunc, hlt, -, rfl⟩ := hdone
    refine ⟨⟨hle, hassert, hlock, ?_⟩, GrowSys.blockSize_grown⟩
    rw [if_neg hentered.2]
    exact ⟨htrunc, hlt⟩

/-- A growth that does not remap was refused or had nothing to do. -/
theorem not_resizeGrow_reaches {newSize : UInt64} {k k' : Kernel} {sec : Section}
    (hdone : SectionDone e.os e.lock block (roundSize newSize) k k' sec)
    (hentered : sec.Entered e.os e.lock (roundSize newSize) (k.header block.obj).blockSize)
    (hsec : sec.remaps block (roundSize newSize) = false) :
    ¬ (RemapCall.resizeGrow newSize).Reaches b e (k.header block.obj).blockSize block := by
  rintro ⟨-, -, hlock, hlast⟩
  cases sec with
  | refused res =>
    obtain ⟨hne, hfails⟩ := hentered hlock
    rw [if_neg hne] at hlast
    exact hfails hlast
  | same =>
    rw [if_pos hdone.2] at hlast
    exact of_decide_eq_false hsec hlast
  | grown => cases hsec

/-- A call that does nothing but remap. -/
theorem update_ran_post (call : RemapCall) {E : IpmResult → World → Prop}
    (hreach : ∀ size, call.Reaches b e size memory.realMemory)
    (htarget : ∀ size, call.target size = size) :
    Prog.Post (do
        let (res, real) ← sharedMemoryBlockUpdateMapping e.ctx e.os memory.realMemory
          (call.mode memory.realMemory)
        return (⟨some (call.mode memory.realMemory), res, { memory with realMemory := real }⟩ : Remapped)) w
      (fun r w' => Ran b e memory call w r w') E (fun _ _ => True) := by
  refine updateMapping_updated_post.bind fun r w1 h1 => Prog.Post.pure ?_
  obtain ⟨hk, hlen, hupdated⟩ := h1
  refine .reached (hreach _) ?_ (hk ▸ hlen) rfl ?_
  · rw [hk, htarget]
  · rw [htarget]
    exact hupdated

/-- **What a call does.** -/
theorem RemapCall.run_post (call : RemapCall) {E : IpmResult → World → Prop} :
    Prog.Post (call.run b e memory) w (fun r w' => Ran b e memory call w r w') E
      (fun _ _ => True) := by
  cases call with
  | sync =>
    have hrun : run b e memory .sync = (do
        let (res, real) ← sharedMemoryBlockUpdateMapping e.ctx e.os memory.realMemory
          memory.realMemory.accessMode
        return ⟨some memory.realMemory.accessMode, res, { memory with realMemory := real }⟩) := by
      simp only [run, ipmMemorySync, bind_assoc, pure_bind]
    rw [hrun]
    exact update_ran_post .sync (fun _ => trivial) fun _ => rfl
  | changeAccess access =>
    have hrun : run b e memory (.changeAccess access) = (do
        let (res, real) ← sharedMemoryBlockUpdateMapping e.ctx e.os memory.realMemory access
        return ⟨some access, res, { memory with realMemory := real }⟩) := by
      simp only [run, ipmMemoryChangeAccess, bind_assoc, pure_bind]
    rw [hrun]
    exact update_ran_post (.changeAccess access) (fun _ => trivial) fun _ => rfl
  | resizeGrow newSize =>
    rw [run, resizeGrowNoted]
    refine ((growCheck_lets_post.and (growCheck_keepsPages w)).mono (fun _ _ h => h)
      (fun _ _ h => h.1) fun _ _ _ => trivial).bind fun r w1 h1 => ?_
    obtain ⟨⟨hk1, hnone, hlets⟩, hp1⟩ := h1
    cases r with
    | none => exact Prog.Post.pure (.short (fun h => h.1 (hnone rfl)) hp1)
    | some size =>
      obtain ⟨rfl, hle, hassert⟩ := hlets size rfl
      refine (((resizeSection_post.and (resizeSection_entered_post (E := E))).and
        (resizeSection_keepsPages w1)).mono (fun _ _ h => h) (fun _ _ h => h.1.1)
        fun _ _ _ => trivial).bind fun sec w2 h2 => ?_
      obtain ⟨⟨hdone, hentered⟩, hp2⟩ := h2
      have hpages : w2.proc.pages = w.proc.pages := hp2.trans hp1
      rw [hk1] at hdone hentered
      cases hsec : sec.remaps memory.realMemory (roundSize newSize) with
      | false =>
        obtain ⟨res, hremap⟩ := resizeRemap_short hsec
        rw [hremap, pure_bind]
        exact Prog.Post.pure (.short (not_resizeGrow_reaches hdone hentered hsec) hpages)
      | true =>
        obtain ⟨hreach, hsize⟩ := resizeGrow_reaches hle hassert hdone hentered hsec
        refine (resizeRemap_updated_post hsec).bind fun r w3 h3 => Prog.Post.pure ?_
        obtain ⟨hk3, hlen, hupdated⟩ := h3
        refine .reached hreach ?_ (hk3 ▸ hlen) hpages ?_
        · rw [hk3]
          exact hsize
        · rw [hsize] at hupdated
          exact hupdated

end Calls

end Ipm
