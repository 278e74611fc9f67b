import Ipm.Block.Spec
import Ipm.Lib.Switch

/-!
# Which error a block operation reports

When a system call fails, `shared_memory_block_create`, `_open`, `_close` and `_resize` log it, undo
what they have done and then `switch (errno)`. By then `errno` is what the last of these left there:
the report callback and the allocator (`IPM_ERROR`), `close`, `munmap`, `shm_unlink`. So the result
belongs to the call that failed as long as they leave `errno` under the label it was under.

The failures meant here are those with an `errno` that the code goes by. A header that cannot be mapped
goes unnoticed, and a mutex that cannot be made or locked is reported by what `ipm_mutex_init` or
`ipm_mutex_lock` returned.
-/

set_option autoImplicit false

namespace Ipm

open Lib

/-- A call of one of the four functions. `lock` is what `ipm_mutex_lock` returns to a resize. -/
inductive BlockCall where
  | createBlock (blockName : BlockName) (id size : UInt64) (access : AccessMode)
  | openBlock (blockName : BlockName) (id : UInt64) (access : AccessMode)
  | closeBlock (block : SharedMemoryBlock) (callback : Call Unit)
  | resizeBlock (lock : IpmResult) (block : SharedMemoryBlock) (newSize : UInt64)

/-- The `ipm_result` of a body as a value. -/
def reported {α : Type} (p : Call α) : Call IpmResult := p.settle (fun _ => .success) fun res => res

/-- The function, and what it returns. -/
def BlockCall.body (b : Build) (ctx : Context) (os : Os) : BlockCall → Call IpmResult
  | createBlock blockName id size access =>
    reported (sharedMemoryBlockCreate b ctx os blockName id size access)
  | openBlock blockName id access => reported (sharedMemoryBlockOpen ctx os blockName id access)
  | closeBlock block callback => reported (sharedMemoryBlockClose b ctx os block callback)
  | resizeBlock lock block newSize =>
    (sharedMemoryBlockResize b ctx os lock block newSize).settle Prod.fst fun res => res

/-- A call, and all it depends on. -/
structure BlockRun where
  b : Build
  ctx : Context
  os : Os
  call : BlockCall
  start : World

/-- What the call returns, if it does. -/
def BlockRun.result (r : BlockRun) : Option IpmResult :=
  match r.call.body r.b r.ctx r.os r.start with
  | .ret (.ok res) _ => some res
  | _ => none

/-- The calls that fail with an `errno` the code goes by, under the function that makes them. -/
inductive FailPoint where
  | createShmOpen
  | createFtruncate
  | createMmap
  | openShmOpen
  | openMmap
  | closeShmUnlink
  | resizeFtruncate
  /-- In `shared_memory_block_update_mapping`. -/
  | resizeMmap
  deriving DecidableEq, Repr

namespace FailPoint

/-- The labels of the `switch (errno)` after it. The failed remapping has one answer. -/
def switch : FailPoint → Switch Errno IpmResult
  | createShmOpen =>
    { cases := [([.EACCES], .errAccess), ([.EINVAL], .errBadValue), ([.EMFILE], .errMaxFds),
        ([.ENFILE], .errMaxFdsSys), ([.ENAMETOOLONG], .errNameTooLong)]
      default := .errOsUnexpected, labels_nodup := by decide, answers_nodup := by decide }
  | createFtruncate =>
    { cases := [([.EACCES], .errAccess), ([.EBADF, .EINVAL], .errInvalidFd),
        ([.EPERM, .EROFS], .errBadFs)]
      default := .errOsUnexpected, labels_nodup := by decide, answers_nodup := by decide }
  | createMmap | openMmap =>
    { cases := [([.EACCES], .errAccess), ([.EAGAIN, .ENOMEM], .errOsOutOfMemory),
        ([.EINVAL], .errBadValue), ([.ENFILE], .errMaxFdsSys)]
      default := .errOsUnexpected, labels_nodup := by decide, answers_nodup := by decide }
  | openShmOpen =>
    { cases := [([.EACCES], .errAccess), ([.EINVAL], .errBadValue), ([.EMFILE], .errMaxFds),
        ([.ENFILE], .errMaxFdsSys), ([.ENAMETOOLONG], .errNameTooLong),
        ([.ENOENT], .errDoesNotExist)]
      default := .errOsUnexpected, labels_nodup := by decide, answers_nodup := by decide }
  | closeShmUnlink =>
    { cases := [([.EACCES], .errAccess)]
      default := .errOsUnexpected, labels_nodup := by decide, answers_nodup := by decide }
  | resizeFtruncate =>
    { cases := [([.EACCES], .errAccess), ([.EFBIG, .EINVAL], .errOsOutOfMemory),
        ([.EPERM, .EROFS], .errBadFs), ([.EBADF], .errBadValue)]
      default := .errOsUnexpected, labels_nodup := by decide, answers_nodup := by decide }
  | resizeMmap =>
    { cases := [], default := .errOsOutOfMemory, labels_nodup := by decide, answers_nodup := by decide }

/-- `errno` when the `switch` looks at it, from `e` on: what has run in between, in its order. -/
def left (ctx : Context) (os : Os) : FailPoint → Errno → Errno
  | createFtruncate, e => os.unlink.getD (os.residue (ctx.report e))
  | createMmap, e => os.unlink.getD (ctx.report (os.residue e))
  | openMmap, e => ctx.report (os.residue (os.residue e))
  -- `ipm_mutex_unlock`, before the log of a resize, leaves `errno` alone
  | _, e => ctx.report e

/-- `if (errno == EEXIST) return IPM_RESULT_ERR_EXISTS;` before anything else runs. -/
def ExistsFirst (p : FailPoint) (e : Errno) : Prop :=
  (p = createShmOpen ∨ p = openShmOpen) ∧ e = .EEXIST

instance (p : FailPoint) (e : Errno) : Decidable (p.ExistsFirst e) :=
  inferInstanceAs (Decidable (_ ∧ _))

/-- What is returned. -/
def answer (ctx : Context) (os : Os) (p : FailPoint) (e : Errno) : IpmResult :=
  if p.ExistsFirst e then .errExists else p.switch.answer (p.left ctx os e)

theorem answer_of_not_lookup (p : FailPoint) (hcreate : p ≠ createShmOpen) (hopen : p ≠ openShmOpen)
    (ctx : Context) (os : Os) (e : Errno) : p.answer ctx os e = p.switch.answer (p.left ctx os e) := by
  rw [answer, if_neg]
  rintro ⟨h | h, -⟩
  · exact hcreate h
  · exact hopen h

end FailPoint

/-! ## The `switch` statements, as tables -/

theorem createShmOpen_answer (e : Errno) :
    FailPoint.createShmOpen.switch.answer e = lookupError .errOsUnexpected e := by
  cases e <;> rfl

theorem openShmOpen_answer (e : Errno) :
    FailPoint.openShmOpen.switch.answer e = lookupError .errDoesNotExist e := by
  cases e <;> rfl

theorem createFtruncate_answer (e : Errno) :
    FailPoint.createFtruncate.switch.answer e = createTruncateError e := by
  cases e <;> rfl

theorem createMmap_answer (e : Errno) : FailPoint.createMmap.switch.answer e = mapError e := by
  cases e <;> rfl

theorem openMmap_answer (e : Errno) : FailPoint.openMmap.switch.answer e = mapError e :=
  createMmap_answer e

theorem closeShmUnlink_answer (e : Errno) :
    FailPoint.closeShmUnlink.switch.answer e = unlinkError e := by
  cases e <;> rfl

theorem resizeFtruncate_answer (e : Errno) :
    FailPoint.resizeFtruncate.switch.answer e = resizeTruncateError e := by
  cases e <;> rfl

/-! ## Runs in which a call fails -/

/-- All goes well up to the call at a point, and that fails with an `errno`. -/
inductive BlockRun.Fails : BlockRun → FailPoint → Errno → Prop
  | createShmOpen {b ctx os blockName id size access w w1} (hsize : SizeOk b size)
      (hfail : shmOpenExcl os (makeBlockNameBasedOnId blockName.chars id) w = .ret (.ok none) w1) :
      Fails ⟨b, ctx, os, .createBlock blockName id size access, w⟩ .createShmOpen w1.proc.errno
  | createFtruncate {b ctx os blockName id size access w w1 w2 file} (hsize : SizeOk b size)
      (hopen : createOpen ctx os (makeBlockNameBasedOnId blockName.chars id) w = .ret (.ok file) w1)
      (hfail : ftruncate os file (size + memoryPageSize) w1 = .ret (.ok false) w2) :
      Fails ⟨b, ctx, os, .createBlock blockName id size access, w⟩ .createFtruncate w2.proc.errno
  | createMmap {b ctx os blockName id size access w w1 w2 w3 file} (hsize : SizeOk b size)
      (hopen : createOpen ctx os (makeBlockNameBasedOnId blockName.chars id) w = .ret (.ok file) w1)
      (htruncate : createTruncate ctx os (makeBlockNameBasedOnId blockName.chars id) file size w1 =
        .ret (.ok ()) w2)
      (hfail : mmap os.bodyMmap file size access memoryPageSize w2 = .ret (.ok none) w3) :
      Fails ⟨b, ctx, os, .createBlock blockName id size access, w⟩ .createMmap w3.proc.errno
  | openShmOpen {b ctx os blockName id access w w1}
      (hfail : shmOpen os (makeBlockNameBasedOnId blockName.chars id) w = .ret (.ok none) w1) :
      Fails ⟨b, ctx, os, .openBlock blockName id access, w⟩ .openShmOpen w1.proc.errno
  | openMmap {b ctx os blockName id access w w1 w2 w3 w4 file header size}
      (hopen : openLookup ctx os (makeBlockNameBasedOnId blockName.chars id) w = .ret (.ok file) w1)
      (hheader : mapHeader os file w1 = .ret (.ok header) w2)
      (hsize : readSize file.obj w2 = .ret (.ok size) w3)
      (hfail : mmap os.bodyMmap file size access memoryPageSize w3 = .ret (.ok none) w4) :
      Fails ⟨b, ctx, os, .openBlock blockName id access, w⟩ .openMmap w4.proc.errno
  | closeShmUnlink {b ctx os block callback w w1 w2 w3 w4 w5 w6 w7 w8 h}
      (howner : b.ndebug = true ∨ (!block.hasOwnership) = true)
      (hclose : closeFd os block.memFd w = .ret (.ok ()) w1)
      (hlast : releaseRef block.obj w1 = .ret (.ok 1) w2)
      (hcallback : callback w2 = .ret (.ok ()) w3)
      (hmutex : destroyMutex block.obj w3 = .ret (.ok ()) w4)
      (hheader : getHeader block.obj w4 = .ret (.ok h) w5)
      (hbody : munmap os block.memory h.blockSize w5 = .ret (.ok ()) w6)
      (hpage : munmap os block.header memoryPageSize w6 = .ret (.ok ()) w7)
      (hfail : shmUnlink os (makeBlockNameBasedOnId h.blockName h.blockId) w7 =
        .ret (.ok false) w8) :
      Fails ⟨b, ctx, os, .closeBlock block callback, w⟩ .closeShmUnlink w8.proc.errno
  | resizeFtruncate {b ctx os block newSize w w1 w2 w3 h}
      (hcheck : resizeCheck b block newSize w = .ret (.ok ()) w1)
      (hheader : getHeader block.obj w1 = .ret (.ok h) w2) (hne : newSize ≠ h.blockSize)
      (hfail : ftruncate os block.memFd (memoryPageSize + newSize) w2 = .ret (.ok false) w3) :
      Fails ⟨b, ctx, os, .resizeBlock .success block newSize, w⟩ .resizeFtruncate w3.proc.errno
  | resizeMmap {b ctx os lock block newSize w w1 w2 w3 w4 w5 sec h}
      (hcheck : resizeCheck b block newSize w = .ret (.ok ()) w1)
      (hsection : resizeSection ctx os lock block newSize w1 = .ret (.ok sec) w2)
      (hremap : sec = .grown ∨ sec = .same ∧ newSize ≠ block.size)
      (hheader : getHeader block.obj w2 = .ret (.ok h) w3)
      (hstale : ¬ (block.size = h.blockSize ∧ block.memory ≠ 0))
      (hunmap : munmap os block.memory block.size w3 = .ret (.ok ()) w4)
      (hfail : mmap os.bodyMmap block.memFd h.blockSize block.accessMode memoryPageSize w4 =
        .ret (.ok none) w5) :
      Fails ⟨b, ctx, os, .resizeBlock lock block newSize, w⟩ .resizeMmap w5.proc.errno

section Branches

variable {b : Build} {ctx : Context} {os : Os} {path : CString} {w w1 : World} {file : File}
variable {size : UInt64} {access : AccessMode}

/-- What follows a failed `shm_open`. -/
theorem lookup_ends {α : Type} {p : FailPoint} {switch : Errno → IpmResult}
    (hp : p = .createShmOpen ∨ p = .openShmOpen) (hswitch : ∀ e, p.switch.answer e = switch e) :
    (do
      if (← errno) = .EEXIST then Prog.fail .errExists
      else
        ipmError ctx
        Prog.fail (switch (← errno)) : Call α).Ends w (.error (p.answer ctx os w.proc.errno)) := by
  apply Prog.Ends.after (show errno w = .ret (.ok w.proc.errno) w from rfl)
  by_cases hexists : w.proc.errno = .EEXIST
  · rw [if_pos hexists, FailPoint.answer, if_pos ⟨hp, hexists⟩]
    exact Prog.Ends.fail _ _
  · have hleft : p.left ctx os w.proc.errno = ctx.report w.proc.errno := by
      rcases hp with rfl | rfl
      · rfl
      · rfl
    rw [if_neg hexists, FailPoint.answer, if_neg fun h => hexists h.2, hswitch, hleft]
    exact ⟨_, rfl⟩

theorem createOpen_ends (hfail : shmOpenExcl os path w = .ret (.ok none) w1) :
    (createOpen ctx os path).Ends w
      (.error (FailPoint.createShmOpen.answer ctx os w1.proc.errno)) :=
  Prog.Ends.after hfail (lookup_ends (.inl rfl) createShmOpen_answer)

theorem openLookup_ends (hfail : shmOpen os path w = .ret (.ok none) w1) :
    (openLookup ctx os path).Ends w
      (.error (FailPoint.openShmOpen.answer ctx os w1.proc.errno)) :=
  Prog.Ends.after hfail (lookup_ends (.inr rfl) openShmOpen_answer)

/-- The end of an unwinding that removes the name. -/
theorem unlink_ends {α : Type} {switch : Errno → IpmResult} (hlinked : w.kernel.names path ≠ none) :
    (do let _ ← shmUnlink os path; Prog.fail (switch (← errno)) : Call α).Ends w
      (.error (switch (os.unlink.getD w.proc.errno))) := by
  cases hunlink : os.unlink with
  | some e =>
    have hun : shmUnlink os path w = .ret (.ok false) (w.setErrno e) := by
      simp only [shmUnlink, hunlink]
    exact Prog.Ends.after hun ⟨_, rfl⟩
  | none =>
    obtain ⟨obj, hobj⟩ := Option.ne_none_iff_exists'.mp hlinked
    have hun : shmUnlink os path w =
        .ret (.ok true) { w with kernel := w.kernel.unlink path } := by
      simp only [shmUnlink, hunlink, hobj]
    exact Prog.Ends.after hun ⟨_, rfl⟩

theorem kernel_of_ftruncate (h : ftruncate os file size w = .ret (.ok false) w1) :
    w1.kernel = w.kernel :=
  (ftruncate_post (E := fun _ _ => True) (S := fun _ _ => True)).of_ret h

theorem kernel_of_mmap {res : Except Failure Nat} {offset : UInt64} {addr : Option Nat}
    (h : mmap res file size access offset w = .ret (.ok addr) w1) : w1.kernel = w.kernel :=
  ((mmap_post (E := fun _ _ => True) (S := fun _ _ => True)).of_ret h).1

theorem createTruncate_ends (hfail : ftruncate os file (size + memoryPageSize) w = .ret (.ok false) w1)
    (hlinked : w1.kernel.names path ≠ none) :
    (createTruncate ctx os path file size).Ends w
      (.error (FailPoint.createFtruncate.answer ctx os w1.proc.errno)) := by
  rw [FailPoint.answer_of_not_lookup .createFtruncate nofun nofun, createFtruncate_answer]
  apply Prog.Ends.after hfail
  apply Prog.Ends.after (show ipmError ctx w1 = .ret (.ok ()) _ from rfl)
  apply Prog.Ends.after (show closeFd os file _ = .ret (.ok ()) _ from rfl)
  exact unlink_ends hlinked

theorem createMapBody_ends
    (hfail : mmap os.bodyMmap file size access memoryPageSize w = .ret (.ok none) w1)
    (hlinked : w1.kernel.names path ≠ none) :
    (createMapBody ctx os path file size access).Ends w
      (.error (FailPoint.createMmap.answer ctx os w1.proc.errno)) := by
  rw [FailPoint.answer_of_not_lookup .createMmap nofun nofun, createMmap_answer]
  apply Prog.Ends.after hfail
  apply Prog.Ends.after (show closeFd os file w1 = .ret (.ok ()) _ from rfl)
  apply Prog.Ends.after (show ipmError ctx _ = .ret (.ok ()) _ from rfl)
  exact unlink_ends hlinked

/-- What was mapped can be unmapped. -/
theorem inSpace_of_mapHeader {header : Nat} (h : mapHeader os file w = .ret (.ok header) w1) :
    InSpace header memoryPageSize := by
  have hpost : Prog.Post (mapHeader os file) w (fun header _ => InSpace header memoryPageSize)
      (fun _ _ => True) fun _ _ => True := by
    refine mmap_cases_post.bind fun r w2 h2 => ?_
    cases h2 with
    | mapped hmaps hres => exact Prog.Post.pure (hmaps.inSpace hres)
    | refused hnot => exact Prog.Post.halt trivial
  exact hpost.of_ret h

theorem openMapBody_ends {header : Nat} (hheader : InSpace header memoryPageSize)
    (hfail : mmap os.bodyMmap file size access memoryPageSize w = .ret (.ok none) w1) :
    (openMapBody ctx os file header size access).Ends w
      (.error (FailPoint.openMmap.answer ctx os w1.proc.errno)) := by
  rw [FailPoint.answer_of_not_lookup .openMmap nofun nofun, openMmap_answer]
  apply Prog.Ends.after hfail
  apply Prog.Ends.after (show closeFd os file w1 = .ret (.ok ()) _ from rfl)
  exact Prog.Ends.after (munmap_of_inSpace hheader) ⟨_, rfl⟩

/-- The last steps of a close. -/
theorem unlinkBlock_ends {block : SharedMemoryBlock} {h : Header} {w2 w3 w4 : World}
    (hheader : getHeader block.obj w = .ret (.ok h) w1)
    (hbody : munmap os block.memory h.blockSize w1 = .ret (.ok ()) w2)
    (hpage : munmap os block.header memoryPageSize w2 = .ret (.ok ()) w3)
    (hfail : shmUnlink os (makeBlockNameBasedOnId h.blockName h.blockId) w3 = .ret (.ok false) w4) :
    (unlinkBlock ctx os block).Ends w
      (.error (FailPoint.closeShmUnlink.answer ctx os w4.proc.errno)) := by
  rw [FailPoint.answer_of_not_lookup .closeShmUnlink nofun nofun, closeShmUnlink_answer]
  apply Prog.Ends.after hheader
  apply Prog.Ends.after hbody
  apply Prog.Ends.after hpage
  exact Prog.Ends.after hfail ⟨_, rfl⟩

theorem resizeSection_ends {block : SharedMemoryBlock} {newSize : UInt64} {h : Header} {w2 : World}
    (hheader : getHeader block.obj w = .ret (.ok h) w1) (hne : newSize ≠ h.blockSize)
    (hfail : ftruncate os block.memFd (memoryPageSize + newSize) w1 = .ret (.ok false) w2) :
    (resizeSection ctx os .success block newSize).Ends w
      (.ok (.refused (FailPoint.resizeFtruncate.answer ctx os w2.proc.errno))) := by
  rw [FailPoint.answer_of_not_lookup .resizeFtruncate nofun nofun, resizeFtruncate_answer, resizeSection,
    if_neg (not_not.mpr rfl)]
  apply Prog.Ends.after hheader
  rw [if_neg hne]
  exact Prog.Ends.after hfail ⟨_, rfl⟩

theorem updateMapping_ends {block : SharedMemoryBlock} {h : Header} {w2 w3 : World}
    (hheader : getHeader block.obj w = .ret (.ok h) w1)
    (hstale : ¬ (block.size = h.blockSize ∧ block.memory ≠ 0))
    (hunmap : munmap os block.memory block.size w1 = .ret (.ok ()) w2)
    (hfail : mmap os.bodyMmap block.memFd h.blockSize block.accessMode memoryPageSize w2 =
      .ret (.ok none) w3) :
    (sharedMemoryBlockUpdateMapping ctx os block block.accessMode).Ends w
      (.ok (.errOsOutOfMemory, { block with memory := 0, size := 0, accessMode := .readOnly })) := by
  apply Prog.Ends.after hheader
  rw [if_neg fun hkept => hstale ⟨hkept.1, hkept.2.2⟩]
  exact Prog.Ends.after hunmap (Prog.Ends.after hfail ⟨_, rfl⟩)

theorem resizeRemap_ends {block : SharedMemoryBlock} {newSize : UInt64} {sec : Section} {h : Header}
    {w2 w3 : World} (hremap : sec = .grown ∨ sec = .same ∧ newSize ≠ block.size)
    (hheader : getHeader block.obj w = .ret (.ok h) w1)
    (hstale : ¬ (block.size = h.blockSize ∧ block.memory ≠ 0))
    (hunmap : munmap os block.memory block.size w1 = .ret (.ok ()) w2)
    (hfail : mmap os.bodyMmap block.memFd h.blockSize block.accessMode memoryPageSize w2 =
      .ret (.ok none) w3) :
    (resizeRemap ctx os block newSize sec).Ends w
      (.ok (.errOsOutOfMemory, { block with memory := 0, size := 0, accessMode := .readOnly })) := by
  rcases hremap with rfl | ⟨rfl, hne⟩
  · exact updateMapping_ends hheader hstale hunmap hfail
  · rw [resizeRemap, if_pos hne]
    exact updateMapping_ends hheader hstale hunmap hfail

theorem resize_ends {b : Build} {lock res : IpmResult} {block block' : SharedMemoryBlock}
    {newSize : UInt64} {sec : Section} {w2 : World}
    (hcheck : resizeCheck b block newSize w = .ret (.ok ()) w1)
    (hsection : resizeSection ctx os lock block newSize w1 = .ret (.ok sec) w2)
    (h : (resizeRemap ctx os block newSize sec).Ends w2 (.ok (res, block'))) :
    (sharedMemoryBlockResize b ctx os lock block newSize).Ends w (.ok (res, block')) :=
  Prog.Ends.after hcheck (Prog.Ends.after hsection h)

end Branches

/-! ## The functions -/

theorem BlockRun.result_of_ends {r : BlockRun} {res : IpmResult}
    (h : (r.call.body r.b r.ctx r.os).Ends r.start (.ok res)) : r.result = some res := by
  obtain ⟨w, hw⟩ := h
  simp only [result, hw]

/-- The assertions on the size hold. -/
theorem create_ends {b : Build} {ctx : Context} {os : Os} {blockName : BlockName} {id size : UInt64}
    {access : AccessMode} {w : World} {res : IpmResult} (hsize : SizeOk b size)
    (h : (do
      let file ← createOpen ctx os (makeBlockNameBasedOnId blockName.chars id)
      createTruncate ctx os (makeBlockNameBasedOnId blockName.chars id) file size
      createMapBody ctx os (makeBlockNameBasedOnId blockName.chars id) file size access).Ends w
        (.error res)) :
    (sharedMemoryBlockCreate b ctx os blockName id size access).Ends w (.error res) := by
  have hmask : b.ndebug = true ∨ ((size &&& memoryPageSizeMask) == 0) = true :=
    hsize.imp_right fun h => beq_iff_eq.mpr h.1
  have hpos : b.ndebug = true ∨ decide (size > 0) = true :=
    hsize.imp_right fun h => decide_eq_true h.2
  apply Prog.Ends.after (Prog.assert_ok hmask)
  apply Prog.Ends.after (Prog.assert_ok hpos)
  refine Prog.Ends.error_of h fun file w1 h1 => ?_
  exact Prog.Ends.error_of h1 fun _ w2 h2 => Prog.Ends.bind h2

/-- The name of what is being created is there to be removed. -/
theorem linked_of_createOpen {ctx : Context} {os : Os} {path : CString} {w w1 : World} {file : File}
    (hopen : createOpen ctx os path w = .ret (.ok file) w1) : w1.kernel.names path ≠ none := by
  have hbuilt := ((createOpen_post fun _ _ => True).of_ret hopen).2.2
  rw [hbuilt, Kernel.names_build_self]
  exact nofun

theorem names_createTruncate {ctx : Context} {os : Os} {path : CString} {w w1 : World} {file : File}
    {size : UInt64} (h : createTruncate ctx os path file size w = .ret (.ok ()) w1) :
    w1.kernel.names = w.kernel.names := by
  have hpost : Prog.Post (createTruncate ctx os path file size) w
      (fun _ w' => w'.kernel.names = w.kernel.names) (fun _ _ => True) fun _ _ => True := by
    refine ftruncate_post.bind fun done w1 h1 => ?_
    cases done with
    | true => exact Prog.Post.pure (by rw [h1.2.2]; rfl)
    | false =>
      -- nothing is returned from here on
      refine Prog.Post.last fun _ _ => Prog.Post.last fun _ _ => Prog.Post.last fun _ _ => ?_
      exact Prog.Post.last fun _ _ => Prog.Post.fail trivial
  exact hpost.of_ret h

/-- **What a call returns after a failure**: the answer to what was left in `errno`. -/
theorem BlockRun.Fails.result {r : BlockRun} {p : FailPoint} {e : Errno} (h : r.Fails p e) :
    r.result = some (p.answer r.ctx r.os e) := by
  apply BlockRun.result_of_ends
  cases h with
  | createShmOpen hsize hfail =>
    apply Prog.Ends.settle_error
    exact create_ends hsize (Prog.Ends.bind (createOpen_ends hfail))
  | createFtruncate hsize hopen hfail =>
    have hlinked := linked_of_createOpen hopen
    rw [← kernel_of_ftruncate hfail] at hlinked
    apply Prog.Ends.settle_error
    apply create_ends hsize
    apply Prog.Ends.after hopen
    exact Prog.Ends.bind (createTruncate_ends hfail hlinked)
  | createMmap hsize hopen htruncate hfail =>
    have hlinked := linked_of_createOpen hopen
    rw [← names_createTruncate htruncate, ← kernel_of_mmap hfail] at hlinked
    apply Prog.Ends.settle_error
    apply create_ends hsize
    apply Prog.Ends.after hopen
    apply Prog.Ends.after htruncate
    exact createMapBody_ends hfail hlinked
  | openShmOpen hfail =>
    apply Prog.Ends.settle_error
    exact Prog.Ends.bind (openLookup_ends hfail)
  | openMmap hopen hheader hsize hfail =>
    apply Prog.Ends.settle_error
    apply Prog.Ends.after hopen
    apply Prog.Ends.after hheader
    apply Prog.Ends.after hsize
    exact Prog.Ends.bind (openMapBody_ends (inSpace_of_mapHeader hheader) hfail)
  | closeShmUnlink howner hclose hlast hcallback hmutex hheader hbody hpage hfail =>
    apply Prog.Ends.settle_error
    apply Prog.Ends.after (Prog.assert_ok howner)
    apply Prog.Ends.after hclose
    apply Prog.Ends.after hlast
    apply Prog.Ends.after hcallback
    apply Prog.Ends.after hmutex
    exact unlinkBlock_ends hheader hbody hpage hfail
  | resizeFtruncate hcheck hheader hne hfail =>
    obtain ⟨w, hsection⟩ := resizeSection_ends hheader hne hfail
    exact (resize_ends hcheck hsection (Prog.Ends.pure _ _)).settle_ok _ _
  | resizeMmap hcheck hsection hremap hheader hstale hunmap hfail =>
    rw [FailPoint.answer_of_not_lookup .resizeMmap nofun nofun]
    exact (resize_ends hcheck hsection
      (resizeRemap_ends hremap hheader hstale hunmap hfail)).settle_ok _ _

/-- **Two runs in which the same call fails alike return the same** exactly when what they leave in
`errno` stands under one case, unless it is answered before anything is left there. -/
theorem result_eq_result_iff {r r' : BlockRun} {p : FailPoint} {e : Errno} (h : r.Fails p e)
    (h' : r'.Fails p e) :
    r.result = r'.result ↔
      p.ExistsFirst e ∨ p.switch.SameCase (p.left r.ctx r.os e) (p.left r'.ctx r'.os e) := by
  rw [h.result, h'.result, Option.some.injEq]
  by_cases hexists : p.ExistsFirst e
  · rw [FailPoint.answer, FailPoint.answer, if_pos hexists, if_pos hexists]
    exact iff_of_true rfl (.inl hexists)
  · rw [FailPoint.answer, FailPoint.answer, if_neg hexists, if_neg hexists, or_iff_right hexists]
    exact Switch.answer_eq_iff

/-- A creation under a free name whose `ftruncate` is refused. -/
theorem fails_createFtruncate {b : Build} {ctx : Context} {os : Os} {blockName : BlockName}
    {id size : UInt64} {access : AccessMode} {w : World} {fd : Nat} {f : Failure}
    (hsize : SizeOk b size) (hshort : (size + memoryPageSize).toNat < lengthLimit)
    (hfree : w.kernel.names (makeBlockNameBasedOnId blockName.chars id) = none)
    (hopen : os.shmOpen = .ok fd) (hrefused : os.ftruncate = some f) :
    BlockRun.Fails ⟨b, ctx, os, .createBlock blockName id size access, w⟩ .createFtruncate f.errno := by
  generalize hpath : makeBlockNameBasedOnId blockName.chars id = path at hfree
  let made : World := ⟨w.kernel.link path, { w.proc with fds := fd :: w.proc.fds }⟩
  have hopened : createOpen ctx os path w = .ret (.ok ⟨fd, w.kernel.fresh⟩) made := by
    simp only [createOpen, Prog.bind_apply, shmOpenExcl, hopen, hfree, Prog.pure_apply]
    rfl
  have hfail : ftruncate os ⟨fd, w.kernel.fresh⟩ (size + memoryPageSize) made =
      .ret (.ok false) (made.setErrno f.errno) := by
    simp only [ftruncate, if_neg (Nat.not_le.mpr hshort), hrefused]
  exact .createFtruncate hsize (hpath ▸ hopened) hfail

/-- An environment that makes objects and does not let them grow. -/
def Os.truncateless : Os := { Os.willing with ftruncate := some ⟨.EACCES, nofun, nofun⟩ }

/-- A creation in it, with a report callback that treats `errno` this way. -/
def refusedCreation (report : Errno → Errno) : BlockRun :=
  { b := ⟨false⟩, ctx := ⟨report⟩, os := .truncateless, call := .createBlock .a 1 4096 .readWrite
    start := ⟨.empty, .initial⟩ }

theorem refusedCreation_fails (report : Errno → Errno) :
    (refusedCreation report).Fails .createFtruncate .EACCES := by
  have hsize : SizeOk ⟨false⟩ 4096 := .inr (by decide)
  have hshort : ((4096 : UInt64) + memoryPageSize).toNat < lengthLimit := by decide
  have hopen : Os.truncateless.shmOpen = .ok 3 := rfl
  have hrefused : Os.truncateless.ftruncate = some ⟨.EACCES, nofun, nofun⟩ := rfl
  exact fails_createFtruncate hsize hshort rfl hopen hrefused

/-- A callback that leaves `errno` alone, and one that leaves `EACCES` there whatever it was. -/
theorem refusedCreation_same :
    (refusedCreation id).result = (refusedCreation fun _ => .EACCES).result :=
  (result_eq_result_iff (refusedCreation_fails id) (refusedCreation_fails _)).mpr
    (.inr (Switch.sameCase_refl _ _))

/-- One that leaves `EINVAL` there: the same call has failed for the same reason, and the result is
another. -/
theorem refusedCreation_misreported :
    (refusedCreation id).Fails .createFtruncate .EACCES ∧
      (refusedCreation fun _ => .EINVAL).Fails .createFtruncate .EACCES ∧
      (refusedCreation id).result = some .errAccess ∧
      (refusedCreation fun _ => .EINVAL).result = some .errInvalidFd :=
  ⟨refusedCreation_fails _, refusedCreation_fails _, (refusedCreation_fails _).result,
    (refusedCreation_fails _).result⟩

end Ipm
