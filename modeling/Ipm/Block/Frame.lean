import Ipm.Block.Spec

/-!
# What creating and closing leave alone

Whatever the environment answers, and wherever a call is stopped, creating a block touches the object
it makes and no other, and closing a block touches the object of that block. This is what is left to
say when names cannot be removed and headers cannot be mapped, and enough for everything that is
kept in the other objects.
-/

set_option autoImplicit false

namespace Ipm

open Lib

/-- The objects of `k` are as they were; there may be more by now. -/
structure Kernel.Spares (k k' : Kernel) : Prop where
  fresh : k.fresh ≤ k'.fresh
  objs : ∀ i < k.fresh, k'.objs i = k.objs i

/-- A world in which the objects of `k` are as they were. -/
def Sparing (k : Kernel) (w : World) : Prop := k.Spares w.kernel

namespace Kernel.Spares

variable {k k' : Kernel} {path : CString} {obj : Nat} {f : ShmObject → ShmObject} {o : ShmObject}

theorem refl (k : Kernel) : k.Spares k := ⟨le_rfl, fun _ _ => rfl⟩

theorem modifyObj (h : k.Spares k') (hobj : k.fresh ≤ obj) : k.Spares (k'.modifyObj obj f) := by
  refine ⟨h.fresh, fun i hi => ?_⟩
  rw [Kernel.objs_modifyObj_ne _ _ (Nat.ne_of_lt (hi.trans_le hobj))]
  exact h.objs i hi

theorem unlink (h : k.Spares k') : k.Spares (k'.unlink path) := ⟨h.fresh, h.objs⟩

theorem build (h : k.Spares k') : k.Spares (k'.build path o) := by
  refine ⟨h.fresh.trans (Nat.le_succ _), fun i hi => ?_⟩
  rw [Kernel.objs_build_ne _ _ _ (Nat.ne_of_lt (hi.trans_le h.fresh))]
  exact h.objs i hi

theorem same {k'' : Kernel} (h : k.Spares k') (hs : k'.Same k'') : k.Spares k'' := by
  refine ⟨h.fresh.trans hs.fresh, fun i hi => ?_⟩
  rw [hs.objs i (hi.trans_le h.fresh)]
  exact h.objs i hi

end Kernel.Spares

variable {b : Build} {ctx : Context} {os : Os} {path : CString} {k : Kernel} {w : World}
variable {size id : UInt64} {file : File} {obj header memory : Nat} {access : AccessMode}
variable {blockName : BlockName} {block : SharedMemoryBlock}

/-! ## System calls and the header -/

theorem sparing_of_keeps {α : Type} {p : Call α} (h : Prog.Keeps World.kernel p) :
    Prog.Preserves (Sparing k) p := by
  refine h.preserves fun w w' hw hs => ?_
  rw [Sparing, hw]
  exact hs

theorem setHeader_spares {f : Header → Header} (hobj : k.fresh ≤ obj) :
    Prog.Preserves (Sparing k) (setHeader obj f) := by
  intro w hw
  refine setHeader_any_post.mono (fun _ w' h => ?_) (fun _ _ h => h) fun _ w' h => ?_
  · rw [Sparing, h]
    exact hw.modifyObj hobj
  · rw [h]
    exact hw

theorem ftruncate_spares (hobj : k.fresh ≤ file.obj) :
    Prog.Preserves (Sparing k) (ftruncate os file size) := by
  intro w hw
  refine ftruncate_post.mapRet fun done w' h => ?_
  cases done with
  | true =>
    rw [Sparing, h.2.2]
    exact hw.modifyObj hobj
  | false =>
    rw [Sparing, show w'.kernel = w.kernel from h]
    exact hw

theorem shmUnlink_spares : Prog.Preserves (Sparing k) (shmUnlink os path) := by
  intro w hw
  rw [Prog.post_iff, shmUnlink]
  cases os.unlink with
  | some e => exact hw
  | none =>
    cases w.kernel.names path with
    | some obj => exact hw.unlink
    | none => exact hw

/-! ## `shared_memory_block_create` -/

/-- The object a creation starts from is a new one. -/
theorem createOpen_spares (hw : Sparing k w) :
    Prog.Post (createOpen ctx os path) w (fun file w' => k.fresh ≤ file.obj ∧ Sparing k w')
      (fun _ w' => Sparing k w') fun _ w' => Sparing k w' := by
  refine (createOpen_post _).mono (fun file w' h => ?_) (fun _ w' h => hw.same h.same) fun _ _ h => h
  obtain ⟨-, hobj, hkernel⟩ := h
  refine ⟨hw.fresh.trans (Nat.le_of_eq hobj.symm), ?_⟩
  rw [Sparing, hkernel]
  exact hw.build

theorem createTruncate_spares (hobj : k.fresh ≤ file.obj) :
    Prog.Preserves (Sparing k) (createTruncate ctx os path file size) := by
  refine (ftruncate_spares hobj).bind fun done => ?_
  cases done with
  | true => exact .pure _
  | false =>
    refine (sparing_of_keeps ipmError_keeps).bind fun _ => ?_
    refine (sparing_of_keeps closeFd_keeps).bind fun _ => shmUnlink_spares.bind fun _ => ?_
    exact (sparing_of_keeps errno_keeps).bind fun _ => .fail _

theorem createMapBody_spares {access : AccessMode} :
    Prog.Preserves (Sparing k) (createMapBody ctx os path file size access) := by
  refine (sparing_of_keeps mmap_keeps).bind fun r => ?_
  cases r with
  | some addr => exact .pure _
  | none =>
    refine (sparing_of_keeps closeFd_keeps).bind fun _ => ?_
    refine (sparing_of_keeps ipmError_keeps).bind fun _ => shmUnlink_spares.bind fun _ => ?_
    exact (sparing_of_keeps errno_keeps).bind fun _ => .fail _

theorem createMutex_spares (hobj : k.fresh ≤ file.obj) :
    Prog.Preserves (Sparing k) (createMutex ctx os path file size header memory) := by
  refine (sparing_of_keeps errno_keeps).bind fun _ => ?_
  dsimp only
  split
  · refine (sparing_of_keeps closeFd_keeps).bind fun _ => ?_
    refine (sparing_of_keeps ipmError_keeps).bind fun _ => ?_
    refine (sparing_of_keeps munmap_keeps).bind fun _ => ?_
    refine (sparing_of_keeps munmap_keeps).bind fun _ => ?_
    exact shmUnlink_spares.bind fun _ => .fail _
  · exact setHeader_spares hobj

theorem takeAccessId_spares (hobj : k.fresh ≤ obj) :
    Prog.Preserves (Sparing k) (takeAccessId obj) :=
  (sparing_of_keeps getHeader_keeps).bind fun _ => (setHeader_spares hobj).bind fun _ => .pure _

/-- **Creating a block spares every object there was**, however it ends. -/
theorem sharedMemoryBlockCreate_spares :
    Prog.Preserves (Sparing k) (sharedMemoryBlockCreate b ctx os blockName id size access) := by
  unfold sharedMemoryBlockCreate
  refine (Prog.Preserves.assert _ _).bind fun _ => (Prog.Preserves.assert _ _).bind fun _ => ?_
  refine Prog.Preserves.bind_of (fun w hw => createOpen_spares hw) fun file hobj => ?_
  refine (createTruncate_spares hobj).bind fun _ => createMapBody_spares.bind fun memory => ?_
  refine (sparing_of_keeps mapHeader_keeps).bind fun header => ?_
  refine (setHeader_spares hobj).bind fun _ => (setHeader_spares hobj).bind fun _ => ?_
  refine (setHeader_spares hobj).bind fun _ => (createMutex_spares hobj).bind fun _ => ?_
  refine (setHeader_spares hobj).bind fun _ => (takeAccessId_spares hobj).bind fun _ => ?_
  exact (setHeader_spares hobj).bind fun _ => .pure _

/-! ## `shared_memory_block_close` -/

theorem unlinkBlock_spares : Prog.Preserves (Sparing k) (unlinkBlock ctx os block) := by
  refine (sparing_of_keeps getHeader_keeps).bind fun _ => ?_
  refine (sparing_of_keeps munmap_keeps).bind fun _ => ?_
  refine (sparing_of_keeps munmap_keeps).bind fun _ => shmUnlink_spares.bind fun done => ?_
  cases done with
  | true => exact .pure _
  | false =>
    refine (sparing_of_keeps ipmError_keeps).bind fun _ => ?_
    exact (sparing_of_keeps errno_keeps).bind fun _ => .fail _

/-- Closing a block that is newer than `k` spares the objects of `k`. -/
theorem sharedMemoryBlockClose_spares {callback : Call Unit} (hobj : k.fresh ≤ block.obj)
    (hcallback : Prog.Preserves (Sparing k) callback) :
    Prog.Preserves (Sparing k) (sharedMemoryBlockClose b ctx os block callback) := by
  refine (Prog.Preserves.assert _ _).bind fun _ => (sparing_of_keeps closeFd_keeps).bind fun _ => ?_
  have hrelease : Prog.Preserves (Sparing k) (releaseRef block.obj) :=
    (sparing_of_keeps getHeader_keeps).bind fun _ => (setHeader_spares hobj).bind fun _ => .pure _
  refine hrelease.bind fun refs => ?_
  split
  · refine hcallback.bind fun _ => (setHeader_spares hobj).bind fun _ => ?_
    exact unlinkBlock_spares
  · exact sparing_of_keeps unmapBlock_keeps

end Ipm
