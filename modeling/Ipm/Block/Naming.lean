import Ipm.Block.Frame
import Ipm.Block.Resize
import Ipm.Lib.Reach
import Ipm.Lib.Threads

/-!
# Whose name a close removes

`shared_memory_block_close` does not keep the string `shared_memory_block_create` opened: the last one
builds it again, from the name and the id in the header. That it is the same string, for every block
of every name, is a property of whole histories: nobody but the creator writes these two fields, and
the creator writes them before anybody else gets a handle.

The histories are of whole calls, on any number of blocks, with any answers of the environment:
creations that fail half way and leave an unfinished object behind, names that cannot be removed,
blocks that are truncated to nothing.
-/

set_option autoImplicit false

namespace Ipm

open Lib

/-! ## What the calls do, whatever the environment answers -/

variable {b : Build} {ctx : Context} {os : Os} {path : CString} {k k' : Kernel} {w : World}
variable {size id : UInt64} {file : File} {obj : Nat} {access : AccessMode}
variable {blockName : BlockName} {block : SharedMemoryBlock} {lock : IpmResult} {newSize : UInt64}

/-- `k'` is `k`, perhaps with an unfinished object under `path` or what is left of one: nobody holds
it, and nobody has lost a name. -/
structure Kernel.Building (path : CString) (k k' : Kernel) : Prop where
  spares : k.Spares k'
  unborn : ∀ i, k.fresh ≤ i → i < k'.fresh → (k'.header i).refcount = 0
  linked : ∀ p i, k'.names p = some i → k.names p = some i ∨ k.fresh ≤ i ∧ i < k'.fresh
  kept : ∀ p i, k.names p = some i → k'.names p = some i

/-- A world in which the object under `path` is not finished. -/
def Unfinished (path : CString) (k : Kernel) (w : World) : Prop := k.Building path w.kernel

namespace Kernel.Building

theorem refl (path : CString) (k : Kernel) : k.Building path k := by
  refine ⟨.refl k, ?_, fun p i h => .inl h, fun p i h => h⟩
  intro i hi hi'
  omega

theorem build (h : k.names path = none) : k.Building path (k.build path .empty) := by
  refine ⟨(Kernel.Spares.refl k).build, ?_, ?_, ?_⟩
  · intro i hi hi'
    have heq : i = k.fresh := by
      simp only [Kernel.build] at hi'
      omega
    rw [heq, Kernel.header, Kernel.objs_build_fresh]
    rfl
  · intro p i hp
    rw [Kernel.names_build] at hp
    split at hp
    · refine .inr ?_
      simp only [Option.some.injEq] at hp
      simp only [Kernel.build]
      omega
    · exact .inl hp
  · intro p i hp
    rw [Kernel.names_build, if_neg]
    · exact hp
    · rintro rfl
      rw [h] at hp
      cases hp

theorem modifyObj {f : ShmObject → ShmObject} (h : k.Building path k') (hobj : k.fresh ≤ obj)
    (hf : ∀ o, o.header.refcount = 0 → (f o).header.refcount = 0) :
    k.Building path (k'.modifyObj obj f) := by
  refine ⟨h.spares.modifyObj hobj, ?_, h.linked, h.kept⟩
  intro i hi hi'
  have hzero := h.unborn i hi hi'
  by_cases heq : i = obj
  · subst heq
    rw [Kernel.header, Kernel.objs_modifyObj_self]
    exact hf _ hzero
  · rw [Kernel.header, Kernel.objs_modifyObj_ne _ _ heq]
    exact hzero

theorem unlink (h : k.Building path k') (hfree : k.names path = none) :
    k.Building path (k'.unlink path) := by
  refine ⟨h.spares.unlink, h.unborn, ?_, ?_⟩
  · intro p i hp
    rw [Kernel.names_unlink] at hp
    split at hp
    · cases hp
    · exact h.linked p i hp
  · intro p i hp
    rw [Kernel.names_unlink, if_neg]
    · exact h.kept p i hp
    · rintro rfl
      rw [hfree] at hp
      cases hp

end Kernel.Building

/-! ### Creation -/

section Create

/-- What a creation keeps that writes to an object `obj` it has not finished, leaves its count at zero
and takes its name away. -/
structure DraftSafe (path : CString) (obj : Nat) (I : Kernel → Prop) : Prop where
  modifyObj : ∀ {k : Kernel} {f : ShmObject → ShmObject}, I k →
    (∀ o, o.header.refcount = 0 → (f o).header.refcount = 0) → I (k.modifyObj obj f)
  unlink : ∀ {k : Kernel}, I k → I (k.unlink path)

theorem Kernel.Building.draftSafe (hobj : k.fresh ≤ obj) (hfree : k.names path = none) :
    DraftSafe path obj (k.Building path) :=
  ⟨fun h hf => h.modifyObj hobj hf, fun h => h.unlink hfree⟩

variable {I : Kernel → Prop}

theorem draft_of_keeps {α : Type} {p : Call α} (h : Prog.Keeps World.kernel p) :
    Prog.Preserves (fun w => I w.kernel) p := by
  apply h.preserves
  intro w w' hw hs
  rw [hw]
  exact hs

/-- The exclusive `shm_open` builds an object under a free name, or nothing. -/
theorem shmOpenExcl_any_post {E : IpmResult → World → Prop} {S : Stop → World → Prop} :
    Prog.Post (shmOpenExcl os path) w
      (fun r w' => match r with
        | some file => w.kernel.names path = none ∧ file.obj = w.kernel.fresh ∧
            w'.kernel = w.kernel.build path .empty
        | none => w'.kernel = w.kernel) E S := by
  rw [Prog.post_iff, shmOpenExcl]
  cases os.shmOpen with
  | error f => rfl
  | ok fd =>
    cases hname : w.kernel.names path with
    | some obj => rfl
    | none => exact ⟨rfl, rfl, rfl⟩

/-- Nothing has happened when a creation does not get its name. -/
theorem createOpen_any_post :
    Prog.Post (createOpen ctx os path) w
      (fun file w' => w.kernel.names path = none ∧ file.obj = w.kernel.fresh ∧
        w'.kernel = w.kernel.build path .empty)
      (fun _ w' => w'.kernel = w.kernel) (fun _ _ => False) := by
  refine shmOpenExcl_any_post.bind fun r w1 h1 => ?_
  cases r with
  | some file => exact Prog.Post.pure h1
  | none =>
    refine errno_post.bind fun e w2 h2 => ?_
    split
    · exact Prog.Post.fail (h2.trans h1)
    · refine ipmError_post.bind fun _ w3 h3 => errno_post.bind fun e' w4 h4 => ?_
      exact Prog.Post.fail (h4.trans (h3.trans (h2.trans h1)))

variable (hI : DraftSafe path file.obj I)
include hI

theorem setHeader_draft {f : Header → Header} (hf : ∀ h, (f h).refcount = h.refcount) :
    Prog.Preserves (fun w => I w.kernel) (setHeader file.obj f) := by
  intro w hw
  refine setHeader_any_post.mono (fun _ w' h => ?_) (fun _ _ h => h) fun _ w' h => h ▸ hw
  show I w'.kernel
  rw [h]
  apply hI.modifyObj hw
  intro o ho
  exact (hf o.header).trans ho

theorem ftruncate_draft : Prog.Preserves (fun w => I w.kernel) (ftruncate os file size) := by
  intro w hw
  refine ftruncate_post.mapRet fun done w' h => ?_
  cases done with
  | true =>
    rw [h.2.2]
    apply hI.modifyObj hw
    intro o ho
    unfold ShmObject.resize
    split
    · rfl
    · exact ho
  | false =>
    rw [show w'.kernel = w.kernel from h]
    exact hw

theorem shmUnlink_draft : Prog.Preserves (fun w => I w.kernel) (shmUnlink os path) := by
  intro w hw
  rw [Prog.post_iff, shmUnlink]
  cases os.unlink with
  | some e => exact hw
  | none =>
    cases w.kernel.names path with
    | some obj => exact hI.unlink hw
    | none => exact hw

theorem takeAccessId_draft : Prog.Preserves (fun w => I w.kernel) (takeAccessId file.obj) := by
  refine (draft_of_keeps getHeader_keeps).bind fun _ => ?_
  exact (setHeader_draft hI (by intro _; rfl)).bind fun _ => .pure _

theorem createTruncate_draft :
    Prog.Preserves (fun w => I w.kernel) (createTruncate ctx os path file size) := by
  refine (ftruncate_draft hI).bind fun done => ?_
  cases done with
  | true => exact .pure _
  | false =>
    refine (draft_of_keeps ipmError_keeps).bind fun _ => ?_
    refine (draft_of_keeps closeFd_keeps).bind fun _ => ?_
    refine (shmUnlink_draft hI).bind fun _ => ?_
    exact (draft_of_keeps errno_keeps).bind fun _ => .fail _

theorem createMapBody_draft :
    Prog.Preserves (fun w => I w.kernel) (createMapBody ctx os path file size access) := by
  refine (draft_of_keeps mmap_keeps).bind fun r => ?_
  cases r with
  | some addr => exact .pure _
  | none =>
    refine (draft_of_keeps closeFd_keeps).bind fun _ => ?_
    refine (draft_of_keeps ipmError_keeps).bind fun _ => ?_
    refine (shmUnlink_draft hI).bind fun _ => ?_
    exact (draft_of_keeps errno_keeps).bind fun _ => .fail _

theorem createMutex_draft {header memory : Nat} :
    Prog.Preserves (fun w => I w.kernel) (createMutex ctx os path file size header memory) := by
  refine (draft_of_keeps errno_keeps).bind fun _ => ?_
  dsimp only
  split
  · refine (draft_of_keeps closeFd_keeps).bind fun _ => ?_
    refine (draft_of_keeps ipmError_keeps).bind fun _ => ?_
    refine (draft_of_keeps munmap_keeps).bind fun _ => ?_
    refine (draft_of_keeps munmap_keeps).bind fun _ => ?_
    exact (shmUnlink_draft hI).bind fun _ => .fail _
  · exact setHeader_draft hI (by intro _; rfl)

end Create

/-- **A creation that does not return a block leaves an object nobody holds**, if any. -/
theorem sharedMemoryBlockCreate_unfinished_post :
    Prog.Post (sharedMemoryBlockCreate b ctx os blockName id size access) w (fun _ _ => True)
      (fun _ w' => Unfinished (makeBlockNameBasedOnId blockName.chars id) w.kernel w')
      (fun _ w' => Unfinished (makeBlockNameBasedOnId blockName.chars id) w.kernel w') := by
  unfold sharedMemoryBlockCreate
  have hstart : Unfinished (makeBlockNameBasedOnId blockName.chars id) w.kernel w := .refl _ _
  refine Prog.Post.bind (Q := fun _ w' => w' = w)
    (Prog.Post.assert (fun _ => rfl) fun _ _ => hstart) fun _ w1 h1 => ?_
  subst h1
  refine Prog.Post.bind (Q := fun _ w' => w' = w1)
    (Prog.Post.assert (fun _ => rfl) fun _ _ => hstart) fun _ w2 h2 => ?_
  subst h2
  dsimp only
  refine (createOpen_any_post.mono (fun _ _ h => h) (fun _ w' h => ?_) fun _ _ h => h.elim).bind
    fun file w1 h1 => ?_
  · rw [Unfinished, h]
    exact hstart
  obtain ⟨hfree, hfile, h1⟩ := h1
  have hI := Kernel.Building.draftSafe hfile.ge hfree
  replace h1 := h1 ▸ Kernel.Building.build hfree
  refine (createTruncate_draft hI w1 h1).bind fun _ w2 h2 => ?_
  refine (createMapBody_draft hI w2 h2).bind fun memory w3 h3 => ?_
  refine (draft_of_keeps mapHeader_keeps w3 h3).bind fun header w4 h4 => ?_
  refine (setHeader_draft hI (by intro _; rfl) w4 h4).bind fun _ w5 h5 => ?_
  refine (setHeader_draft hI (by intro _; rfl) w5 h5).bind fun _ w6 h6 => ?_
  refine (setHeader_draft hI (by intro _; rfl) w6 h6).bind fun _ w7 h7 => ?_
  refine (createMutex_draft hI w7 h7).bind fun _ w8 h8 => ?_
  refine (setHeader_draft hI (by intro _; rfl) w8 h8).bind fun _ w9 h9 => ?_
  refine (takeAccessId_draft hI w9 h9).bind fun _ w10 h10 => ?_
  -- the count is written last, and to an object that has a header page or not at all
  refine (setHeader_any_post.mono (fun _ _ _ => trivial) (fun _ _ h => h)
    fun _ w' h => h ▸ h10).bind fun _ w11 _ => ?_
  exact Prog.Post.pure trivial

/-! ### Opening -/

/-- **An open takes a reference to the linked object, or leaves everything as it was.** -/
theorem sharedMemoryBlockOpen_any_post :
    Prog.Post (sharedMemoryBlockOpen ctx os blockName id access) w
      (fun block w' =>
        w.kernel.names (makeBlockNameBasedOnId blockName.chars id) = some block.obj ∧
        memoryPageSize.toNat ≤ (w.kernel.objs block.obj).length ∧
        (w.kernel.header block.obj).refcount ≠ 0 ∧ block.hasOwnership = false ∧
        w'.kernel = w.kernel.modifyObj block.obj ShmObject.retained)
      (fun _ w' => w'.kernel = w.kernel) (fun _ w' => w'.kernel = w.kernel) := by
  have hkeeps : ∀ {α : Type} {p : Call α} {w₁ : World}, Prog.Keeps World.kernel p →
      w₁.kernel = w.kernel → Prog.Post p w₁ (fun _ w' => w'.kernel = w.kernel)
        (fun _ w' => w'.kernel = w.kernel) (fun _ w' => w'.kernel = w.kernel) := by
    intro α p w₁ hp h₁
    exact (hp w₁).mono (fun _ _ h => h.trans h₁) (fun _ _ h => h.trans h₁) fun _ _ h => h.trans h₁
  unfold sharedMemoryBlockOpen
  refine ((openLookup_post _).mono (fun _ _ h => h) (fun _ _ h => h.1) fun _ _ h => h).bind
    fun file w1 h1 => ?_
  obtain ⟨hlinked, h1⟩ := h1
  refine (hkeeps mapHeader_keeps h1).bind fun header w2 h2 => ?_
  refine (hkeeps readSize_keeps h2).bind fun size w3 h3 => ?_
  refine (hkeeps openMapBody_keeps h3).bind fun memory w4 h4 => ?_
  refine (awaitRefcount_any_post.mapStop fun _ w' h => h ▸ h4).bind fun _ w5 h5 => ?_
  obtain ⟨rfl, hlen, hrefs⟩ := h5
  rw [h4] at hlen
  rw [h4] at hrefs
  refine (hkeeps checkBlockId_keeps h4).bind fun _ w6 h6 => ?_
  refine (hkeeps checkBlockName_keeps h6).bind fun _ w7 h7 => ?_
  refine (setHeader_post (h7 ▸ hlen)).bind fun _ w8 h8 => ?_
  refine (takeAccessId_post (by simpa [h8, h7] using hlen)).bind fun accessId w9 h9 => ?_
  obtain ⟨-, h9⟩ := h9
  rw [h8, h7, Kernel.modifyObj_modifyObj] at h9
  exact Prog.Post.pure ⟨hlinked, hlen, hrefs, rfl, h9⟩

/-! ### Closing -/

/-- The callback of a last close, as far as it is seen here. -/
def uninitCallback (obj : Nat) (cell : Cell → Cell) : Call Unit :=
  .update fun w =>
    { w with kernel := w.kernel.modifyObj obj fun o => { o with listSync := cell o.listSync } }

/-- What a close that returns has done: `path` is the string built from the header, and it is removed
unless the environment refuses. -/
structure CloseDone (os : Os) (obj : Nat) (cell : Cell → Cell) (k k' : Kernel) : Prop where
  length : memoryPageSize.toNat ≤ (k.objs obj).length
  kernel : k' = k.closed (makeBlockNameBasedOnId (k.header obj).blockName (k.header obj).blockId)
      obj cell ∨
    os.unlink ≠ none ∧ (k.header obj).refcount = 1 ∧ k' = k.modifyObj obj (ShmObject.retired cell)

/-- Removing a name: refused, or done. -/
theorem shmUnlink_done_post {E : IpmResult → World → Prop} {S : Stop → World → Prop} :
    Prog.Post (shmUnlink os path) w
      (fun _ w' => w'.kernel = w.kernel.unlink path ∨ os.unlink ≠ none ∧ w'.kernel = w.kernel) E S := by
  rw [Prog.post_iff, shmUnlink]
  cases hos : os.unlink with
  | some e => exact .inr ⟨Option.some_ne_none e, rfl⟩
  | none =>
    cases hname : w.kernel.names path with
    | some obj => exact .inl rfl
    | none =>
      -- there is nothing to remove
      refine .inl ?_
      rw [Kernel.unlink, ← hname, Function.update_eq_self]
      rfl

theorem releaseRef_any_post {E : IpmResult → World → Prop} :
    Prog.Post (releaseRef obj) w
      (fun refs w' => refs = (w.kernel.header obj).refcount ∧
        memoryPageSize.toNat ≤ (w.kernel.objs obj).length ∧
        w'.kernel = w.kernel.modifyObj obj ShmObject.dropped) E (fun _ w' => w' = w) := by
  by_cases hlen : memoryPageSize.toNat ≤ (w.kernel.objs obj).length
  · refine (getHeader_post hlen).bind fun hd w1 h1 => ?_
    obtain ⟨rfl, rfl⟩ := h1
    refine (setHeader_post hlen).bind fun _ w2 h2 => Prog.Post.pure ⟨rfl, hlen, h2⟩
  · rw [Prog.post_iff, releaseRef, Prog.bind_apply, getHeader, if_pos (Nat.lt_of_not_le hlen)]

/-- The tail of a last close: the string is the one in the header. -/
theorem unlinkBlock_any_post {S : Stop → World → Prop}
    (hlen : memoryPageSize.toNat ≤ (w.kernel.objs block.obj).length) :
    Prog.Post (unlinkBlock ctx os block) w
      (fun _ w' => w'.kernel = w.kernel.unlink (makeBlockNameBasedOnId
          (w.kernel.header block.obj).blockName (w.kernel.header block.obj).blockId) ∨
        os.unlink ≠ none ∧ w'.kernel = w.kernel)
      (fun _ w' => w'.kernel = w.kernel.unlink (makeBlockNameBasedOnId
          (w.kernel.header block.obj).blockName (w.kernel.header block.obj).blockId) ∨
        os.unlink ≠ none ∧ w'.kernel = w.kernel) S := by
  refine (getHeader_post hlen).bind fun hd w1 h1 => munmap_post.bind fun _ w2 h2 => ?_
  obtain ⟨rfl, rfl⟩ := h1
  refine munmap_post.bind fun _ w3 h3 => ?_
  have hw3 : w3.kernel = w1.kernel := h3.trans h2
  refine shmUnlink_done_post.bind fun done w4 h4 => ?_
  rw [hw3] at h4
  cases done with
  | true => exact Prog.Post.pure h4
  | false =>
    refine ipmError_post.bind fun _ w5 h5 => errno_post.bind fun e w6 h6 => Prog.Post.fail ?_
    rw [h6, h5]
    exact h4

/-- **What a close does**: nothing, if there is no header page, and otherwise all of it. -/
theorem sharedMemoryBlockClose_any_post {cell : Cell → Cell} :
    Prog.Post (sharedMemoryBlockClose b ctx os block (uninitCallback block.obj cell)) w
      (fun _ w' => CloseDone os block.obj cell w.kernel w'.kernel)
      (fun _ w' => CloseDone os block.obj cell w.kernel w'.kernel)
      (fun _ w' => w'.kernel = w.kernel) := by
  unfold sharedMemoryBlockClose
  refine Prog.Post.bind (Q := fun _ w' => w' = w)
    (Prog.Post.assert (fun _ => rfl) fun _ _ => rfl) fun _ w₀ h₀ => ?_
  subst h₀
  refine closeFd_post.bind fun _ w1 h1 => ?_
  refine (releaseRef_any_post.mapStop fun _ w' h => h ▸ h1).bind fun refs w2 h2 => ?_
  rw [h1] at h2
  obtain ⟨hrefs, hlen, h2⟩ := h2
  by_cases hlast : refs = 1
  · rw [if_pos hlast]
    have hone : (w₀.kernel.header block.obj).refcount = 1 := hrefs.symm.trans hlast
    refine Prog.Post.bind (Q := fun _ w' => w'.kernel = w2.kernel.modifyObj block.obj fun o =>
      { o with listSync := cell o.listSync }) (Prog.Post.update rfl) fun _ w3 h3 => ?_
    rw [h2, Kernel.modifyObj_modifyObj] at h3
    refine (setHeader_post (by rw [h3]; simpa [ShmObject.dropped] using hlen)).bind fun _ w4 h4 => ?_
    rw [h3, Kernel.modifyObj_modifyObj] at h4
    have hretired : w4.kernel = w₀.kernel.modifyObj block.obj (ShmObject.retired cell) := by
      rw [h4, Kernel.modifyObj, Kernel.modifyObj]
      have hzero : (w₀.kernel.objs block.obj).header.refcount - 1 = 0 := by
        rw [show (w₀.kernel.objs block.obj).header.refcount = 1 from hone]
        rfl
      simp [ShmObject.retired, ShmObject.dropped, hzero]
    have hheader : (w4.kernel.header block.obj).blockName = (w₀.kernel.header block.obj).blockName ∧
        (w4.kernel.header block.obj).blockId = (w₀.kernel.header block.obj).blockId := by
      rw [hretired, Kernel.header, Kernel.objs_modifyObj_self]
      exact ⟨rfl, rfl⟩
    have hend : ∀ k' : Kernel, (k' = w4.kernel.unlink (makeBlockNameBasedOnId
          (w4.kernel.header block.obj).blockName (w4.kernel.header block.obj).blockId) ∨
        os.unlink ≠ none ∧ k' = w4.kernel) → CloseDone os block.obj cell w₀.kernel k' := by
      intro k' hk
      rw [hheader.1, hheader.2, hretired] at hk
      refine ⟨hlen, ?_⟩
      rw [Kernel.closed, if_pos hone]
      rcases hk with hk | ⟨hos, hk⟩
      · exact .inl hk
      · exact .inr ⟨hos, hone, hk⟩
    refine (unlinkBlock_any_post ?_).mono (fun _ w' h => hend _ h) (fun _ w' h => hend _ h)
      fun _ _ h => h
    rw [hretired]
    simpa [ShmObject.retired] using hlen
  · rw [if_neg hlast]
    refine (unmapBlock_post (by rw [h2]; simpa [ShmObject.dropped] using hlen)).mapRet fun _ w3 h3 =>
      ⟨hlen, .inl ?_⟩
    rw [Kernel.closed, if_neg (fun h => hlast (hrefs.trans h)), h3, h2]

/-! ### Growth -/

/-- At most `obj` has changed, and with it neither its name nor its id, as long as it has a header. -/
structure Kernel.Edited (obj : Nat) (k k' : Kernel) : Prop where
  fresh : k'.fresh = k.fresh
  others : ∀ i, i ≠ obj → k'.objs i = k.objs i
  length : memoryPageSize.toNat ≤ (k'.objs obj).length →
    memoryPageSize.toNat ≤ (k.objs obj).length
  blockName : memoryPageSize.toNat ≤ (k'.objs obj).length →
    (k'.header obj).blockName = (k.header obj).blockName
  blockId : memoryPageSize.toNat ≤ (k'.objs obj).length →
    (k'.header obj).blockId = (k.header obj).blockId

theorem Kernel.Edited.refl (obj : Nat) (k : Kernel) : k.Edited obj k :=
  ⟨rfl, fun _ _ => rfl, fun h => h, fun _ => rfl, fun _ => rfl⟩

/-- A change of one object that keeps its name and its id. -/
theorem Kernel.edited_modifyObj {f : ShmObject → ShmObject}
    (hlen : memoryPageSize.toNat ≤ (k.objs obj).length)
    (hf : memoryPageSize.toNat ≤ (f (k.objs obj)).length →
      (f (k.objs obj)).header.blockName = (k.objs obj).header.blockName ∧
        (f (k.objs obj)).header.blockId = (k.objs obj).header.blockId) :
    k.Edited obj (k.modifyObj obj f) := by
  refine ⟨rfl, fun i hi => Kernel.objs_modifyObj_ne _ _ hi, fun _ => hlen, ?_, ?_⟩
  · intro h
    rw [Kernel.objs_modifyObj_self] at h
    rw [Kernel.header, Kernel.objs_modifyObj_self]
    exact (hf h).1
  · intro h
    rw [Kernel.objs_modifyObj_self] at h
    rw [Kernel.header, Kernel.objs_modifyObj_self]
    exact (hf h).2

/-- What a resize has done to the kernel, however it ended. -/
structure ResizeDone (obj : Nat) (k k' : Kernel) : Prop where
  edited : k.Edited obj k'
  names : k'.names = k.names
  refcount : memoryPageSize.toNat ≤ (k'.objs obj).length →
    (k'.header obj).refcount = (k.header obj).refcount

theorem ResizeDone.refl (obj : Nat) (k : Kernel) : ResizeDone obj k k :=
  ⟨.refl obj k, rfl, fun _ => rfl⟩

/-- A critical section that finds no header page does nothing. -/
theorem resizeSection_short_post {E : IpmResult → World → Prop}
    (hlen : (w.kernel.objs block.obj).length < memoryPageSize.toNat) :
    Prog.Post (resizeSection ctx os lock block newSize) w (fun _ w' => w'.kernel = w.kernel) E
      (fun _ w' => w'.kernel = w.kernel) := by
  unfold resizeSection
  split
  · exact ipmError_post.bind fun _ w1 h1 => Prog.Post.pure h1
  · rw [Prog.post_iff, Prog.bind_apply, getHeader, if_pos hlen]

theorem resizeSection_edits_post {E : IpmResult → World → Prop} :
    Prog.Post (resizeSection ctx os lock block newSize) w
      (fun _ w' => ResizeDone block.obj w.kernel w'.kernel) E
      (fun _ w' => ResizeDone block.obj w.kernel w'.kernel) := by
  by_cases hlen : memoryPageSize.toNat ≤ (w.kernel.objs block.obj).length
  · refine resizeSection_post.mono (fun sec w' h => ?_) (fun _ _ h => h) fun _ w' h => ?_
    · cases sec with
      | refused res => exact h.1 ▸ .refl _ _
      | same => exact h.1 ▸ .refl _ _
      | grown =>
        obtain ⟨-, -, -, hpage, hk⟩ := h
        have hgrown : (w.kernel.objs block.obj).grown newSize =
            { w.kernel.objs block.obj with
              length := (memoryPageSize + newSize).toNat
              header := { (w.kernel.objs block.obj).header with blockSize := newSize } } := by
          rw [ShmObject.grown, ShmObject.resize_of_le _ hpage]
        rw [hk]
        refine ⟨Kernel.edited_modifyObj hlen ?_, rfl, ?_⟩
        · intro _
          rw [hgrown]
          exact ⟨rfl, rfl⟩
        · intro _
          rw [Kernel.header, Kernel.objs_modifyObj_self, hgrown]
          rfl
    · rcases h with h | ⟨-, -, hshort, hk⟩
      · exact h ▸ .refl _ _
      · -- the header page is cut off
        rw [hk]
        refine ⟨Kernel.edited_modifyObj hlen ?_, rfl, ?_⟩
        · intro h
          rw [ShmObject.length_resize] at h
          omega
        · intro h
          rw [Kernel.objs_modifyObj_self, ShmObject.length_resize] at h
          omega
  · refine (resizeSection_short_post (Nat.lt_of_not_le hlen)).mono (fun _ _ h => ?_)
      (fun _ _ h => h) fun _ _ h => ?_
    · exact h ▸ .refl _ _
    · exact h ▸ .refl _ _

theorem sharedMemoryBlockResize_any_post {E : IpmResult → World → Prop} :
    Prog.Post (sharedMemoryBlockResize b ctx os lock block newSize) w
      (fun r w' => r.2.obj = block.obj ∧ ResizeDone block.obj w.kernel w'.kernel) E
      (fun _ w' => ResizeDone block.obj w.kernel w'.kernel) := by
  refine (resizeCheck_post.mapStop fun _ w' h => h ▸ .refl _ _).bind fun _ w1 h1 => ?_
  rw [← h1.1]
  refine resizeSection_edits_post.bind fun sec w2 h2 => ?_
  refine resizeRemap_post.mono (fun r w3 h3 => ⟨h3.2.1, ?_⟩) (fun _ _ h => h) fun _ w3 h3 => ?_
  · rw [h3.1]
    exact h2
  · rw [h3]
    exact h2

/-! ### Names that stay -/

theorem CloseDone.edited {cell : Cell → Cell} (h : CloseDone os obj cell k k') :
    k.Edited obj k' ∧ ∀ p i, k'.names p = some i → k.names p = some i := by
  have hretired : k.Edited obj (k.modifyObj obj (ShmObject.retired cell)) :=
    Kernel.edited_modifyObj h.length fun _ => ⟨rfl, rfl⟩
  rcases h.kernel with hk | ⟨-, -, hk⟩
  · rw [Kernel.closed] at hk
    split at hk
    · rw [hk]
      refine ⟨⟨hretired.fresh, hretired.others, hretired.length, hretired.blockName,
        hretired.blockId⟩, ?_⟩
      intro p i hp
      rw [Kernel.names_unlink] at hp
      split at hp
      · cases hp
      · exact hp
    · rw [hk]
      exact ⟨Kernel.edited_modifyObj h.length fun _ => ⟨rfl, rfl⟩, fun _ _ hp => hp⟩
  · rw [hk]
    exact ⟨hretired, fun _ _ hp => hp⟩

/-- The count after a close, and the names. -/
theorem CloseDone.refcount {cell : Cell → Cell} (h : CloseDone os obj cell k k') :
    (k'.header obj).refcount = (k.header obj).refcount - 1 ∧
      ((k.header obj).refcount ≠ 1 → k'.names = k.names) := by
  have hone : (k.header obj).refcount = 1 → (k.header obj).refcount - 1 = 0 := by
    intro h
    rw [h]
    rfl
  have hretired : (k.header obj).refcount = 1 →
      ((k.modifyObj obj (ShmObject.retired cell)).header obj).refcount =
        (k.header obj).refcount - 1 := by
    intro h
    rw [hone h, Kernel.header, Kernel.objs_modifyObj_self]
    rfl
  rcases h.kernel with hk | ⟨-, hlast, hk⟩
  · rw [Kernel.closed] at hk
    split at hk
    · rename_i hlast
      rw [hk]
      exact ⟨hretired hlast, fun hne => absurd hlast hne⟩
    · rw [hk, Kernel.header, Kernel.objs_modifyObj_self]
      exact ⟨rfl, fun _ => rfl⟩
  · rw [hk]
    exact ⟨hretired hlast, fun hne => absurd hlast hne⟩

theorem CloseDone.names_of_ne {cell : Cell → Cell} (h : CloseDone os obj cell k k') {p : CString}
    (hp : p ≠ makeBlockNameBasedOnId (k.header obj).blockName (k.header obj).blockId) :
    k'.names p = k.names p := by
  rcases h.kernel with hk | ⟨-, -, hk⟩
  · rw [Kernel.closed] at hk
    split at hk
    · rw [hk, Kernel.names_unlink, if_neg hp]
      rfl
    · rw [hk]
      rfl
  · rw [hk]
    rfl

/-- The object has this name and this id, as long as it has a header page. -/
def ShmObject.Named (o : ShmObject) (blockName : BlockName) (id : UInt64) : Prop :=
  memoryPageSize.toNat ≤ o.length →
    o.header.blockName = blockName.chars ∧ o.header.blockId = id

theorem ShmObject.Named.edited (h : (k.objs obj).Named blockName id) (he : k.Edited obj k') :
    (k'.objs obj).Named blockName id := by
  intro hlen
  obtain ⟨hname, hid⟩ := h (he.length hlen)
  exact ⟨(he.blockName hlen).trans hname, (he.blockId hlen).trans hid⟩

/-- An object of a positive count has one name. -/
theorem ShmObject.Named.eq {o : ShmObject} {n n' : BlockName} {i i' : UInt64}
    (hlen : memoryPageSize.toNat ≤ o.length) (h : o.Named n i) (h' : o.Named n' i') :
    n = n' ∧ i = i' := by
  obtain ⟨hn, hi⟩ := h hlen
  obtain ⟨hn', hi'⟩ := h' hlen
  exact ⟨BlockName.ext (hn.symm.trans hn'), hi.symm.trans hi'⟩

/-! ## Histories -/

/-- A handle, and what it was created or opened with. -/
structure NamedHandle where
  block : SharedMemoryBlock
  blockName : BlockName
  id : UInt64

/-- The string the handle's object was made under. -/
def NamedHandle.objectName (h : NamedHandle) : CString := makeBlockNameBasedOnId h.blockName.chars h.id

structure NameSys where
  kernel : Kernel
  handles : List NamedHandle

/-- One whole call, with the process that makes it and what its environment answers. -/
inductive NameEvent where
  | create (proc : Proc) (ctx : Context) (os : Os) (blockName : BlockName) (id size : UInt64)
      (access : AccessMode)
  | openBlock (proc : Proc) (ctx : Context) (os : Os) (blockName : BlockName) (id : UInt64)
      (access : AccessMode)
  | close (i : Nat) (proc : Proc) (ctx : Context) (os : Os) (cell : Cell → Cell)
  | resize (i : Nat) (proc : Proc) (ctx : Context) (os : Os) (lock : IpmResult) (newSize : UInt64)

namespace NameSys

def init : NameSys := ⟨.empty, []⟩

/-- A process that is stopped in a call has its handles no more, but nobody has closed them: they stay
in the list. -/
def step (b : Build) (s : NameSys) : NameEvent → Option NameSys
  | .create proc ctx os blockName id size access =>
    match sharedMemoryBlockCreate b ctx os blockName id size access ⟨s.kernel, proc⟩ with
    | .ret (.ok block) w => some ⟨w.kernel, s.handles ++ [⟨block, blockName, id⟩]⟩
    | o => some { s with kernel := o.shared.kernel }
  | .openBlock proc ctx os blockName id access =>
    match sharedMemoryBlockOpen ctx os blockName id access ⟨s.kernel, proc⟩ with
    | .ret (.ok block) w => some ⟨w.kernel, s.handles ++ [⟨block, blockName, id⟩]⟩
    | o => some { s with kernel := o.shared.kernel }
  | .close i proc ctx os cell =>
    (s.handles[i]?).map fun h =>
      match sharedMemoryBlockClose b ctx os h.block (uninitCallback h.block.obj cell)
        ⟨s.kernel, proc⟩ with
      | .ret _ w => ⟨w.kernel, s.handles.eraseIdx i⟩
      | .stop _ w => { s with kernel := w.kernel }
  | .resize i proc ctx os lock newSize =>
    (s.handles[i]?).map fun h =>
      match sharedMemoryBlockResize b ctx os lock h.block newSize ⟨s.kernel, proc⟩ with
      | .ret (.ok r) w => ⟨w.kernel, s.handles.set i { h with block := r.2 }⟩
      | o => { s with kernel := o.shared.kernel }

/-- What a call can make of kernel and handles. -/
inductive Move (k : Kernel) (handles : List NamedHandle) : NameEvent → Kernel → List NamedHandle → Prop
  | created {proc : Proc} {ctx : Context} {os : Os} {blockName : BlockName} {id size : UInt64}
      {access : AccessMode} {block : SharedMemoryBlock} {k' : Kernel}
      (h : Created k blockName id size access block k') :
      Move k handles (.create proc ctx os blockName id size access) k'
        (handles ++ [⟨block, blockName, id⟩])
  | aborted {proc : Proc} {ctx : Context} {os : Os} {blockName : BlockName} {id size : UInt64}
      {access : AccessMode} {k' : Kernel}
      (h : k.Building (makeBlockNameBasedOnId blockName.chars id) k') :
      Move k handles (.create proc ctx os blockName id size access) k' handles
  | opened {proc : Proc} {ctx : Context} {os : Os} {blockName : BlockName} {id : UInt64}
      {access : AccessMode} {block : SharedMemoryBlock}
      (hlinked : k.names (makeBlockNameBasedOnId blockName.chars id) = some block.obj)
      (hlen : memoryPageSize.toNat ≤ (k.objs block.obj).length)
      (hrefs : (k.header block.obj).refcount ≠ 0) :
      Move k handles (.openBlock proc ctx os blockName id access)
        (k.modifyObj block.obj ShmObject.retained) (handles ++ [⟨block, blockName, id⟩])
  | closed {i : Nat} {proc : Proc} {ctx : Context} {os : Os} {cell : Cell → Cell} {h : NamedHandle}
      {k' : Kernel} (hget : handles[i]? = some h) (hdone : CloseDone os h.block.obj cell k k') :
      Move k handles (.close i proc ctx os cell) k' (handles.eraseIdx i)
  | resized {i : Nat} {proc : Proc} {ctx : Context} {os : Os} {lock : IpmResult} {newSize : UInt64}
      {h : NamedHandle} {block : SharedMemoryBlock} {k' : Kernel} (hget : handles[i]? = some h)
      (hobj : block.obj = h.block.obj) (hdone : ResizeDone h.block.obj k k') :
      Move k handles (.resize i proc ctx os lock newSize) k'
        (handles.set i { h with block := block })
  | idle {a : NameEvent} : Move k handles a k handles

variable {s s' : NameSys} {a : NameEvent} {handles handles' : List NamedHandle}

/-- **What a call can do.** -/
theorem step_move (h : step b s a = some s') : Move s.kernel s.handles a s'.kernel s'.handles := by
  cases a with
  | create proc ctx os blockName id size access =>
    simp only [step] at h
    cases hrun : sharedMemoryBlockCreate b ctx os blockName id size access ⟨s.kernel, proc⟩ with
    | ret r w =>
      rw [hrun] at h
      cases r with
      | ok block =>
        cases h
        exact .created (sharedMemoryBlockCreate_any_post.of_ret hrun)
      | error e =>
        cases h
        exact .aborted (sharedMemoryBlockCreate_unfinished_post.of_error hrun)
    | stop why w =>
      rw [hrun] at h
      cases h
      exact .aborted (sharedMemoryBlockCreate_unfinished_post.of_stop hrun)
  | openBlock proc ctx os blockName id access =>
    simp only [step] at h
    cases hrun : sharedMemoryBlockOpen ctx os blockName id access ⟨s.kernel, proc⟩ with
    | ret r w =>
      rw [hrun] at h
      cases r with
      | ok block =>
        cases h
        obtain ⟨hlinked, hlen, hrefs, -, hk⟩ := sharedMemoryBlockOpen_any_post.of_ret hrun
        rw [hk]
        exact .opened hlinked hlen hrefs
      | error e =>
        cases h
        rw [Outcome.shared_ret, sharedMemoryBlockOpen_any_post.of_error hrun]
        exact .idle
    | stop why w =>
      rw [hrun] at h
      cases h
      rw [Outcome.shared_stop, sharedMemoryBlockOpen_any_post.of_stop hrun]
      exact .idle
  | close i proc ctx os cell =>
    obtain ⟨hd, hget, h⟩ := Option.map_eq_some_iff.mp h
    cases hrun : sharedMemoryBlockClose b ctx os hd.block (uninitCallback hd.block.obj cell)
      ⟨s.kernel, proc⟩ with
    | ret r w =>
      rw [hrun] at h
      cases h
      cases r with
      | ok u => exact .closed hget (sharedMemoryBlockClose_any_post.of_ret hrun)
      | error e => exact .closed hget (sharedMemoryBlockClose_any_post.of_error hrun)
    | stop why w =>
      rw [hrun] at h
      cases h
      dsimp only
      rw [sharedMemoryBlockClose_any_post.of_stop hrun]
      exact .idle
  | resize i proc ctx os lock newSize =>
    obtain ⟨hd, hget, h⟩ := Option.map_eq_some_iff.mp h
    have hpost : Prog.Post (sharedMemoryBlockResize b ctx os lock hd.block newSize) ⟨s.kernel, proc⟩
        (fun r w' => r.2.obj = hd.block.obj ∧ ResizeDone hd.block.obj s.kernel w'.kernel)
        (fun _ _ => False) (fun _ w' => ResizeDone hd.block.obj s.kernel w'.kernel) :=
      sharedMemoryBlockResize_any_post
    cases hrun : sharedMemoryBlockResize b ctx os lock hd.block newSize ⟨s.kernel, proc⟩ with
    | ret r w =>
      rw [hrun] at h
      cases r with
      | ok r =>
        cases h
        obtain ⟨hobj, hdone⟩ := hpost.of_ret hrun
        exact .resized hget hobj hdone
      | error e => exact (hpost.of_error hrun).elim
    | stop why w =>
      rw [hrun] at h
      cases h
      have hmove : Move s.kernel s.handles (.resize i proc ctx os lock newSize) w.kernel
          (s.handles.set i { hd with block := hd.block }) := .resized hget rfl (hpost.of_stop hrun)
      rwa [show ({ hd with block := hd.block } : NamedHandle) = hd from rfl,
        set_getElem?_self hget] at hmove

/-! ### Names and headers -/

/-- Finished objects are linked under the string their header gives, and handles are to such. -/
structure NameOk (s : NameSys) : Prop where
  linked : ∀ path obj, s.kernel.names path = some obj → obj < s.kernel.fresh ∧
    ((s.kernel.header obj).refcount ≠ 0 → ∃ blockName id,
      path = makeBlockNameBasedOnId blockName.chars id ∧ (s.kernel.objs obj).Named blockName id)
  held : ∀ h ∈ s.handles, h.block.obj < s.kernel.fresh ∧
    (s.kernel.objs h.block.obj).Named h.blockName h.id ∧
    ∀ path, s.kernel.names path = some h.block.obj → path = h.objectName

theorem nameOk_init : NameOk init := by
  constructor
  · intro path obj h
    cases h
  · intro h hh
    cases hh

/-- One object is edited and names are removed. -/
theorem NameOk.edit (h : NameOk ⟨k, handles⟩) (he : k.Edited obj k')
    (hnames : ∀ p i, k'.names p = some i → k.names p = some i)
    (hknown : ∀ p, k.names p = some obj → ∃ blockName id,
      p = makeBlockNameBasedOnId blockName.chars id ∧ (k.objs obj).Named blockName id)
    (hsub : ∀ x ∈ handles', ∃ y ∈ handles, x.block.obj = y.block.obj ∧
      x.blockName = y.blockName ∧ x.id = y.id) : NameOk ⟨k', handles'⟩ := by
  constructor
  · intro p i hp
    have hp' := hnames p i hp
    refine ⟨he.fresh.symm ▸ (h.linked p i hp').1, ?_⟩
    intro hrefs
    by_cases hi : i = obj
    · subst hi
      obtain ⟨n, id, hpath, hnamed⟩ := hknown p hp'
      exact ⟨n, id, hpath, hnamed.edited he⟩
    · have hsame := he.others i hi
      rw [Kernel.header] at hrefs
      dsimp only at hrefs ⊢
      rw [hsame] at hrefs ⊢
      exact (h.linked p i hp').2 hrefs
  · intro x hx
    obtain ⟨y, hy, hobj, hname, hid⟩ := hsub x hx
    obtain ⟨hlt, hnamed, hpath⟩ := h.held y hy
    rw [hobj, hname, hid]
    refine ⟨he.fresh.symm ▸ hlt, ?_, ?_⟩
    · by_cases hy : y.block.obj = obj
      · rw [hy] at hnamed ⊢
        exact hnamed.edited he
      · dsimp only
        rw [he.others _ hy]
        exact hnamed
    · intro p hp
      rw [NamedHandle.objectName, hname, hid]
      exact hpath p (hnames p _ hp)

/-- A handle on a finished object. -/
theorem NameOk.add {hd : NamedHandle} (h : NameOk ⟨k, handles⟩) (hlt : hd.block.obj < k.fresh)
    (hnamed : (k.objs hd.block.obj).Named hd.blockName hd.id)
    (hpath : ∀ p, k.names p = some hd.block.obj → p = hd.objectName) :
    NameOk ⟨k, handles ++ [hd]⟩ := by
  refine ⟨h.linked, ?_⟩
  intro x hx
  rcases List.mem_append.mp hx with hx | hx
  · exact h.held x hx
  · rw [List.mem_singleton.mp hx]
    exact ⟨hlt, hnamed, hpath⟩

/-- What is there of the objects below `fresh` is there in `k'`. -/
theorem NameOk.spare (h : NameOk ⟨k, handles⟩) (hs : k.Spares k')
    (hnew : ∀ p i, k'.names p = some i → k.names p = some i ∨
      (k.fresh ≤ i ∧ i < k'.fresh ∧ ((k'.header i).refcount ≠ 0 → ∃ blockName id,
        p = makeBlockNameBasedOnId blockName.chars id ∧ (k'.objs i).Named blockName id))) :
    NameOk ⟨k', handles⟩ := by
  constructor
  · intro p i hp
    rcases hnew p i hp with hold | ⟨-, hlt, hfinished⟩
    · obtain ⟨hlt, hfinished⟩ := h.linked p i hold
      refine ⟨hlt.trans_le hs.fresh, ?_⟩
      intro hrefs
      rw [Kernel.header] at hrefs
      dsimp only at hrefs ⊢
      rw [hs.objs i hlt] at hrefs ⊢
      exact hfinished hrefs
    · exact ⟨hlt, hfinished⟩
  · intro x hx
    obtain ⟨hlt, hnamed, hpath⟩ := h.held x hx
    refine ⟨hlt.trans_le hs.fresh, ?_, ?_⟩
    · dsimp only
      rw [hs.objs _ hlt]
      exact hnamed
    · intro p hp
      rcases hnew p _ hp with hold | ⟨hge, -, -⟩
      · exact hpath p hold
      · exact absurd hlt (Nat.not_lt.mpr hge)

/-- **A call keeps names and headers in agreement.** -/
theorem NameOk.move (h : NameOk ⟨k, handles⟩) (hm : Move k handles a k' handles') :
    NameOk ⟨k', handles'⟩ := by
  cases hm with
  | @created _ _ _ blockName id size access block _ hc =>
    have hnamed : (createdObject blockName id size).Named blockName id := fun _ => ⟨rfl, rfl⟩
    have hold : ∀ p i, k'.names p = some i → k.names p = some i ∨
        p = makeBlockNameBasedOnId blockName.chars id ∧ i = k.fresh := by
      intro p i hp
      rw [hc.kernel, Kernel.names_build] at hp
      split at hp
      · exact .inr ⟨‹_›, (Option.some.inj hp).symm⟩
      · exact .inl hp
    have hobj : k'.objs k.fresh = createdObject blockName id size := by
      rw [hc.kernel, Kernel.objs_build_fresh]
    have hfresh : k.fresh < k'.fresh := by
      rw [hc.kernel]
      exact Nat.lt_succ_self _
    have hspares : k.Spares k' := hc.kernel ▸ (Kernel.Spares.refl k).build
    refine (h.spare hspares ?_).add ?_ ?_ ?_
    · intro p i hp
      rcases hold p i hp with hp | ⟨hpath, rfl⟩
      · exact .inl hp
      · exact .inr ⟨le_rfl, hfresh, fun _ => ⟨blockName, id, hpath, hobj ▸ hnamed⟩⟩
    · exact hc.obj ▸ hfresh
    · dsimp only
      rw [hc.obj, hobj]
      exact hnamed
    · intro p hp
      dsimp only at hp
      rw [hc.obj] at hp
      rcases hold p _ hp with hp | ⟨hp, -⟩
      · exact absurd (h.linked p _ hp).1 (Nat.lt_irrefl _)
      · exact hp
  | aborted hb =>
    apply h.spare hb.spares
    intro p i hp
    rcases hb.linked p i hp with hp | ⟨hge, hlt⟩
    · exact .inl hp
    · exact .inr ⟨hge, hlt, fun hrefs => absurd (hb.unborn i hge hlt) hrefs⟩
  | @opened _ _ _ blockName id access block hlinked hlen hrefs =>
    have hedited : k.Edited block.obj (k.modifyObj block.obj ShmObject.retained) :=
      Kernel.edited_modifyObj hlen fun _ => ⟨rfl, rfl⟩
    -- whatever the object is linked under is what its header says
    have hknown : ∀ p, k.names p = some block.obj → ∃ blockName id,
        p = makeBlockNameBasedOnId blockName.chars id ∧ (k.objs block.obj).Named blockName id :=
      fun p hp => (h.linked p _ hp).2 hrefs
    have hnamed : (k.objs block.obj).Named blockName id := by
      obtain ⟨n, i, hpath, hnamed⟩ := hknown _ hlinked
      obtain ⟨hn, rfl⟩ := makeBlockNameBasedOnId_injective blockName.length_le n.length_le hpath
      rwa [← BlockName.ext hn] at hnamed
    have hpath : ∀ p, k.names p = some block.obj →
        p = makeBlockNameBasedOnId blockName.chars id := by
      intro p hp
      obtain ⟨n, i, hpath, hnamed'⟩ := hknown p hp
      obtain ⟨rfl, rfl⟩ := hnamed.eq hlen hnamed'
      exact hpath
    refine (h.edit hedited (fun _ _ hp => hp) hknown ?_).add ?_ (hnamed.edited hedited) hpath
    · exact fun x hx => ⟨x, hx, rfl, rfl, rfl⟩
    · exact (h.linked _ _ hlinked).1
  | @closed i _ _ _ cell hd _ hget hdone =>
    obtain ⟨-, hnamed, hpath⟩ := h.held hd (List.mem_of_getElem? hget)
    obtain ⟨hedited, hnames⟩ := hdone.edited
    refine h.edit hedited hnames (fun p hp => ⟨hd.blockName, hd.id, hpath p hp, hnamed⟩) ?_
    exact fun x hx => ⟨x, List.mem_of_mem_eraseIdx hx, rfl, rfl, rfl⟩
  | @resized i _ _ _ _ _ hd block _ hget hobj hdone =>
    have hmem := List.mem_of_getElem? hget
    obtain ⟨-, hnamed, hpath⟩ := h.held hd hmem
    refine h.edit hdone.edited (fun p i hp => hdone.names ▸ hp)
      (fun p hp => ⟨hd.blockName, hd.id, hpath p hp, hnamed⟩) ?_
    intro x hx
    rcases List.mem_or_eq_of_mem_set hx with hx | rfl
    · exact ⟨x, hx, rfl, rfl, rfl⟩
    · exact ⟨hd, hmem, hobj, rfl, rfl⟩
  | idle => exact h

/-! ### Names and references -/

/-- The handles on an object. -/
def refs (handles : List NamedHandle) (obj : Nat) : Nat :=
  handles.countP fun h => h.block.obj == obj

/-- No reference makes the count wrap. -/
def Fits (s : NameSys) : NameEvent → Prop
  | .openBlock _ _ _ blockName id _ =>
    ∀ obj, s.kernel.names (makeBlockNameBasedOnId blockName.chars id) = some obj →
      (s.kernel.header obj).refcount.toNat + 1 < 2 ^ 32
  | _ => True

/-- Handles are counted, and what they are to is linked under its own string. -/
structure RefOk (s : NameSys) : Prop where
  named : NameOk s
  count : ∀ obj < s.kernel.fresh, memoryPageSize.toNat ≤ (s.kernel.objs obj).length →
    (s.kernel.header obj).refcount.toNat = refs s.handles obj
  linked : ∀ h ∈ s.handles, s.kernel.names h.objectName = some h.block.obj

theorem refs_concat (handles : List NamedHandle) (h : NamedHandle) (obj : Nat) :
    refs (handles ++ [h]) obj = refs handles obj + if h.block.obj = obj then 1 else 0 := by
  simp [refs, List.countP_append, List.countP_singleton]

/-- Nobody has a handle on an object that is not there. -/
theorem refs_eq_zero (h : ∀ x ∈ handles, x.block.obj < k.fresh) (hobj : k.fresh ≤ obj) :
    refs handles obj = 0 := by
  apply List.countP_eq_zero.mpr
  intro x hx
  have hlt := h x hx
  simp only [beq_iff_eq]
  omega

theorem refs_pos {hd : NamedHandle} (h : hd ∈ handles) : 0 < refs handles hd.block.obj :=
  List.countP_pos_iff.mpr ⟨hd, h, by simp⟩

theorem RefOk.created {size : UInt64} (h : RefOk ⟨k, handles⟩)
    (hc : Created k blockName id size access block k')
    (hn : NameOk ⟨k', handles ++ [⟨block, blockName, id⟩]⟩) :
    RefOk ⟨k', handles ++ [⟨block, blockName, id⟩]⟩ := by
  have hlt : ∀ x ∈ handles, x.block.obj < k.fresh := fun x hx => (h.named.held x hx).1
  have hkernel := hc.kernel
  subst hkernel
  refine ⟨hn, ?_, ?_⟩
  · intro obj hobj hlen
    dsimp only at hobj hlen ⊢
    rw [refs_concat, hc.obj]
    by_cases hnew : obj = k.fresh
    · subst hnew
      rw [refs_eq_zero hlt le_rfl, Kernel.header, Kernel.objs_build_fresh]
      simp [createdObject]
    · rw [Kernel.objs_build_ne _ _ _ hnew] at hlen
      rw [Kernel.header, Kernel.objs_build_ne _ _ _ hnew, if_neg (Ne.symm hnew)]
      simp only [Kernel.build] at hobj
      exact h.count obj (by dsimp only; omega) hlen
  · intro x hx
    dsimp only at hx ⊢
    rw [Kernel.names_build]
    rcases List.mem_append.mp hx with hx | hx
    · have hold := h.linked x hx
      rw [if_neg]
      · exact hold
      · intro heq
        rw [heq] at hold
        rw [show k.names (makeBlockNameBasedOnId blockName.chars id) = none from hc.free] at hold
        cases hold
    · rw [List.mem_singleton.mp hx]
      exact (if_pos rfl).trans (congrArg some hc.obj.symm)

theorem RefOk.aborted {path : CString} (h : RefOk ⟨k, handles⟩) (hb : k.Building path k')
    (hn : NameOk ⟨k', handles⟩) : RefOk ⟨k', handles⟩ := by
  have hlt : ∀ x ∈ handles, x.block.obj < k.fresh := fun x hx => (h.named.held x hx).1
  refine ⟨hn, ?_, fun x hx => hb.kept _ _ (h.linked x hx)⟩
  intro obj hobj hlen
  dsimp only at hobj hlen ⊢
  by_cases hold : obj < k.fresh
  · rw [hb.spares.objs obj hold] at hlen
    rw [Kernel.header, hb.spares.objs obj hold]
    exact h.count obj hold hlen
  · rw [hb.unborn obj (Nat.le_of_not_lt hold) hobj, refs_eq_zero hlt (Nat.le_of_not_lt hold)]
    rfl

theorem RefOk.opened (h : RefOk ⟨k, handles⟩)
    (hlinked : k.names (makeBlockNameBasedOnId blockName.chars id) = some block.obj)
    (hlen : memoryPageSize.toNat ≤ (k.objs block.obj).length)
    (hfits : (k.header block.obj).refcount.toNat + 1 < 2 ^ 32)
    (hn : NameOk ⟨k.modifyObj block.obj ShmObject.retained, handles ++ [⟨block, blockName, id⟩]⟩) :
    RefOk ⟨k.modifyObj block.obj ShmObject.retained, handles ++ [⟨block, blockName, id⟩]⟩ := by
  refine ⟨hn, ?_, ?_⟩
  · intro obj hobj hlen'
    dsimp only at hobj hlen' ⊢
    rw [refs_concat]
    by_cases hself : obj = block.obj
    · subst hself
      have hold := h.count block.obj hobj hlen
      rw [Kernel.header, Kernel.objs_modifyObj_self, if_pos rfl, ← hold]
      have hinc : ((k.objs block.obj).header.refcount + 1).toNat =
          (k.objs block.obj).header.refcount.toNat + 1 := by
        rw [UInt32.toNat_add]
        exact Nat.mod_eq_of_lt hfits
      exact hinc
    · rw [Kernel.objs_modifyObj_ne _ _ hself] at hlen'
      rw [Kernel.header, Kernel.objs_modifyObj_ne _ _ hself, if_neg (Ne.symm hself)]
      exact h.count obj hobj hlen'
  · intro x hx
    rcases List.mem_append.mp hx with hx | hx
    · exact h.linked x hx
    · rw [List.mem_singleton.mp hx]
      exact hlinked

theorem RefOk.resized {i : Nat} {hd : NamedHandle} (h : RefOk ⟨k, handles⟩)
    (hget : handles[i]? = some hd) (hobj : block.obj = hd.block.obj)
    (hdone : ResizeDone hd.block.obj k k')
    (hn : NameOk ⟨k', handles.set i { hd with block := block }⟩) :
    RefOk ⟨k', handles.set i { hd with block := block }⟩ := by
  refine ⟨hn, ?_, ?_⟩
  · intro obj hlt hlen
    dsimp only at hlt hlen ⊢
    have hset := countP_set_add (fun x : NamedHandle => x.block.obj == obj) hget
      { hd with block := block }
    have hrefs : refs (handles.set i { hd with block := block }) obj = refs handles obj := by
      simp only [hobj] at hset
      exact Nat.add_right_cancel hset
    rw [hrefs]
    rw [hdone.edited.fresh] at hlt
    by_cases hself : obj = hd.block.obj
    · subst hself
      rw [hdone.refcount hlen]
      exact h.count _ hlt (hdone.edited.length hlen)
    · rw [hdone.edited.others obj hself] at hlen
      rw [Kernel.header, hdone.edited.others obj hself]
      exact h.count obj hlt hlen
  · intro x hx
    dsimp only at hx ⊢
    rw [hdone.names]
    rcases List.mem_or_eq_of_mem_set hx with hx | rfl
    · exact h.linked x hx
    · have hold := h.linked hd (List.mem_of_getElem? hget)
      rw [← hobj] at hold
      exact hold

/-- The string a close builds is the one the handle's object was made under. -/
theorem NameOk.rebuilt {s : NameSys} (h : NameOk s) {hd : NamedHandle} (hmem : hd ∈ s.handles)
    (hlen : memoryPageSize.toNat ≤ (s.kernel.objs hd.block.obj).length) :
    makeBlockNameBasedOnId (s.kernel.header hd.block.obj).blockName
      (s.kernel.header hd.block.obj).blockId = hd.objectName := by
  obtain ⟨hname, hid⟩ := (h.held hd hmem).2.1 hlen
  rw [Kernel.header, hname, hid]
  rfl

theorem RefOk.closed {i : Nat} {cell : Cell → Cell} {hd : NamedHandle} (h : RefOk ⟨k, handles⟩)
    (hget : handles[i]? = some hd) (hdone : CloseDone os hd.block.obj cell k k')
    (hn : NameOk ⟨k', handles.eraseIdx i⟩) : RefOk ⟨k', handles.eraseIdx i⟩ := by
  have hmem := List.mem_of_getElem? hget
  have hpos := refs_pos hmem
  have hfresh := (h.named.held hd hmem).1
  have hold := h.count hd.block.obj hfresh hdone.length
  obtain ⟨hedited, hnames⟩ := hdone.edited
  obtain ⟨hrefs, hothers⟩ := hdone.refcount
  have herase : ∀ obj, refs (handles.eraseIdx i) obj + (if hd.block.obj = obj then 1 else 0) =
      refs handles obj := by
    intro obj
    have hcount := countP_eraseIdx_add (fun x : NamedHandle => x.block.obj == obj) hget
    simp only [beq_iff_eq] at hcount
    exact hcount
  dsimp only at hold
  refine ⟨hn, ?_, ?_⟩
  · intro obj hlt hlen
    dsimp only at hlt hlen ⊢
    rw [hedited.fresh] at hlt
    have hcount := herase obj
    by_cases hself : obj = hd.block.obj
    · subst hself
      rw [if_pos rfl] at hcount
      have hle : (1 : UInt32) ≤ (k.header hd.block.obj).refcount := by
        rw [UInt32.le_iff_toNat_le, hold]
        exact hpos
      rw [hrefs, UInt32.toNat_sub_of_le _ _ hle, hold]
      show refs handles hd.block.obj - 1 = _
      omega
    · rw [if_neg (Ne.symm hself), Nat.add_zero] at hcount
      rw [hedited.others obj hself] at hlen
      rw [Kernel.header, hedited.others obj hself, hcount]
      exact h.count obj hlt hlen
  · intro x hx
    have hxmem := List.mem_of_mem_eraseIdx hx
    have hlinked := h.linked x hxmem
    dsimp only at hlinked ⊢
    by_cases hlast : (k.header hd.block.obj).refcount = 1
    · -- nobody else has a handle on this object, so nobody else's name is its name
      have hother : x.block.obj ≠ hd.block.obj := by
        intro heq
        have hcount := herase hd.block.obj
        have hxpos := refs_pos hx
        rw [heq] at hxpos
        dsimp only at hxpos
        rw [if_pos rfl, ← hold, hlast, show (1 : UInt32).toNat = 1 from rfl] at hcount
        omega
      rw [hdone.names_of_ne]
      · exact hlinked
      · rw [h.named.rebuilt hmem hdone.length]
        intro heq
        rw [heq] at hlinked
        have hself := h.linked hd hmem
        dsimp only at hself
        rw [hself] at hlinked
        exact hother (Option.some.inj hlinked).symm
    · rw [hothers hlast]
      exact hlinked

/-- **A call keeps the count and the links.** -/
theorem RefOk.step (h : RefOk s) (hg : s.Fits a) (hs : NameSys.step b s a = some s') : RefOk s' := by
  have hm := step_move hs
  have hn : NameOk ⟨s'.kernel, s'.handles⟩ := h.named.move hm
  obtain ⟨k, handles⟩ := s
  obtain ⟨k', handles'⟩ := s'
  dsimp only at hm
  cases hm with
  | created hc => exact h.created hc hn
  | aborted hb => exact h.aborted hb hn
  | opened hlinked hlen hrefs => exact h.opened hlinked hlen (hg _ hlinked) hn
  | closed hget hdone => exact h.closed hget hdone hn
  | resized hget hobj hdone => exact h.resized hget hobj hdone hn
  | idle => exact h

/-! ### What a close removes -/

/-- Closing any handle touches no name but the one its object was made under. -/
structure ClosesOwnName (b : Build) (s : NameSys) : Prop where
  rebuilt : ∀ h ∈ s.handles, memoryPageSize.toNat ≤ (s.kernel.objs h.block.obj).length →
    makeBlockNameBasedOnId (s.kernel.header h.block.obj).blockName
      (s.kernel.header h.block.obj).blockId = h.objectName
  others : ∀ i h proc ctx os cell s', s.handles[i]? = some h →
    NameSys.step b s (.close i proc ctx os cell) = some s' →
    ∀ p, p ≠ h.objectName → s'.kernel.names p = s.kernel.names p

/-- What a handle's object was made under is linked to it, and goes with the last handle. -/
structure UnlinksOwnObject (b : Build) (s : NameSys) : Prop where
  linked : ∀ h ∈ s.handles, s.kernel.names h.objectName = some h.block.obj
  last : ∀ i h proc ctx os cell, s.handles[i]? = some h → h.block.hasOwnership = false →
    memoryPageSize.toNat ≤ (s.kernel.objs h.block.obj).length → os.unlink = none →
    refs s.handles h.block.obj = 1 →
    ∃ s', NameSys.step b s (.close i proc ctx os cell) = some s' ∧
      s'.kernel.names h.objectName = none
  notLast : ∀ i h proc ctx os cell s', s.handles[i]? = some h →
    NameSys.step b s (.close i proc ctx os cell) = some s' →
    1 < refs s.handles h.block.obj → s'.kernel.names = s.kernel.names

/-- A close that is a step has done all of it or nothing. -/
theorem close_move {i : Nat} {proc : Proc} {cell : Cell → Cell} {h : NamedHandle}
    (hget : s.handles[i]? = some h)
    (hs : NameSys.step b s (.close i proc ctx os cell) = some s') :
    CloseDone os h.block.obj cell s.kernel s'.kernel ∨ s'.kernel = s.kernel := by
  have hm := step_move hs
  generalize hk : s'.kernel = k' at hm
  generalize s'.handles = handles' at hm
  cases hm with
  | closed hget' hdone =>
    rw [hget] at hget'
    cases hget'
    exact .inl hdone
  | idle => exact .inr rfl

theorem NameOk.closesOwnName (h : NameOk s) : s.ClosesOwnName b := by
  refine ⟨fun hd hmem hlen => h.rebuilt hmem hlen, ?_⟩
  intro i hd proc ctx os cell s' hget hs p hp
  rcases close_move hget hs with hdone | hk
  · apply hdone.names_of_ne
    rw [h.rebuilt (List.mem_of_getElem? hget) hdone.length]
    exact hp
  · rw [hk]

/-- The last handle's close returns, and the name is gone. -/
theorem RefOk.last {i : Nat} {proc : Proc} {cell : Cell → Cell} {hd : NamedHandle} (h : RefOk s)
    (hget : s.handles[i]? = some hd) (hown : hd.block.hasOwnership = false)
    (hlen : memoryPageSize.toNat ≤ (s.kernel.objs hd.block.obj).length) (hos : os.unlink = none)
    (hone : refs s.handles hd.block.obj = 1) :
    ∃ s', NameSys.step b s (.close i proc ctx os cell) = some s' ∧
      s'.kernel.names hd.objectName = none := by
  have hmem := List.mem_of_getElem? hget
  obtain ⟨hlt, hnamed, -⟩ := h.named.held hd hmem
  have hrefs : (s.kernel.header hd.block.obj).refcount = 1 := by
    apply UInt32.toNat_inj.mp
    rw [h.count _ hlt hlen, hone]
    rfl
  have hserves : (s.kernel.objs hd.block.obj).Serves hd.blockName hd.id := by
    refine ⟨hlen, ?_, (hnamed hlen).2, (hnamed hlen).1⟩
    rw [show (s.kernel.objs hd.block.obj).header.refcount = 1 from hrefs]
    exact nofun
  have hpost : Prog.Post
      (sharedMemoryBlockClose b ctx os hd.block (uninitCallback hd.block.obj cell)) ⟨s.kernel, proc⟩
      (fun _ w' => w'.kernel = s.kernel.closed hd.objectName hd.block.obj cell)
      (fun _ _ => False) (fun _ _ => False) :=
    sharedMemoryBlockClose_post hos hown hserves (h.linked hd hmem) fun _ => Prog.Post.update rfl
  obtain ⟨u, w, hrun, hk⟩ := hpost.exists_ret (fun _ _ h => h) fun _ _ h => h
  refine ⟨⟨w.kernel, s.handles.eraseIdx i⟩, ?_, ?_⟩
  · simp only [NameSys.step, hget, Option.map_some, hrun]
  · dsimp only
    rw [hk, Kernel.closed, if_pos hrefs]
    exact Kernel.names_unlink_self _ _

theorem RefOk.unlinksOwnObject (h : RefOk s) : s.UnlinksOwnObject b := by
  refine ⟨h.linked, ?_, ?_⟩
  · intro i hd proc ctx os cell hget hown hlen hos hone
    exact h.last hget hown hlen hos hone
  · intro i hd proc ctx os cell s' hget hs hmore
    have hlt := (h.named.held hd (List.mem_of_getElem? hget)).1
    rcases close_move hget hs with hdone | hk
    · apply hdone.refcount.2
      intro hlast
      have hcount := h.count _ hlt hdone.length
      rw [hlast, show (1 : UInt32).toNat = 1 from rfl] at hcount
      omega
    · rw [hk]

end NameSys

/-- **Names do not collide, and a close removes the name its own object was made under.** -/
theorem objectNames_own (b : Build) :
    (∀ (m n : BlockName) (i j : UInt64),
      makeBlockNameBasedOnId m.chars i = makeBlockNameBasedOnId n.chars j → m = n ∧ i = j) ∧
    (∀ (n : BlockName) (i : UInt64),
      makeBlockNameBasedOnId n.chars i = '/' :: (n.chars ++ '-' :: formatId i) ∧
        ObjectName (makeBlockNameBasedOnId n.chars i)) ∧
    (∀ (n : BlockName) (field : CString), field.length = maxNameLen + 1 → '\x00' ∉ n.chars →
      (storeBlockName field n.chars).length = maxNameLen + 1 ∧
        loadBlockName (storeBlockName field n.chars) = n.chars) ∧
    (∀ s, Reach (NameSys.step b) (fun _ _ => True) .init s → s.ClosesOwnName b) ∧
    (∀ s, Reach (NameSys.step b) (fun s a => s.Fits a) .init s → s.UnlinksOwnObject b) := by
  refine ⟨?_, ?_, ?_, ?_, ?_⟩
  · intro m n i j h
    obtain ⟨hname, hid⟩ := makeBlockNameBasedOnId_injective m.length_le n.length_le h
    exact ⟨BlockName.ext hname, hid⟩
  · intro n i
    exact ⟨makeBlockNameBasedOnId_eq n.length_le i, objectName_make n i⟩
  · intro n field hfield hnul
    exact ⟨length_storeBlockName hfield n.length_le, loadBlockName_store n.length_le hnul⟩
  · intro s hr
    have hok : NameSys.NameOk s := hr.invariant NameSys.nameOk_init fun _ _ _ h _ hs =>
      h.move (NameSys.step_move hs)
    exact hok.closesOwnName
  · intro s hr
    have h0 : NameSys.RefOk .init := by
      refine ⟨NameSys.nameOk_init, ?_, ?_⟩
      · intro obj hobj
        exact absurd hobj (Nat.not_lt_zero _)
      · intro h hh
        cases hh
    have hok : NameSys.RefOk s := hr.invariant h0 fun _ _ _ h hg hs => h.step hg hs
    exact hok.unlinksOwnObject

/-- The block `("a", 1)`, created and held by its creator. -/
theorem objectNames_own_created :
    ∃ s, Reach (NameSys.step ⟨false⟩) (fun s a => s.Fits a) .init s ∧ s.handles.length = 1 ∧
      s.ClosesOwnName ⟨false⟩ ∧ s.UnlinksOwnObject ⟨false⟩ := by
  obtain ⟨-, -, -, hname, hobject⟩ := objectNames_own ⟨false⟩
  have hrun : ∃ s, Reach (NameSys.step ⟨false⟩) (fun s a => s.Fits a) .init s ∧
      s.handles.length = 1 :=
    ⟨_, .next (a := .create .initial ⟨fun e => e⟩ .willing .a 1 4096 .readWrite) .init trivial rfl,
      rfl⟩
  obtain ⟨s, hr, hlen⟩ := hrun
  exact ⟨s, hr, hlen, hname s (hr.mono fun _ _ _ => trivial), hobject s hr⟩

end Ipm
