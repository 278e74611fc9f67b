import Ipm.Block.Pages

/-!
# What closing a block unmaps

`shared_memory_block_close` and `shared_memory_block_clean` unmap the body and the header page, the body
with the length that stands in the header by then. `Unmapped` says what a call takes out of an address
space; everything else that is mapped stays, and so do the sizes of all blocks.
-/

set_option autoImplicit false

namespace Ipm

open Lib

/-- How long an object is, and what its header gives as the size of its block. -/
def World.extent (w : World) (obj : Nat) : Nat × UInt64 :=
  ((w.kernel.objs obj).length, (w.kernel.header obj).blockSize)

/-- From `w` to `w'` the pages in `R` have gone, and no others. -/
structure Unmapped (R : Nat → Prop) (w w' : World) : Prop where
  gone : ∀ page, R page → w'.proc.pages page = none
  kept : ∀ page, ¬ R page → w'.proc.pages page = w.proc.pages page
  extent : w'.extent = w.extent

/-- Nothing was unmapped, and nothing was mapped either. -/
structure Undisturbed (w w' : World) : Prop where
  pages : w'.proc.pages = w.proc.pages
  extent : w'.extent = w.extent

section Unmapped

variable {R R' : Nat → Prop} {w w' w'' : World}

theorem Undisturbed.refl (w : World) : Undisturbed w w := ⟨rfl, rfl⟩

theorem Undisturbed.trans (h : Undisturbed w w') (h' : Undisturbed w' w'') : Undisturbed w w'' :=
  ⟨h'.pages.trans h.pages, h'.extent.trans h.extent⟩

/-- The header page of an object is still there. -/
theorem page_of_extent {obj : Nat} (hpage : memoryPageSize.toNat ≤ (w.kernel.objs obj).length)
    (h : w'.extent = w.extent) : memoryPageSize.toNat ≤ (w'.kernel.objs obj).length := by
  have hlength : (w'.extent obj).1 = (w.extent obj).1 := by rw [h]
  exact hpage.trans_eq hlength.symm

theorem Unmapped.trans (h : Unmapped R w w') (h' : Unmapped R' w' w'') :
    Unmapped (fun page => R page ∨ R' page) w w'' := by
  refine ⟨?_, ?_, h'.extent.trans h.extent⟩
  · intro page hgone
    by_cases hlast : R' page
    · exact h'.gone page hlast
    · rw [h'.kept page hlast]
      exact h.gone page (hgone.resolve_right hlast)
  · intro page hnot
    rw [h'.kept page fun hlast => hnot (.inr hlast)]
    exact h.kept page fun hfirst => hnot (.inl hfirst)

theorem Unmapped.after (h : Unmapped R w' w'') (hbefore : Undisturbed w w') : Unmapped R w w'' := by
  refine ⟨h.gone, ?_, h.extent.trans hbefore.extent⟩
  intro page hnot
  rw [h.kept page hnot, hbefore.pages]

theorem Unmapped.before (h : Unmapped R w w') (hafter : Undisturbed w' w'') : Unmapped R w w'' := by
  refine ⟨?_, ?_, hafter.extent.trans h.extent⟩
  · intro page hgone
    rw [hafter.pages]
    exact h.gone page hgone
  · intro page hnot
    rw [hafter.pages]
    exact h.kept page hnot

end Unmapped

/-! ## Calls that unmap nothing -/

section Undisturbed

variable {E : IpmResult → World → Prop} {S : Stop → World → Prop} {w : World} {obj : Nat}
variable {ctx : Context} {os : Os} {file : File} {path : CString}

theorem closeFd_undisturbed :
    Prog.Post (closeFd os file) w (fun _ w' => Undisturbed w w') E S :=
  Prog.post_iff.mpr ⟨rfl, rfl⟩

theorem ipmError_undisturbed : Prog.Post (ipmError ctx) w (fun _ w' => Undisturbed w w') E S :=
  Prog.post_iff.mpr ⟨rfl, rfl⟩

theorem errno_undisturbed : Prog.Post errno w (fun _ w' => Undisturbed w w') E S :=
  Prog.post_iff.mpr ⟨rfl, rfl⟩

/-- A change of an object that is not one of its length or its size. -/
theorem undisturbed_modifyObj (w : World) (obj : Nat) {f : ShmObject → ShmObject}
    (hlength : ∀ o, (f o).length = o.length)
    (hsize : ∀ o, (f o).header.blockSize = o.header.blockSize) :
    Undisturbed w { w with kernel := w.kernel.modifyObj obj f } := by
  refine ⟨rfl, ?_⟩
  funext i
  show (((w.kernel.modifyObj obj f).objs i).length, ((w.kernel.modifyObj obj f).objs i).header.blockSize)
    = ((w.kernel.objs i).length, (w.kernel.objs i).header.blockSize)
  by_cases hi : i = obj
  · rw [hi, Kernel.objs_modifyObj_self, hlength, hsize]
  · rw [Kernel.objs_modifyObj_ne _ _ hi]

theorem setHeader_undisturbed {f : Header → Header} (hf : ∀ h, (f h).blockSize = h.blockSize)
    (hpage : memoryPageSize.toNat ≤ (w.kernel.objs obj).length) :
    Prog.Post (setHeader obj f) w (fun _ w' => Undisturbed w w') E S := by
  rw [Prog.post_iff, setHeader, if_neg (Nat.not_lt.mpr hpage)]
  apply undisturbed_modifyObj
  · intro o
    rfl
  · intro o
    exact hf o.header

theorem releaseRef_undisturbed (hpage : memoryPageSize.toNat ≤ (w.kernel.objs obj).length) :
    Prog.Post (releaseRef obj) w (fun _ w' => Undisturbed w w') E S := by
  refine (getHeader_post hpage).bind fun hd w1 h1 => ?_
  obtain ⟨rfl, -⟩ := h1
  refine (setHeader_undisturbed ?_ hpage).bind fun _ w2 h2 => Prog.Post.pure h2
  intro h
  rfl

theorem destroyMutex_undisturbed (hpage : memoryPageSize.toNat ≤ (w.kernel.objs obj).length) :
    Prog.Post (destroyMutex obj) w (fun _ w' => Undisturbed w w') E S := by
  apply setHeader_undisturbed _ hpage
  intro h
  rfl

theorem shmUnlink_undisturbed : Prog.Post (shmUnlink os path) w (fun _ w' => Undisturbed w w') E S := by
  rw [Prog.post_iff, shmUnlink]
  cases os.unlink with
  | some e => exact ⟨rfl, rfl⟩
  | none =>
    cases w.kernel.names path with
    | some obj => exact ⟨rfl, rfl⟩
    | none => exact ⟨rfl, rfl⟩

end Undisturbed

/-! ## Calls that do -/

section Close

variable {b : Build} {ctx : Context} {os : Os} {block : SharedMemoryBlock} {w : World}
variable {E : IpmResult → World → Prop} {S : Stop → World → Prop}

/-- What `munmap` goes for: the range as a whole, or nothing. -/
def Reaches (addr : Nat) (length : UInt64) (page : Nat) : Prop :=
  InSpace addr length ∧ Covers addr length page

instance (addr : Nat) (length : UInt64) (page : Nat) : Decidable (Reaches addr length page) :=
  inferInstanceAs (Decidable (_ ∧ _))

theorem reaches_of_inSpace {addr : Nat} {length : UInt64} (h : InSpace addr length) :
    Reaches addr length = Covers addr length := by
  funext page
  exact propext ⟨fun hreaches => hreaches.2, fun hcovers => ⟨h, hcovers⟩⟩

theorem munmap_unmaps {addr : Nat} {length : UInt64} :
    Prog.Post (munmap os addr length) w (fun _ w' => Unmapped (Reaches addr length) w w') E S := by
  by_cases hin : InSpace addr length
  · rw [Prog.post_iff, munmap_of_inSpace hin]
    refine ⟨?_, ?_, rfl⟩
    · intro page hreaches
      exact if_pos hreaches.2
    · intro page hnot
      exact if_neg fun hcovered => hnot ⟨hin, hcovered⟩
  · apply Prog.Post.update
    rw [if_neg hin]
    exact ⟨fun page hreaches => absurd hreaches.1 hin, fun page _ => rfl, rfl⟩

/-- What goes with a block: `size` bytes of its body, and the header page. -/
def SharedMemoryBlock.Range (block : SharedMemoryBlock) (size : UInt64) (page : Nat) : Prop :=
  Covers block.memory size page ∨ Covers block.header memoryPageSize page

/-- What of these is in reach of `munmap`. -/
def SharedMemoryBlock.InReach (block : SharedMemoryBlock) (size : UInt64) (page : Nat) : Prop :=
  Reaches block.memory size page ∨ Reaches block.header memoryPageSize page

/-- What closing `block` unmaps. -/
def World.closing (w : World) (block : SharedMemoryBlock) : Nat → Prop :=
  block.InReach (w.kernel.header block.obj).blockSize

/-- A body and a header that lie in the address space. -/
def SharedMemoryBlock.InSpace (block : SharedMemoryBlock) (size : UInt64) : Prop :=
  Ipm.InSpace block.memory size ∧ Ipm.InSpace block.header memoryPageSize

theorem SharedMemoryBlock.InSpace.reach_eq {size : UInt64} (h : block.InSpace size) :
    block.InReach size = block.Range size := by
  funext page
  unfold SharedMemoryBlock.InReach SharedMemoryBlock.Range
  rw [reaches_of_inSpace h.1, reaches_of_inSpace h.2]

theorem closing_of_extent {w' : World} (h : w'.extent = w.extent) : w'.closing block = w.closing block := by
  have hsize : (w'.extent block.obj).2 = (w.extent block.obj).2 := by rw [h]
  show block.InReach (w'.extent block.obj).2 = block.InReach (w.extent block.obj).2
  rw [hsize]

theorem unmapBlock_unmaps (hpage : memoryPageSize.toNat ≤ (w.kernel.objs block.obj).length) :
    Prog.Post (unmapBlock os block) w (fun _ w' => Unmapped (w.closing block) w w') E S := by
  refine (getHeader_post hpage).bind fun hd w1 h1 => ?_
  obtain ⟨rfl, rfl⟩ := h1
  refine munmap_unmaps.bind fun _ w2 h2 => ?_
  exact munmap_unmaps.mapRet fun _ _ h3 => h2.trans h3

/-- Whether or not there is a name to remove. -/
theorem unlinkBlock_unmaps (hpage : memoryPageSize.toNat ≤ (w.kernel.objs block.obj).length) :
    Prog.Post (unlinkBlock ctx os block) w (fun _ w' => Unmapped (w.closing block) w w')
      (fun _ w' => Unmapped (w.closing block) w w') S := by
  refine (getHeader_post hpage).bind fun hd w1 h1 => ?_
  obtain ⟨rfl, rfl⟩ := h1
  refine munmap_unmaps.bind fun _ w2 h2 => munmap_unmaps.bind fun _ w3 h3 => ?_
  have hboth : Unmapped (w1.closing block) w1 w3 := h2.trans h3
  refine shmUnlink_undisturbed.bind fun done w4 h4 => ?_
  cases done with
  | true => exact Prog.Post.pure (hboth.before h4)
  | false =>
    refine ipmError_undisturbed.bind fun _ w5 h5 => errno_undisturbed.bind fun e w6 h6 => ?_
    exact Prog.Post.fail (((hboth.before h4).before h5).before h6)

/-- **What `shared_memory_block_close` unmaps**, whether or not it is the last one; it does not get
stuck on the way. -/
theorem sharedMemoryBlockClose_unmaps {callback : Call Unit} (hown : block.hasOwnership = false)
    (hpage : memoryPageSize.toNat ≤ (w.kernel.objs block.obj).length)
    (hcallback : ∀ w₁, Prog.Post callback w₁ (fun _ w₂ => Undisturbed w₁ w₂) (fun _ _ => False) S) :
    Prog.Post (sharedMemoryBlockClose b ctx os block callback) w
      (fun _ w' => Unmapped (w.closing block) w w')
      (fun _ w' => Unmapped (w.closing block) w w') S := by
  unfold sharedMemoryBlockClose
  refine (Prog.Post.assert_holds fun _ => by simp [hown]).bind fun _ w₀ h₀ => ?_
  subst h₀
  refine closeFd_undisturbed.bind fun _ w1 h1 => ?_
  refine (releaseRef_undisturbed (page_of_extent hpage h1.extent)).bind fun refs w2 h2 => ?_
  have hw2 := h1.trans h2
  by_cases hlast : refs = 1
  · rw [if_pos hlast]
    refine ((hcallback w2).mono (fun _ _ h => h) (fun _ _ h => h.elim) fun _ _ h => h).bind
      fun _ w3 h3 => ?_
    have hw3 := hw2.trans h3
    refine (destroyMutex_undisturbed (page_of_extent hpage hw3.extent)).bind fun _ w4 h4 => ?_
    have hw4 := hw3.trans h4
    rw [← closing_of_extent hw4.extent]
    exact (unlinkBlock_unmaps (page_of_extent hpage hw4.extent)).mono (fun _ _ h => h.after hw4)
      (fun _ _ h => h.after hw4) fun _ _ h => h
  · rw [if_neg hlast, ← closing_of_extent hw2.extent]
    exact (unmapBlock_unmaps (page_of_extent hpage hw2.extent)).mapRet fun _ _ h => h.after hw2

/-- **What `shared_memory_block_clean` unmaps.** -/
theorem sharedMemoryBlockClean_unmaps (hown : block.hasOwnership = false)
    (hpage : memoryPageSize.toNat ≤ (w.kernel.objs block.obj).length) :
    Prog.Post (sharedMemoryBlockClean b os block) w (fun _ w' => Unmapped (w.closing block) w w') E
      S := by
  unfold sharedMemoryBlockClean
  refine (Prog.Post.assert_holds fun _ => by simp [hown]).bind fun _ w₀ h₀ => ?_
  subst h₀
  refine closeFd_undisturbed.bind fun _ w1 h1 => ?_
  rw [← closing_of_extent h1.extent]
  exact (unmapBlock_unmaps (page_of_extent hpage h1.extent)).mapRet fun _ _ h => h.after h1

/-- A block whose header page has gone is not cleaned up: the process ends at the header. -/
theorem sharedMemoryBlockClean_fault (b : Build) (os : Os) (hown : block.hasOwnership = false)
    (hcut : (w.kernel.objs block.obj).length < memoryPageSize.toNat) :
    ∃ w', sharedMemoryBlockClean b os block w = .stop .fault w' := by
  have hassert : (Prog.assert b (!block.hasOwnership) : Call Unit) w = .ret (.ok ()) w := by
    rw [hown]
    exact Build.check_true b w _
  rw [sharedMemoryBlockClean, Prog.bind_ok hassert]
  obtain ⟨w1, hclose, hk⟩ : ∃ w1, closeFd os block.memFd w = .ret (.ok ()) w1 ∧ w1.kernel = w.kernel :=
    ⟨_, rfl, rfl⟩
  have hheader : getHeader block.obj w1 = .stop .fault w1 := by
    rw [getHeader, hk, if_pos hcut]
  rw [Prog.bind_ok hclose, unmapBlock, Prog.bind_stop hheader]
  exact ⟨w1, rfl⟩

end Close

end Ipm
