import Ipm.Block.Spec

/-!
# What growing a block does to the kernel

`shared_memory_block_resize` piece by piece: the assertions before the lock, the critical section and
the remapping after it. Only the critical section writes, and it writes in two steps. When the new
length leaves no room for the header page, the second one finds no header to write to.
-/

set_option autoImplicit false

namespace Ipm

open Lib

/-- The object after a critical section that truncated it. -/
def ShmObject.grown (newSize : UInt64) (o : ShmObject) : ShmObject :=
  let o := o.resize (memoryPageSize + newSize).toNat
  { o with header := { o.header with blockSize := newSize } }

theorem ShmObject.length_resize (o : ShmObject) (length : Nat) : (o.resize length).length = length := by
  unfold resize
  split <;> rfl

/-- A length with room for the header page keeps the header. -/
theorem ShmObject.resize_of_le (o : ShmObject) {length : Nat} (h : memoryPageSize.toNat ≤ length) :
    o.resize length = { o with length := length } :=
  if_neg (Nat.not_lt.mpr h)

variable {b : Build} {ctx : Context} {os : Os} {w : World} {lock : IpmResult}
variable {block : SharedMemoryBlock} {newSize : UInt64} {access : AccessMode}

theorem resizeTruncateError_ne_success (e : Errno) : resizeTruncateError e ≠ .success := by
  cases e <;> exact nofun

/-- The assertions: with them compiled in, the size asked for is no smaller than the block's, a
multiple of the page size and positive. -/
theorem resizeCheck_post {E : IpmResult → World → Prop} :
    Prog.Post (resizeCheck b block newSize) w
      (fun _ w' => w'.kernel = w.kernel ∧ (b.ndebug = false →
        (w.kernel.header block.obj).blockSize ≤ newSize ∧ newSize > 0)) E
      (fun _ w' => w'.kernel = w.kernel) := by
  have hassert : ∀ (c : Bool) (w₁ : World), w₁.kernel = w.kernel →
      Prog.Post (Prog.assert b c : Call Unit) w₁
        (fun _ w' => w'.kernel = w.kernel ∧ (b.ndebug = false → c = true)) E
        (fun _ w' => w'.kernel = w.kernel) := fun c w₁ h₁ =>
    Prog.Post.asserted.mono (fun _ _ h => ⟨h.1 ▸ h₁, h.2⟩) (fun _ _ h => h) fun _ _ h => h.2.1 ▸ h₁
  refine (getHeader_any_post.mapStop fun _ _ h => h ▸ rfl).bind fun hd w1 h1 => ?_
  obtain ⟨rfl, rfl⟩ := h1
  refine (hassert _ w1 rfl).bind fun _ w2 h2 => (hassert _ w2 h2.1).bind fun _ w3 h3 => ?_
  refine (hassert _ w3 h3.1).mapRet fun _ w4 h4 => ⟨h4.1, fun hb => ⟨?_, ?_⟩⟩
  · exact of_decide_eq_true (h2.2 hb)
  · exact of_decide_eq_true (h4.2 hb)

/-- How the critical section ends. -/
def SectionDone (os : Os) (lock : IpmResult) (block : SharedMemoryBlock) (newSize : UInt64)
    (k k' : Kernel) : Section → Prop
  | .refused res => k' = k ∧ res ≠ .success
  | .same => k' = k ∧ newSize = (k.header block.obj).blockSize
  | .grown => lock = .success ∧ os.ftruncate = none ∧
      (memoryPageSize + newSize).toNat < lengthLimit ∧
      memoryPageSize.toNat ≤ (memoryPageSize + newSize).toNat ∧
      k' = k.modifyObj block.obj (ShmObject.grown newSize)

/-- How a process is stopped in it: at a header that is not there, or that it has just cut off. -/
def SectionStopped (os : Os) (lock : IpmResult) (block : SharedMemoryBlock) (newSize : UInt64)
    (k k' : Kernel) : Prop :=
  k' = k ∨ lock = .success ∧ os.ftruncate = none ∧
    (memoryPageSize + newSize).toNat < memoryPageSize.toNat ∧
    k' = k.modifyObj block.obj (·.resize (memoryPageSize + newSize).toNat)

theorem resizeSection_post {E : IpmResult → World → Prop} :
    Prog.Post (resizeSection ctx os lock block newSize) w
      (fun sec w' => SectionDone os lock block newSize w.kernel w'.kernel sec) E
      (fun _ w' => SectionStopped os lock block newSize w.kernel w'.kernel) := by
  unfold resizeSection
  split
  · rename_i hlock
    exact ipmError_post.bind fun _ w1 h1 => Prog.Post.pure ⟨h1, hlock⟩
  · rename_i hlock
    rw [not_not] at hlock
    refine (getHeader_any_post.mapStop fun _ _ h => .inl (h ▸ rfl)).bind fun hd w1 h1 => ?_
    obtain ⟨rfl, rfl⟩ := h1
    split
    · exact Prog.Post.pure ⟨rfl, ‹_›⟩
    · refine ftruncate_post.bind fun done w2 h2 => ?_
      cases done with
      | true =>
        obtain ⟨hlt, htrunc, h2⟩ := h2
        have hlen : (w2.kernel.objs block.obj).length = (memoryPageSize + newSize).toNat := by
          rw [h2]
          exact (congrArg _ (Kernel.objs_modifyObj_self _ _ _)).trans (ShmObject.length_resize _ _)
        by_cases hpage : memoryPageSize.toNat ≤ (memoryPageSize + newSize).toNat
        · refine (setHeader_post (by rw [hlen]; exact hpage)).bind fun _ w3 h3 => ?_
          refine Prog.Post.pure ⟨hlock, htrunc, hlt, hpage, ?_⟩
          rw [h3, h2]
          exact Kernel.modifyObj_modifyObj _ _ _ _
        · -- the header page is gone, and with it the place to write the size to
          have hfault : setHeader block.obj (fun h => { h with blockSize := newSize }) w2 =
              .stop .fault w2 := by
            rw [setHeader, hlen, if_pos (Nat.lt_of_not_le hpage)]
          rw [Prog.post_iff, if_pos rfl, Prog.bind_stop hfault]
          exact .inr ⟨hlock, htrunc, Nat.lt_of_not_le hpage, h2⟩
      | false =>
        refine ipmError_post.bind fun _ w3 h3 => errno_post.bind fun e w4 h4 => ?_
        exact Prog.Post.pure ⟨h4.trans (h3.trans h2), resizeTruncateError_ne_success e⟩

/-- The remapping reads the header and leaves it alone. The block is mapped with the size the header
has now, or not at all, or as before. -/
theorem updateMapping_post {E : IpmResult → World → Prop} :
    Prog.Post (sharedMemoryBlockUpdateMapping ctx os block access) w
      (fun r w' => w'.kernel = w.kernel ∧ r.2.obj = block.obj ∧
        (r.2.size = (w.kernel.header block.obj).blockSize ∨ r.2.size = 0)) E
      (fun _ w' => w'.kernel = w.kernel) := by
  refine (getHeader_any_post.mapStop fun _ _ h => h ▸ rfl).bind fun hd w1 h1 => ?_
  obtain ⟨rfl, rfl⟩ := h1
  dsimp only
  split
  · rename_i hsame
    exact Prog.Post.pure ⟨rfl, rfl, .inl hsame.1⟩
  · refine munmap_post.bind fun _ w2 h2 => mmap_post.bind fun r w3 h3 => ?_
    have hw3 := h3.1.trans h2
    cases r with
    | none =>
      exact ipmError_post.bind fun _ w4 h4 => Prog.Post.pure ⟨h4.trans hw3, rfl, .inr rfl⟩
    | some addr => exact Prog.Post.pure ⟨hw3, rfl, .inl rfl⟩

/-- After the critical section the kernel is left alone, and a section that refused is reported. -/
theorem resizeRemap_post {E : IpmResult → World → Prop} {sec : Section} :
    Prog.Post (resizeRemap ctx os block newSize sec) w
      (fun r w' => w'.kernel = w.kernel ∧ r.2.obj = block.obj ∧
        (r.2.size = (w.kernel.header block.obj).blockSize ∨ r.2.size = 0 ∨
          r.2.size = block.size) ∧ ∀ res, sec = .refused res → r.1 = res) E
      (fun _ w' => w'.kernel = w.kernel) := by
  have hmap : ∀ sec : Section, (∀ res, sec ≠ .refused res) →
      Prog.Post (sharedMemoryBlockUpdateMapping ctx os block block.accessMode) w
        (fun r w' => w'.kernel = w.kernel ∧ r.2.obj = block.obj ∧
          (r.2.size = (w.kernel.header block.obj).blockSize ∨ r.2.size = 0 ∨
            r.2.size = block.size) ∧ ∀ res, sec = .refused res → r.1 = res) E
        (fun _ w' => w'.kernel = w.kernel) := by
    intro sec hsec
    refine updateMapping_post.mapRet fun r w' h => ?_
    exact ⟨h.1, h.2.1, h.2.2.imp_right .inl, fun res hres => absurd hres (hsec res)⟩
  cases sec with
  | refused res =>
    refine Prog.Post.pure ⟨rfl, rfl, .inr (.inr rfl), ?_⟩
    rintro _ ⟨rfl⟩
    rfl
  | same =>
    by_cases hsize : newSize ≠ block.size
    · simp only [resizeRemap, if_pos hsize]
      exact hmap .same nofun
    · simp only [resizeRemap, if_neg hsize]
      exact Prog.Post.pure ⟨rfl, rfl, .inr (.inr rfl), nofun⟩
  | grown => exact hmap .grown nofun

end Ipm
