import Ipm.Block.Unmap
import Ipm.Memory.Remap

/-!
# What the calls of a handle map and unmap

`ipm_memory_close` and `ipm_memory_clean` unmap both blocks of a handle, with the lengths in their headers
(`World.closingAll`). The calls that remap a handle take away what is at its address and put something
where `mmap` likes it (`Remapping`), and change no object but their own.
-/

set_option autoImplicit false

namespace Ipm

open Lib

/-! ## The calls -/

section Calls

variable {b : Build} {lock : IpmResult} {memory : Memory} {w : World}
variable {E : IpmResult → World → Prop} {S : Stop → World → Prop}

/-- What closing a handle unmaps, block by block. -/
def World.closingAll (w : World) (memory : Memory) (page : Nat) : Prop :=
  w.closing memory.activeClaims page ∨ w.closing memory.realMemory page

/-- A handle whose two header pages can be read, and that has not locked its blocks as a whole. -/
structure Memory.Closable (memory : Memory) (k : Kernel) : Prop where
  claims : memoryPageSize.toNat ≤ (k.objs memory.activeClaims.obj).length
  real : memoryPageSize.toNat ≤ (k.objs memory.realMemory.obj).length
  claimsFree : memory.activeClaims.hasOwnership = false
  realFree : memory.realMemory.hasOwnership = false

theorem ipmFree_undisturbed : Prog.Post ipmFree w (fun _ w' => Undisturbed w w') E S :=
  Prog.post_iff.mpr ⟨rfl, rfl⟩

theorem claimListUninit_undisturbed {obj : Nat} :
    Prog.Post (claimListUninit obj) w (fun _ w' => Undisturbed w w') E S := by
  apply Prog.Post.update
  apply undisturbed_modifyObj
  · intro o
    rfl
  · intro o
    rfl

/-- **`ipm_memory_clean`** always comes to its end. -/
theorem ipmMemoryClean_unmaps (b : Build) (claims real : Os) (h : memory.Closable w.kernel) :
    Prog.Post (ipmMemoryClean b claims real memory) w
      (fun _ w' => Unmapped (w.closingAll memory) w w') E S := by
  have hclean : ∀ {os : Os} {block : SharedMemoryBlock} {w₁ : World}, block.hasOwnership = false →
      memoryPageSize.toNat ≤ (w₁.kernel.objs block.obj).length →
      Prog.Post (sharedMemoryBlockClean b os block).ignore w₁
        (fun _ w₂ => Unmapped (w₁.closing block) w₁ w₂) E S := by
    intro os block w₁ hown hpage
    exact (sharedMemoryBlockClean_unmaps (E := fun _ _ => False) hown hpage).ignore
      (fun _ _ h => h) fun _ _ h => h.elim
  refine (hclean h.claimsFree h.claims).bind fun _ w1 h1 => ?_
  refine (hclean h.realFree (page_of_extent h.real h1.extent)).bind fun _ w2 h2 => ?_
  rw [closing_of_extent h1.extent] at h2
  exact ipmFree_undisturbed.mapRet fun _ _ h3 => (h1.trans h2).before h3

/-- `ipm_memory_release_all` comes to its end, on the list as it is. -/
def Memory.Releases (b : Build) (memory : Memory) (lock : IpmResult) (k : Kernel) : Prop :=
  (ipmMemoryReleaseAll b lock memory.realMemory.accessId
    (k.objs memory.activeClaims.obj).list).value?.isSome = true

theorem releaseAllAt_undisturbed :
    Prog.Post (releaseAllAt b lock memory.realMemory.accessId memory.activeClaims.obj) w
      (fun _ w' => Undisturbed w w') E
      (fun _ w' => Undisturbed w w' ∧ ¬ memory.Releases b lock w.kernel) := by
  have hput : ∀ list : ClaimList, Undisturbed w
      { w with kernel := w.kernel.modifyObj memory.activeClaims.obj fun o => { o with list := list } } := by
    intro list
    apply undisturbed_modifyObj
    · intro o
      rfl
    · intro o
      rfl
  rw [Prog.post_iff, releaseAllAt]
  cases hrun : ipmMemoryReleaseAll b lock memory.realMemory.accessId
      (w.kernel.objs memory.activeClaims.obj).list with
  | ret res list => exact hput list
  | stop why list =>
    refine ⟨hput list, ?_⟩
    rw [Memory.Releases, hrun]
    exact Bool.false_ne_true

/-- **`ipm_memory_close`** comes to its end when `ipm_memory_release_all` does. -/
theorem ipmMemoryClose_unmaps (b : Build) (ctx : Context) (lock : IpmResult) (claims real : Os)
    (h : memory.Closable w.kernel) :
    Prog.Post (ipmMemoryClose b ctx lock claims real memory) w
      (fun _ w' => Unmapped (w.closingAll memory) w w') E
      (fun _ w' => w'.extent = w.extent ∧ ¬ memory.Releases b lock w.kernel) := by
  have hclose : ∀ {os : Os} {block : SharedMemoryBlock} {w₁ : World} {callback : Call Unit}
      {S : Stop → World → Prop}, block.hasOwnership = false →
      memoryPageSize.toNat ≤ (w₁.kernel.objs block.obj).length →
      (∀ w₂, Prog.Post callback w₂ (fun _ w₃ => Undisturbed w₂ w₃) (fun _ _ => False) S) →
      Prog.Post (sharedMemoryBlockClose b ctx os block callback).ignore w₁
        (fun _ w₂ => Unmapped (w₁.closing block) w₁ w₂) E S := by
    intro os block w₁ callback S hown hpage hcallback
    exact (sharedMemoryBlockClose_unmaps hown hpage hcallback).ignore (fun _ _ h => h) fun _ _ h => h
  refine (releaseAllAt_undisturbed.mapStop fun _ _ h => ⟨h.1.extent, h.2⟩).bind fun _ w0 h0 => ?_
  refine (hclose h.claimsFree (page_of_extent h.claims h0.extent)
    fun _ => claimListUninit_undisturbed).bind fun _ w1 h1 => ?_
  rw [closing_of_extent h0.extent] at h1
  have hw1 : Unmapped (w.closing memory.activeClaims) w w1 := h1.after h0
  refine (hclose h.realFree (page_of_extent h.real hw1.extent)
    fun w₂ => Prog.Post.pure (Undisturbed.refl w₂)).bind fun _ w2 h2 => ?_
  rw [closing_of_extent hw1.extent] at h2
  exact ipmFree_undisturbed.mapRet fun _ _ h3 => (hw1.trans h2).before h3

end Calls

/-! ## Remapping -/

section Remap

variable {b : Build} {ctx : Context} {os : Os} {e : RemapEnv} {memory : Memory} {w : World}
variable {block : SharedMemoryBlock} {mode : AccessMode}

/-- What a remapping can do, with `size` the length of what it maps: what was at the handle's address may
go, what comes is where `mmap` puts it, and a handle that still has an address has what it had. -/
structure Remapping (os : Os) (size : UInt64) (block : SharedMemoryBlock) (p : Proc)
    (after : SharedMemoryBlock) (p' : Proc) : Prop where
  header : after.header = block.header
  memFd : after.memFd = block.memFd
  hasOwnership : after.hasOwnership = block.hasOwnership
  same : after.memory ≠ 0 →
    after.memory = block.memory ∧ after.size = block.size ∧ p'.pages = p.pages
  pages : ∀ page, p'.pages page = p.pages page ∨ Reaches block.memory block.size page ∨
    ∃ addr, os.bodyMmap = .ok addr ∧ Reaches addr size page

theorem Remapping.untouched {size : UInt64} {p p' : Proc} (h : p'.pages = p.pages) :
    Remapping os size block p block p' :=
  ⟨rfl, rfl, rfl, fun _ => ⟨rfl, rfl, h⟩, fun page => .inl (congrFun h page)⟩

theorem Remapping.of_pages {size : UInt64} {p p₁ p' : Proc} {after : SharedMemoryBlock}
    (h : Remapping os size block p₁ after p') (hp : p₁.pages = p.pages) :
    Remapping os size block p after p' := by
  refine ⟨h.header, h.memFd, h.hasOwnership, ?_, ?_⟩
  · rw [← hp]
    exact h.same
  · rw [← hp]
    exact h.pages

/-- A mapping takes the place of what was there. -/
theorem mmap_pages_post {res : Except Failure Nat} {file : File} {length offset : UInt64}
    {E : IpmResult → World → Prop} {S : Stop → World → Prop} :
    Prog.Post (mmap res file length mode offset) w
      (fun _ w' => ∀ page, w'.proc.pages page = w.proc.pages page ∨
        ∃ addr, res = .ok addr ∧ Reaches addr length page) E S := by
  refine mmap_cases_post.mapRet fun r w' h page => ?_
  cases h with
  | @mapped addr hmaps hres =>
    by_cases hcovered : Covers addr length page
    · exact .inr ⟨addr, hres, hmaps.inSpace hres, hcovered⟩
    · exact .inl (if_neg hcovered)
  | refused hnot => exact .inl rfl

theorem updateMapping_remapping {E : IpmResult → World → Prop} :
    Prog.Post (sharedMemoryBlockUpdateMapping ctx os block mode) w
      (fun r w' => w'.kernel = w.kernel ∧
        Remapping os (w.kernel.header block.obj).blockSize block w.proc r.2 w'.proc)
      E (fun _ _ => True) := by
  refine (getHeader_any_post.mapStop fun _ _ _ => trivial).bind fun hd w1 h1 => ?_
  obtain ⟨rfl, rfl⟩ := h1
  dsimp only
  split
  · exact Prog.Post.pure ⟨rfl, .untouched rfl⟩
  · refine (munmap_unmaps.also (munmap_keeps w1)).bind fun _ w2 h2 => ?_
    refine (mmap_pages_post.also (mmap_keeps w2)).bind fun r w3 h3 => ?_
    have hkernel : w3.kernel = w1.kernel := h3.2.trans h2.2
    have hpages : ∀ page, w3.proc.pages page = w1.proc.pages page ∨
        Reaches block.memory block.size page ∨ ∃ addr, os.bodyMmap = .ok addr ∧
          Reaches addr (w1.kernel.header block.obj).blockSize page := by
      intro page
      by_cases hown : Reaches block.memory block.size page
      · exact .inr (.inl hown)
      · rcases h3.1 page with hkept | hmapped
        · exact .inl (hkept.trans (h2.1.kept page hown))
        · exact .inr (.inr hmapped)
    cases r with
    | none =>
      refine (ipmError_undisturbed.also (ipmError_keeps w3)).bind fun _ w4 h4 => Prog.Post.pure ?_
      refine ⟨h4.2.trans hkernel, rfl, rfl, rfl, fun hne => absurd rfl hne, ?_⟩
      rw [h4.1.pages]
      exact hpages
    | some addr =>
      exact Prog.Post.pure ⟨hkernel, rfl, rfl, rfl, fun hne => absurd rfl hne, hpages⟩

theorem resizeRemap_remapping {newSize : UInt64} {sec : Section} {E : IpmResult → World → Prop} :
    Prog.Post (resizeRemap ctx os block newSize sec) w
      (fun r w' => w'.kernel = w.kernel ∧
        Remapping os (w.kernel.header block.obj).blockSize block w.proc r.2 w'.proc)
      E (fun _ _ => True) := by
  cases hsec : sec.remaps block newSize with
  | false =>
    obtain ⟨res, hremap⟩ := resizeRemap_short hsec
    rw [hremap]
    exact Prog.Post.pure ⟨rfl, .untouched rfl⟩
  | true =>
    cases sec with
    | refused res => cases hsec
    | same =>
      rw [resizeRemap, if_pos (of_decide_eq_true hsec)]
      exact updateMapping_remapping
    | grown => exact updateMapping_remapping

/-- **What a call does to the address space.** -/
theorem RemapCall.run_remapping (call : RemapCall) {E : IpmResult → World → Prop} :
    Prog.Post (call.run b e memory) w
      (fun r w' => r.memory.activeClaims = memory.activeClaims ∧
        Remapping e.os (w'.kernel.header memory.realMemory.obj).blockSize memory.realMemory w.proc
          r.memory.realMemory w'.proc)
      E (fun _ _ => True) := by
  have hupdate : ∀ (access : AccessMode) (asked : Option AccessMode),
      Prog.Post (do
          let r ← sharedMemoryBlockUpdateMapping e.ctx e.os memory.realMemory access
          return (⟨asked, r.1, { memory with realMemory := r.2 }⟩ : Remapped)) w
        (fun r w' => r.memory.activeClaims = memory.activeClaims ∧
          Remapping e.os (w'.kernel.header memory.realMemory.obj).blockSize memory.realMemory w.proc
            r.memory.realMemory w'.proc)
        E (fun _ _ => True) := by
    intro access asked
    refine updateMapping_remapping.bind fun r w1 h1 => Prog.Post.pure ⟨rfl, ?_⟩
    rw [h1.1]
    exact h1.2
  cases call with
  | sync =>
    simp only [run, ipmMemorySync, bind_assoc, pure_bind]
    exact hupdate _ _
  | changeAccess access =>
    simp only [run, ipmMemoryChangeAccess, bind_assoc, pure_bind]
    exact hupdate _ _
  | resizeGrow newSize =>
    rw [run, resizeGrowNoted]
    refine (growCheck_lets_post.also (growCheck_keepsPages w)).bind fun r w1 h1 => ?_
    have hp1 : w1.proc.pages = w.proc.pages := h1.2
    cases r with
    | none => exact Prog.Post.pure ⟨rfl, .untouched hp1⟩
    | some size =>
      refine ((resizeSection_post.mapStop fun _ _ _ => trivial).also
        (resizeSection_keepsPages w1)).bind fun sec w2 h2 => ?_
      have hp2 : w2.proc.pages = w.proc.pages := h2.2.trans hp1
      refine resizeRemap_remapping.bind fun r w3 h3 => Prog.Post.pure ⟨rfl, ?_⟩
      rw [h3.1]
      exact h3.2.of_pages hp2

/-- The objects beside one. -/
def World.elsewhere (obj : Nat) (w : World) (i : { i : Nat // i ≠ obj }) : ShmObject := w.kernel.objs i

theorem elsewhere_of_kernel {obj : Nat} {w' : World} (h : w'.kernel = w.kernel) :
    w'.elsewhere obj = w.elsewhere obj := by
  funext i
  rw [World.elsewhere, h]
  rfl

theorem elsewhere_of_keeps {α : Type} {obj : Nat} {p : Call α} (h : Prog.Keeps World.kernel p) :
    Prog.Keeps (World.elsewhere obj) p := by
  intro w
  exact (h w).mono (fun _ _ h' => elsewhere_of_kernel h') (fun _ _ h' => elsewhere_of_kernel h')
    fun _ _ h' => elsewhere_of_kernel h'

theorem elsewhere_modifyObj {obj : Nat} {f : ShmObject → ShmObject} {w' : World}
    (h : w'.kernel = w.kernel.modifyObj obj f) : w'.elsewhere obj = w.elsewhere obj := by
  funext i
  rw [World.elsewhere, h, Kernel.objs_modifyObj_ne _ _ i.2]
  rfl

theorem resizeSection_elsewhere {lock : IpmResult} {newSize : UInt64} :
    Prog.Keeps (World.elsewhere block.obj) (resizeSection ctx os lock block newSize) := by
  intro w
  refine resizeSection_post.mono (fun sec w' h => ?_) (fun _ _ h => h) fun _ w' h => ?_
  · cases sec with
    | refused res => exact elsewhere_of_kernel h.1
    | same => exact elsewhere_of_kernel h.1
    | grown => exact elsewhere_modifyObj h.2.2.2.2
  · rcases h with hk | ⟨-, -, -, hk⟩
    · exact elsewhere_of_kernel hk
    · exact elsewhere_modifyObj hk

theorem updateMapping_keeps : Prog.Keeps World.kernel (sharedMemoryBlockUpdateMapping ctx os block mode) := by
  intro w
  exact updateMapping_post.mapRet fun _ _ h => h.1

/-- A call changes no object but its own. -/
theorem RemapCall.run_elsewhere (call : RemapCall) :
    Prog.Keeps (World.elsewhere memory.realMemory.obj) (call.run b e memory) := by
  cases call with
  | sync =>
    simp only [run, ipmMemorySync, bind_assoc, pure_bind]
    exact (elsewhere_of_keeps updateMapping_keeps).bind fun _ => .pure _
  | changeAccess access =>
    simp only [run, ipmMemoryChangeAccess, bind_assoc, pure_bind]
    exact (elsewhere_of_keeps updateMapping_keeps).bind fun _ => .pure _
  | resizeGrow newSize =>
    rw [run, resizeGrowNoted]
    refine (elsewhere_of_keeps GrowSys.growCheck_keeps).bind fun r => ?_
    cases r with
    | none => exact .pure _
    | some size =>
      refine resizeSection_elsewhere.bind fun sec => ?_
      refine (elsewhere_of_keeps ?_).bind fun _ => .pure _
      intro w
      exact resizeRemap_post.mapRet fun _ _ h => h.1

end Remap

end Ipm
