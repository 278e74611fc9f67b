import Ipm.Core.Callbacks
import Ipm.Lib.Threads
import Ipm.Memory.Remap
import Ipm.Memory.Undo

/-!
# Descriptors and allocations

Every handle costs its process two descriptors, one for each object, and one allocation, the `ipm_memory`
itself. Here processes come, fork and go, and make calls with their handles, and the calls end as the
environment has it: with a handle, with an error somewhere on the way, or with the end of the process.
Nothing is asked of the environment, and nothing of the callers.

In every state of every run a process has exactly what its handles cost (`balanced_of_reach`): no unwinding
forgets a descriptor or closes one twice, and no error path keeps or frees an `ipm_memory` it should not.
The mappings are another matter (`Memory/Closing.lean`).
-/

set_option autoImplicit false

namespace Ipm

open Lib

/-! ## What is counted -/

section Counted

variable {σ : Type} {callbacks : Callbacks σ} {s s' : Served σ} {w : World} {ctx : Context}

/-- The allocations a process has are the ones the user is owed. -/
def World.Owes (w : World) (s : Served σ) : Prop :=
  ∃ owed, owedAfter [] s.uses = some owed ∧ w.proc.allocs = owed.length

theorem World.Owes.of_serves {complaints : List Complaint} {w' : World} {owed owed' : List Nat}
    (howed : owedAfter [] s.uses = some owed) (hserves : Serves callbacks s s' complaints owed owed')
    (hallocs : w'.proc.allocs = owed'.length) : w'.Owes s' := by
  obtain ⟨uses, huses, hafter, -⟩ := hserves
  refine ⟨owed', ?_, hallocs⟩
  rw [huses, owedAfter_append, howed]
  exact hafter

/-- An allocation. -/
theorem ipmAlloc_owes {size : UInt64} {ptr : Option Nat} (h : w.Owes s)
    (halloc : callbacks.ipmAllocReal size s = (ptr, s')) :
    Prog.Post (ipmAlloc ctx ptr.isSome) w (fun _ w' => w'.Owes s') (fun _ w' => w'.Owes s')
      fun _ _ => False := by
  obtain ⟨owed, howed, hallocs⟩ := h
  have hserves := ipmAllocReal_serves owed halloc
  refine ipmAlloc_takes.mono (fun _ w' hw => ?_) (fun _ w' hw => ?_) fun _ _ h => h
  · obtain ⟨p, rfl⟩ := Option.isSome_iff_exists.mp hw.1
    rw [hw.2]
    exact .of_serves howed hserves (congrArg (· + 1) hallocs)
  · obtain rfl := Option.not_isSome_iff_eq_none.mp hw.1
    have hkept : w'.proc.allocs = w.proc.allocs := (Prod.mk.inj hw.2.2.counts).2
    exact .of_serves howed hserves (hkept.trans hallocs)

/-- A report. -/
theorem ipmError_owes {text : Option CString} {E : IpmResult → World → Prop}
    {S : Stop → World → Prop} (h : w.Owes s) :
    Prog.Post (ipmError ctx) w (fun _ w' => w'.Owes (callbacks.ipmReportError text s)) E S := by
  obtain ⟨owed, howed, hallocs⟩ := h
  exact Prog.Post.update (.of_serves howed (ipmReportError_serves owed text) hallocs)

/-- The end of an allocation. -/
theorem ipmFree_owes {ptr : Nat} {owed : List Nat} {E : IpmResult → World → Prop}
    {S : Stop → World → Prop} (howed : owedAfter [] s.uses = some owed)
    (hallocs : w.proc.allocs = owed.length) (hptr : ptr ∈ owed) :
    Prog.Post ipmFree w (fun _ w' => w'.Owes (callbacks.ipmFree (some ptr) s)) E S := by
  have howned : ∀ p ∈ some ptr, p ∈ owed := fun _ h => Option.mem_some.mp h ▸ hptr
  have hserves : Serves callbacks s (callbacks.ipmFree (some ptr) s) [] owed (owed.erase ptr) :=
    ipmFree_serves howned
  refine Prog.Post.update (.of_serves howed hserves ?_)
  rw [List.length_erase_of_mem hptr]
  exact congrArg (· - 1) hallocs

end Counted

/-! ## What the calls take and give back -/

section Calls

variable {b : Build} {ctx : Context} {w : World} {S : Stop → World → Prop}

/-- `w` with one descriptor more. -/
def World.plus (w : World) (block : SharedMemoryBlock) : List Nat × Nat :=
  (block.memFd.fd :: w.proc.fds, w.proc.allocs)

/-- `w` with the descriptor of a block closed. -/
def World.without (w : World) (block : SharedMemoryBlock) : List Nat × Nat :=
  (w.proc.fds.erase block.memFd.fd, w.proc.allocs)

/-- `shared_memory_block_create` costs one descriptor. -/
theorem create_costs {os : Os} {n : BlockName} {id size : UInt64} {access : AccessMode} :
    Prog.Post (sharedMemoryBlockCreate b ctx os n id size access) w
      (fun block w' => w'.counts = w.plus block)
      (fun _ w' => w'.counts = w.counts) fun _ _ => True :=
  sharedMemoryBlockCreate_takes.mono (fun _ _ h => h.2.2.holding.counts) (fun _ _ h => h.2.2.counts)
    fun _ _ _ => trivial

theorem open_costs {os : Os} {n : BlockName} {id : UInt64} {access : AccessMode} :
    Prog.Post (sharedMemoryBlockOpen ctx os n id access) w
      (fun block w' => w'.counts = w.plus block)
      (fun _ w' => w'.counts = w.counts) fun _ _ => True :=
  sharedMemoryBlockOpen_takes.mono (fun _ _ h => h.2.2.holding.counts) (fun _ _ h => h.2.2.counts)
    fun _ _ _ => trivial

/-- `shared_memory_block_close` and `shared_memory_block_clean` close the descriptor first, and nothing
after it opens or closes another. -/
theorem closeFd_frees {os : Os} {block : SharedMemoryBlock} {rest : Call Unit}
    (hrest : KeepsCounts rest) :
    Prog.Post (do Prog.assert b (!block.hasOwnership); closeFd os block.memFd; rest : Call Unit) w
      (fun _ w' => w'.counts = w.without block) (fun _ w' => w'.counts = w.without block)
      fun _ _ => True := by
  refine (Prog.Post.asserted.mapStop fun _ _ _ => trivial).bind fun _ w₀ h₀ => ?_
  obtain ⟨rfl, -⟩ := h₀
  refine closeFd_closes.bind fun _ w1 h1 => ?_
  exact (hrest w1).mono (fun _ _ h => h.trans h1.2) (fun _ _ h => h.trans h1.2) fun _ _ _ => trivial

theorem close_frees {os : Os} {block : SharedMemoryBlock} {callback : Call Unit}
    (hcallback : KeepsCounts callback) :
    Prog.Post (sharedMemoryBlockClose b ctx os block callback) w
      (fun _ w' => w'.counts = w.without block) (fun _ w' => w'.counts = w.without block)
      fun _ _ => True := by
  refine closeFd_frees (releaseRef_keepsCounts.bind fun refs => ?_)
  split
  · exact hcallback.bind fun _ => setHeader_keepsCounts.bind fun _ => unlinkBlock_keepsCounts
  · exact unmapBlock_keepsCounts

theorem clean_frees {os : Os} {block : SharedMemoryBlock} :
    Prog.Post (sharedMemoryBlockClean b os block) w
      (fun _ w' => w'.counts = w.without block) (fun _ w' => w'.counts = w.without block)
      fun _ _ => True :=
  closeFd_frees unmapBlock_keepsCounts

theorem claimListUninit_idle {obj : Nat} {E : IpmResult → World → Prop} :
    Prog.Post (claimListUninit obj) w (fun _ w' => w'.counts = w.counts) E S :=
  Prog.Post.update rfl

theorem releaseAllAt_idle {lock : IpmResult} {accessId : UInt64} {obj : Nat}
    {E : IpmResult → World → Prop} :
    Prog.Post (releaseAllAt b lock accessId obj) w (fun _ w' => w'.counts = w.counts) E
      fun _ _ => True := by
  rw [Prog.post_iff, releaseAllAt]
  cases ipmMemoryReleaseAll b lock accessId (w.kernel.objs obj).list with
  | ret r list => rfl
  | stop why list => trivial

theorem ipmFree_frees {E : IpmResult → World → Prop} :
    Prog.Post ipmFree w (fun _ w' => w'.counts = (w.proc.fds, w.proc.allocs - 1)) E S :=
  Prog.Post.update rfl

theorem closeAndFree_frees {os : Os} {block : SharedMemoryBlock} {E : IpmResult → World → Prop} :
    Prog.Post (closeAndFree b ctx os block) w
      (fun _ w' => w'.counts = (w.proc.fds.erase block.memFd.fd, w.proc.allocs - 1)) E
      fun _ _ => True := by
  have hclose : Prog.Post (sharedMemoryBlockClose b ctx os block (pure ())).ignore w
      (fun _ w' => w'.counts = w.without block) E fun _ _ => True :=
    (close_frees (.pure _)).ignore (fun _ _ h => h) fun _ _ h => h
  refine hclose.bind fun _ w1 h1 => ?_
  obtain ⟨hfds, hallocs⟩ := Prod.mk.inj h1
  refine ipmFree_frees.mapRet fun _ w' h => ?_
  rw [hfds, hallocs] at h
  exact h

/-- The descriptors of a handle. -/
def Memory.fds (memory : Memory) : List Nat :=
  [memory.realMemory.memFd.fd, memory.activeClaims.memFd.fd]

/-- What a handle costs. -/
structure World.Gains (w : World) (memory : Memory) (w' : World) : Prop where
  fds : w'.proc.fds.Perm (memory.fds ++ w.proc.fds)
  allocs : w'.proc.allocs = w.proc.allocs + 1

/-- What comes back with it. -/
structure World.Loses (w : World) (memory : Memory) (w' : World) : Prop where
  fds : w'.proc.fds = (w.proc.fds.erase memory.activeClaims.memFd.fd).erase memory.realMemory.memFd.fd
  allocs : w'.proc.allocs = w.proc.allocs - 1

theorem ipmAlloc_costs {alloc : Bool} :
    Prog.Post (ipmAlloc ctx alloc) w (fun _ w' => w'.counts = (w.proc.fds, w.proc.allocs + 1))
      (fun _ w' => w'.counts = w.counts) S :=
  ipmAlloc_takes.mono (fun _ _ h => congrArg World.counts h.2) (fun _ _ h => h.2.2.counts)
    fun _ _ h => h

/-- The first block of a handle that has been allocated: with it, or without the allocation. -/
theorem first_costs {p : Call SharedMemoryBlock} {w₁ : World}
    (h₁ : w₁.counts = (w.proc.fds, w.proc.allocs + 1))
    (hp : Prog.Post p w₁ (fun block w' => w'.counts = w₁.plus block)
      (fun _ w' => w'.counts = w₁.counts) fun _ _ => True) :
    Prog.Post (p.onError do ipmError ctx; ipmFree : Call SharedMemoryBlock) w₁
      (fun block w' => w'.counts = (block.memFd.fd :: w.proc.fds, w.proc.allocs + 1))
      (fun _ w' => w'.counts = w.counts) fun _ _ => True := by
  obtain ⟨hfds, hallocs⟩ := Prod.mk.inj h₁
  refine (hp.mapRet fun block w' h => ?_).onError fun e w2 h2 => ?_
  · rw [h, World.plus, hfds, hallocs]
  · refine ipmError_idle.bind fun _ w3 h3 => ?_
    refine ipmFree_frees.mapRet fun _ w4 h4 => ?_
    obtain ⟨hfds', hallocs'⟩ := Prod.mk.inj (h3.2.trans (h2.trans h₁))
    rw [h4, hfds', hallocs']
    rfl

/-- The rollback to before the first block. -/
theorem rollback_frees {os : Os} {block : SharedMemoryBlock} {w₁ : World} {E : IpmResult → World → Prop}
    (h₁ : w₁.counts = (block.memFd.fd :: w.proc.fds, w.proc.allocs + 1)) :
    Prog.Post (closeAndFree b ctx os block) w₁ (fun _ w' => w'.counts = w.counts) E
      fun _ _ => True := by
  obtain ⟨hfds, hallocs⟩ := Prod.mk.inj h₁
  refine closeAndFree_frees.mapRet fun _ w' h => ?_
  rw [h, hfds, hallocs, List.erase_cons_head]
  rfl

theorem createClaims_costs {alloc : Bool} {os : Os} {size : UInt64} {n : BlockName} :
    Prog.Post (createClaims b ctx alloc os size n) w
      (fun block w' => w'.counts = (block.memFd.fd :: w.proc.fds, w.proc.allocs + 1))
      (fun _ w' => w'.counts = w.counts) fun _ _ => True := by
  unfold createClaims
  refine (Prog.Post.asserted.mapStop fun _ _ _ => trivial).bind fun _ w₀ h₀ => ?_
  obtain ⟨rfl, -⟩ := h₀
  refine ipmAlloc_costs.bind fun _ w1 h1 => ?_
  refine (Prog.Post.asserted.mapStop fun _ _ _ => trivial).bind fun _ w2 h2 => ?_
  obtain ⟨rfl, -⟩ := h2
  refine (Prog.Post.asserted.mapStop fun _ _ _ => trivial).bind fun _ w3 h3 => ?_
  obtain ⟨rfl, -⟩ := h3
  exact first_costs h1 create_costs

theorem openReal_costs {alloc : Bool} {os : Os} {n : BlockName} {access : AccessMode} :
    Prog.Post (openReal ctx alloc os n access) w
      (fun block w' => w'.counts = (block.memFd.fd :: w.proc.fds, w.proc.allocs + 1))
      (fun _ w' => w'.counts = w.counts) fun _ _ => True :=
  ipmAlloc_costs.bind fun _ _ h1 => first_costs h1 open_costs

/-- **`ipm_memory_create`** costs a handle, or nothing. -/
theorem ipmMemoryCreate_costs {os : CreateOs} {size : UInt64} {n : BlockName} {access : AccessMode} :
    Prog.Post (ipmMemoryCreate b ctx os size n access) w (fun memory w' => w.Gains memory w')
      (fun _ w' => w'.counts = w.counts) fun _ _ => True := by
  unfold ipmMemoryCreate
  refine createClaims_costs.bind fun claims w1 h1 => ?_
  have hinit : Prog.Post (initClaims ctx os.listMutex os.listCondition claims) w1
      (fun _ w' => w'.counts = w1.counts) (fun _ w' => w'.counts = w1.counts) fun _ _ => True :=
    initClaims_undo_post.mono (fun _ _ h => by rw [World.counts, h.2.2]; rfl)
      (fun _ _ h => h.2.2.counts) fun _ _ h => h
  refine (hinit.onError fun _ w' h => rollback_frees (h.trans h1)).bind fun _ w2 h2 => ?_
  have h12 := h2.trans h1
  obtain ⟨hfds, hallocs⟩ := Prod.mk.inj h12
  have hreal : Prog.Post (createReal b ctx os.real size n access) w2
      (fun block w' => w'.counts = w2.plus block) (fun _ w' => w'.counts = w2.counts)
      fun _ _ => True :=
    create_costs.onError fun _ w' h => ipmError_idle.mapRet fun _ _ h' => h'.2.trans h
  refine (hreal.onError fun _ w' h => ?_).bind fun real w3 h3 => Prog.Post.pure ?_
  · refine claimListUninit_idle.bind fun _ w4 h4 => ?_
    exact rollback_frees (h4.trans (h.trans h12))
  · obtain ⟨hfds', hallocs'⟩ := Prod.mk.inj h3
    exact ⟨by rw [hfds', hfds]; exact .refl _, hallocs'.trans hallocs⟩

/-- **`ipm_memory_open`** costs a handle, or nothing. -/
theorem ipmMemoryOpen_costs {os : OpenOs} {n : BlockName} {access : AccessMode} :
    Prog.Post (ipmMemoryOpen b ctx os n access) w (fun memory w' => w.Gains memory w')
      (fun _ w' => w'.counts = w.counts) fun _ _ => True := by
  unfold ipmMemoryOpen
  refine openReal_costs.bind fun real w1 h1 => ?_
  obtain ⟨hfds, hallocs⟩ := Prod.mk.inj h1
  have hclaims : Prog.Post (openClaims ctx os.claims n) w1
      (fun block w' => w'.counts = w1.plus block) (fun _ w' => w'.counts = w1.counts)
      fun _ _ => True :=
    open_costs.onError fun _ w' h => ipmError_idle.mapRet fun _ _ h' => h'.2.trans h
  refine (hclaims.onError fun _ w' h => rollback_frees (h.trans h1)).bind
    fun claims w2 h2 => Prog.Post.pure ?_
  obtain ⟨hfds', hallocs'⟩ := Prod.mk.inj h2
  exact ⟨by rw [hfds', hfds]; exact .swap _ _ _, hallocs'.trans hallocs⟩

/-- **`ipm_memory_close`** gives a handle back. -/
theorem ipmMemoryClose_frees {lock : IpmResult} {claims real : Os} {memory : Memory} :
    Prog.Post (ipmMemoryClose b ctx lock claims real memory) w (fun _ w' => w.Loses memory w')
      (fun _ _ => False) fun _ _ => True := by
  unfold ipmMemoryClose
  refine (releaseAllAt_idle.mapStop fun _ _ _ => trivial).bind fun _ w1 h1 => ?_
  have hclose : Prog.Post (sharedMemoryBlockClose b ctx claims memory.activeClaims
      (claimListUninit memory.activeClaims.obj)).ignore w1
      (fun _ w' => w'.counts = w1.without memory.activeClaims) (fun _ _ => False) fun _ _ => True :=
    (close_frees fun _ => claimListUninit_idle).ignore (fun _ _ h => h) fun _ _ h => h
  refine hclose.bind fun _ w2 h2 => ?_
  obtain ⟨hfds, hallocs⟩ := Prod.mk.inj h1
  obtain ⟨hfds', hallocs'⟩ := Prod.mk.inj h2
  refine closeAndFree_frees.mapRet fun _ w3 h3 => ?_
  obtain ⟨hfds'', hallocs''⟩ := Prod.mk.inj h3
  exact ⟨by rw [hfds'', hfds', hfds], by rw [hallocs'', hallocs', hallocs]⟩

/-- **`ipm_memory_clean`** gives a copy of a handle back. -/
theorem ipmMemoryClean_frees {claims real : Os} {memory : Memory} :
    Prog.Post (ipmMemoryClean b claims real memory) w (fun _ w' => w.Loses memory w')
      (fun _ _ => False) fun _ _ => True := by
  unfold ipmMemoryClean
  have hclean : ∀ (os : Os) (block : SharedMemoryBlock) (w : World),
      Prog.Post (sharedMemoryBlockClean b os block).ignore w
        (fun _ w' => w'.counts = w.without block) (fun _ _ => False) fun _ _ => True :=
    fun os block w => clean_frees.ignore (fun _ _ h => h) fun _ _ h => h
  refine (hclean _ _ _).bind fun _ w1 h1 => (hclean _ _ _).bind fun _ w2 h2 => ?_
  obtain ⟨hfds, hallocs⟩ := Prod.mk.inj h1
  obtain ⟨hfds', hallocs'⟩ := Prod.mk.inj h2
  refine ipmFree_frees.mapRet fun _ w3 h3 => ?_
  obtain ⟨hfds'', hallocs''⟩ := Prod.mk.inj h3
  exact ⟨by rw [hfds'', hfds', hfds], by rw [hallocs'', hallocs', hallocs]⟩

/-! ### Remapping -/

section Remapping

variable {os : Os} {block : SharedMemoryBlock} {memory : Memory} {e : RemapEnv}

theorem mmap_keepsCounts {res : Except Failure Nat} {file : File} {length offset : UInt64}
    {access : AccessMode} : KeepsCounts (mmap res file length access offset) := by
  intro w
  refine (mmap_cases_post (E := fun _ w' => w'.counts = w.counts)
    (S := fun _ w' => w'.counts = w.counts)).mapRet fun r w' h => ?_
  cases h with
  | mapped hmaps hres => rfl
  | refused hnot => rfl

theorem updateMapping_keepsCounts {access : AccessMode} :
    KeepsCounts (sharedMemoryBlockUpdateMapping ctx os block access) := by
  refine getHeader_keepsCounts.bind fun h => ?_
  dsimp only
  split
  · exact .pure _
  · refine munmap_keepsCounts.bind fun _ => mmap_keepsCounts.bind fun r => ?_
    cases r with
    | none => exact ipmError_keepsCounts.bind fun _ => .pure _
    | some addr => exact .pure _

theorem growCheck_keepsCounts {newSize : UInt64} : KeepsCounts (growCheck b ctx block newSize) := by
  unfold growCheck
  split
  · exact ipmError_keepsCounts.bind fun _ => .pure _
  · refine Prog.Keeps.bind ?_ fun _ => .pure _
    refine getHeader_keepsCounts.bind fun _ => (Prog.Keeps.assert _ _).bind fun _ => ?_
    exact (Prog.Keeps.assert _ _).bind fun _ => .assert _ _

theorem resizeSection_keepsCounts {lock : IpmResult} {newSize : UInt64} :
    KeepsCounts (resizeSection ctx os lock block newSize) := by
  unfold resizeSection
  split
  · exact ipmError_keepsCounts.bind fun _ => .pure _
  · refine getHeader_keepsCounts.bind fun _ => ?_
    split
    · exact .pure _
    · refine ftruncate_keepsCounts.bind fun done => ?_
      split
      · exact setHeader_keepsCounts.bind fun _ => .pure _
      · exact ipmError_keepsCounts.bind fun _ => errno_keepsCounts.bind fun _ => .pure _

theorem resizeRemap_keepsCounts {newSize : UInt64} {sec : Section} :
    KeepsCounts (resizeRemap ctx os block newSize sec) := by
  cases sec with
  | refused res => exact .pure _
  | same =>
    rw [resizeRemap]
    split
    · exact updateMapping_keepsCounts
    · exact .pure _
  | grown => exact updateMapping_keepsCounts

/-- What remaps a handle takes nothing and gives nothing back. -/
theorem run_keepsCounts (call : RemapCall) : KeepsCounts (call.run b e memory) := by
  cases call with
  | sync => exact (updateMapping_keepsCounts.bind fun _ => .pure _).bind fun _ => .pure _
  | changeAccess access => exact (updateMapping_keepsCounts.bind fun _ => .pure _).bind fun _ => .pure _
  | resizeGrow newSize =>
    refine growCheck_keepsCounts.bind fun r => ?_
    cases r with
    | none => exact .pure _
    | some newSize =>
      exact resizeSection_keepsCounts.bind fun _ => resizeRemap_keepsCounts.bind fun _ => .pure _

theorem memFd_updated {size : UInt64} {access : AccessMode} {p p' : Proc} {res : IpmResult}
    {real : SharedMemoryBlock} (h : Updated os block size access p res real p') :
    real.memFd = block.memFd := by
  cases h <;> rfl

theorem run_keepsFds (call : RemapCall) : Prog.Post (call.run b e memory) w
    (fun r w' => w'.counts = w.counts ∧ r.memory.fds = memory.fds)
    (fun _ w' => w'.counts = w.counts) fun _ _ => True := by
  refine ((run_keepsCounts call w).also (call.run_post (E := fun _ _ => True))).mono
    (fun r w' h => ⟨h.1, ?_⟩) (fun _ _ h => h) fun _ _ _ => trivial
  cases h.2 with
  | short hshort hpages => rfl
  | reached hreach hsize hlen hpages hupdated =>
    rw [Memory.fds, Memory.fds, memFd_updated hupdated]

end Remapping

end Calls

/-! ## Processes -/

/-- A process that uses the library, and its handles. -/
structure Process where
  proc : Proc
  handles : List Memory

namespace Process

/-- The descriptors of its handles. -/
def fds (p : Process) : List Nat := p.handles.flatMap Memory.fds

/-- It has what its handles cost, no less and no more. -/
structure Balanced (p : Process) : Prop where
  fds : p.proc.fds.Perm p.fds
  allocs : p.proc.allocs = p.handles.length

variable {p : Process} {memory : Memory} {k : Kernel} {w' : World} {j : Nat}

theorem Balanced.of_counts (h : p.Balanced) (hw : w'.counts = World.counts ⟨k, p.proc⟩) :
    Balanced ⟨w'.proc, p.handles⟩ := by
  obtain ⟨hfds, hallocs⟩ := Prod.mk.inj hw
  exact ⟨hfds ▸ h.fds, hallocs.trans h.allocs⟩

theorem Balanced.gains (h : p.Balanced) (hw : World.Gains ⟨k, p.proc⟩ memory w') :
    Balanced ⟨w'.proc, p.handles ++ [memory]⟩ := by
  constructor
  · refine hw.fds.trans ?_
    show (memory.fds ++ p.proc.fds).Perm ((p.handles ++ [memory]).flatMap Memory.fds)
    rw [List.flatMap_append, List.flatMap_singleton]
    exact (h.fds.append_left _).trans List.perm_append_comm
  · rw [hw.allocs, h.allocs, List.length_append]
    rfl

/-- One handle and the others. -/
theorem perm_fds (hget : p.handles[j]? = some memory) :
    p.fds.Perm (memory.fds ++ (p.handles.eraseIdx j).flatMap Memory.fds) := by
  obtain ⟨hj, rfl⟩ := List.getElem?_eq_some_iff.mp hget
  exact ((List.getElem_cons_eraseIdx_perm hj).symm.flatMap_right Memory.fds)

theorem Balanced.loses (h : p.Balanced) (hget : p.handles[j]? = some memory)
    (hw : World.Loses ⟨k, p.proc⟩ memory w') : Balanced ⟨w'.proc, p.handles.eraseIdx j⟩ := by
  constructor
  · have hback : ((memory.fds ++ (p.handles.eraseIdx j).flatMap Memory.fds).erase
        memory.activeClaims.memFd.fd).erase memory.realMemory.memFd.fd =
        (p.handles.eraseIdx j).flatMap Memory.fds := by
      rw [List.erase_comm]
      simp [Memory.fds]
    rw [hw.fds, Process.fds, ← hback]
    exact ((h.fds.trans (perm_fds hget)).erase _).erase _
  · obtain ⟨hj, -⟩ := List.getElem?_eq_some_iff.mp hget
    rw [hw.allocs, List.length_eraseIdx_of_lt hj]
    exact congrArg (· - 1) h.allocs

/-- A handle that has been remapped. -/
theorem Balanced.set (h : p.Balanced) {after : Memory} (hget : p.handles[j]? = some memory)
    (hfds : after.fds = memory.fds) (hw : w'.counts = World.counts ⟨k, p.proc⟩) :
    Balanced ⟨w'.proc, p.handles.set j after⟩ := by
  have hsame : Process.fds ⟨w'.proc, p.handles.set j after⟩ = p.fds := by
    show (p.handles.set j after).flatMap Memory.fds = p.handles.flatMap Memory.fds
    have hmap : (p.handles.map Memory.fds)[j]? = some after.fds := by
      rw [List.getElem?_map, hget, hfds]
      rfl
    rw [List.flatMap_def, List.flatMap_def, List.map_set, set_getElem?_self hmap]
  obtain ⟨hcounts, hallocs⟩ := Prod.mk.inj hw
  refine ⟨?_, ?_⟩
  · rw [hsame, hcounts]
    exact h.fds
  · rw [hallocs, List.length_set]
    exact h.allocs

end Process

/-! ## Runs -/

structure ResSys where
  kernel : Kernel
  procs : List Process

inductive ResEvent where
  | start
  /-- A fork: the copy has the same descriptors, allocations and handles. -/
  | fork (i : Nat)
  /-- Process `i` is over, for whatever reason. -/
  | exit (i : Nat)
  | create (i : Nat) (ctx : Context) (os : CreateOs) (blockSize : UInt64) (n : BlockName)
      (access : AccessMode)
  | open (i : Nat) (ctx : Context) (os : OpenOs) (n : BlockName) (access : AccessMode)
  | close (i j : Nat) (ctx : Context) (lock : IpmResult) (claims real : Os)
  | clean (i j : Nat) (claims real : Os)
  | remap (i j : Nat) (call : RemapCall) (env : RemapEnv)
  /-- The region calls of a handle leave `list` behind. -/
  | regions (i j : Nat) (list : ClaimList)

namespace ResSys

def init : ResSys := { kernel := .empty, procs := [] }

/-- A call of process `i` has come to an end; `handles` are what it has then. -/
def settle {α : Type} (s : ResSys) (i : Nat) (o : Outcome World (Except IpmResult α))
    (handles : Except IpmResult α → List Memory) : ResSys :=
  match o with
  | .ret r w => { kernel := w.kernel, procs := s.procs.set i ⟨w.proc, handles r⟩ }
  -- the process does not come back
  | .stop _ w => { kernel := w.kernel, procs := s.procs.eraseIdx i }

/-- A call that gives a handle. -/
def gained (p : Process) : Except IpmResult Memory → List Memory
  | .ok memory => p.handles ++ [memory]
  | .error _ => p.handles

/-- A call that changes a handle. -/
def changed (p : Process) (j : Nat) : Except IpmResult Remapped → List Memory
  | .ok r => p.handles.set j r.memory
  | .error _ => p.handles

def step (b : Build) (s : ResSys) : ResEvent → Option ResSys
  | .start => some { s with procs := s.procs ++ [⟨.initial, []⟩] }
  | .fork i => (s.procs[i]?).map fun p => { s with procs := s.procs ++ [p] }
  | .exit i => some { s with procs := s.procs.eraseIdx i }
  | .create i ctx os blockSize n access => (s.procs[i]?).map fun p =>
      s.settle i (ipmMemoryCreate b ctx os blockSize n access ⟨s.kernel, p.proc⟩) (gained p)
  | .open i ctx os n access => (s.procs[i]?).map fun p =>
      s.settle i (ipmMemoryOpen b ctx os n access ⟨s.kernel, p.proc⟩) (gained p)
  | .close i j ctx lock claims real => (s.procs[i]?).bind fun p => (p.handles[j]?).map fun memory =>
      s.settle i (ipmMemoryClose b ctx lock claims real memory ⟨s.kernel, p.proc⟩) fun _ =>
        p.handles.eraseIdx j
  | .clean i j claims real => (s.procs[i]?).bind fun p => (p.handles[j]?).map fun memory =>
      s.settle i (ipmMemoryClean b claims real memory ⟨s.kernel, p.proc⟩) fun _ =>
        p.handles.eraseIdx j
  | .remap i j call env => (s.procs[i]?).bind fun p => (p.handles[j]?).map fun memory =>
      s.settle i (call.run b env memory ⟨s.kernel, p.proc⟩) (changed p j)
  | .regions i j list => (s.procs[i]?).bind fun p => (p.handles[j]?).map fun memory =>
      { s with kernel := s.kernel.modifyObj memory.activeClaims.obj fun o => { o with list := list } }

variable {b : Build} {s s' : ResSys} {a : ResEvent} {p : Process} {i j : Nat}

/-- Every process has what its handles cost. -/
def AllBalanced (s : ResSys) : Prop := ∀ p ∈ s.procs, p.Balanced

/-- A call that leaves its process in balance, however it returns. -/
theorem AllBalanced.settle {α : Type} {q : Call α} {E : IpmResult → World → Prop}
    {handles : Except IpmResult α → List Memory} {Q : α → World → Prop} (h : s.AllBalanced)
    (hq : Prog.Post q ⟨s.kernel, p.proc⟩ Q E fun _ _ => True)
    (hok : ∀ a w, Q a w → Process.Balanced ⟨w.proc, handles (.ok a)⟩)
    (herror : ∀ e w, E e w → Process.Balanced ⟨w.proc, handles (.error e)⟩) :
    (s.settle i (q ⟨s.kernel, p.proc⟩) handles).AllBalanced := by
  cases hout : q ⟨s.kernel, p.proc⟩ with
  | ret r w =>
    have hnew : Process.Balanced ⟨w.proc, handles r⟩ := by
      cases r with
      | ok a => exact hok a w (hq.of_ret hout)
      | error e => exact herror e w (hq.of_error hout)
    exact forall_mem_set h (fun _ _ hx => hx) hnew
  | stop why w => exact fun x hx => h x (List.mem_of_mem_eraseIdx hx)

theorem AllBalanced.step (h : s.AllBalanced) (hs : ResSys.step b s a = some s') :
    s'.AllBalanced := by
  cases a with
  | start =>
    cases hs
    exact List.forall_mem_append.mpr ⟨h, List.forall_mem_singleton.mpr ⟨.refl _, rfl⟩⟩
  | fork i =>
    obtain ⟨p, hget, rfl⟩ := Option.map_eq_some_iff.mp hs
    exact List.forall_mem_append.mpr
      ⟨h, List.forall_mem_singleton.mpr (h p (List.mem_of_getElem? hget))⟩
  | exit i =>
    cases hs
    exact fun x hx => h x (List.mem_of_mem_eraseIdx hx)
  | create i ctx os blockSize n access =>
    obtain ⟨p, hget, rfl⟩ := Option.map_eq_some_iff.mp hs
    have hp := h p (List.mem_of_getElem? hget)
    exact h.settle ipmMemoryCreate_costs (fun _ _ hw => hp.gains hw) fun _ _ hw => hp.of_counts hw
  | «open» i ctx os n access =>
    obtain ⟨p, hget, rfl⟩ := Option.map_eq_some_iff.mp hs
    have hp := h p (List.mem_of_getElem? hget)
    exact h.settle ipmMemoryOpen_costs (fun _ _ hw => hp.gains hw) fun _ _ hw => hp.of_counts hw
  | close i j ctx lock claims real =>
    obtain ⟨p, hget, hs⟩ := Option.bind_eq_some_iff.mp hs
    obtain ⟨memory, hmem, rfl⟩ := Option.map_eq_some_iff.mp hs
    have hp := h p (List.mem_of_getElem? hget)
    exact h.settle ipmMemoryClose_frees (fun _ _ hw => hp.loses hmem hw) fun _ _ hw => hw.elim
  | clean i j claims real =>
    obtain ⟨p, hget, hs⟩ := Option.bind_eq_some_iff.mp hs
    obtain ⟨memory, hmem, rfl⟩ := Option.map_eq_some_iff.mp hs
    have hp := h p (List.mem_of_getElem? hget)
    exact h.settle ipmMemoryClean_frees (fun _ _ hw => hp.loses hmem hw) fun _ _ hw => hw.elim
  | remap i j call env =>
    obtain ⟨p, hget, hs⟩ := Option.bind_eq_some_iff.mp hs
    obtain ⟨memory, hmem, rfl⟩ := Option.map_eq_some_iff.mp hs
    have hp := h p (List.mem_of_getElem? hget)
    exact h.settle (run_keepsFds call) (fun _ _ hw => hp.set hmem hw.2 hw.1) fun _ _ hw =>
      hp.of_counts hw
  | regions i j list =>
    obtain ⟨p, -, hs⟩ := Option.bind_eq_some_iff.mp hs
    obtain ⟨memory, -, rfl⟩ := Option.map_eq_some_iff.mp hs
    exact h

/-- **Nothing leaks and nothing is given back twice**: in every run, whatever the environment answers, a
process has the two descriptors and the allocation of each of its handles, and no others. -/
theorem balanced_of_reach (hr : Reach (ResSys.step b) (fun _ _ => True) init s) (hp : p ∈ s.procs) :
    p.proc.fds.Perm (p.handles.flatMap Memory.fds) ∧ p.proc.allocs = p.handles.length := by
  have hall : s.AllBalanced := hr.invariant (I := AllBalanced) nofun fun _ _ _ h _ hs => h.step hs
  exact ⟨(hall p hp).fds, (hall p hp).allocs⟩

/-- No more descriptors for this process. -/
def noFds : Os := { Os.willing with shmOpen := .error ⟨.EMFILE, nofun, nofun⟩ }

/-- A creation, one that finds the name taken, an open that gets half-way, a fork, an open by the new
process, which cleans its copy, and a growth by the old one. -/
def halfOpen : List ResEvent :=
  [.start, .create 0 ⟨id⟩ .willing 4096 .a .readWrite, .create 0 ⟨id⟩ .willing 4096 .a .readWrite,
   .open 0 ⟨id⟩ { OpenOs.willing with claims := noFds } .a .readOnly, .fork 0,
   .open 1 ⟨id⟩ .willing .a .readOnly, .clean 1 0 .willing .willing, .remap 0 0 (.resizeGrow 8192) .willing]

theorem balanced_halfOpen :
    ∃ (s : ResSys) (p q : Process), s.procs = [p, q] ∧ p.handles.length = 1 ∧
      p.proc.fds.Perm (p.handles.flatMap Memory.fds) ∧ p.proc.allocs = p.handles.length := by
  have htrace : ∃ s, Reach (ResSys.step ⟨false⟩) (fun _ _ => True) init s ∧
      s.procs.map (·.handles.length) = [1, 1] :=
    exists_reach_of_trace (g := fun _ _ => true)
      (t := fun s => decide (s.procs.map (·.handles.length) = [1, 1])) halfOpen
      (fun _ _ _ => trivial) (fun _ h => of_decide_eq_true h) (by decide +kernel)
  obtain ⟨s, hr, hlengths⟩ := htrace
  obtain ⟨p, t, hp, hlen, ht⟩ := List.map_eq_cons_iff.mp hlengths
  obtain ⟨q, rest, rfl, -, hrest⟩ := List.map_eq_cons_iff.mp ht
  obtain rfl := List.map_eq_nil_iff.mp hrest
  exact ⟨s, p, q, hp, hlen, balanced_of_reach hr (hp ▸ List.mem_cons_self ..)⟩

end ResSys

end Ipm
