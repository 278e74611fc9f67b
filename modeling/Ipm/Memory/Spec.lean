import Ipm.Claim.Purge
import Ipm.Memory.Counted

/-!
# What the steps of `ipm_memory.c` do to the kernel

The calls of `shared_memory.c` as the functions of `ipm_memory.c` make them, with their reports and
frees around them. The reports and frees are the process's own business, so each step has the
postcondition of the call inside it.
-/

set_option autoImplicit false

namespace Ipm

open Lib

variable {b : Build} {ctx : Context} {os : Os} {w : World} {H : RefCounts} {n : BlockName}
variable {kind : MemoryBlock} {block : SharedMemoryBlock} {size : UInt64} {access : AccessMode}

/-! ## Sizes -/

theorem and_mask_eq_zero_iff (size : UInt64) :
    size &&& memoryPageSizeMask = 0 ↔ size.toNat % memoryPageSize.toNat = 0 := by
  have hmask : memoryPageSizeMask.toNat = 2 ^ 12 - 1 := by decide
  have hpage : memoryPageSize.toNat = 2 ^ 12 := by decide
  rw [← UInt64.toNat_inj, UInt64.toNat_and, hmask, Nat.and_two_pow_sub_one_eq_mod, hpage]
  rfl

/-- `round_size` rounds up, and wraps in the last page of the address space. -/
theorem toNat_roundSize (size : UInt64) :
    (roundSize size).toNat = (size.toNat + (memoryPageSize.toNat - 1)) / memoryPageSize.toNat *
      memoryPageSize.toNat % 2 ^ 64 := by
  have hpage : memoryPageSize.toNat = 4096 := rfl
  have hlt := size.toNat_lt
  have hrem : (size % memoryPageSize).toNat = size.toNat % 4096 := by
    rw [UInt64.toNat_mod, hpage]
  have hzero : size % memoryPageSize = 0 ↔ size.toNat % 4096 = 0 := by
    rw [← UInt64.toNat_inj, hrem]
    rfl
  unfold roundSize
  dsimp only
  rw [hpage]
  split
  · rename_i hne
    rw [ne_eq, hzero] at hne
    have hle : size % memoryPageSize ≤ memoryPageSize := by
      rw [UInt64.le_iff_toNat_le, hrem, hpage]
      omega
    rw [UInt64.toNat_add, UInt64.toNat_sub_of_le _ _ hle, hrem, hpage]
    omega
  · rename_i heq
    rw [not_not, hzero] at heq
    omega

theorem roundSize_mask (size : UInt64) : roundSize size &&& memoryPageSizeMask = 0 := by
  rw [and_mask_eq_zero_iff, toNat_roundSize]
  have hpage : memoryPageSize.toNat = 4096 := rfl
  rw [hpage]
  omega

theorem claimSize_ok : SizeOk b claimSize := .inr (by decide)

/-! ## Allocation and reports -/

theorem ipmFree_post {E : IpmResult → World → Prop} {S : Stop → World → Prop} :
    Prog.Post ipmFree w (fun _ w' => w'.kernel = w.kernel) E S :=
  Prog.post_iff.mpr rfl

theorem ipmAlloc_post {done : Bool} {E : IpmResult → World → Prop} {S : Stop → World → Prop}
    (hE : done = false → ∀ w' : World, w'.kernel = w.kernel → E .errOsOutOfMemory w') :
    Prog.Post (ipmAlloc ctx done) w (fun _ w' => w'.kernel = w.kernel) E S := by
  cases done with
  | true => exact Prog.post_iff.mpr rfl
  | false => exact ipmError_post.bind fun _ w1 h1 => Prog.Post.fail (hE rfl w1 h1)

/-- A cleanup that leaves the kernel alone keeps what is known of the failed call. -/
theorem post_onError_quiet {α : Type} {p : Call α} {c : Call Unit} {Q : α → World → Prop}
    {E : IpmResult → Kernel → Prop} {S : Stop → World → Prop}
    (h : Prog.Post p w Q (fun e w' => E e w'.kernel) S)
    (hc : ∀ w1 : World, Prog.Post c w1 (fun _ w' => w'.kernel = w1.kernel) (fun _ _ => False) S) :
    Prog.Post (p.onError c) w Q (fun e w' => E e w'.kernel) S :=
  h.onError fun _ w1 h1 =>
    (hc w1).mono (fun _ _ h2 => h2 ▸ h1) (fun _ _ h => h.elim) fun _ _ h => h

theorem report_free_post {S : Stop → World → Prop} :
    Prog.Post (do ipmError ctx; ipmFree) w (fun _ w' => w'.kernel = w.kernel) (fun _ _ => False) S :=
  ipmError_post.bind fun _ _ h1 =>
    ipmFree_post.mapRet fun _ _ h2 => h2.trans h1

/-! ## Creating, opening and closing one of the objects -/

/-- A request the assertions of `ipm_memory_create` let through. -/
def RequestOk (b : Build) (size : UInt64) : Prop :=
  b.ndebug = true ∨ size > 0 ∧ roundSize size > 0

theorem not_requestOk (hb : b.ndebug = false) (h : ¬ (size > 0 ∧ roundSize size > 0)) :
    ¬ RequestOk b size := by
  intro hok
  rcases hok with hn | hok
  · rw [hb] at hn
    cases hn
  · exact h hok

/-- The claims object is created only with a size the real memory can be created with. -/
theorem createClaims_any_post {alloc : Bool} :
    Prog.Post (createClaims b ctx alloc os size n) w
      (fun block w' => SizeOk b (roundSize size) ∧
        Created w.kernel n MemoryBlock.activeClaims.id claimSize .readWrite block w'.kernel)
      (fun e w' => CreateAborted os (alloc = true ∧ ∃ fd, os.shmOpen = .ok fd) w.kernel
        (objectPath n .activeClaims) e w'.kernel)
      (fun why w' => os.Sound → why = .assertion ∧ w'.kernel = w.kernel ∧ ¬ RequestOk b size) := by
  unfold createClaims
  refine (Prog.Post.assert (Q := fun _ w' => w'.kernel = w.kernel) (fun _ => rfl) fun hb hc _ =>
    ⟨rfl, rfl, not_requestOk hb fun h => of_decide_eq_false hc h.1⟩).bind fun _ w1 h1 => ?_
  refine (ipmAlloc_post fun hfalse w' h' => ⟨nofun, fun _ => ⟨by rw [h', h1]; exact .refl _, nofun,
    nofun, fun h => absurd (hfalse.symm.trans h.1) nofun⟩⟩).bind fun _ w2 h2 => ?_
  have hw2 := h2.trans h1
  refine (Prog.Post.assert (Q := fun _ w' => w'.kernel = w.kernel ∧ SizeOk b (roundSize size))
    (fun hok => ⟨hw2, hok.imp_right fun h => ⟨roundSize_mask size, of_decide_eq_true h⟩⟩)
    fun hb hc _ => ⟨rfl, hw2, not_requestOk hb fun h => of_decide_eq_false hc h.2⟩).bind fun _ w3 h3 => ?_
  refine (Prog.Post.assert (Q := fun _ w' => w'.kernel = w.kernel) (fun _ => h3.1) fun hb hc =>
    absurd (roundSize_mask size) (by simpa using hc)).bind fun _ w4 h4 => ?_
  refine post_onError_quiet (sharedMemoryBlockCreate_any_post.mono ?_ ?_ ?_)
    fun _ => report_free_post
  · intro block w5 h5
    rw [← h4]
    exact ⟨h3.2, h5⟩
  · intro e w5 h5
    rw [← h4]
    refine ⟨h5.1, fun hos => ?_⟩
    have hfailed := h5.2 hos
    exact ⟨hfailed.same, h5.1, hfailed.taken, fun h => hfailed.exists_of_asked h.2⟩
  · intro why w5 h5 hos
    exact absurd claimSize_ok (h5 hos).2.2

theorem createClaims_post {alloc : Bool} (hos : os.Sound) :
    Prog.Post (createClaims b ctx alloc os size n) w
      (fun block w' => SizeOk b (roundSize size) ∧
        Created w.kernel n MemoryBlock.activeClaims.id claimSize .readWrite block w'.kernel)
      (fun e w' => CreateFailed (alloc = true ∧ ∃ fd, os.shmOpen = .ok fd) w.kernel
        (objectPath n .activeClaims) e w'.kernel)
      (fun why w' => why = .assertion ∧ w'.kernel = w.kernel ∧ ¬ RequestOk b size) :=
  createClaims_any_post.mono (fun _ _ h => h) (fun _ _ h => h.2 hos) fun _ _ h => h hos

theorem createReal_any_post :
    Prog.Post (createReal b ctx os size n access) w
      (fun block w' =>
        Created w.kernel n MemoryBlock.realMemory.id (roundSize size) access block w'.kernel)
      (fun e w' => CreateAborted os (∃ fd, os.shmOpen = .ok fd) w.kernel (objectPath n .realMemory)
        e w'.kernel)
      (fun why w' =>
        os.Sound → why = .assertion ∧ w'.kernel = w.kernel ∧ ¬ SizeOk b (roundSize size)) := by
  refine post_onError_quiet (sharedMemoryBlockCreate_any_post.mono ?_ ?_ ?_)
    fun _ => ipmError_post
  · exact fun _ _ h => h
  · exact fun _ _ h => h
  · intro why w1 h1 hos
    obtain ⟨hwhy, rfl, hsize⟩ := h1 hos
    exact ⟨hwhy, rfl, hsize⟩

theorem createReal_post (hos : os.Sound) :
    Prog.Post (createReal b ctx os size n access) w
      (fun block w' =>
        Created w.kernel n MemoryBlock.realMemory.id (roundSize size) access block w'.kernel)
      (fun e w' => CreateFailed (∃ fd, os.shmOpen = .ok fd) w.kernel (objectPath n .realMemory) e
        w'.kernel)
      (fun why w' => why = .assertion ∧ w'.kernel = w.kernel ∧ ¬ SizeOk b (roundSize size)) :=
  createReal_any_post.mono (fun _ _ h => h) (fun _ _ h => h.2 hos) fun _ _ h => h hos

/-- A claims object whose list has been set up. -/
def ShmObject.listed (o : ShmObject) : ShmObject :=
  { o with list := claimListInit o.list realClaimCapacity, listSync := .ready }

/-- A claims object whose list has been taken down. -/
def ShmObject.unlisted (o : ShmObject) : ShmObject := { o with listSync := .destroyed }

theorem initClaims_post {mutex : MutexInitCodes} {condition : ConditionInitCodes}
    {S : Stop → World → Prop} :
    Prog.Post (initClaims ctx mutex condition block) w
      (fun _ w' => w'.kernel = w.kernel.modifyObj block.obj ShmObject.listed)
      (fun e w' => w'.kernel = w.kernel ∧ e ≠ .success ∧ e ≠ .errExists) S := by
  refine post_onError_quiet (E := fun e k' => k' = w.kernel ∧ e ≠ .success ∧ e ≠ .errExists) ?_
    fun _ => ipmError_post
  refine errno_post.bind fun e w1 h1 => ?_
  dsimp only
  split
  · exact Prog.Post.fail ⟨h1, ‹_›, ipmMutexInit_ne_errExists _ _⟩
  · refine errno_post.bind fun e w2 h2 => ?_
    split
    · exact Prog.Post.fail ⟨h2.trans h1, ‹_›, ipmConditionInit_ne_errExists _ _⟩
    · refine Prog.Post.update ?_
      rw [h2.trans h1]
      rfl

theorem claimListUninit_post {obj : Nat} {E : IpmResult → World → Prop}
    {S : Stop → World → Prop} :
    Prog.Post (claimListUninit obj) w
      (fun _ w' => w'.kernel = w.kernel.modifyObj obj ShmObject.unlisted) E S :=
  Prog.Post.update rfl

/-- Closing a held block and freeing the handle: one reference less, and no way to fail. -/
theorem closeAndFree_post {E : IpmResult → World → Prop} {S : Stop → World → Prop}
    (hC : Counted w.kernel H) (hos : os.Sound) (hown : block.hasOwnership = false)
    (hl : w.kernel.names (objectPath n kind) = some block.obj) :
    Prog.Post (closeAndFree b ctx os block) w
      (fun _ w' => w'.kernel = w.kernel.closed (objectPath n kind) block.obj id) E S := by
  have hpure : ∀ w' : World, Prog.Post (pure () : Call Unit) w' (fun _ w'' => w''.kernel =
      w'.kernel.modifyObj block.obj fun o => { o with listSync := id o.listSync })
      (fun _ _ => False) S := by
    intro w'
    refine Prog.Post.pure ?_
    simp [Kernel.modifyObj]
  have hclose : Prog.Post (sharedMemoryBlockClose b ctx os block (pure ())) w
      (fun _ w' => w'.kernel = w.kernel.closed (objectPath n kind) block.obj id)
      (fun _ _ => False) S :=
    sharedMemoryBlockClose_post hos.unlink hown (hC.serves hl) hl hpure
  have hignore : Prog.Post (sharedMemoryBlockClose b ctx os block (pure ())).ignore w
      (fun _ w' => w'.kernel = w.kernel.closed (objectPath n kind) block.obj id) E S :=
    hclose.ignore (fun _ _ h => h) fun _ _ h => h.elim
  refine hignore.bind fun _ w1 h1 => ?_
  exact ipmFree_post.mapRet fun _ w2 h2 => h2.trans h1

/-- Closing a held claims block; the last one takes its list down. -/
theorem closeClaims_post {E : IpmResult → World → Prop} {S : Stop → World → Prop}
    (hC : Counted w.kernel H) (hos : os.Sound) (hown : block.hasOwnership = false)
    (hl : w.kernel.names (objectPath n kind) = some block.obj) :
    Prog.Post (closeClaims b ctx os block) w
      (fun _ w' => w'.kernel = w.kernel.closed (objectPath n kind) block.obj fun _ => .destroyed)
      E S := by
  have hclose : Prog.Post (sharedMemoryBlockClose b ctx os block (claimListUninit block.obj)) w
      (fun _ w' => w'.kernel = w.kernel.closed (objectPath n kind) block.obj fun _ => .destroyed)
      (fun _ _ => False) S :=
    sharedMemoryBlockClose_post hos.unlink hown (hC.serves hl) hl fun _ => claimListUninit_post
  exact hclose.ignore (fun _ _ h => h) fun _ _ h => h.elim

/-- `ipm_memory_release_all` edits the list, however it ends. -/
theorem releaseAllAt_post {lock : IpmResult} {accessId : UInt64} {obj : Nat}
    {E : IpmResult → World → Prop} :
    Prog.Post (releaseAllAt b lock accessId obj) w (fun _ w' => w.kernel.Calm w'.kernel) E
      (fun _ w' => w.kernel.Calm w'.kernel) := by
  rw [Prog.post_iff, releaseAllAt]
  cases ipmMemoryReleaseAll b lock accessId (w.kernel.objs obj).list with
  | ret res list => exact Kernel.calm_relist _ _ list
  | stop why list => exact Kernel.calm_relist _ _ list

/-- ... and does nothing for a handle that has no claims. -/
theorem releaseAllAt_none_post {lock : IpmResult} {accessId : UInt64} {obj : Nat}
    {E : IpmResult → World → Prop} {S : Stop → World → Prop}
    (hcount : (w.kernel.objs obj).list.count < 2 ^ 31)
    (hnone : ∀ c ∈ (w.kernel.objs obj).list.entries, c.procId ≠ accessId) :
    Prog.Post (releaseAllAt b lock accessId obj) w (fun _ w' => w'.kernel = w.kernel) E S := by
  have hsame : ∃ res, ipmMemoryReleaseAll b lock accessId (w.kernel.objs obj).list =
      .ret res (w.kernel.objs obj).list := by
    unfold ipmMemoryReleaseAll
    split
    · exact ⟨_, rfl⟩
    · rw [releaseAllLoop_none hcount hnone _ 0 (Nat.le_add_left _ _)]
      exact ⟨_, rfl⟩
  obtain ⟨res, hres⟩ := hsame
  rw [Prog.post_iff, releaseAllAt, hres]
  simp [Kernel.modifyObj]

theorem openReal_post {alloc : Bool} {S : Stop → World → Prop} (hC : Counted w.kernel H)
    (hos : os.Sound) :
    Prog.Post (openReal ctx alloc os n access) w
      (fun block w' => Opened w.kernel n MemoryBlock.realMemory.id access block w'.kernel)
      (fun e w' => w'.kernel = w.kernel ∧ e ≠ .success ∧
        (w.kernel.names (objectPath n .realMemory) = none → alloc = true →
          (∃ fd, os.shmOpen = .ok fd) → (e = .errDoesNotExist ↔ ctx.report .ENOENT = .ENOENT))) S := by
  unfold openReal
  refine (ipmAlloc_post fun hfalse w' h' => ⟨h', nofun, fun _ htrue =>
    absurd (hfalse.symm.trans htrue) nofun⟩).bind fun _ w1 h1 => ?_
  refine post_onError_quiet (E := fun e k' => k' = w.kernel ∧ e ≠ .success ∧
    (w.kernel.names (objectPath n .realMemory) = none → alloc = true →
      (∃ fd, os.shmOpen = .ok fd) → (e = .errDoesNotExist ↔ ctx.report .ENOENT = .ENOENT)))
    ?_ fun _ => report_free_post
  rw [← h1] at hC ⊢
  exact (sharedMemoryBlockOpen_post hos fun obj hl => hC.serves hl).mono (fun _ _ h => h)
    (fun _ _ h => ⟨h.1, h.2.1, fun hfree _ => h.2.2 hfree⟩) fun _ _ h => h

theorem openClaims_post {S : Stop → World → Prop} (hC : Counted w.kernel H) (hos : os.Sound) :
    Prog.Post (openClaims ctx os n) w
      (fun block w' => Opened w.kernel n MemoryBlock.activeClaims.id .readWrite block w'.kernel)
      (fun e w' => w'.kernel = w.kernel ∧ e ≠ .success) S := by
  refine post_onError_quiet (E := fun e k' => k' = w.kernel ∧ e ≠ .success) ?_ fun _ => ipmError_post
  exact (sharedMemoryBlockOpen_post hos fun obj hl => hC.serves hl).mono (fun _ _ h => h)
    (fun _ _ h => ⟨h.1, h.2.1⟩) fun _ _ h => h

end Ipm
