import Ipm.Block.Undo
import Ipm.Memory.Spec

/-!
# What `ipm_memory_create` and `ipm_memory_open` leave when they fail

Each makes two shared objects, or maps two, and whatever fails on the way has its own unwinding. An error
leaves nothing behind (`Restored`), for every answer of the environment. There are two failures that do
not become errors: `ipm_condition_init` forgets one for an `errno` it has no case for
(`ConditionInitCodes.Silent`), and a header that cannot be mapped is taken for one that can, because
`MAP_FAILED` is not `NULL` (`Os.StopsAtHeader`). `Noticed` says which calls meet neither.
-/

set_option autoImplicit false

namespace Ipm

open Lib

/-! ## Nothing left -/

/-- `w'` has what `w` had: names, counts, descriptors, mappings and allocations. -/
structure Restored (w w' : World) : Prop where
  names : w'.kernel.names = w.kernel.names
  refcount : ∀ path obj, w.kernel.names path = some obj →
    (w'.kernel.header obj).refcount = (w.kernel.header obj).refcount
  fds : w'.proc.fds = w.proc.fds
  pages : w'.proc.pages = w.proc.pages
  allocs : w'.proc.allocs = w.proc.allocs

/-- Whatever has a name is an object. -/
def Kernel.Linked (k : Kernel) : Prop := ∀ path obj, k.names path = some obj → obj < k.fresh

/-- The call is stopped at a header that it asked for in vain. -/
def Os.StopsAtHeader {α : Type} (os : Os) (call : Call α) (w : World) : Prop :=
  ¬ Maps os.headerMmap memoryPageSize ∧ ∃ w', call w = .stop .fault w'

/-- A call that succeeds only if all it needs has, leaves nothing behind if it fails, and does not go on
with what it has not got. -/
structure LeavesNothing {α : Type} (call : Call α) (w : World) (allSucceed goesOn : Prop) : Prop where
  success : ∀ a w', call w = .ret (.ok a) w' → allSucceed
  error : ∀ e w', call w = .ret (.error e) w' → Restored w w'
  stops : ¬ goesOn

section Restored

variable {w w' : World} {R : Nat → Prop}

/-- What was mapped and given back had been free. -/
theorem Undone.restored (h : Undone R w.proc w') (hvacant : ∀ page, R page → w.proc.pages page = none)
    (hnames : w'.kernel.names = w.kernel.names)
    (hcount : ∀ path obj, w.kernel.names path = some obj →
      (w'.kernel.header obj).refcount = (w.kernel.header obj).refcount) : Restored w w' := by
  obtain ⟨hfds, hallocs⟩ := Prod.mk.inj h.counts
  refine ⟨hnames, hcount, hfds, ?_, hallocs⟩
  funext page
  rcases h.pages page with hsame | ⟨hr, hnone⟩
  · exact hsame
  · rw [hnone, hvacant page hr]

/-- An object that was not there before does not matter. -/
theorem refcount_of_others (hlinked : w.kernel.Linked)
    (hothers : ∀ i < w.kernel.fresh, w'.kernel.objs i = w.kernel.objs i) :
    ∀ path obj, w.kernel.names path = some obj →
      (w'.kernel.header obj).refcount = (w.kernel.header obj).refcount := by
  intro path obj hname
  rw [Kernel.header, Kernel.header, hothers obj (hlinked path obj hname)]

end Restored

/-! ## One block -/

section Block

variable {b : Build} {ctx : Context} {os : Os} {blockName : BlockName} {id size : UInt64}
variable {access : AccessMode} {w : World}

/-- What `shared_memory_block_create` has done, however it ends. -/
theorem sharedMemoryBlockCreate_undo_post (hunlink : os.unlink = none) :
    Prog.Post (sharedMemoryBlockCreate b ctx os blockName id size access) w
      (fun block w' => os.Creates b size (makeBlockNameBasedOnId blockName.chars id) w.kernel ∧
        Created w.kernel blockName id size access block w'.kernel ∧ Taken os w.proc block w' ∧
        w'.proc.errno = w.proc.errno)
      (fun _ w' => (¬ os.Creates b size (makeBlockNameBasedOnId blockName.chars id) w.kernel ∧
        ¬ os.Wild b size (makeBlockNameBasedOnId blockName.chars id) w.kernel) ∧
        w.kernel.Same w'.kernel ∧ Undone (os.Region size) w.proc w')
      (fun why _ => why = .assertion ∧ ¬ SizeOk b size ∨
        why = .fault ∧ os.Wild b size (makeBlockNameBasedOnId blockName.chars id) w.kernel) := by
  refine (((sharedMemoryBlockCreate_takes.and sharedMemoryBlockCreate_any_post).and
    (sharedMemoryBlockCreate_error_same hunlink)).and
    (sharedMemoryBlockCreate_sparesErrno w)).mono ?_ ?_ ?_
  · rintro block w' ⟨⟨⟨⟨hcreates, -, htaken⟩, hcreated⟩, -⟩, herrno⟩
    exact ⟨hcreates, hcreated, htaken, herrno⟩
  · rintro e w' ⟨⟨⟨⟨hnot, htame, hundone⟩, -⟩, hsame⟩, -⟩
    exact ⟨⟨hnot, htame⟩, hsame, hundone⟩
  · rintro why w' ⟨⟨⟨hwhy, hsound⟩, -⟩, -⟩
    rcases hwhy with hassert | ⟨hfault, hreach⟩
    · exact .inl hassert
    · refine .inr ⟨hfault, hreach, ?_⟩
      -- with a header that can be mapped, only the assertions stop it
      intro hmaps
      have hassert := (hsound ⟨hmaps, hunlink⟩).1
      rw [hfault] at hassert
      cases hassert

/-- What `shared_memory_block_open` has done, however it ends. -/
theorem sharedMemoryBlockOpen_undo_post :
    Prog.Post (sharedMemoryBlockOpen ctx os blockName id access) w
      (fun block w' => os.Opens blockName id w.kernel block.obj ∧ block.hasOwnership = false ∧
        block.size = (w.kernel.header block.obj).blockSize ∧ Taken os w.proc block w' ∧
        w'.kernel = w.kernel.modifyObj block.obj ShmObject.retained)
      (fun _ w' => ((∀ obj, ¬ os.Opens blockName id w.kernel obj) ∧
        ¬ os.OpensWild (makeBlockNameBasedOnId blockName.chars id) w.kernel) ∧
        w'.kernel = w.kernel ∧
        Undone (os.OpenRegion (makeBlockNameBasedOnId blockName.chars id) w.kernel) w.proc w')
      (fun why _ => (∀ obj, ¬ os.Opens blockName id w.kernel obj) ∧
        (why = .fault ∧ os.shmOpen.isOk = true ∧
            w.kernel.names (makeBlockNameBasedOnId blockName.chars id) ≠ none ∨
          why = .spin ∧ Maps os.headerMmap memoryPageSize)) := by
  refine (sharedMemoryBlockOpen_takes.and sharedMemoryBlockOpen_any_post).mono ?_ ?_ ?_
  · rintro block w' ⟨⟨hopens, hsize, htaken⟩, -, -, -, hown, hkernel⟩
    exact ⟨hopens, hown, hsize, htaken, hkernel⟩
  · rintro e w' ⟨⟨hnot, htame, hundone⟩, hkernel⟩
    exact ⟨⟨hnot, htame⟩, hkernel, hundone⟩
  · exact fun _ _ h => h.1

end Block

/-! ## The steps of both calls -/

section Steps

variable {b : Build} {ctx : Context} {os : Os} {n : BlockName} {size : UInt64} {access : AccessMode}
variable {w : World} {alloc : Bool} {block : SharedMemoryBlock} {S : Stop → World → Prop}

/-- The process, with one allocation more. -/
def Proc.allocated (p : Proc) : Proc := { p with allocs := p.allocs + 1 }

theorem ipmAlloc_takes :
    Prog.Post (ipmAlloc ctx alloc) w
      (fun _ w' => alloc = true ∧ w' = { w with proc := w.proc.allocated })
      (fun _ w' => alloc ≠ true ∧ w'.kernel = w.kernel ∧ Undone (fun _ => False) w.proc w') S := by
  cases alloc with
  | true => exact Prog.Post.update ⟨rfl, rfl⟩
  | false =>
    refine ((ipmError_post.also (ipmError_keepsCounts w)).also (ipmError_keepsPages w)).bind
      fun _ w1 h1 => Prog.Post.fail ?_
    exact ⟨Bool.false_ne_true, h1.1.1, .of_same h1.1.2 h1.2⟩

/-- The end of an unwinding. -/
theorem ipmFree_undone {R : Nat → Prop} {p : Proc} {E : IpmResult → World → Prop}
    (h : Undone R p.allocated w) :
    Prog.Post ipmFree w (fun _ w' => w'.kernel = w.kernel ∧ Undone R p w') E S := by
  refine Prog.Post.update ⟨rfl, ?_, h.pages⟩
  obtain ⟨hfds, hallocs⟩ := Prod.mk.inj h.counts
  show (w.proc.fds, w.proc.allocs - 1) = (p.fds, p.allocs)
  rw [hfds, hallocs]
  rfl

theorem ipmError_undone {R : Nat → Prop} {p : Proc} {E : IpmResult → World → Prop}
    (h : Undone R p w) :
    Prog.Post (ipmError ctx) w (fun _ w' => w'.kernel = w.kernel ∧ Undone R p w') E S := by
  exact Prog.Post.update ⟨rfl, h.counts, h.pages⟩

/-- The unwinding of a first block that was not made or not found. -/
theorem report_free_undone {R : Nat → Prop} {p : Proc} {E : IpmResult → World → Prop}
    (h : Undone R p.allocated w) :
    Prog.Post (do ipmError ctx; ipmFree) w (fun _ w' => w'.kernel = w.kernel ∧ Undone R p w') E S := by
  refine (ipmError_undone h).bind fun _ w1 h1 => ?_
  exact (ipmFree_undone h1.2).mapRet fun _ _ h2 => ⟨h2.1.trans h1.1, h2.2⟩

/-- The claims block: made, or nothing is left of it. -/
theorem createClaims_undo_post (hunlink : os.unlink = none) :
    Prog.Post (createClaims b ctx alloc os size n) w
      (fun block w' => (alloc = true ∧ RequestOk b size ∧
          os.Creates b claimSize (objectPath n .activeClaims) w.kernel) ∧
        Created w.kernel n MemoryBlock.activeClaims.id claimSize .readWrite block w'.kernel ∧
        Taken os w.proc.allocated block w' ∧ w'.proc.errno = w.proc.errno)
      (fun _ w' => (alloc = true → ¬ os.Creates b claimSize (objectPath n .activeClaims) w.kernel ∧
          ¬ os.Wild b claimSize (objectPath n .activeClaims) w.kernel) ∧
        w.kernel.Same w'.kernel ∧ Undone (os.Region claimSize) w.proc w')
      (fun why _ => ¬ RequestOk b size ∧ why = .assertion ∨
        (alloc = true ∧ RequestOk b size ∧
          os.Wild b claimSize (objectPath n .activeClaims) w.kernel) ∧ why = .fault) := by
  unfold createClaims
  refine (Prog.Post.asserted.mapStop
    fun _ _ h => .inl ⟨not_requestOk h.2.2.1 fun hok => of_decide_eq_false h.2.2.2 hok.1, h.1⟩).bind
    fun _ w₀ hpos => ?_
  obtain ⟨rfl, hpos⟩ := hpos
  refine (ipmAlloc_takes.mono (fun _ _ h => h) ?_ fun _ _ h => h).bind fun _ w1 h1 => ?_
  · rintro e w' ⟨hnone, hkernel, hundone⟩
    exact ⟨fun halloc => absurd halloc hnone, hkernel ▸ .refl _, hundone.mono fun _ hfalse => hfalse.elim⟩
  obtain ⟨halloc, rfl⟩ := h1
  refine (Prog.Post.asserted.mapStop
    fun _ _ h => .inl ⟨not_requestOk h.2.2.1 fun hok => of_decide_eq_false h.2.2.2 hok.2, h.1⟩).bind
    fun _ w2 hround => ?_
  obtain ⟨rfl, hround⟩ := hround
  have hrequest : RequestOk b size := by
    cases hb : b.ndebug with
    | true => exact .inl hb
    | false => exact .inr ⟨of_decide_eq_true (hpos hb), of_decide_eq_true (hround hb)⟩
  refine (Prog.Post.assert_holds fun _ => by simp [roundSize_mask size]).bind fun _ w3 h3 => ?_
  subst h3
  refine ((sharedMemoryBlockCreate_undo_post hunlink).mono ?_ (fun _ _ h => h) ?_).onError ?_
  · rintro block w4 ⟨hcreates, hcreated, htaken, herrno⟩
    exact ⟨⟨halloc, hrequest, hcreates⟩, hcreated, htaken, herrno⟩
  · rintro why w4 (⟨-, hsize⟩ | ⟨hfault, hwild⟩)
    · exact absurd claimSize_ok hsize
    · exact .inr ⟨⟨halloc, hrequest, hwild⟩, hfault⟩
  · rintro e w4 ⟨hnot, hsame, hundone⟩
    exact (report_free_undone hundone).mapRet fun _ _ h => ⟨fun _ => hnot, h.1 ▸ hsame, h.2⟩

/-- The real memory: made, or nothing is left of it. -/
theorem createReal_undo_post (hunlink : os.unlink = none) :
    Prog.Post (createReal b ctx os size n access) w
      (fun _ _ => os.Creates b (roundSize size) (objectPath n .realMemory) w.kernel)
      (fun _ w' => (¬ os.Creates b (roundSize size) (objectPath n .realMemory) w.kernel ∧
          ¬ os.Wild b (roundSize size) (objectPath n .realMemory) w.kernel) ∧
        w.kernel.Same w'.kernel ∧ Undone (os.Region (roundSize size)) w.proc w')
      (fun why _ => why = .assertion ∧ ¬ SizeOk b (roundSize size) ∨
        why = .fault ∧ os.Wild b (roundSize size) (objectPath n .realMemory) w.kernel) := by
  refine ((sharedMemoryBlockCreate_undo_post hunlink).mapRet fun _ _ h => h.1).onError ?_
  rintro e w1 ⟨hnot, hsame, hundone⟩
  exact (ipmError_undone hundone).mapRet fun _ _ h => ⟨hnot, h.1 ▸ hsame, h.2⟩

/-- `claim_list_init` returns success. -/
def ListTold (mutex : MutexInitCodes) (condition : ConditionInitCodes) (errno : Errno) : Prop :=
  mutex = ⟨0, 0, 0, 0, 0⟩ ∧ (condition = ⟨0, 0, 0⟩ ∨ condition.Silent errno)

theorem initClaims_undo_post {mutex : MutexInitCodes} {condition : ConditionInitCodes} :
    Prog.Post (initClaims ctx mutex condition block) w
      (fun _ w' => ListTold mutex condition w.proc.errno ∧
        w'.kernel = w.kernel.modifyObj block.obj ShmObject.listed ∧ w'.proc = w.proc)
      (fun _ w' => ¬ ListTold mutex condition w.proc.errno ∧ w'.kernel = w.kernel ∧
        Undone (fun _ => False) w.proc w') S := by
  have hsame : Undone (fun _ => False) w.proc w := .of_same rfl rfl
  have hinit : Prog.Post (claimListInitAt mutex condition block.obj realClaimCapacity) w
      (fun _ w' => ListTold mutex condition w.proc.errno ∧
        w'.kernel = w.kernel.modifyObj block.obj ShmObject.listed ∧ w'.proc = w.proc)
      (fun _ w' => ¬ ListTold mutex condition w.proc.errno ∧ w' = w) S := by
    refine Prog.Post.bind (Q := fun e w' => e = w.proc.errno ∧ w' = w) (Prog.Post.read ⟨rfl, rfl⟩)
      fun e w1 h1 => ?_
    obtain ⟨rfl, rfl⟩ := h1
    dsimp only
    split
    · rename_i hmutex
      exact Prog.Post.fail ⟨fun h => hmutex (ipmMutexInit_eq_success_iff.mpr h.1), rfl⟩
    · rename_i hmutex
      rw [not_not, ipmMutexInit_eq_success_iff] at hmutex
      refine Prog.Post.bind (Q := fun e w' => e = w1.proc.errno ∧ w' = w1) (Prog.Post.read ⟨rfl, rfl⟩)
        fun e w2 h2 => ?_
      obtain ⟨rfl, rfl⟩ := h2
      split
      · rename_i hcondition
        exact Prog.Post.fail ⟨fun h => hcondition (ipmConditionInit_eq_success_iff.mpr h.2), rfl⟩
      · rename_i hcondition
        rw [not_not, ipmConditionInit_eq_success_iff] at hcondition
        exact Prog.Post.update ⟨⟨hmutex, hcondition⟩, rfl, rfl⟩
  refine hinit.onError ?_
  rintro e w1 ⟨hnot, rfl⟩
  exact (ipmError_undone hsame).mapRet fun _ _ h => ⟨hnot, h⟩

/-- A block looked for: found and taken, or nothing has happened. -/
theorem openReal_undo_post :
    Prog.Post (openReal ctx alloc os n access) w
      (fun block w' => (alloc = true ∧ os.Opens n MemoryBlock.realMemory.id w.kernel block.obj) ∧
        block.hasOwnership = false ∧ block.size = (w.kernel.header block.obj).blockSize ∧
        Taken os w.proc.allocated block w' ∧
        w'.kernel = w.kernel.modifyObj block.obj ShmObject.retained)
      (fun _ w' => (alloc = true → (∀ obj, ¬ os.Opens n MemoryBlock.realMemory.id w.kernel obj) ∧
          ¬ os.OpensWild (objectPath n .realMemory) w.kernel) ∧ w'.kernel = w.kernel ∧
        Undone (os.OpenRegion (objectPath n .realMemory) w.kernel) w.proc w')
      (fun why _ => alloc = true ∧ (∀ obj, ¬ os.Opens n MemoryBlock.realMemory.id w.kernel obj) ∧
        (why = .fault ∧ os.shmOpen.isOk = true ∧
            w.kernel.names (objectPath n .realMemory) ≠ none ∨
          why = .spin ∧ Maps os.headerMmap memoryPageSize)) := by
  unfold openReal
  refine (ipmAlloc_takes.mono (fun _ _ h => h) ?_ fun _ _ h => h).bind fun _ w1 h1 => ?_
  · rintro e w' ⟨hnone, hkernel, hundone⟩
    exact ⟨fun halloc => absurd halloc hnone, hkernel, hundone.mono fun _ hfalse => hfalse.elim⟩
  obtain ⟨halloc, rfl⟩ := h1
  refine (sharedMemoryBlockOpen_undo_post.mono (fun _ _ h => ⟨⟨halloc, h.1⟩, h.2⟩) (fun _ _ h => h)
    fun _ _ h => ⟨halloc, h⟩).onError ?_
  rintro e w2 ⟨hnot, hkernel, hundone⟩
  exact (report_free_undone hundone).mapRet fun _ _ h => ⟨fun _ => hnot, h.1.trans hkernel, h.2⟩

theorem openClaims_undo_post :
    Prog.Post (openClaims ctx os n) w
      (fun block _ => os.Opens n MemoryBlock.activeClaims.id w.kernel block.obj)
      (fun _ w' => ((∀ obj, ¬ os.Opens n MemoryBlock.activeClaims.id w.kernel obj) ∧
          ¬ os.OpensWild (objectPath n .activeClaims) w.kernel) ∧ w'.kernel = w.kernel ∧
        Undone (os.OpenRegion (objectPath n .activeClaims) w.kernel) w.proc w')
      (fun why _ => (∀ obj, ¬ os.Opens n MemoryBlock.activeClaims.id w.kernel obj) ∧
        (why = .fault ∧ os.shmOpen.isOk = true ∧
            w.kernel.names (objectPath n .activeClaims) ≠ none ∨
          why = .spin ∧ Maps os.headerMmap memoryPageSize)) := by
  refine (sharedMemoryBlockOpen_undo_post.mapRet fun _ _ h => h.1).onError ?_
  rintro e w1 ⟨hnot, hkernel, hundone⟩
  exact (ipmError_undone hundone).mapRet fun _ _ h => ⟨hnot, h.1.trans hkernel, h.2⟩

theorem uninitCallback_id (obj : Nat) : uninitCallback obj id = pure () := by
  funext w
  show Outcome.ret _ { w with kernel := w.kernel.modifyObj obj id } = _
  rw [Kernel.modifyObj, id, Function.update_eq_self]
  rfl

/-- The end of an unwinding that has a block to close. -/
theorem closeAndFree_undo_post {R' : Nat → Prop} {p : Proc} {E : IpmResult → World → Prop}
    {w₁ : World} (hown : block.hasOwnership = false)
    (hpage : memoryPageSize.toNat ≤ (w.kernel.objs block.obj).length)
    (hsize : (w.kernel.header block.obj).blockSize = block.size) (hspace : block.InSpace block.size)
    (hheld : Holding (block.Range block.size) p.allocated block.memFd.fd w₁)
    (hundone : Undone R' w₁.proc w) :
    Prog.Post (closeAndFree b ctx os block) w
      (fun _ w' => CloseDone os block.obj id w.kernel w'.kernel ∧
        Undone (fun page => block.Range block.size page ∨ R' page) p w') E S := by
  have hclosing : w.closing block = block.Range block.size := by
    rw [World.closing, hsize, hspace.reach_eq]
  have hunmaps : Prog.Post (sharedMemoryBlockClose b ctx os block (pure ())) w
      (fun _ w' => Unmapped (w.closing block) w w') (fun _ w' => Unmapped (w.closing block) w w') S :=
    sharedMemoryBlockClose_unmaps hown hpage fun w₁ => Prog.Post.pure (.refl w₁)
  have hkernel : Prog.Post (sharedMemoryBlockClose b ctx os block (pure ())) w
      (fun _ w' => CloseDone os block.obj id w.kernel w'.kernel)
      (fun _ w' => CloseDone os block.obj id w.kernel w'.kernel) (fun _ w' => w'.kernel = w.kernel) := by
    rw [← uninitCallback_id block.obj]
    exact sharedMemoryBlockClose_any_post
  have hclose := (hunmaps.and (sharedMemoryBlockClose_counts (.pure ()) hown)).and hkernel
  rw [hclosing] at hclose
  have hend : ∀ w' : World, (Unmapped (block.Range block.size) w w' ∧
      w'.counts = (w.proc.fds.erase block.memFd.fd, w.proc.allocs)) ∧
      CloseDone os block.obj id w.kernel w'.kernel →
      CloseDone os block.obj id w.kernel w'.kernel ∧
        Undone (fun page => block.Range block.size page ∨ R' page) p.allocated w' :=
    fun w' h => ⟨h.2, hheld.undone_after hundone h.1.1 h.1.2⟩
  have hignore : Prog.Post (sharedMemoryBlockClose b ctx os block (pure ())).ignore w
      (fun _ w' => CloseDone os block.obj id w.kernel w'.kernel ∧
        Undone (fun page => block.Range block.size page ∨ R' page) p.allocated w') E S :=
    (hclose.mono (fun _ w' h => hend w' h) (fun _ w' h => hend w' h) fun _ _ h => h.1.1).ignore
      (fun _ _ h => h) fun _ _ h => h
  refine hignore.bind fun _ w2 h2 => ?_
  exact (ipmFree_undone h2.2).mapRet fun _ _ h => ⟨h.1 ▸ h2.1, h.2⟩

end Steps

/-! ## `ipm_memory_create` -/

/-- The kernel while a creation is at its second block, or undoing its first. -/
structure ClaimsLeft (k₀ : Kernel) (n : BlockName) (k : Kernel) : Prop where
  names : k.names = Function.update k₀.names (objectPath n .activeClaims) (some k₀.fresh)
  header : k.header k₀.fresh = (createdObject n MemoryBlock.activeClaims.id claimSize).header
  length : memoryPageSize.toNat ≤ (k.objs k₀.fresh).length
  others : ∀ i < k₀.fresh, k.objs i = k₀.objs i
  fresh : k₀.fresh < k.fresh

section Create

variable {b : Build} {ctx : Context} {n : BlockName} {k₀ k k' : Kernel} {block : SharedMemoryBlock}

theorem Created.claimsLeft {access : AccessMode}
    (h : Created k₀ n MemoryBlock.activeClaims.id claimSize access block k) : ClaimsLeft k₀ n k := by
  rw [h.kernel]
  refine ⟨rfl, ?_, ?_, ?_, Nat.lt_succ_self _⟩
  · rw [Kernel.header, Kernel.objs_build_fresh]
  · rw [Kernel.objs_build_fresh]
    exact Nat.le_add_left _ _
  · intro i hi
    exact Kernel.objs_build_ne _ _ _ hi.ne

namespace ClaimsLeft

/-- What is done behind the header of the claims object. -/
theorem modifyObj {f : ShmObject → ShmObject} (h : ClaimsLeft k₀ n k)
    (hheader : ∀ o, (f o).header = o.header) (hlength : ∀ o, (f o).length = o.length) :
    ClaimsLeft k₀ n (k.modifyObj k₀.fresh f) := by
  refine ⟨h.names, ?_, ?_, ?_, h.fresh⟩
  · rw [Kernel.header, Kernel.objs_modifyObj_self, hheader]
    exact h.header
  · rw [Kernel.objs_modifyObj_self, hlength]
    exact h.length
  · intro i hi
    rw [Kernel.objs_modifyObj_ne _ _ hi.ne]
    exact h.others i hi

theorem same (h : ClaimsLeft k₀ n k) (hsame : k.Same k') : ClaimsLeft k₀ n k' := by
  refine ⟨hsame.names.trans h.names, ?_, ?_, ?_, h.fresh.trans_le hsame.fresh⟩
  · rw [Kernel.header, hsame.objs _ h.fresh]
    exact h.header
  · rw [hsame.objs _ h.fresh]
    exact h.length
  · intro i hi
    rw [hsame.objs i (hi.trans h.fresh)]
    exact h.others i hi

/-- The last reference goes, and the name with it. -/
theorem closed {os : Os} (h : ClaimsLeft k₀ n k) (hfree : k₀.names (objectPath n .activeClaims) = none)
    (hunlink : os.unlink = none) (hclose : CloseDone os k₀.fresh id k k') :
    k'.names = k₀.names ∧ ∀ i < k₀.fresh, k'.objs i = k₀.objs i := by
  have hlast : (k.header k₀.fresh).refcount = 1 := by
    rw [h.header]
    rfl
  have hkernel := hclose.kernel.resolve_right fun hor => hor.1 hunlink
  rw [Kernel.closed, if_pos hlast, h.header] at hkernel
  rw [hkernel]
  constructor
  · funext path
    rw [Kernel.names_unlink, Kernel.names_modifyObj, h.names]
    split
    · rename_i hpath
      rw [hpath]
      exact hfree.symm
    · rename_i hpath
      exact Function.update_of_ne hpath _ _
  · intro i hi
    rw [Kernel.objs_unlink, Kernel.objs_modifyObj_ne _ _ hi.ne]
    exact h.others i hi

end ClaimsLeft

theorem ClaimsLeft.names_real (h : ClaimsLeft k₀ n k) :
    k.names (objectPath n .realMemory) = k₀.names (objectPath n .realMemory) := by
  rw [h.names]
  apply Function.update_of_ne
  intro hpath
  cases (objectPath_injective hpath).2

theorem Os.reachesHeader_congr {os : Os} {size : UInt64} {path : CString}
    (h : k'.names path = k.names path) :
    os.ReachesHeader b size path k' ↔ os.ReachesHeader b size path k :=
  ⟨fun hr => ⟨hr.sizeOk, hr.shmOpen, h ▸ hr.free, hr.ftruncate, hr.body⟩,
    fun hr => ⟨hr.sizeOk, hr.shmOpen, h.trans hr.free, hr.ftruncate, hr.body⟩⟩

theorem Os.creates_congr {os : Os} {size : UInt64} {path : CString}
    (h : k'.names path = k.names path) : os.Creates b size path k' ↔ os.Creates b size path k :=
  ⟨fun hc => ⟨(reachesHeader_congr h).mp hc.toReachesHeader, hc.header, hc.mutex⟩,
    fun hc => ⟨(reachesHeader_congr h).mpr hc.toReachesHeader, hc.header, hc.mutex⟩⟩

theorem Os.wild_congr {os : Os} {size : UInt64} {path : CString}
    (h : k'.names path = k.names path) : os.Wild b size path k' ↔ os.Wild b size path k :=
  and_congr_left fun _ => reachesHeader_congr h

/-- What the environment is trusted with: it removes names, and maps where nothing is mapped. -/
structure CreateOs.Regular (os : CreateOs) (size : UInt64) (w : World) : Prop where
  unlink : os.claims.unlink = none ∧ os.real.unlink = none ∧ os.rollback.unlink = none
  vacant : ∀ page, os.claims.Region claimSize page ∨ os.real.Region (roundSize size) page →
    w.proc.pages page = none

/-- Every call of `ipm_memory_create` succeeds. -/
structure CreateOs.AllSucceed (os : CreateOs) (b : Build) (size : UInt64) (n : BlockName) (w : World) :
    Prop where
  alloc : os.alloc = true
  claims : os.claims.Creates b claimSize (objectPath n .activeClaims) w.kernel
  listMutex : os.listMutex = ⟨0, 0, 0, 0, 0⟩
  listCondition : os.listCondition = ⟨0, 0, 0⟩
  real : os.real.Creates b (roundSize size) (objectPath n .realMemory) w.kernel

/-- ... as far as `ipm_memory_create` is told. -/
structure CreateOs.Told (os : CreateOs) (b : Build) (size : UInt64) (n : BlockName) (w : World) :
    Prop where
  alloc : os.alloc = true
  request : RequestOk b size
  claims : os.claims.Creates b claimSize (objectPath n .activeClaims) w.kernel
  list : ListTold os.listMutex os.listCondition w.proc.errno
  real : os.real.Creates b (roundSize size) (objectPath n .realMemory) w.kernel

/-- The claims block is closed, and nothing is left. -/
theorem unwind_create_post {os rollback : Os} {R' : Nat → Prop} {w₀ w₁ w : World} {access : AccessMode}
    {E : IpmResult → World → Prop} {S : Stop → World → Prop} (hlinked : w₀.kernel.Linked)
    (hcreated : Created w₀.kernel n MemoryBlock.activeClaims.id claimSize access block w₁.kernel)
    (htaken : Taken os w₀.proc.allocated block w₁) (hleft : ClaimsLeft w₀.kernel n w.kernel)
    (hundone : Undone R' w₁.proc w) (hunlink : rollback.unlink = none)
    (hvacant : ∀ page, os.Region claimSize page ∨ R' page → w₀.proc.pages page = none) :
    Prog.Post (closeAndFree b ctx rollback block) w (fun _ w' => Restored w₀ w') E S := by
  have hobj := hcreated.obj
  have hsize := hcreated.size_eq
  refine (closeAndFree_undo_post hcreated.hasOwnership ?_ ?_ htaken.space htaken.holding hundone).mono
    ?_ (fun _ _ h => h) fun _ _ h => h
  · rw [hobj]
    exact hleft.length
  · rw [hobj, hleft.header, hsize]
    rfl
  · rintro _ w' ⟨hclose, hend⟩
    rw [hobj] at hclose
    obtain ⟨hnames, hothers⟩ := hleft.closed hcreated.free hunlink hclose
    apply hend.restored _ hnames (refcount_of_others hlinked hothers)
    intro page hr
    apply hvacant page
    refine hr.imp_left ?_
    rintro (hbody | hheader)
    · exact .inl ⟨block.memory, htaken.body, hsize ▸ hbody⟩
    · exact .inr ⟨block.header, htaken.header, hheader⟩

/-- **What `ipm_memory_create` leaves.** -/
theorem ipmMemoryCreate_undo_post {os : CreateOs} {size : UInt64} {access : AccessMode} {w : World}
    (hos : os.Regular size w) (hlinked : w.kernel.Linked) :
    Prog.Post (ipmMemoryCreate b ctx os size n access) w (fun _ _ => os.Told b size n w)
      (fun _ w' => ¬ os.Told b size n w ∧ Restored w w') (fun _ _ => ¬ os.Told b size n w) := by
  obtain ⟨⟨hclaims, hreal, hrollback⟩, hvacant⟩ := hos
  unfold ipmMemoryCreate
  refine ((createClaims_undo_post hclaims).mono (fun _ _ h => h) ?_ ?_).bind fun claims w1 h1 => ?_
  · rintro e w' ⟨hnot, hsame, hundone⟩
    refine ⟨fun h => (hnot h.alloc).1 h.claims, ?_⟩
    exact hundone.restored (fun page hr => hvacant page (.inl hr)) hsame.names
      (refcount_of_others hlinked hsame.objs)
  · rintro why w' (⟨hrequest, -⟩ | ⟨⟨-, -, hwild⟩, -⟩)
    · exact fun h => hrequest h.request
    · exact fun h => hwild.not_creates h.claims
  obtain ⟨⟨halloc, hrequest, hcreates⟩, hcreated, htaken, herrno⟩ := h1
  have hleft := hcreated.claimsLeft
  refine (initClaims_undo_post.onError ?_).bind fun _ w2 h2 => ?_
  · rintro e w2 ⟨hnot, hkernel, hundone⟩
    refine (unwind_create_post hlinked hcreated htaken (hkernel ▸ hleft) hundone hrollback
      ?_).mapRet fun _ _ hrestored => ⟨fun h => hnot (herrno ▸ h.list), hrestored⟩
    exact fun page hr => hvacant page (.inl (hr.resolve_right fun hfalse => hfalse))
  obtain ⟨hlist, hkernel, hproc⟩ := h2
  have hleft₂ : ClaimsLeft w.kernel n w2.kernel := by
    rw [hkernel, hcreated.obj]
    exact hleft.modifyObj (fun _ => rfl) fun _ => rfl
  have hcreates_iff : os.real.Creates b (roundSize size) (objectPath n .realMemory) w2.kernel ↔
      os.real.Creates b (roundSize size) (objectPath n .realMemory) w.kernel :=
    Os.creates_congr hleft₂.names_real
  refine (((createReal_undo_post hreal).mono (fun _ _ h => hcreates_iff.mp h) (fun _ _ h => h) ?_).onError
    ?_).bind fun real w3 h3 => Prog.Post.pure ⟨halloc, hrequest, hcreates, herrno ▸ hlist, h3⟩
  · rintro why w' (⟨-, hsize⟩ | ⟨-, hwild⟩)
    · exact fun h => hsize h.real.sizeOk
    · exact fun h => hwild.not_creates h.real
  · rintro e w3 ⟨⟨hnot, -⟩, hsame, hundone⟩
    rw [hproc] at hundone
    refine Prog.Post.bind (Q := fun _ w' => ClaimsLeft w.kernel n w'.kernel ∧
      Undone (os.real.Region (roundSize size)) w1.proc w') (Prog.Post.update ⟨?_, hundone.counts,
        hundone.pages⟩) fun _ w4 h4 => ?_
    · show ClaimsLeft w.kernel n (w3.kernel.modifyObj claims.obj ShmObject.unlisted)
      rw [hcreated.obj]
      exact (hleft₂.same hsame).modifyObj (fun _ => rfl) fun _ => rfl
    · exact (unwind_create_post hlinked hcreated htaken h4.1 h4.2 hrollback
        hvacant).mapRet fun _ _ hrestored => ⟨fun h => hnot (hcreates_iff.mpr h.real), hrestored⟩

section Noticed

variable {os : CreateOs} {size : UInt64} {access : AccessMode} {w : World}

/-- A creation that goes on with a header it could not map. -/
def CreateOs.GoesOn (os : CreateOs) (b : Build) (ctx : Context) (size : UInt64) (n : BlockName)
    (access : AccessMode) (w : World) : Prop :=
  os.claims.StopsAtHeader (createClaims b ctx os.alloc os.claims size n) w ∨
    ∃ claims w₁ w₂, createClaims b ctx os.alloc os.claims size n w = .ret (.ok claims) w₁ ∧
      initClaims ctx os.listMutex os.listCondition claims w₁ = .ret (.ok ()) w₂ ∧
      os.real.StopsAtHeader (createReal b ctx os.real size n access) w₂

/-- `ipm_memory_create` leaves nothing behind, nor goes on with what it has not got. -/
def CreateOs.LeavesNothing (os : CreateOs) (b : Build) (ctx : Context) (size : UInt64) (n : BlockName)
    (access : AccessMode) (w : World) : Prop :=
  Ipm.LeavesNothing (ipmMemoryCreate b ctx os size n access) w (os.AllSucceed b size n w)
    (os.GoesOn b ctx size n access w)

/-- Neither header is asked for in vain, and no failure is silent, as long as it matters. -/
structure CreateOs.Noticed (os : CreateOs) (b : Build) (size : UInt64) (n : BlockName) (w : World) :
    Prop where
  claims : os.alloc = true → RequestOk b size →
    ¬ os.claims.Wild b claimSize (objectPath n .activeClaims) w.kernel
  real : os.alloc = true → RequestOk b size →
    os.claims.Creates b claimSize (objectPath n .activeClaims) w.kernel →
    ListTold os.listMutex os.listCondition w.proc.errno →
    ¬ os.real.Wild b (roundSize size) (objectPath n .realMemory) w.kernel
  list : os.alloc = true → RequestOk b size →
    os.claims.Creates b claimSize (objectPath n .activeClaims) w.kernel →
    os.listMutex = ⟨0, 0, 0, 0, 0⟩ → os.listCondition.Silent w.proc.errno →
    ¬ os.real.Creates b (roundSize size) (objectPath n .realMemory) w.kernel

/-- The claims block is created and its list set up. -/
theorem claims_ready (hunlink : os.claims.unlink = none) (halloc : os.alloc = true)
    (hrequest : RequestOk b size)
    (hcreates : os.claims.Creates b claimSize (objectPath n .activeClaims) w.kernel)
    (hlist : ListTold os.listMutex os.listCondition w.proc.errno) :
    ∃ claims w₁ w₂, createClaims b ctx os.alloc os.claims size n w = .ret (.ok claims) w₁ ∧
      initClaims ctx os.listMutex os.listCondition claims w₁ = .ret (.ok ()) w₂ ∧
      ClaimsLeft w.kernel n w₂.kernel := by
  have hgoes : ∀ why : Stop, ¬ (¬ RequestOk b size ∧ why = .assertion ∨ (os.alloc = true ∧
      RequestOk b size ∧ os.claims.Wild b claimSize (objectPath n .activeClaims) w.kernel) ∧
        why = .fault) := by
    rintro why (⟨hnot, -⟩ | ⟨⟨-, -, hwild⟩, -⟩)
    · exact hnot hrequest
    · exact hwild.not_creates hcreates
  obtain ⟨claims, w₁, hclaims, -, hcreated, -, herrno⟩ := (createClaims_undo_post (b := b) hunlink
    (n := n) (w := w)).exists_ret (fun _ _ h => (h.1 halloc).1 hcreates) fun why _ => hgoes why
  obtain ⟨_, w₂, hinit, -, hkernel, -⟩ := (initClaims_undo_post (S := fun _ _ => False)).exists_ret
    (p := initClaims ctx os.listMutex os.listCondition claims) (s := w₁)
    (fun _ _ h => h.1 (herrno ▸ hlist)) fun _ _ h => h
  refine ⟨claims, w₁, w₂, hclaims, hinit, ?_⟩
  rw [hkernel, hcreated.obj]
  exact hcreated.claimsLeft.modifyObj (fun _ => rfl) fun _ => rfl

/-- A header that is wanted and cannot be had stops a creation. -/
theorem createReal_stops (hunlink : os.real.unlink = none)
    (hwild : os.real.Wild b (roundSize size) (objectPath n .realMemory) w.kernel) :
    os.real.StopsAtHeader (createReal b ctx os.real size n access) w := by
  obtain ⟨why, w', hrun, ⟨-, hsize⟩ | ⟨rfl, -⟩⟩ := (createReal_undo_post (b := b) hunlink).exists_stop
    (fun _ _ h => hwild.not_creates h) fun _ _ h => h.1.2 hwild
  · exact absurd hwild.1.sizeOk hsize
  · exact ⟨hwild.2, w', hrun⟩

theorem createClaims_stops (hunlink : os.claims.unlink = none) (halloc : os.alloc = true)
    (hrequest : RequestOk b size)
    (hwild : os.claims.Wild b claimSize (objectPath n .activeClaims) w.kernel) :
    os.claims.StopsAtHeader (createClaims b ctx os.alloc os.claims size n) w := by
  obtain ⟨why, w', hrun, ⟨hno, -⟩ | ⟨-, rfl⟩⟩ := (createClaims_undo_post (b := b) hunlink).exists_stop
    (fun _ _ h => hwild.not_creates h.1.2.2) fun _ _ h => (h.1 halloc).2 hwild
  · exact absurd hrequest hno
  · exact ⟨hwild.2, w', hrun⟩

/-- **When a creation leaves nothing behind**: exactly when its failures are noticed. -/
theorem ipmMemoryCreate_leavesNothing_iff (hos : os.Regular size w) (hlinked : w.kernel.Linked) :
    os.LeavesNothing b ctx size n access w ↔ os.Noticed b size n w := by
  have hpost : Prog.Post (ipmMemoryCreate b ctx os size n access) w (fun _ _ => os.Told b size n w)
      (fun _ w' => ¬ os.Told b size n w ∧ Restored w w') (fun _ _ => ¬ os.Told b size n w) :=
    ipmMemoryCreate_undo_post hos hlinked
  constructor
  · intro h
    refine ⟨?_, ?_, ?_⟩
    · intro halloc hrequest hwild
      exact h.stops (.inl (createClaims_stops hos.unlink.1 halloc hrequest hwild))
    · intro halloc hrequest hcreates hlist hwild
      obtain ⟨claims, w₁, w₂, hclaims, hinit, hleft⟩ :=
        claims_ready hos.unlink.1 halloc hrequest hcreates hlist
      rw [← Os.wild_congr hleft.names_real] at hwild
      exact h.stops (.inr ⟨claims, w₁, w₂, hclaims, hinit, createReal_stops hos.unlink.2.1 hwild⟩)
    · intro halloc hrequest hcreates hmutex hsilent hreal
      have htold : os.Told b size n w := ⟨halloc, hrequest, hcreates, ⟨hmutex, .inr hsilent⟩, hreal⟩
      obtain ⟨memory, w', hrun, -⟩ := hpost.exists_ret (fun _ _ h => h.1 htold) fun _ _ h => h htold
      have hzero := (h.success memory w' hrun).listCondition
      apply hsilent.init
      rw [hzero]
  · intro h
    refine ⟨?_, fun e w' hrun => (hpost.of_error hrun).2, ?_⟩
    · intro memory w' hrun
      have htold := hpost.of_ret hrun
      refine ⟨htold.alloc, htold.claims, htold.list.1, ?_, htold.real⟩
      apply htold.list.2.resolve_right
      intro hsilent
      exact h.list htold.alloc htold.request htold.claims htold.list.1 hsilent htold.real
    · rintro (⟨hrefused, w', hrun⟩ | ⟨claims, w₁, w₂, hclaims, hinit, hrefused, w', hrun⟩)
      · rcases (createClaims_undo_post hos.unlink.1).of_stop hrun with ⟨-, hwhy⟩ | ⟨hwild, -⟩
        · cases hwhy
        · exact h.claims hwild.1 hwild.2.1 hwild.2.2
      · obtain ⟨⟨halloc, hrequest, hcreates⟩, hcreated, -, herrno⟩ :=
          (createClaims_undo_post hos.unlink.1).of_ret hclaims
        obtain ⟨hlist, hkernel, -⟩ := (initClaims_undo_post (S := fun _ _ => True)).of_ret hinit
        have hleft : ClaimsLeft w.kernel n w₂.kernel := by
          rw [hkernel, hcreated.obj]
          exact hcreated.claimsLeft.modifyObj (fun _ => rfl) fun _ => rfl
        rcases (createReal_undo_post hos.unlink.2.1).of_stop hrun with ⟨hwhy, -⟩ | ⟨-, hwild⟩
        · cases hwhy
        · rw [Os.wild_congr hleft.names_real] at hwild
          exact h.real halloc hrequest hcreates (herrno ▸ hlist) hwild

end Noticed

end Create

/-! ## `ipm_memory_open` -/

/-- `mmap` maps where nothing is mapped. -/
def OpenOs.Regular (os : OpenOs) (n : BlockName) (w : World) : Prop :=
  ∀ page, os.real.OpenRegion (objectPath n .realMemory) w.kernel page ∨
    os.claims.OpenRegion (objectPath n .activeClaims) w.kernel page → w.proc.pages page = none

/-- Every call of `ipm_memory_open` succeeds. -/
structure OpenOs.AllSucceed (os : OpenOs) (n : BlockName) (w : World) : Prop where
  alloc : os.alloc = true
  real : ∃ obj, os.real.Opens n MemoryBlock.realMemory.id w.kernel obj
  claims : ∃ obj, os.claims.Opens n MemoryBlock.activeClaims.id w.kernel obj

/-- An open that goes on with a header it could not map. -/
def OpenOs.GoesOn (os : OpenOs) (ctx : Context) (n : BlockName) (access : AccessMode) (w : World) :
    Prop :=
  os.real.StopsAtHeader (openReal ctx os.alloc os.real n access) w ∨
    ∃ real w₁, openReal ctx os.alloc os.real n access w = .ret (.ok real) w₁ ∧
      os.claims.StopsAtHeader (openClaims ctx os.claims n) w₁

/-- `ipm_memory_open` leaves nothing behind, nor goes on with what it has not got. -/
def OpenOs.LeavesNothing (os : OpenOs) (b : Build) (ctx : Context) (n : BlockName) (access : AccessMode)
    (w : World) : Prop :=
  Ipm.LeavesNothing (ipmMemoryOpen b ctx os n access) w (os.AllSucceed n w) (os.GoesOn ctx n access w)

/-- Neither header is asked for in vain. -/
structure OpenOs.Noticed (os : OpenOs) (n : BlockName) (w : World) : Prop where
  real : os.alloc = true → ¬ os.real.OpensWild (objectPath n .realMemory) w.kernel
  claims : os.alloc = true → ∀ obj, os.real.Opens n MemoryBlock.realMemory.id w.kernel obj →
    ¬ os.claims.OpensWild (objectPath n .activeClaims) w.kernel

section Open

variable {b : Build} {ctx : Context} {os : OpenOs} {n : BlockName} {access : AccessMode} {w : World}
variable {k : Kernel} {obj : Nat}

/-- Of the headers, an open changes only a count and a counter. -/
theorem header_retained (k : Kernel) (obj i : Nat) :
    (k.modifyObj obj ShmObject.retained).header i =
      if i = obj then (k.objs obj).retained.header else k.header i := by
  by_cases hi : i = obj
  · rw [if_pos hi, hi, Kernel.header, Kernel.objs_modifyObj_self]
  · rw [if_neg hi, Kernel.header, Kernel.objs_modifyObj_ne _ _ hi]
    rfl

theorem blockSize_retained (k : Kernel) (obj i : Nat) :
    ((k.modifyObj obj ShmObject.retained).header i).blockSize = (k.header i).blockSize := by
  rw [header_retained]
  split
  · rename_i hi
    rw [hi]
    rfl
  · rfl

/-- What finds its claims object after the real memory was opened would have found it before: the two are
not one object. -/
theorem opens_of_retained {real claims : Os} {obj' : Nat}
    (hreal : real.Opens n MemoryBlock.realMemory.id k obj)
    (h : claims.Opens n MemoryBlock.activeClaims.id (k.modifyObj obj ShmObject.retained) obj') :
    claims.Opens n MemoryBlock.activeClaims.id k obj' := by
  have hne : obj' ≠ obj := by
    rintro rfl
    have hid := h.accepts.blockId
    rw [header_retained, if_pos rfl] at hid
    have hsame : MemoryBlock.realMemory.id = MemoryBlock.activeClaims.id :=
      hreal.accepts.blockId.symm.trans hid
    cases MemoryBlock.id_injective hsame
  obtain ⟨hopen, hlinked, hheader, haccepts⟩ := h
  rw [Kernel.objs_modifyObj_ne _ _ hne] at hheader
  rw [header_retained, if_neg hne] at haccepts
  exact ⟨hopen, hlinked, hheader, haccepts⟩

theorem openRegion_retained {os : Os} {path : CString} {page : Nat} :
    os.OpenRegion path (k.modifyObj obj ShmObject.retained) page ↔ os.OpenRegion path k page := by
  unfold Os.OpenRegion
  simp only [blockSize_retained, Kernel.names_modifyObj]

/-- The reference taken by the open is given back. -/
theorem CloseDone.released {rollback : Os} {k' : Kernel} (hrefs : (k.header obj).refcount ≠ 0)
    (h : CloseDone rollback obj id (k.modifyObj obj ShmObject.retained) k') :
    k'.names = k.names ∧ ∀ i, (k'.header i).refcount = (k.header i).refcount := by
  have hmore : ((k.modifyObj obj ShmObject.retained).header obj).refcount = (k.header obj).refcount + 1 := by
    rw [header_retained, if_pos rfl]
    rfl
  have hnot : ((k.modifyObj obj ShmObject.retained).header obj).refcount ≠ 1 := by
    rw [hmore]
    intro hone
    apply hrefs
    have hzero := congrArg (fun count => count - 1) hone
    rw [UInt32.add_sub_cancel] at hzero
    exact hzero.trans (UInt32.sub_self 1)
  have hkernel := h.kernel.resolve_right fun hor => hnot hor.2.1
  rw [Kernel.closed, if_neg hnot, Kernel.modifyObj_modifyObj] at hkernel
  rw [hkernel]
  refine ⟨rfl, ?_⟩
  intro i
  by_cases hi : i = obj
  · rw [hi, Kernel.header, Kernel.objs_modifyObj_self]
    show (k.objs obj).header.refcount + 1 - 1 = _
    rw [UInt32.add_sub_cancel]
    rfl
  · rw [Kernel.header, Kernel.objs_modifyObj_ne _ _ hi]
    rfl

/-- **What `ipm_memory_open` leaves.** -/
theorem ipmMemoryOpen_undo_post (hos : os.Regular n w) :
    Prog.Post (ipmMemoryOpen b ctx os n access) w (fun _ _ => os.AllSucceed n w)
      (fun _ w' => Restored w w') (fun _ _ => True) := by
  unfold ipmMemoryOpen
  refine (openReal_undo_post.mono (fun _ _ h => h) ?_ fun _ _ _ => trivial).bind fun real w1 h1 => ?_
  · rintro e w' ⟨-, hkernel, hundone⟩
    refine hundone.restored (fun page hr => hos page (.inl hr)) (by rw [hkernel]) ?_
    intro path obj _
    rw [hkernel]
  obtain ⟨⟨halloc, hopens⟩, hown, hsize, htaken, hkernel⟩ := h1
  have hpage : memoryPageSize.toNat ≤ (w1.kernel.objs real.obj).length := by
    rw [hkernel, Kernel.objs_modifyObj_self]
    exact hopens.header.2
  have hmapped : (w1.kernel.header real.obj).blockSize = real.size := by
    rw [hkernel, blockSize_retained]
    exact hsize.symm
  refine ((openClaims_undo_post.mapStop fun _ _ _ => trivial).onError ?_).bind
    fun claims w2 h2 => Prog.Post.pure ?_
  · rintro e w2 ⟨-, hsame, hundone⟩
    refine (closeAndFree_undo_post hown (hsame ▸ hpage) (hsame ▸ hmapped) htaken.space htaken.holding
      hundone).mono ?_ (fun _ _ h => h) fun _ _ h => h
    rintro _ w' ⟨hclose, hend⟩
    rw [hsame, hkernel] at hclose
    obtain ⟨hnames, hrefs⟩ := hclose.released hopens.accepts.refcount
    refine hend.restored ?_ hnames fun _ obj _ => hrefs obj
    intro page hr
    apply hos page
    rw [hkernel] at hr
    refine hr.imp ?_ openRegion_retained.mp
    intro hrange
    refine ⟨real.obj, hopens.linked, ?_⟩
    rw [← hsize]
    exact hrange.imp (fun h => ⟨_, htaken.body, h⟩) fun h => ⟨_, htaken.header, h⟩
  · rw [hkernel] at h2
    exact ⟨halloc, ⟨real.obj, hopens⟩, ⟨claims.obj, opens_of_retained hopens h2⟩⟩

theorem openReal_stops (halloc : os.alloc = true)
    (hwild : os.real.OpensWild (objectPath n .realMemory) w.kernel) :
    os.real.StopsAtHeader (openReal ctx os.alloc os.real n access) w := by
  obtain ⟨why, w', hrun, -, -, ⟨rfl, -⟩ | ⟨-, hok⟩⟩ := (openReal_undo_post (n := n)).exists_stop
    (fun _ _ h => hwild.not_opens h.1.2) fun _ _ h => (h.1 halloc).2 hwild
  · exact ⟨hwild.2.2, w', hrun⟩
  · exact absurd hok hwild.2.2

theorem openClaims_stops (hwild : os.claims.OpensWild (objectPath n .activeClaims) w.kernel) :
    os.claims.StopsAtHeader (openClaims ctx os.claims n) w := by
  obtain ⟨why, w', hrun, -, ⟨rfl, -⟩ | ⟨-, hok⟩⟩ := (openClaims_undo_post (n := n)).exists_stop
    (fun _ _ h => hwild.not_opens h) fun _ _ h => h.1.2 hwild
  · exact ⟨hwild.2.2, w', hrun⟩
  · exact absurd hok hwild.2.2

theorem openReal_returns {obj : Nat} (halloc : os.alloc = true)
    (hopens : os.real.Opens n MemoryBlock.realMemory.id w.kernel obj) :
    ∃ real w₁, openReal ctx os.alloc os.real n access w = .ret (.ok real) w₁ ∧
      w₁.kernel.names = w.kernel.names := by
  have hgoes : ∀ why : Stop, ¬ (os.alloc = true ∧
      (∀ obj, ¬ os.real.Opens n MemoryBlock.realMemory.id w.kernel obj) ∧
      (why = .fault ∧ os.real.shmOpen.isOk = true ∧
          w.kernel.names (objectPath n .realMemory) ≠ none ∨
        why = .spin ∧ Maps os.real.headerMmap memoryPageSize)) := fun _ hstop => hstop.2.1 obj hopens
  obtain ⟨real, w₁, hrun, -, -, -, -, hkernel⟩ := openReal_undo_post.exists_ret
    (fun _ _ h => (h.1 halloc).1 obj hopens) fun why _ => hgoes why
  refine ⟨real, w₁, hrun, ?_⟩
  rw [hkernel]
  rfl

/-- **When an open leaves nothing behind.** -/
theorem ipmMemoryOpen_leavesNothing_iff (hos : os.Regular n w) :
    os.LeavesNothing b ctx n access w ↔ os.Noticed n w := by
  constructor
  · intro h
    refine ⟨fun halloc hwild => h.stops (.inl (openReal_stops halloc hwild)), ?_⟩
    intro halloc obj hopens hwild
    obtain ⟨real, w₁, hreal, hnames⟩ := openReal_returns halloc hopens
    refine h.stops (.inr ⟨real, w₁, hreal, openClaims_stops ?_⟩)
    rw [Os.OpensWild, hnames]
    exact hwild
  · intro h
    refine ⟨fun memory w' hrun => (ipmMemoryOpen_undo_post hos).of_ret hrun,
      fun e w' hrun => (ipmMemoryOpen_undo_post hos).of_error hrun, ?_⟩
    rintro (⟨hrefused, w', hrun⟩ | ⟨real, w₁, hreal, hrefused, w', hrun⟩)
    · obtain ⟨halloc, -, ⟨-, hopen, hlinked⟩ | ⟨hwhy, -⟩⟩ := openReal_undo_post.of_stop hrun
      · exact h.real halloc ⟨hopen, hlinked, hrefused⟩
      · cases hwhy
    · obtain ⟨⟨halloc, hopens⟩, -, -, -, hkernel⟩ := openReal_undo_post.of_ret hreal
      obtain ⟨-, ⟨-, hopen, hlinked⟩ | ⟨hwhy, -⟩⟩ := openClaims_undo_post.of_stop hrun
      · rw [hkernel] at hlinked
        exact h.claims halloc real.obj hopens ⟨hopen, hlinked, hrefused⟩
      · cases hwhy

end Open

/-! ## Both -/

/-- **Creations and opens leave nothing behind and go on with nothing they have not got, exactly as far as
they notice.** -/
theorem leavesNothing_iff_noticed (b : Build) (ctx : Context) (createOs : CreateOs) (openOs : OpenOs)
    (size : UInt64) (n : BlockName) (access : AccessMode) (w : World) (hlinked : w.kernel.Linked)
    (hcreate : createOs.Regular size w) (hopen : openOs.Regular n w) :
    (createOs.LeavesNothing b ctx size n access w ↔ createOs.Noticed b size n w) ∧
      (openOs.LeavesNothing b ctx n access w ↔ openOs.Noticed n w) :=
  ⟨ipmMemoryCreate_leavesNothing_iff hcreate hlinked, ipmMemoryOpen_leavesNothing_iff hopen⟩

section Runs

/-- An environment that grants everything to a creation ... -/
def CreateOs.willing : CreateOs :=
  { alloc := true, claims := .willing, listMutex := ⟨0, 0, 0, 0, 0⟩, listCondition := ⟨0, 0, 0⟩
    real := .willing, rollback := .willing }

/-- ... and to an open. -/
def OpenOs.willing : OpenOs :=
  { alloc := true, real := .willing, claims := .willing, rollback := .willing }

def World.initial : World := { kernel := .empty, proc := .initial }

theorem linked_initial : World.initial.kernel.Linked := by
  intro path obj h
  cases h

/-- In an environment that grants everything there is nothing to notice. -/
theorem willing_leavesNothing :
    CreateOs.willing.LeavesNothing ⟨false⟩ ⟨id⟩ 4096 .a .readWrite .initial ∧
      OpenOs.willing.LeavesNothing ⟨false⟩ ⟨id⟩ .a .readWrite .initial := by
  have hboth := leavesNothing_iff_noticed ⟨false⟩ ⟨id⟩ .willing .willing 4096 .a .readWrite .initial
    linked_initial ⟨⟨rfl, rfl, rfl⟩, fun _ _ => rfl⟩ fun _ _ => rfl
  refine ⟨hboth.1.mpr ⟨?_, ?_, ?_⟩, hboth.2.mpr ⟨?_, ?_⟩⟩
  · intro _ _ hwild
    exact hwild.2 (by decide)
  · intro _ _ _ _ hwild
    exact hwild.2 (by decide)
  · intro _ _ _ _ hsilent
    exact absurd rfl hsilent.init
  · intro _ hwild
    exact hwild.2.2 (by decide)
  · intro _ _ _ hwild
    exact hwild.2.2 (by decide)

/-- No mapping is left for a header. -/
def Os.headerless : Os := { Os.willing with headerMmap := .error ⟨.ENOMEM, by decide, by decide⟩ }

/-- The condition variable of a claim list cannot be initialised. -/
def CreateOs.conditionless : CreateOs := { CreateOs.willing with listCondition := ⟨0, 0, 1⟩ }

/-- The real memory of a block, and nothing else. -/
def World.withReal : World :=
  { kernel := Kernel.empty.build (objectPath .a .realMemory)
      (createdObject .a MemoryBlock.realMemory.id 4096)
    proc := .initial }

/-- A creation whose claims header cannot be mapped goes on with it, one whose condition variable cannot
be initialised while `errno` is 0 succeeds, and an open goes on with the header of the real memory. -/
theorem headerless_leaves_something :
    ¬ CreateOs.LeavesNothing { CreateOs.willing with claims := .headerless } ⟨false⟩ ⟨id⟩ 4096 .a
        .readWrite .initial ∧
      ¬ CreateOs.conditionless.LeavesNothing ⟨false⟩ ⟨id⟩ 4096 .a .readWrite .initial ∧
      ¬ OpenOs.LeavesNothing { OpenOs.willing with real := .headerless } ⟨false⟩ ⟨id⟩ .a .readWrite
        .withReal := by
  have hrequest : RequestOk ⟨false⟩ 4096 := .inr (by decide)
  have hclaims : CreateOs.willing.claims.Creates ⟨false⟩ claimSize (objectPath .a .activeClaims) .empty :=
    ⟨⟨claimSize_ok, rfl, rfl, by decide, by decide⟩, by decide, rfl⟩
  have hreal : CreateOs.willing.real.Creates ⟨false⟩ (roundSize 4096) (objectPath .a .realMemory) .empty :=
    ⟨⟨.inr (by decide), rfl, rfl, by decide, by decide⟩, by decide, rfl⟩
  refine ⟨fun h => h.stops (.inl ?_), fun h => ?_, fun h => h.stops (.inl ?_)⟩
  · have hreach := hclaims.toReachesHeader
    exact createClaims_stops rfl rfl hrequest
      ⟨⟨hreach.sizeOk, hreach.shmOpen, hreach.free, hreach.ftruncate, hreach.body⟩, by decide⟩
  · have htold : CreateOs.conditionless.Told ⟨false⟩ 4096 .a .initial :=
      ⟨rfl, hrequest, hclaims, ⟨rfl, .inr ⟨rfl, rfl, Nat.one_ne_zero, by decide⟩⟩, hreal⟩
    have hregular : CreateOs.conditionless.Regular 4096 .initial := ⟨⟨rfl, rfl, rfl⟩, fun _ _ => rfl⟩
    obtain ⟨memory, w', hrun, -⟩ := (ipmMemoryCreate_undo_post hregular linked_initial).exists_ret
      (fun _ _ h => h.1 htold) fun _ _ h => h htold
    have hzero := (h.success memory w' hrun).listCondition
    cases hzero
  · refine openReal_stops rfl ⟨rfl, ?_, by decide⟩
    show (Kernel.empty.build _ _).names _ ≠ none
    rw [Kernel.names_build_self]
    exact Option.some_ne_none _

end Runs

end Ipm
