import Ipm.Lib.Reach
import Ipm.Memory.Spec

/-!
# Interleaved creates, opens and closes

Any number of processes create, open and close blocks at the same time. The unit of interleaving is
one call of `shared_memory.c`, `claim_list_init`, `claim_list_uninit` or `ipm_memory_release_all`: a
`Phase` is where an `ipm_memory_*` call stands between two of these, and `advance` is the next one.
A handle between calls is a phase too (`live`), and its next step is the start of its close.

Run on its own, a task is the function it was cut from (`drive_create` and its companions).

`Move` says once what a step can do to a phase and to the kernel.
-/

set_option autoImplicit false

namespace Ipm

open Lib

inductive Phase where
  | create (blockSize : UInt64) (access : AccessMode)
  | initList (blockSize : UInt64) (access : AccessMode) (claims : SharedMemoryBlock)
  | createReal (blockSize : UInt64) (access : AccessMode) (claims : SharedMemoryBlock)
  -- rolling back a create that will return `res`
  | uninitList (claims : SharedMemoryBlock) (res : IpmResult)
  | dropClaims (claims : SharedMemoryBlock) (res : IpmResult)
  | openReal (access : AccessMode)
  | openClaims (real : SharedMemoryBlock)
  -- rolling back an open that will return `res`
  | dropReal (real : SharedMemoryBlock) (res : IpmResult)
  /-- Returned with `IPM_RESULT_SUCCESS` and not yet closing. -/
  | live (real claims : SharedMemoryBlock)
  | closeClaims (real claims : SharedMemoryBlock)
  | closeReal (real : SharedMemoryBlock)
  | failed (res : IpmResult)
  | closed
  /-- The process was stopped in this phase. -/
  | stopped (before : Phase)

namespace Phase

/-- What a task refers to. -/
def held : Phase → MemoryBlock → Option SharedMemoryBlock
  | create _ _, _ => none
  | initList _ _ claims, .activeClaims => some claims
  | initList _ _ _, .realMemory => none
  | createReal _ _ claims, .activeClaims => some claims
  | createReal _ _ _, .realMemory => none
  | uninitList claims _, .activeClaims => some claims
  | uninitList _ _, .realMemory => none
  | dropClaims claims _, .activeClaims => some claims
  | dropClaims _ _, .realMemory => none
  | openReal _, _ => none
  | openClaims real, .realMemory => some real
  | openClaims _, .activeClaims => none
  | dropReal real _, .realMemory => some real
  | dropReal _ _, .activeClaims => none
  | live real _, .realMemory => some real
  | live _ claims, .activeClaims => some claims
  | closeClaims real _, .realMemory => some real
  | closeClaims _ claims, .activeClaims => some claims
  | closeReal real, .realMemory => some real
  | closeReal _, .activeClaims => none
  | failed _, _ => none
  | closed, _ => none
  | stopped before, kind => before.held kind

/-- The reference a task is about to add to an object that is there. -/
def opens : Phase → MemoryBlock → Bool
  | openReal _, .realMemory => true
  | openClaims _, .activeClaims => true
  | _, _ => false

end Phase

/-- What the environment answers to one step. -/
structure Env where
  ctx : Context
  proc : Proc
  alloc : Bool
  os : Os
  listMutex : MutexInitCodes
  listCondition : ConditionInitCodes
  lock : IpmResult

/-- An environment in which every call succeeds. -/
def Env.willing : Env :=
  { ctx := ⟨fun e => e⟩, proc := .initial, alloc := true, os := .willing,
    listMutex := ⟨0, 0, 0, 0, 0⟩, listCondition := ⟨0, 0, 0⟩, lock := .success }

/-- The next call of a task on the block `n`. -/
def Phase.advance (b : Build) (e : Env) (n : BlockName) : Phase → Call Phase
  | .create blockSize access => do
    match ← (Ipm.createClaims b e.ctx e.alloc e.os blockSize n).attempt with
    | .ok claims => return .initList blockSize access claims
    | .error res => return .failed res
  | .initList blockSize access claims => do
    match ← (Ipm.initClaims e.ctx e.listMutex e.listCondition claims).attempt with
    | .ok _ => return .createReal blockSize access claims
    | .error res => return .dropClaims claims res
  | .createReal blockSize access claims => do
    match ← (Ipm.createReal b e.ctx e.os blockSize n access).attempt with
    | .ok real => return .live real claims
    | .error res => return .uninitList claims res
  | .uninitList claims res => do
    claimListUninit claims.obj
    return .dropClaims claims res
  | .dropClaims claims res => do
    closeAndFree b e.ctx e.os claims
    return .failed res
  | .openReal access => do
    match ← (Ipm.openReal e.ctx e.alloc e.os n access).attempt with
    | .ok real => return .openClaims real
    | .error res => return .failed res
  | .openClaims real => do
    match ← (Ipm.openClaims e.ctx e.os n).attempt with
    | .ok claims => return .live real claims
    | .error res => return .dropReal real res
  | .dropReal real res => do
    closeAndFree b e.ctx e.os real
    return .failed res
  | .live real claims => do
    releaseAllAt b e.lock real.accessId claims.obj
    return .closeClaims real claims
  | .closeClaims real claims => do
    Ipm.closeClaims b e.ctx e.os claims
    return .closeReal real
  | .closeReal real => do
    closeAndFree b e.ctx e.os real
    return .closed
  | .failed res => return .failed res
  | .closed => return .closed
  | .stopped before => return .stopped before

/-! ## A task on its own -/

/-- The call a task stands for has returned. -/
def Phase.returned : Phase → Bool
  | .live _ _ => true
  | .failed _ => true
  | .closed => true
  | _ => false

/-- The steps of one call with nothing in between, answered as the phase says. -/
def Phase.drive (b : Build) (env : Phase → Env) (n : BlockName) : (fuel : Nat) → Phase → Call Phase
  | 0, p => pure p
  | fuel + 1, p => do
    let p ← p.advance b (env p) n
    if p.returned then return p else Phase.drive b env n fuel p

/-- Where a create or an open ends. -/
def Phase.ofResult : Except IpmResult Memory → Phase
  | .ok memory => .live memory.realMemory memory.activeClaims
  | .error res => .failed res

/-- The answers to `ipm_memory_create`, by phase. -/
def CreateOs.env (os : CreateOs) (ctx : Context) (p : Phase) : Env :=
  { Env.willing with
    ctx := ctx, alloc := os.alloc, listMutex := os.listMutex, listCondition := os.listCondition
    os := match p with
      | .create _ _ => os.claims
      | .createReal _ _ _ => os.real
      | _ => os.rollback }

/-- The answers to `ipm_memory_open`, by phase. -/
def OpenOs.env (os : OpenOs) (ctx : Context) (p : Phase) : Env :=
  { Env.willing with
    ctx := ctx, alloc := os.alloc
    os := match p with
      | .openReal _ => os.real
      | .openClaims _ => os.claims
      | _ => os.rollback }

/-- The answers to `ipm_memory_close`, by phase. -/
def closeEnv (ctx : Context) (lock : IpmResult) (claims real : Os) (p : Phase) : Env :=
  { Env.willing with
    ctx := ctx, lock := lock
    os := match p with
      | .closeClaims _ _ => claims
      | _ => real }

section Drive

variable (b : Build) (ctx : Context) (n : BlockName)

theorem ignore_closeAndFree (os : Os) (block : SharedMemoryBlock) :
    (closeAndFree b ctx os block).ignore = closeAndFree b ctx os block := by
  rw [closeAndFree, Prog.ignore_ignore_bind]
  rfl

/-- `ipm_memory_create` is its task on its own. -/
theorem drive_create (os : CreateOs) (blockSize : UInt64) (access : AccessMode) :
    Phase.drive b (os.env ctx) n 5 (.create blockSize access) = (do
      return Phase.ofResult (← (ipmMemoryCreate b ctx os blockSize n access).attempt)) := by
  simp only [Phase.drive, Phase.advance, ipmMemoryCreate, Prog.attempt_bind, bind_assoc]
  refine bind_congr fun r => ?_
  cases r with
  | error res => rfl
  | ok claims =>
    simp only [Phase.returned, Bool.false_eq_true, if_false, Prog.attempt_onError, bind_assoc,
      pure_bind]
    refine bind_congr fun r => ?_
    cases r with
    | error res =>
      simp only [Bool.false_eq_true, if_false, bind_assoc, pure_bind, ignore_closeAndFree]
      rfl
    | ok u =>
      simp only [Bool.false_eq_true, if_false, bind_assoc, pure_bind]
      refine bind_congr fun r => ?_
      cases r with
      | error res =>
        simp only [Bool.false_eq_true, if_false, bind_assoc, pure_bind, claimListUninit,
          Prog.ignore_update_bind, ignore_closeAndFree]
        rfl
      | ok real => rfl

/-- `ipm_memory_open` is its task on its own. -/
theorem drive_open (os : OpenOs) (access : AccessMode) :
    Phase.drive b (os.env ctx) n 3 (.openReal access) = (do
      return Phase.ofResult (← (ipmMemoryOpen b ctx os n access).attempt)) := by
  simp only [Phase.drive, Phase.advance, ipmMemoryOpen, Prog.attempt_bind, bind_assoc]
  refine bind_congr fun r => ?_
  cases r with
  | error res => rfl
  | ok real =>
    simp only [Phase.returned, Bool.false_eq_true, if_false, Prog.attempt_onError, bind_assoc,
      pure_bind]
    refine bind_congr fun r => ?_
    cases r with
    | error res =>
      simp only [Bool.false_eq_true, if_false, bind_assoc, pure_bind, ignore_closeAndFree]
      rfl
    | ok claims => rfl

/-- `ipm_memory_close` is its task on its own. -/
theorem drive_close (lock : IpmResult) (claims real : Os) (memory : Memory) :
    Phase.drive b (closeEnv ctx lock claims real) n 3
        (.live memory.realMemory memory.activeClaims) = (do
      ipmMemoryClose b ctx lock claims real memory
      return .closed) := by
  simp only [Phase.drive, Phase.advance, Phase.returned, ipmMemoryClose, closeEnv, bind_assoc,
    pure_bind, Bool.false_eq_true, if_false, if_true]

end Drive

structure Task where
  name : BlockName
  phase : Phase

structure TaskSys where
  kernel : Kernel
  tasks : List Task

inductive TaskEvent where
  | create (n : BlockName) (blockSize : UInt64) (access : AccessMode)
  | open (n : BlockName) (access : AccessMode)
  /-- The next call of task `i`; for a handle, the start of its close. -/
  | step (i : Nat) (e : Env)
  /-- The region calls of handle `i` leave `list` behind. -/
  | regions (i : Nat) (list : ClaimList)

namespace TaskSys

def init : TaskSys := { kernel := .empty, tasks := [] }

def step (b : Build) (s : TaskSys) : TaskEvent → Option TaskSys
  | .create n blockSize access =>
    some { s with tasks := s.tasks ++ [⟨n, .create blockSize access⟩] }
  | .open n access => some { s with tasks := s.tasks ++ [⟨n, .openReal access⟩] }
  | .step i e =>
    (s.tasks[i]?).bind fun t =>
      match t.phase.advance b e t.name ⟨s.kernel, e.proc⟩ with
      | .ret (.ok phase) w => some { kernel := w.kernel, tasks := s.tasks.set i ⟨t.name, phase⟩ }
      | .ret (.error _) _ => none
      -- still in the loop that waits for a reference count
      | .stop .spin _ => none
      | .stop _ w => some { kernel := w.kernel, tasks := s.tasks.set i ⟨t.name, .stopped t.phase⟩ }
  | .regions i list =>
    (s.tasks[i]?).bind fun t =>
      match t.phase with
      | .live _ claims =>
        some { s with kernel := s.kernel.modifyObj claims.obj fun o => { o with list := list } }
      | _ => none

/-- How many tasks refer to the object of this name and kind. -/
def holders (s : TaskSys) : RefCounts := fun n kind =>
  s.tasks.countP fun t => t.name = n ∧ (t.phase.held kind).isSome

end TaskSys

/-! ## What a step can do -/

/-- The transitions of a task on the block `n`: the phase and the kernel before, and after. -/
inductive Move (n : BlockName) : Phase → Kernel → Phase → Kernel → Prop
  | createFailed {size : UInt64} {access : AccessMode} {res : IpmResult} {k k' : Kernel}
      (h : k.Calm k') : Move n (.create size access) k (.failed res) k'
  | claimsCreated {size : UInt64} {access : AccessMode} {claims : SharedMemoryBlock}
      {k k' : Kernel}
      (h : Created k n MemoryBlock.activeClaims.id claimSize .readWrite claims k') :
      Move n (.create size access) k (.initList size access claims) k'
  | listFailed {size : UInt64} {access : AccessMode} {claims : SharedMemoryBlock} {res : IpmResult}
      {k k' : Kernel} (h : k.Calm k') :
      Move n (.initList size access claims) k (.dropClaims claims res) k'
  | listReady {size : UInt64} {access : AccessMode} {claims : SharedMemoryBlock} {k : Kernel} :
      Move n (.initList size access claims) k (.createReal size access claims)
        (k.modifyObj claims.obj ShmObject.listed)
  | realFailed {size : UInt64} {access : AccessMode} {claims : SharedMemoryBlock} {res : IpmResult}
      {k k' : Kernel} (h : k.Calm k') :
      Move n (.createReal size access claims) k (.uninitList claims res) k'
  | realCreated {size : UInt64} {access : AccessMode} {claims real : SharedMemoryBlock}
      {k k' : Kernel}
      (h : Created k n MemoryBlock.realMemory.id (roundSize size) access real k') :
      Move n (.createReal size access claims) k (.live real claims) k'
  | listGone {claims : SharedMemoryBlock} {res : IpmResult} {k : Kernel} :
      Move n (.uninitList claims res) k (.dropClaims claims res)
        (k.modifyObj claims.obj ShmObject.unlisted)
  | claimsDropped {claims : SharedMemoryBlock} {res : IpmResult} {k : Kernel} :
      Move n (.dropClaims claims res) k (.failed res)
        (k.closed (objectPath n .activeClaims) claims.obj id)
  | openFailed {access : AccessMode} {res : IpmResult} {k k' : Kernel} (h : k.Calm k') :
      Move n (.openReal access) k (.failed res) k'
  | realOpened {access : AccessMode} {real : SharedMemoryBlock} {k k' : Kernel}
      (h : Opened k n MemoryBlock.realMemory.id access real k') :
      Move n (.openReal access) k (.openClaims real) k'
  | claimsNotOpened {real : SharedMemoryBlock} {res : IpmResult} {k k' : Kernel} (h : k.Calm k') :
      Move n (.openClaims real) k (.dropReal real res) k'
  | claimsOpened {real claims : SharedMemoryBlock} {k k' : Kernel}
      (h : Opened k n MemoryBlock.activeClaims.id .readWrite claims k') :
      Move n (.openClaims real) k (.live real claims) k'
  | realDropped {real : SharedMemoryBlock} {res : IpmResult} {k : Kernel} :
      Move n (.dropReal real res) k (.failed res)
        (k.closed (objectPath n .realMemory) real.obj id)
  | released {real claims : SharedMemoryBlock} {k k' : Kernel} (h : k.Calm k') :
      Move n (.live real claims) k (.closeClaims real claims) k'
  | claimsClosed {real claims : SharedMemoryBlock} {k : Kernel} :
      Move n (.closeClaims real claims) k (.closeReal real)
        (k.closed (objectPath n .activeClaims) claims.obj fun _ => .destroyed)
  | realClosed {real : SharedMemoryBlock} {k : Kernel} :
      Move n (.closeReal real) k .closed (k.closed (objectPath n .realMemory) real.obj id)
  /-- Nothing moves, or the process is stopped, or only a list is edited. -/
  | idle {p p' : Phase} {k k' : Kernel} (hp : p' = p ∨ p' = .stopped p) (h : k.Calm k') :
      Move n p k p' k'

/-- What a phase refers to is linked under the block's name and can be closed. -/
def Phase.Linked (k : Kernel) (n : BlockName) (p : Phase) : Prop :=
  ∀ kind block, p.held kind = some block →
    k.names (objectPath n kind) = some block.obj ∧ block.hasOwnership = false

variable {b : Build} {e : Env} {n : BlockName} {p : Phase} {w : World} {H : RefCounts}

theorem Kernel.Calm.refl (k : Kernel) : k.Calm k := (Kernel.Same.refl k).calm

/-- The code makes only these moves, and is stopped only where it is idle. -/
theorem Phase.advance_post (hC : Counted w.kernel H) (hl : p.Linked w.kernel n)
    (hos : e.os.Sound) :
    Prog.Post (p.advance b e n) w (fun p' w' => Move n p w.kernel p' w'.kernel)
      (fun _ _ => False) (fun _ w' => w.kernel.Calm w'.kernel) := by
  cases p with
  | create blockSize access =>
    refine (((createClaims_post hos).mapStop fun _ w' h => ?_).attempt).bind fun r w1 h1 => ?_
    · rw [h.2.1]
      exact .refl _
    · cases r with
      | ok claims => exact Prog.Post.pure (.claimsCreated h1.2)
      | error res => exact Prog.Post.pure (.createFailed h1.1.calm)
  | initList blockSize access claims =>
    refine initClaims_post.attempt.bind fun r w1 h1 => ?_
    cases r with
    | ok _ => exact Prog.Post.pure (h1 ▸ .listReady)
    | error res => exact Prog.Post.pure (.listFailed (h1.1 ▸ .refl _))
  | createReal blockSize access claims =>
    refine (((createReal_post hos).mapStop fun _ w' h => ?_).attempt).bind fun r w1 h1 => ?_
    · rw [h.2.1]
      exact .refl _
    · cases r with
      | ok real => exact Prog.Post.pure (.realCreated h1)
      | error res => exact Prog.Post.pure (.realFailed h1.1.calm)
  | uninitList claims res =>
    exact claimListUninit_post.bind fun _ w1 h1 => Prog.Post.pure (h1 ▸ .listGone)
  | dropClaims claims res =>
    obtain ⟨hname, hown⟩ := hl .activeClaims claims rfl
    exact (closeAndFree_post hC hos hown hname).bind fun _ w1 h1 =>
      Prog.Post.pure (h1 ▸ .claimsDropped)
  | openReal access =>
    refine (openReal_post hC hos).attempt.bind fun r w1 h1 => ?_
    cases r with
    | ok real => exact Prog.Post.pure (.realOpened h1)
    | error res => exact Prog.Post.pure (.openFailed (h1.1 ▸ .refl _))
  | openClaims real =>
    refine (openClaims_post hC hos).attempt.bind fun r w1 h1 => ?_
    cases r with
    | ok claims => exact Prog.Post.pure (.claimsOpened h1)
    | error res => exact Prog.Post.pure (.claimsNotOpened (h1.1 ▸ .refl _))
  | dropReal real res =>
    obtain ⟨hname, hown⟩ := hl .realMemory real rfl
    exact (closeAndFree_post hC hos hown hname).bind fun _ w1 h1 =>
      Prog.Post.pure (h1 ▸ .realDropped)
  | live real claims =>
    exact releaseAllAt_post.bind fun _ w1 h1 => Prog.Post.pure (.released h1)
  | closeClaims real claims =>
    obtain ⟨hname, hown⟩ := hl .activeClaims claims rfl
    exact (closeClaims_post hC hos hown hname).bind fun _ w1 h1 =>
      Prog.Post.pure (h1 ▸ .claimsClosed)
  | closeReal real =>
    obtain ⟨hname, hown⟩ := hl .realMemory real rfl
    exact (closeAndFree_post hC hos hown hname).bind fun _ w1 h1 =>
      Prog.Post.pure (h1 ▸ .realClosed)
  | failed res => exact Prog.Post.pure (.idle (.inl rfl) (.refl _))
  | closed => exact Prog.Post.pure (.idle (.inl rfl) (.refl _))
  | stopped before => exact Prog.Post.pure (.idle (.inl rfl) (.refl _))

end Ipm
