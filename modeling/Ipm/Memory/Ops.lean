import Ipm.Block.Spec
import Ipm.Claim.Region

/-!
# `ipm_memory.c`: a block as two shared objects

An `ipm_memory` is a real-memory object and a claims object of one name. They are created claims
first, opened real memory first and closed claims first; each call below follows its source through
those orders and through the rollbacks in between.
-/

set_option autoImplicit false

namespace Ipm

open Lib

/-- `ipm_memory`; its context is an argument of the calls. -/
structure Memory where
  blockName : BlockName
  realMemory : SharedMemoryBlock
  activeClaims : SharedMemoryBlock
  deriving DecidableEq

/-- `round_size`: up to the next page, modulo `2 ^ 64`. -/
def roundSize (size : UInt64) : UInt64 :=
  let remainder := size % memoryPageSize
  if remainder ≠ 0 then size + (memoryPageSize - remainder) else size

/-- The size of a claims block. -/
def claimSize : UInt64 :=
  roundSize (sizeofClaimList + UInt64.ofNat defaultClaimCapacity * sizeofMemoryClaim)

/-- `real_claim_capacity`. -/
def realClaimCapacity : Nat := ((claimSize - sizeofClaimList) / sizeofMemoryClaim).toNat

example : claimSize = 4096 ∧ realClaimCapacity = 99 := by decide

/-! ## Allocation and the claim list of an object -/

/-- `ipm_alloc`; a failed one is reported. -/
def ipmAlloc (ctx : Context) (done : Bool) : Call Unit :=
  if done then .update fun w => { w with proc := { w.proc with allocs := w.proc.allocs + 1 } }
  else do
    ipmError ctx
    Prog.fail .errOsOutOfMemory

def ipmFree : Call Unit :=
  .update fun w => { w with proc := { w.proc with allocs := w.proc.allocs - 1 } }

/-- `claim_list_init` on the body of a claims object. -/
def claimListInitAt (mutex : MutexInitCodes) (condition : ConditionInitCodes) (obj capacity : Nat) :
    Call Unit := do
  let res := ipmMutexInit mutex (← errno)
  if res ≠ .success then Prog.fail res
  else
    let res := ipmConditionInit condition (← errno)
    if res ≠ .success then Prog.fail res
    else
      .update fun w => { w with kernel := w.kernel.modifyObj obj fun o =>
        { o with list := claimListInit o.list capacity, listSync := .ready } }

/-- `claim_list_uninit`. -/
def claimListUninit (obj : Nat) : Call Unit :=
  .update fun w => { w with kernel := w.kernel.modifyObj obj fun o =>
    { o with listSync := .destroyed } }

/-- `ipm_memory_release_all` on the body of a claims object, its result dropped. -/
def releaseAllAt (b : Build) (lock : IpmResult) (accessId : UInt64) (obj : Nat) : Call Unit :=
  fun w =>
    let put (list : ClaimList) : World :=
      { w with kernel := w.kernel.modifyObj obj fun o => { o with list := list } }
    match ipmMemoryReleaseAll b lock accessId (w.kernel.objs obj).list with
    | .ret _ list => .ret (.ok ()) (put list)
    | .stop why list => .stop why (put list)

/-! ## `ipm_memory_create`, `ipm_memory_open` -/

/-- What the environment answers to `ipm_memory_create`. -/
structure CreateOs where
  alloc : Bool
  claims : Os
  listMutex : MutexInitCodes
  listCondition : ConditionInitCodes
  real : Os
  rollback : Os

/-- What the environment answers to `ipm_memory_open`. -/
structure OpenOs where
  alloc : Bool
  real : Os
  claims : Os
  rollback : Os

/-- `ipm_memory_create`, up to the claims block. -/
def createClaims (b : Build) (ctx : Context) (alloc : Bool) (os : Os) (blockSize : UInt64)
    (blockName : BlockName) : Call SharedMemoryBlock := do
  Prog.assert b (decide (blockSize > 0))
  ipmAlloc ctx alloc
  let properSize := roundSize blockSize
  Prog.assert b (decide (properSize > 0))
  Prog.assert b ((properSize &&& memoryPageSizeMask) == 0)
  (sharedMemoryBlockCreate b ctx os blockName MemoryBlock.activeClaims.id claimSize
    .readWrite).onError do
      ipmError ctx
      ipmFree

def initClaims (ctx : Context) (mutex : MutexInitCodes) (condition : ConditionInitCodes)
    (claims : SharedMemoryBlock) : Call Unit :=
  (claimListInitAt mutex condition claims.obj realClaimCapacity).onError (ipmError ctx)

def createReal (b : Build) (ctx : Context) (os : Os) (blockSize : UInt64) (blockName : BlockName)
    (access : AccessMode) : Call SharedMemoryBlock :=
  (sharedMemoryBlockCreate b ctx os blockName MemoryBlock.realMemory.id (roundSize blockSize)
    access).onError (ipmError ctx)

/-- `shared_memory_block_close(context, block, 0, NULL)` and `ipm_free`: the end of a rollback, and
of `ipm_memory_close`. -/
def closeAndFree (b : Build) (ctx : Context) (os : Os) (block : SharedMemoryBlock) : Call Unit := do
  (sharedMemoryBlockClose b ctx os block (pure ())).ignore
  ipmFree

/-- `ipm_memory_create`. -/
def ipmMemoryCreate (b : Build) (ctx : Context) (os : CreateOs) (blockSize : UInt64)
    (blockName : BlockName) (access : AccessMode) : Call Memory := do
  let claims ← createClaims b ctx os.alloc os.claims blockSize blockName
  (initClaims ctx os.listMutex os.listCondition claims).onError
    (closeAndFree b ctx os.rollback claims)
  let real ← (createReal b ctx os.real blockSize blockName access).onError do
    claimListUninit claims.obj
    closeAndFree b ctx os.rollback claims
  return { blockName := blockName, realMemory := real, activeClaims := claims }

def openReal (ctx : Context) (alloc : Bool) (os : Os) (blockName : BlockName)
    (access : AccessMode) : Call SharedMemoryBlock := do
  ipmAlloc ctx alloc
  (sharedMemoryBlockOpen ctx os blockName MemoryBlock.realMemory.id access).onError do
    ipmError ctx
    ipmFree

def openClaims (ctx : Context) (os : Os) (blockName : BlockName) : Call SharedMemoryBlock :=
  (sharedMemoryBlockOpen ctx os blockName MemoryBlock.activeClaims.id .readWrite).onError
    (ipmError ctx)

/-- `ipm_memory_open`. -/
def ipmMemoryOpen (b : Build) (ctx : Context) (os : OpenOs) (blockName : BlockName)
    (access : AccessMode) : Call Memory := do
  let real ← openReal ctx os.alloc os.real blockName access
  let claims ← (openClaims ctx os.claims blockName).onError (closeAndFree b ctx os.rollback real)
  return { blockName := blockName, realMemory := real, activeClaims := claims }

/-! ## `ipm_memory_close`, `ipm_memory_clean` -/

/-- The claims object of a handle goes first, and with its last reference the list. -/
def closeClaims (b : Build) (ctx : Context) (os : Os) (claims : SharedMemoryBlock) : Call Unit :=
  (sharedMemoryBlockClose b ctx os claims (claimListUninit claims.obj)).ignore

/-- `ipm_memory_close`. -/
def ipmMemoryClose (b : Build) (ctx : Context) (lock : IpmResult) (claims real : Os)
    (memory : Memory) : Call Unit := do
  releaseAllAt b lock memory.realMemory.accessId memory.activeClaims.obj
  closeClaims b ctx claims memory.activeClaims
  closeAndFree b ctx real memory.realMemory

/-- `ipm_memory_clean`. -/
def ipmMemoryClean (b : Build) (claims real : Os) (memory : Memory) : Call Unit := do
  (sharedMemoryBlockClean b claims memory.activeClaims).ignore
  (sharedMemoryBlockClean b real memory.realMemory).ignore
  ipmFree

/-! ## What a handle says of itself -/

/-- `ipm_memory_info`; the context is an argument of the calls. -/
structure MemoryInfo where
  memoryAccessMode : AccessMode
  accessId : UInt64
  name : BlockName
  blockSize : UInt64
  mappingAddress : Nat
  activeClaims : Nat

/-- `ipm_memory_get_info`. It looks at the list without `list_mutex`. -/
def ipmMemoryGetInfo (memory : Memory) : Call MemoryInfo :=
  .read fun w =>
    { memoryAccessMode := memory.realMemory.accessMode
      accessId := memory.realMemory.accessId
      name := memory.blockName
      blockSize := memory.realMemory.size
      mappingAddress := memory.realMemory.memory
      activeClaims := (w.kernel.objs memory.activeClaims.obj).list.count }

/-! ## The mapping of a handle -/

/-- `ipm_memory_ref_count`. -/
def ipmMemoryRefCount (memory : Memory) : Call UInt32 := do
  return (← getHeader memory.realMemory.obj).refcount

/-- `ipm_memory_sync`. -/
def ipmMemorySync (ctx : Context) (os : Os) (memory : Memory) : Call (IpmResult × Memory) := do
  let (res, real) ←
    sharedMemoryBlockUpdateMapping ctx os memory.realMemory memory.realMemory.accessMode
  return (res, { memory with realMemory := real })

/-- `ipm_memory_change_access`. -/
def ipmMemoryChangeAccess (ctx : Context) (os : Os) (memory : Memory) (accessMode : AccessMode) :
    Call (IpmResult × Memory) := do
  let (res, real) ← sharedMemoryBlockUpdateMapping ctx os memory.realMemory accessMode
  return (res, { memory with realMemory := real })

/-- `ipm_memory_resize_grow`. The comparison is with the size this handle has mapped. -/
def ipmMemoryResizeGrow (b : Build) (ctx : Context) (os : Os) (lock : IpmResult) (memory : Memory)
    (newSize : UInt64) : Call (IpmResult × Memory) := do
  let newSize := roundSize newSize
  if newSize < memory.realMemory.size then
    ipmError ctx
    return (.errBadValue, memory)
  else
    let (res, real) ← sharedMemoryBlockResize b ctx os lock memory.realMemory newSize
    return (res, { memory with realMemory := real })

end Ipm
