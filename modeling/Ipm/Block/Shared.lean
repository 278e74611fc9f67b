import Ipm.Block.Kernel

/-!
# `shared_memory.c`

One shared object: its creation, opening, closing, remapping and growth. Each function is cut at its
accesses to shared state, so that the same pieces are the steps of the interleaved systems and, run
one after another, the function.

The checks for a failed header mapping compare with `NULL` where `mmap` returns `MAP_FAILED`, so
they never hold and the next access to the header ends the process (`mapHeader`).
-/

set_option autoImplicit false

namespace Ipm

open Lib

/-- `ipm_shared_memory_block`. `header` and `memory` are addresses, and `0` is `NULL`. -/
structure SharedMemoryBlock where
  accessId : UInt64
  size : UInt64
  header : Nat
  memory : Nat
  hasOwnership : Bool
  accessMode : AccessMode
  memFd : File
  deriving DecidableEq, Repr

/-- The object behind a block. -/
def SharedMemoryBlock.obj (block : SharedMemoryBlock) : Nat := block.memFd.obj

/-! ## `switch (errno)` -/

/-- After a failed `shm_open`. Only `shared_memory_block_open` has a case for `ENOENT`. -/
def lookupError (noEntry : IpmResult) : Errno → IpmResult
  | .EACCES => .errAccess
  | .EINVAL => .errBadValue
  | .EMFILE => .errMaxFds
  | .ENFILE => .errMaxFdsSys
  | .ENAMETOOLONG => .errNameTooLong
  | .ENOENT => noEntry
  | _ => .errOsUnexpected

/-- After the failed `ftruncate` of `shared_memory_block_create`. -/
def createTruncateError : Errno → IpmResult
  | .EACCES => .errAccess
  | .EBADF => .errInvalidFd
  | .EINVAL => .errInvalidFd
  | .EPERM => .errBadFs
  | .EROFS => .errBadFs
  | _ => .errOsUnexpected

/-- After a failed `mmap` of the body. -/
def mapError : Errno → IpmResult
  | .EACCES => .errAccess
  | .EAGAIN => .errOsOutOfMemory
  | .ENOMEM => .errOsOutOfMemory
  | .EINVAL => .errBadValue
  | .ENFILE => .errMaxFdsSys
  | _ => .errOsUnexpected

/-- After the failed `shm_unlink` of `shared_memory_block_close`. -/
def unlinkError : Errno → IpmResult
  | .EACCES => .errAccess
  | _ => .errOsUnexpected

/-- After the failed `ftruncate` of `shared_memory_block_resize`. -/
def resizeTruncateError : Errno → IpmResult
  | .EACCES => .errAccess
  | .EFBIG => .errOsOutOfMemory
  | .EINVAL => .errOsOutOfMemory
  | .EPERM => .errBadFs
  | .EROFS => .errBadFs
  | .EBADF => .errBadValue
  | _ => .errOsUnexpected

/-! ## Shared by creation and opening -/

/-- The header page. `MAP_FAILED` is not `NULL`: the failure goes unnoticed and the first access to
the header is a wild one. -/
def mapHeader (os : Os) (file : File) : Call Nat := do
  match ← mmap os.headerMmap file memoryPageSize .readWrite 0 with
  | some addr => return addr
  | none => Prog.halt .fault

/-- `atomic_fetch_add(&header->id_counter, 1)`. -/
def takeAccessId (obj : Nat) : Call UInt64 := do
  let h ← getHeader obj
  setHeader obj fun h => { h with idCounter := h.idCounter + 1 }
  return h.idCounter

/-! ## `shared_memory_block_create` -/

def createOpen (ctx : Context) (os : Os) (path : CString) : Call File := do
  match ← shmOpenExcl os path with
  | some file => return file
  | none =>
    if (← errno) = .EEXIST then Prog.fail .errExists
    else
      ipmError ctx
      Prog.fail (lookupError .errOsUnexpected (← errno))

def createTruncate (ctx : Context) (os : Os) (path : CString) (file : File) (size : UInt64) :
    Call Unit := do
  if ← ftruncate os file (size + memoryPageSize) then return ()
  else
    ipmError ctx
    closeFd os file
    let _ ← shmUnlink os path
    Prog.fail (createTruncateError (← errno))

def createMapBody (ctx : Context) (os : Os) (path : CString) (file : File) (size : UInt64)
    (access : AccessMode) : Call Nat := do
  match ← mmap os.bodyMmap file size access memoryPageSize with
  | some addr => return addr
  | none =>
    closeFd os file
    ipmError ctx
    let _ ← shmUnlink os path
    Prog.fail (mapError (← errno))

def createMutex (ctx : Context) (os : Os) (path : CString) (file : File) (size : UInt64)
    (header memory : Nat) : Call Unit := do
  let res := ipmMutexInit os.mutexInit (← errno)
  if res ≠ .success then
    closeFd os file
    ipmError ctx
    munmap os header memoryPageSize
    munmap os memory size
    let _ ← shmUnlink os path
    Prog.fail res
  else setHeader file.obj fun h => { h with segmentMutex := .ready }

/-- `shared_memory_block_create`. The reference count is written last. -/
def sharedMemoryBlockCreate (b : Build) (ctx : Context) (os : Os) (blockName : BlockName)
    (id size : UInt64) (access : AccessMode) : Call SharedMemoryBlock := do
  Prog.assert b ((size &&& memoryPageSizeMask) == 0)
  Prog.assert b (decide (size > 0))
  let path := makeBlockNameBasedOnId blockName.chars id
  let file ← createOpen ctx os path
  createTruncate ctx os path file size
  let memory ← createMapBody ctx os path file size access
  let header ← mapHeader os file
  setHeader file.obj fun h => { h with blockId := id }
  setHeader file.obj fun h => { h with blockSize := size }
  setHeader file.obj fun h => { h with idCounter := 1 }
  createMutex ctx os path file size header memory
  setHeader file.obj fun h => { h with blockName := blockName.chars }
  let accessId ← takeAccessId file.obj
  setHeader file.obj fun h => { h with refcount := 1 }
  return { accessId := accessId, size := size, header := header, memory := memory,
           hasOwnership := false, accessMode := access, memFd := file }

/-! ## `shared_memory_block_open` -/

def openLookup (ctx : Context) (os : Os) (path : CString) : Call File := do
  match ← shmOpen os path with
  | some file => return file
  | none =>
    if (← errno) = .EEXIST then Prog.fail .errExists
    else
      ipmError ctx
      Prog.fail (lookupError .errDoesNotExist (← errno))

/-- `const size_t size = header->block_size`, read before anything says it has been written. -/
def readSize (obj : Nat) : Call UInt64 := do
  return (← getHeader obj).blockSize

def openMapBody (ctx : Context) (os : Os) (file : File) (header : Nat) (size : UInt64)
    (access : AccessMode) : Call Nat := do
  match ← mmap os.bodyMmap file size access memoryPageSize with
  | some addr => return addr
  | none =>
    closeFd os file
    munmap os header memoryPageSize
    ipmError ctx
    Prog.fail (mapError (← errno))

/-- `while (header->refcount == 0) sched_yield()`: a process alone with a zero count never leaves
the loop. -/
def awaitRefcount (obj : Nat) : Call Unit := do
  if (← getHeader obj).refcount = 0 then Prog.halt .spin else return ()

/-- Undo the mappings of an open that found another block's header. -/
def openMismatch (ctx : Context) (os : Os) (file : File) (size : UInt64) (header memory : Nat) :
    Call Unit := do
  closeFd os file
  ipmError ctx
  munmap os header memoryPageSize
  munmap os memory size
  Prog.fail .errBadId

def checkBlockId (ctx : Context) (os : Os) (file : File) (size : UInt64) (header memory : Nat)
    (id : UInt64) : Call Unit := do
  if (← getHeader file.obj).blockId ≠ id then openMismatch ctx os file size header memory
  else return ()

/-- `memcmp(header->block_name, block_name, name_len)`: a longer name in the header passes. -/
def checkBlockName (ctx : Context) (os : Os) (file : File) (size : UInt64) (header memory : Nat)
    (blockName : CString) : Call Unit := do
  if blockName.isPrefixOf (← getHeader file.obj).blockName then return ()
  else openMismatch ctx os file size header memory

/-- `atomic_fetch_add(&header->refcount, 1)`. -/
def retain (obj : Nat) : Call Unit := setHeader obj fun h => { h with refcount := h.refcount + 1 }

/-- `shared_memory_block_open`. -/
def sharedMemoryBlockOpen (ctx : Context) (os : Os) (blockName : BlockName) (id : UInt64)
    (access : AccessMode) : Call SharedMemoryBlock := do
  let file ← openLookup ctx os (makeBlockNameBasedOnId blockName.chars id)
  let header ← mapHeader os file
  let size ← readSize file.obj
  let memory ← openMapBody ctx os file header size access
  awaitRefcount file.obj
  checkBlockId ctx os file size header memory id
  checkBlockName ctx os file size header memory blockName.chars
  retain file.obj
  let accessId ← takeAccessId file.obj
  return { accessId := accessId, size := size, header := header, memory := memory,
           hasOwnership := false, accessMode := access, memFd := file }

/-! ## `shared_memory_block_close`, `shared_memory_block_clean` -/

/-- `atomic_fetch_sub(&header->refcount, 1)`, which returns the count before it. -/
def releaseRef (obj : Nat) : Call UInt32 := do
  let h ← getHeader obj
  setHeader obj fun h => { h with refcount := h.refcount - 1 }
  return h.refcount

def destroyMutex (obj : Nat) : Call Unit :=
  setHeader obj fun h => { h with segmentMutex := .destroyed }

/-- The end of the last close: unmap, and unlink the name rebuilt from the header. -/
def unlinkBlock (ctx : Context) (os : Os) (block : SharedMemoryBlock) : Call Unit := do
  let h ← getHeader block.obj
  munmap os block.memory h.blockSize
  munmap os block.header memoryPageSize
  if ← shmUnlink os (makeBlockNameBasedOnId h.blockName h.blockId) then return ()
  else
    ipmError ctx
    Prog.fail (unlinkError (← errno))

/-- The mappings of a block, with the length the header has now. -/
def unmapBlock (os : Os) (block : SharedMemoryBlock) : Call Unit := do
  let h ← getHeader block.obj
  munmap os block.memory h.blockSize
  munmap os block.header memoryPageSize

/-- `shared_memory_block_close`; `callback` runs when this was the last reference. -/
def sharedMemoryBlockClose (b : Build) (ctx : Context) (os : Os) (block : SharedMemoryBlock)
    (callback : Call Unit) : Call Unit := do
  Prog.assert b (!block.hasOwnership)
  closeFd os block.memFd
  let refs ← releaseRef block.obj
  if refs = 1 then
    callback
    destroyMutex block.obj
    unlinkBlock ctx os block
  else unmapBlock os block

/-- `shared_memory_block_clean`. -/
def sharedMemoryBlockClean (b : Build) (os : Os) (block : SharedMemoryBlock) : Call Unit := do
  Prog.assert b (!block.hasOwnership)
  closeFd os block.memFd
  unmapBlock os block

/-! ## `shared_memory_block_update_mapping`, `shared_memory_block_resize` -/

/-- `shared_memory_block_update_mapping`: the result and the block as it leaves it. The pointer of a
successful remap is not stored. -/
def sharedMemoryBlockUpdateMapping (ctx : Context) (os : Os) (block : SharedMemoryBlock)
    (accessMode : AccessMode) : Call (IpmResult × SharedMemoryBlock) := do
  let newSize := (← getHeader block.obj).blockSize
  if block.size = newSize ∧ accessMode = block.accessMode ∧ block.memory ≠ 0 then
    return (.success, block)
  else
    munmap os block.memory block.size
    match ← mmap os.bodyMmap block.memFd newSize accessMode memoryPageSize with
    | none =>
      ipmError ctx
      return (.errOsOutOfMemory, { block with memory := 0, size := 0, accessMode := .readOnly })
    | some _ =>
      return (.success, { block with accessMode := accessMode, size := newSize, memory := 0 })

/-- The assertions of `shared_memory_block_resize`, made before the lock is taken. -/
def resizeCheck (b : Build) (block : SharedMemoryBlock) (newSize : UInt64) : Call Unit := do
  Prog.assert b (decide (newSize ≥ (← getHeader block.obj).blockSize))
  Prog.assert b ((newSize &&& memoryPageSizeMask) == 0)
  Prog.assert b (decide (newSize > 0))

/-- How the critical section of `shared_memory_block_resize` ended. -/
inductive Section where
  | refused (res : IpmResult)
  /-- The block already has the size asked for. -/
  | same
  | grown
  deriving DecidableEq, Repr

/-- The critical section: from `ipm_mutex_lock`, which returned `lock`, to the unlock. -/
def resizeSection (ctx : Context) (os : Os) (lock : IpmResult) (block : SharedMemoryBlock)
    (newSize : UInt64) : Call Section := do
  if lock ≠ .success then
    ipmError ctx
    return .refused lock
  else if newSize = (← getHeader block.obj).blockSize then return .same
  else if ← ftruncate os block.memFd (memoryPageSize + newSize) then
    setHeader block.obj fun h => { h with blockSize := newSize }
    return .grown
  else
    ipmError ctx
    return .refused (resizeTruncateError (← errno))

/-- What follows the unlock. -/
def resizeRemap (ctx : Context) (os : Os) (block : SharedMemoryBlock) (newSize : UInt64) :
    Section → Call (IpmResult × SharedMemoryBlock)
  | .refused res => return (res, block)
  | .same =>
    if newSize ≠ block.size then sharedMemoryBlockUpdateMapping ctx os block block.accessMode
    else return (.success, block)
  | .grown => sharedMemoryBlockUpdateMapping ctx os block block.accessMode

/-- `shared_memory_block_resize`. -/
def sharedMemoryBlockResize (b : Build) (ctx : Context) (os : Os) (lock : IpmResult)
    (block : SharedMemoryBlock) (newSize : UInt64) : Call (IpmResult × SharedMemoryBlock) := do
  resizeCheck b block newSize
  resizeRemap ctx os block newSize (← resizeSection ctx os lock block newSize)

end Ipm
