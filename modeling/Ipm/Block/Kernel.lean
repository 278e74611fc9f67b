import Mathlib.Logic.Function.Basic
import Ipm.Block.Name
import Ipm.Claim.List
import Ipm.Core.Platform
import Ipm.Lib.Prog

/-!
# Shared objects, and the calls that make and map them

The part of the operating system the library stands on: a namespace of POSIX shared objects, each
with a length and two things the library keeps in it, the header page and (in a claims object) the
claim list. A fresh object has length 0 and reads as zeroes. Objects outlive their names: an
unlinked object is still there for whoever has it mapped.

Beside the kernel there is what the calling process has: its `errno`, its descriptors, the pages of
its address space and its allocations.

Every call takes what the environment answers as an argument. `Failure` leaves out `EEXIST` and
`ENOENT`, because those two are said by the namespace and by nothing else.
-/

set_option autoImplicit false

namespace Ipm

open Lib

/-- A pthread object in shared memory. -/
inductive Cell where
  | raw
  | ready
  | destroyed
  deriving DecidableEq, Repr

/-- `ipm_shared_memory_header`. -/
structure Header where
  segmentMutex : Cell
  refcount : UInt32
  blockSize : UInt64
  idCounter : UInt64
  blockId : UInt64
  blockName : CString
  deriving DecidableEq, Repr

structure ShmObject where
  length : Nat
  header : Header
  -- the body of a claims object: the list, and its mutex and condition variable
  list : ClaimList
  listSync : Cell

/-- Zero-filled pages. -/
def Header.zero : Header :=
  { segmentMutex := .raw, refcount := 0, blockSize := 0, idCounter := 0, blockId := 0,
    blockName := [] }

def ShmObject.empty : ShmObject :=
  { length := 0, header := .zero, list := zeroList, listSync := .raw }

/-- `ftruncate`: cutting the header page off loses what was in the object. -/
def ShmObject.resize (length : Nat) (o : ShmObject) : ShmObject :=
  if length < memoryPageSize.toNat then { ShmObject.empty with length := length }
  else { o with length := length }

structure Kernel where
  names : CString → Option Nat
  objs : Nat → ShmObject
  fresh : Nat

namespace Kernel

def empty : Kernel := { names := fun _ => none, objs := fun _ => .empty, fresh := 0 }

/-- A fresh object under `path`. -/
def link (k : Kernel) (path : CString) : Kernel :=
  { names := Function.update k.names path (some k.fresh)
    objs := Function.update k.objs k.fresh .empty
    fresh := k.fresh + 1 }

def unlink (k : Kernel) (path : CString) : Kernel :=
  { k with names := Function.update k.names path none }

def modifyObj (k : Kernel) (obj : Nat) (f : ShmObject → ShmObject) : Kernel :=
  { k with objs := Function.update k.objs obj (f (k.objs obj)) }

def header (k : Kernel) (obj : Nat) : Header := (k.objs obj).header

@[simp] theorem names_modifyObj (k : Kernel) (obj : Nat) (f : ShmObject → ShmObject) :
    (k.modifyObj obj f).names = k.names := rfl
@[simp] theorem fresh_modifyObj (k : Kernel) (obj : Nat) (f : ShmObject → ShmObject) :
    (k.modifyObj obj f).fresh = k.fresh := rfl
@[simp] theorem objs_modifyObj_self (k : Kernel) (obj : Nat) (f : ShmObject → ShmObject) :
    (k.modifyObj obj f).objs obj = f (k.objs obj) := by simp [modifyObj]
@[simp] theorem objs_modifyObj_ne (k : Kernel) {obj i : Nat} (f : ShmObject → ShmObject)
    (h : i ≠ obj) : (k.modifyObj obj f).objs i = k.objs i := by simp [modifyObj, h]
@[simp] theorem objs_unlink (k : Kernel) (path : CString) : (k.unlink path).objs = k.objs := rfl
@[simp] theorem fresh_unlink (k : Kernel) (path : CString) : (k.unlink path).fresh = k.fresh := rfl
@[simp] theorem fresh_link (k : Kernel) (path : CString) :
    (k.link path).fresh = k.fresh + 1 := rfl
@[simp] theorem objs_link_fresh (k : Kernel) (path : CString) :
    (k.link path).objs k.fresh = .empty := by simp [link]
@[simp] theorem objs_link_ne (k : Kernel) (path : CString) {i : Nat} (h : i ≠ k.fresh) :
    (k.link path).objs i = k.objs i := by simp [link, h]
@[simp] theorem names_link_self (k : Kernel) (path : CString) :
    (k.link path).names path = some k.fresh := by simp [link]
@[simp] theorem names_unlink_self (k : Kernel) (path : CString) :
    (k.unlink path).names path = none := by simp [unlink]

theorem names_unlink (k : Kernel) (path p : CString) :
    (k.unlink path).names p = if p = path then none else k.names p :=
  Function.update_apply _ _ _ _

theorem modifyObj_modifyObj (k : Kernel) (obj : Nat) (f g : ShmObject → ShmObject) :
    (k.modifyObj obj f).modifyObj obj g = k.modifyObj obj fun o => g (f o) := by
  simp [modifyObj]

end Kernel

/-- What a page of an address space shows: page `index` of an object, to read or to write. -/
structure Page where
  obj : Nat
  index : Nat
  access : AccessMode
  deriving DecidableEq, Repr

/-- What a process has of its own. -/
structure Proc where
  errno : Errno
  fds : List Nat
  pages : Nat → Option Page
  allocs : Nat

/-- A process that has just started. -/
def Proc.initial : Proc := { errno := .other 0, fds := [], pages := fun _ => none, allocs := 0 }

structure World where
  kernel : Kernel
  proc : Proc

namespace World

def setErrno (w : World) (e : Errno) : World := { w with proc := { w.proc with errno := e } }

@[simp] theorem kernel_setErrno (w : World) (e : Errno) : (w.setErrno e).kernel = w.kernel := rfl

end World

/-- A body of the library: it runs in a world and may return an error code. -/
abbrev Call (α : Type) : Type := Prog World IpmResult α

/-- Why a system call failed, other than by what the namespace says. -/
structure Failure where
  errno : Errno
  ne_EEXIST : errno ≠ .EEXIST
  ne_ENOENT : errno ≠ .ENOENT

/-- The user's callbacks, as far as they matter here: what a report leaves in `errno`. -/
structure Context where
  report : Errno → Errno

/-- What the environment answers to the calls of one `shared_memory_block_*` function. -/
structure Os where
  shmOpen : Except Failure Nat
  ftruncate : Option Failure
  bodyMmap : Except Failure Nat
  headerMmap : Except Failure Nat
  mutexInit : MutexInitCodes
  unlink : Option Errno
  -- what `close` and `munmap` leave in `errno`
  residue : Errno → Errno

/-- An environment in which every call succeeds. -/
def Os.willing : Os :=
  { shmOpen := .ok 3, ftruncate := none, bodyMmap := .ok 0x10000, headerMmap := .ok 0x8000,
    mutexInit := ⟨0, 0, 0, 0, 0⟩, unlink := none, residue := fun e => e }

/-- A descriptor, together with the object it refers to. -/
structure File where
  fd : Nat
  obj : Nat
  deriving DecidableEq, Repr

/-! ## System calls -/

def errno : Call Errno := .read (·.proc.errno)

def setErrno (e : Errno) : Call Unit := .update (·.setErrno e)

/-- `shm_open(path, O_RDWR | O_CREAT | O_EXCL, …)`; `none` is a negative descriptor. -/
def shmOpenExcl (os : Os) (path : CString) : Call (Option File) := fun w =>
  match os.shmOpen with
  | .error f => .ret (.ok none) (w.setErrno f.errno)
  | .ok fd =>
    match w.kernel.names path with
    | some _ => .ret (.ok none) (w.setErrno .EEXIST)
    | none =>
      .ret (.ok (some ⟨fd, w.kernel.fresh⟩))
        { kernel := w.kernel.link path, proc := { w.proc with fds := fd :: w.proc.fds } }

/-- `shm_open(path, O_RDWR, …)`. -/
def shmOpen (os : Os) (path : CString) : Call (Option File) := fun w =>
  match os.shmOpen with
  | .error f => .ret (.ok none) (w.setErrno f.errno)
  | .ok fd =>
    match w.kernel.names path with
    | some obj =>
      .ret (.ok (some ⟨fd, obj⟩)) { w with proc := { w.proc with fds := fd :: w.proc.fds } }
    | none => .ret (.ok none) (w.setErrno .ENOENT)

/-- The first length that is negative as an `off_t`. -/
def lengthLimit : Nat := 2 ^ 63

/-- `ftruncate(fd, (off_t) length)`. -/
def ftruncate (os : Os) (file : File) (length : UInt64) : Call Bool := fun w =>
  if lengthLimit ≤ length.toNat then .ret (.ok false) (w.setErrno .EINVAL)
  else
    match os.ftruncate with
    | some f => .ret (.ok false) (w.setErrno f.errno)
    | none =>
      .ret (.ok true) { w with kernel := w.kernel.modifyObj file.obj (·.resize length.toNat) }

/-- `page` is one of those of `[addr, addr + length)`. -/
def Covers (addr : Nat) (length : UInt64) (page : Nat) : Prop :=
  addr / memoryPageSize.toNat ≤ page ∧ page * memoryPageSize.toNat < addr + length.toNat

instance (addr : Nat) (length : UInt64) (page : Nat) : Decidable (Covers addr length page) :=
  inferInstanceAs (Decidable (_ ∧ _))

/-- The pages `[addr, addr + length)` show `what`, page by page. -/
def Proc.setPages (p : Proc) (addr : Nat) (length : UInt64) (what : Nat → Option Page) : Proc :=
  { p with pages := fun page =>
      if Covers addr length page then what (page - addr / memoryPageSize.toNat) else p.pages page }

/-- The pages of a file from `offset` on. -/
def File.pages (file : File) (access : AccessMode) (offset : UInt64) (i : Nat) : Option Page :=
  some { obj := file.obj, index := (offset / memoryPageSize).toNat + i, access := access }

/-- The end of the address space of a process, on 64-bit Linux. -/
def addressEnd : Nat := 0x7ffffffff000

/-- `[addr, addr + length)` lies in the address space. -/
def InSpace (addr : Nat) (length : UInt64) : Prop := addr + length.toNat ≤ addressEnd

instance (addr : Nat) (length : UInt64) : Decidable (InSpace addr length) :=
  inferInstanceAs (Decidable (_ ≤ _))

/-- A mapping of `length` bytes can be made where the answer `res` puts it. -/
def Maps (res : Except Failure Nat) (length : UInt64) : Prop :=
  length ≠ 0 ∧ ∃ addr, res = .ok addr ∧ InSpace addr length

instance (res : Except Failure Nat) (length : UInt64) : Decidable (Maps res length) :=
  match res with
  | .ok addr =>
    decidable_of_iff (length ≠ 0 ∧ InSpace addr length)
      ⟨fun h => ⟨h.1, addr, rfl, h.2⟩, fun ⟨hne, _, heq, hin⟩ => ⟨hne, by cases heq; exact hin⟩⟩
  | .error _ => .isFalse fun ⟨_, _, heq, _⟩ => by cases heq

/-- `mmap` of a file from `offset` on, `MAP_SHARED`, answered by `res`; `none` is `MAP_FAILED`. No
mapping is empty, and none goes past the end of the address space. `readWrite` is
`PROT_READ | PROT_WRITE`. -/
def mmap (res : Except Failure Nat) (file : File) (length : UInt64) (access : AccessMode)
    (offset : UInt64) : Call (Option Nat) := fun w =>
  if length = 0 then .ret (.ok none) (w.setErrno .EINVAL)
  else
    match res with
    | .error f => .ret (.ok none) (w.setErrno f.errno)
    | .ok addr =>
      if InSpace addr length then
        .ret (.ok (some addr))
          { w with proc := w.proc.setPages addr length (file.pages access offset) }
      else .ret (.ok none) (w.setErrno .ENOMEM)

/-- `munmap`. A range that leaves the address space is refused as a whole, and the callers do not look.
(So is an empty one, but of that there is nothing to unmap.) -/
def munmap (os : Os) (addr : Nat) (length : UInt64) : Call Unit :=
  .update fun w =>
    if InSpace addr length then
      { w with proc := { w.proc.setPages addr length (fun _ => none) with
                         errno := os.residue w.proc.errno } }
    else w.setErrno .EINVAL

def closeFd (os : Os) (file : File) : Call Unit :=
  .update fun w =>
    { w with proc := { w.proc with fds := w.proc.fds.erase file.fd
                                   errno := os.residue w.proc.errno } }

/-- `shm_unlink`. -/
def shmUnlink (os : Os) (path : CString) : Call Bool := fun w =>
  match os.unlink with
  | some e => .ret (.ok false) (w.setErrno e)
  | none =>
    match w.kernel.names path with
    | some _ => .ret (.ok true) { w with kernel := w.kernel.unlink path }
    | none => .ret (.ok false) (w.setErrno .ENOENT)

/-- `IPM_ERROR`: the report callback and the allocator run, and may leave anything in `errno`. -/
def ipmError (ctx : Context) : Call Unit := .update fun w => w.setErrno (ctx.report w.proc.errno)

/-! ## Access to a mapped header

The header page is mapped by whoever gets here; a page past the end of the file cannot be touched. -/

def getHeader (obj : Nat) : Call Header := fun w =>
  if (w.kernel.objs obj).length < memoryPageSize.toNat then .stop .fault w
  else .ret (.ok (w.kernel.header obj)) w

def setHeader (obj : Nat) (f : Header → Header) : Call Unit := fun w =>
  if (w.kernel.objs obj).length < memoryPageSize.toNat then .stop .fault w
  else
    .ret (.ok ())
      { w with kernel := w.kernel.modifyObj obj fun o => { o with header := f o.header } }

end Ipm
