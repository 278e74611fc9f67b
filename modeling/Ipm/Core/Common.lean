import Mathlib.Algebra.GroupWithZero.Nat
import Ipm.Lib.Outcome

/-!
# `ipm_common.h`, `ipm_error.h`

The library's own vocabulary: result codes, access modes, the constants of `ipm_common.h`, and the
`errno` values its `switch` statements tell apart. `size_t` and `ipm_id` are `UInt64` and
`refcount` is `UInt32`, so additions wrap where the C ones do.
-/

set_option autoImplicit false

namespace Ipm

/-- `ipm_result`. -/
inductive IpmResult where
  | success
  | errAccess
  | errExists
  | errBadValue
  | errMaxFds
  | errNameTooLong
  | errMaxFdsSys
  | errInvalidFd
  | errBadFs
  | errOsOutOfMemory
  | errOsUnexpected
  | errBadId
  | errBadSize
  | errNoSem
  | errNoSemWait
  | errAlreadyLocked
  | errNotLocked
  | errListSizeMismatch
  | errInvalidClaim
  | errBadInit
  | errDeadlock
  | interrupted
  | errBadAccess
  | errDoesNotExist
  deriving DecidableEq, Repr

/-- `ipm_access_mode`: `IPM_ACCESS_MODE_READ_ONLY = 0`, `IPM_ACCESS_MODE_READ_WRITE = 1`. -/
inductive AccessMode where
  | readOnly
  | readWrite
  deriving DecidableEq, Repr

/-- The `errno` values the code distinguishes; `other` stands for the rest. -/
inductive Errno where
  | EACCES | EAGAIN | EBADF | EBUSY | EDEADLK | EEXIST | EFBIG | EINVAL | EMFILE | ENAMETOOLONG
  | ENFILE | ENOENT | ENOMEM | EOWNERDEAD | EPERM | EROFS
  | other (code : Nat)
  deriving DecidableEq, Repr

/-- `IPM_MAX_NAME_LEN`. -/
def maxNameLen : Nat := 256

/-- `IPM_MEMORY_PAGE_SIZE`. -/
def memoryPageSize : UInt64 := 4096

/-- `IPM_MEMORY_PAGE_SIZE_MASK`. -/
def memoryPageSizeMask : UInt64 := 4096 - 1

/-- `IPM_DEFAULT_CLAIM_CAPACITY`. -/
def defaultClaimCapacity : Nat := 64

/-- A C string, without its terminating NUL; a `Char` stands for one `char`. -/
abbrev CString := List Char

end Ipm
