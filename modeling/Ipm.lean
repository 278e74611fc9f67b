import Ipm.Lib.Reach
import Ipm.Lib.Slots
import Ipm.Lib.Outcome
import Ipm.Core.Common
import Ipm.Claim.List
import Ipm.Claim.Edit
import Ipm.Claim.Conflict
import Ipm.Claim.Region
import Ipm.Claim.System
import Ipm.Lib.LockTable
import Ipm.Claim.Purge
import Ipm.Claim.Ledger
import Ipm.Claim.Wakeup
import Ipm.Block.Kernel
import Ipm.Block.Shared
import Ipm.Block.Spec
import Ipm.Memory.Ops
import Ipm.Memory.Counted
import Ipm.Memory.Tasks
import Ipm.Memory.Spec
import Ipm.Memory.Pairing
import Ipm.Memory.ListReady
import Ipm.Memory.Whole
import Ipm.Memory.Lifetime
import Ipm.Block.Steps
import Ipm.Block.Reopen
import Ipm.Block.Handshake
import Ipm.Block.Resize
import Ipm.Memory.Grow
import Ipm.Block.Frame
import Ipm.Memory.Sizes
import Ipm.Lib.RobustMutex
import Ipm.Lib.SortedInsert
import Ipm.Claim.Contract
import Ipm.Claim.Calls
import Ipm.Claim.Capacity
import Ipm.Claim.Robust
import Ipm.Block.Naming
import Ipm.Claim.Answers
import Ipm.Block.Identity
import Ipm.Claim.Identity
import Ipm.Memory.Identity
import Ipm.Block.Pages
import Ipm.Memory.Remap
import Ipm.Memory.Pointer
import Ipm.Claim.Disjoint
import Ipm.Claim.Recover
import Ipm.Core.Mutex
import Ipm.Claim.Iterate
import Ipm.Block.Ownership
import Ipm.Memory.FailedGrow
import Ipm.Memory.Stale
import Ipm.Memory.Access
import Ipm.Block.Unmap
import Ipm.Memory.Unmap
import Ipm.Memory.Closing
import Ipm.Block.Undo
import Ipm.Memory.Undo
import Ipm.Claim.Wrapped
import Ipm.Core.Wrappers
import Ipm.Lib.Switch
import Ipm.Block.Report
import Ipm.Claim.Actors
import Ipm.Claim.Atomic
import Ipm.Claim.Coherence
import Ipm.Claim.Deadlock
import Ipm.Memory.Isolation
import Ipm.Claim.Overtaking
import Ipm.Claim.ReadersWriter
import Ipm.Lib.LockService
import Ipm.Memory.Carry
import Ipm.Memory.Frozen
import Ipm.Memory.Host
import Ipm.Memory.Resources
import Ipm.Memory.Service
import Ipm.Lib.Semaphore
import Ipm.Core.Semaphore
import Ipm.Core.Callbacks
import Ipm.Memory.Usable
import Ipm.Memory.Machine
import Ipm.Claim.Ending
import Ipm.Memory.Ending
import Ipm.Lib.Builds
import Ipm.Memory.Builds
