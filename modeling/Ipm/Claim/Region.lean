import Mathlib.Algebra.Group.Int.Defs
import Ipm.Claim.Edit
import Ipm.Claim.Conflict

/-!
# The region calls of `ipm_memory.c`, one critical section at a time

Each of these calls takes `list_mutex` once, except that `ipm_memory_claim_region` gives it up
inside `ipm_condition_wait` and takes it again when it wakes. So a call is a sequence of critical
sections on the claim list, and the definitions below are those sections: what a caller finds and
leaves between a lock and the unlock or wait that ends it.

The results of `ipm_mutex_lock` are arguments. `claimRegionTurn` is one turn of the `for (;;)` loop;
the loop itself is the system of `Claim/System.lean`, because other processes run between turns.
-/

set_option autoImplicit false

namespace Ipm

open Lib

/-- What the region calls read of an `ipm_memory`: three fields of its `real_memory`. -/
structure Handle where
  accessId : UInt64
  size : UInt64
  accessMode : AccessMode
  deriving DecidableEq, Repr

/-- The checks `ipm_memory_claim_region` makes before it locks; `some` is an early return. -/
def claimRegionCheck (h : Handle) (access : AccessMode) (offset count : UInt64) :
    Option IpmResult :=
  if h.accessMode = .readOnly ∧ access = .readWrite then some .errBadAccess
  else if h.size < offset + count then some .errBadValue
  else none

/-- The claim the call builds; its id is the counter before the `atomic_fetch_add`. -/
def ClaimList.newClaim (list : ClaimList) (h : Handle) (access : AccessMode)
    (offset count : UInt64) : MemoryClaim :=
  { claimId := list.claimCounter, procId := h.accessId, access := access, offset := offset,
    size := count }

/-- `atomic_fetch_add(&list->claim_counter, 1)`. -/
def ClaimList.takeId (list : ClaimList) : ClaimList :=
  { list with claimCounter := list.claimCounter + 1 }

/-- The admission test: the scan found no conflict and there is a free slot. -/
def admits (list : ClaimList) (claim : MemoryClaim) : Bool :=
  scan (claimsConflict claim) list.claims 0 list.count == list.count &&
    list.count != list.capacity

/-- One turn of the loop: `some` is what `claim_add_to_list` returned, `none` a condition wait. -/
def claimRegionTurn (b : Build) (claim : MemoryClaim) (list : ClaimList) :
    Outcome ClaimList (Option IpmResult) :=
  if admits list claim then
    (claimAddToList b claim list).andThen fun res list => .ret (some res) list
  else .ret none list

/-- `ipm_memory_release_region`. A `success` obliges the caller to signal `list_cnd`. -/
def ipmMemoryReleaseRegion (b : Build) (lock : IpmResult) (claimId : UInt64) (list : ClaimList) :
    Outcome ClaimList IpmResult :=
  if lock ≠ .success then .ret lock list else claimRemoveFromList b claimId list

/-- `(int) list->count`. -/
def intOf (n : Nat) : Int :=
  if n % 2 ^ 32 < 2 ^ 31 then (n % 2 ^ 32 : Nat) else (n % 2 ^ 32 : Nat) - 2 ^ 32

/-- The loop of `ipm_memory_release_all`. A removal steps the index back, so the next turn looks
at the same slot. -/
def releaseAllLoop (b : Build) (accessId : UInt64) :
    (fuel i : Nat) → ClaimList → Outcome ClaimList Unit
  | 0, i, list => if (i : Int) < intOf list.count then .stop .spin list else .ret () list
  | fuel + 1, i, list =>
    if (i : Int) < intOf list.count then
      if (list.claims i).procId = accessId then
        (claimRemoveFromList b (list.claims i).claimId list).andThen fun _ list =>
          releaseAllLoop b accessId fuel i list
      else releaseAllLoop b accessId fuel (i + 1) list
    else .ret () list

/-- `ipm_memory_release_all`. It signals nobody. -/
def ipmMemoryReleaseAll (b : Build) (lock : IpmResult) (accessId : UInt64) (list : ClaimList) :
    Outcome ClaimList IpmResult :=
  if lock ≠ .success then .ret lock list
  else (releaseAllLoop b accessId list.count 0 list).andThen fun _ list => .ret .success list

/-- The loop of `ipm_memory_remove_all_active_claims`. -/
def removeAllLoop (b : Build) : (fuel : Nat) → ClaimList → Outcome ClaimList Unit
  | 0, list => if list.count ≠ 0 then .stop .spin list else .ret () list
  | fuel + 1, list =>
    if list.count ≠ 0 then
      (claimRemoveFromList b (list.claims (list.count - 1)).claimId list).andThen fun _ list =>
        removeAllLoop b fuel list
    else .ret () list

/-- `ipm_memory_remove_all_active_claims`. It signals nobody either. -/
def ipmMemoryRemoveAllActiveClaims (b : Build) (lock : IpmResult) (list : ClaimList) :
    Outcome ClaimList IpmResult :=
  if lock ≠ .success then .ret lock list
  else (removeAllLoop b list.count list).andThen fun _ list => .ret .success list

end Ipm
