import Ipm.Core.Common
import Ipm.Lib.Slots

/-!
# `memory_claim.c`: the claim list

The active claims of a block live in a flexible array at the start of a second shared object. The
array is edited in place under `list_mutex`; `count` says how many slots are in use, and slots past
it keep what earlier operations left there.

`count` and `capacity` are `size_t` in the source. They are `Nat` here, reduced modulo `2 ^ 64`
where the code writes them and modulo `2 ^ 32` where it reads them into an `unsigned`, so the
underflows of the error paths are the C ones.
-/

set_option autoImplicit false

namespace Ipm

open Lib

/-- `ipm_memory_claim`. -/
structure MemoryClaim where
  claimId : UInt64
  procId : UInt64
  access : AccessMode
  offset : UInt64
  size : UInt64
  deriving DecidableEq, Repr

/-- `ipm_claim_list`, less its mutex and condition variable: those are the business of the system
the list is used in. -/
structure ClaimList where
  count : Nat
  capacity : Nat
  claimCounter : UInt64
  claims : Nat → MemoryClaim

namespace ClaimList

/-- The claims in use, `claims[0..count)`. -/
def entries (l : ClaimList) : List MemoryClaim := window l.claims l.count

/-- `atomic_fetch_sub(&list->count, 1)`: a `size_t`, so it wraps at zero. -/
def decCount (l : ClaimList) : ClaimList := { l with count := (l.count + 2 ^ 64 - 1) % 2 ^ 64 }

/-- `atomic_fetch_add(&list->count, 1)`. -/
def incCount (l : ClaimList) : ClaimList := { l with count := (l.count + 1) % 2 ^ 64 }

end ClaimList

/-- `claims_conflict`. The first ordering compares with the end of `claim_1`'s own range. -/
def claimsConflict (claim1 claim2 : MemoryClaim) : Bool :=
  if claim1.procId = claim2.procId then false
  else if claim1.access = .readOnly ∧ claim2.access = .readOnly then false
  else if claim1.offset > claim2.offset then
    decide (claim2.offset < claim1.offset + claim1.size)
  else if claim1.offset < claim2.offset then
    decide (claim1.offset < claim2.offset + claim2.size)
  else true

/-- `claim_add_to_list`. The caller holds `list_mutex`; only the `errListSizeMismatch` branch
unlocks it. -/
def claimAddToList (b : Build) (claim : MemoryClaim) (list : ClaimList) :
    Outcome ClaimList IpmResult :=
  b.check (decide (list.capacity > list.count)) list <|
  if list.count ≥ list.capacity then .ret .errListSizeMismatch list
  else
    -- Find where to insert in the sorted list
    let pos := scan (fun c => decide (c.offset > claim.offset)) list.claims 0 list.count
    -- Shift other elements: `list->count - pos - 1` of them
    let claims :=
      if pos ≠ list.count then memmove list.claims (pos + 1) pos (list.count - pos - 1)
      else list.claims
    let prevCount := list.count
    let list := { list with claims := Function.update claims pos claim }.incCount
    b.check (decide (prevCount < list.capacity)) list <| .ret .success list

/-- `memmove(list->claims + dst, list->claims + src, sizeof(*list->claims) * n)`. A range that
leaves the mapped slots ends the process. -/
def ClaimList.move (list : ClaimList) (dst src n : Nat) : Outcome ClaimList Unit :=
  if dst + n ≤ list.capacity ∧ src + n ≤ list.capacity then
    .ret () { list with claims := memmove list.claims dst src n }
  else .stop .fault list

/-- `claim_remove_from_list`. The shared count goes down before the claim is looked for, and the
shift length `(count - 1) - pos - 1` is `unsigned` arithmetic. -/
def claimRemoveFromList (b : Build) (claimId : UInt64) (list : ClaimList) :
    Outcome ClaimList IpmResult :=
  let count := list.count % 2 ^ 32
  let list := list.decCount
  b.check (decide (count < list.capacity ∧ count > 0)) list <|
  if count = 0 then .ret .errInvalidClaim list
  else
    let pos := scan (fun c => decide (claimId = c.claimId)) list.claims 0 count
    if pos > count then .ret .errInvalidClaim list
    else if pos + 1 ≠ count then
      (list.move pos (pos + 1) ((count - 1 + 2 ^ 32 - pos + 2 ^ 32 - 1) % 2 ^ 32)).andThen
        fun _ list => .ret .success list
    else .ret .success list

/-- `claim_list_init` once `ipm_mutex_init` and `ipm_condition_init` have succeeded: the slots
keep whatever the fresh pages hold. -/
def claimListInit (list : ClaimList) (capacity : Nat) : ClaimList :=
  { list with capacity := capacity, count := 0, claimCounter := 0 }

/-- A freshly truncated claims block: zeros throughout. -/
def zeroList : ClaimList :=
  { count := 0, capacity := 0, claimCounter := 0,
    claims := fun _ => { claimId := 0, procId := 0, access := .readOnly, offset := 0, size := 0 } }

/-- `sizeof(ipm_claim_list)`: a `pthread_mutex_t`, a `pthread_cond_t` and three `size_t`. -/
def sizeofClaimList : UInt64 := 40 + 48 + 3 * 8

/-- `sizeof(ipm_memory_claim)`. -/
def sizeofMemoryClaim : UInt64 := 40

/-- The capacity `ipm_memory_create` passes for one page of claims. -/
def pageCapacity : Nat := ((memoryPageSize - sizeofClaimList) / sizeofMemoryClaim).toNat

end Ipm
