import Ipm.Claim.Region
import Ipm.Lib.Reach

/-!
# The claim system: any number of handles on one list

One claim list, the requests asleep on `list_cnd`, the requests that have been woken but have not
re-acquired `list_mutex` yet, and the removing operations that have unlocked but not yet signalled.
A label is one critical section (or one signal) of one call, so an interleaving at the granularity
of `list_mutex` is a list of labels.

`granted` is a ledger kept beside the program: the claims a caller was told it has
(`IPM_RESULT_SUCCESS` from `ipm_memory_claim_region`) and has not given back. Nothing in the code
reads it; the theorems compare it with the array.

A process stopped by a failed assertion leaves the list as it was at that point and its mutex to
the next process (`list_mutex` is robust). After a wild `memmove` there is no next state.
-/

set_option autoImplicit false

namespace Ipm

open Lib

structure ClaimSys where
  list : ClaimList
  waiting : List MemoryClaim
  woken : List MemoryClaim
  -- removing operations between their unlock and their `ipm_condition_signal`
  signals : Nat
  granted : List MemoryClaim

/-- The labels. `lock` is what `ipm_mutex_lock` returned to the call. -/
inductive ClaimEvent where
  | claim (h : Handle) (lock : IpmResult) (access : AccessMode) (offset count : UInt64)
  /-- Woken request `i` gets the mutex back, its `pthread_cond_wait` having returned 0. -/
  | recheck (i : Nat)
  /-- The wait of sleeping request `i` returns an error. -/
  | waitFails (i : Nat)
  /-- Sleeping request `i` wakes up without a signal. -/
  | spurious (i : Nat)
  /-- One outstanding `ipm_condition_signal`, waking request `i` if anyone sleeps. -/
  | signal (i : Nat)
  | releaseRegion (h : Handle) (lock : IpmResult) (claimId : UInt64)
  | releaseAll (h : Handle) (lock : IpmResult)
  | removeAll (lock : IpmResult)
  /-- `ipm_memory_close`, which for the list is its call of `ipm_memory_release_all`. -/
  | close (h : Handle) (lock : IpmResult)
  deriving DecidableEq, Repr

namespace ClaimSys

/-- The system after the critical section `o`: `k` files the returned value. -/
def settle {α : Type} (s : ClaimSys) (o : Outcome ClaimList α) (k : α → ClaimSys → ClaimSys) :
    Option ClaimSys :=
  match o with
  | .ret a list => some (k a { s with list := list })
  | .stop .assertion list => some { s with list := list }
  | .stop .fault _ => none
  | .stop .spin _ => none

/-- One turn of the admission loop for `claim`: granted, refused, or asleep. -/
def turn (b : Build) (claim : MemoryClaim) (s : ClaimSys) : Option ClaimSys :=
  s.settle (claimRegionTurn b claim s.list) fun res s =>
    match res with
    | some .success => { s with granted := claim :: s.granted }
    | some _ => s
    | none => { s with waiting := s.waiting ++ [claim] }

/-- `ipm_memory_release_all` by the handle with this access id, ledger included. -/
def purge (b : Build) (lock : IpmResult) (accessId : UInt64) (s : ClaimSys) : Option ClaimSys :=
  s.settle (ipmMemoryReleaseAll b lock accessId s.list) fun res s =>
    if res = .success then { s with granted := s.granted.filter (·.procId ≠ accessId) } else s

/-- `ipm_memory_release_region`; a success leaves a signal to send. -/
def giveBack (b : Build) (lock : IpmResult) (accessId claimId : UInt64) (s : ClaimSys) :
    Option ClaimSys :=
  s.settle (ipmMemoryReleaseRegion b lock claimId s.list) fun res s =>
    if res = .success then
      { s with signals := s.signals + 1,
               granted := s.granted.eraseP fun c => c.procId = accessId ∧ c.claimId = claimId }
    else s

/-- `ipm_memory_remove_all_active_claims`: every ledger entry is given back. -/
def clear (b : Build) (lock : IpmResult) (s : ClaimSys) : Option ClaimSys :=
  s.settle (ipmMemoryRemoveAllActiveClaims b lock s.list) fun res s =>
    if res = .success then { s with granted := [] } else s

def step (b : Build) (s : ClaimSys) : ClaimEvent → Option ClaimSys
  | .claim h lock access offset count =>
    if b.ndebug = false ∧ count = 0 then some s  -- `assert(count > 0)`: nothing shared is touched
    else if (claimRegionCheck h access offset count).isSome then some s
    else if lock ≠ .success then some s
    else
      turn b (s.list.newClaim h access offset count) { s with list := s.list.takeId }
  | .recheck i =>
    (s.woken[i]?).bind fun claim => turn b claim { s with woken := s.woken.eraseIdx i }
  | .waitFails i =>
    -- the call unlocks and returns `IPM_RESULT_SUCCESS`
    (s.waiting[i]?).map fun claim =>
      { s with waiting := s.waiting.eraseIdx i, granted := claim :: s.granted }
  | .spurious i =>
    (s.waiting[i]?).map fun claim =>
      { s with waiting := s.waiting.eraseIdx i, woken := s.woken ++ [claim] }
  | .signal i =>
    if s.signals = 0 then none
    else if s.waiting = [] then some { s with signals := s.signals - 1 }
    else
      (s.waiting[i]?).map fun claim =>
        { s with signals := s.signals - 1, waiting := s.waiting.eraseIdx i,
                 woken := s.woken ++ [claim] }
  | .releaseRegion h lock claimId => giveBack b lock h.accessId claimId s
  | .releaseAll h lock => purge b lock h.accessId s
  | .removeAll lock => clear b lock s
  | .close h lock => purge b lock h.accessId s

/-- Right after `claim_list_init` on whatever the fresh pages hold. -/
def init (raw : ClaimList) (capacity : Nat) : ClaimSys :=
  { list := claimListInit raw capacity, waiting := [], woken := [], signals := 0, granted := [] }

end ClaimSys

/-- The callers' side of the contract: a region is released only by the handle it was granted to,
and only while it has not been released. -/
def ClaimSys.Owned (s : ClaimSys) : ClaimEvent → Prop
  | .releaseRegion h _ claimId =>
    ∃ c ∈ s.granted, c.procId = h.accessId ∧ c.claimId = claimId
  | _ => True

instance (s : ClaimSys) (a : ClaimEvent) : Decidable (s.Owned a) := by
  cases a <;> simp only [ClaimSys.Owned] <;> infer_instance

/-- The request lies inside the block, as integers. -/
def ClaimEvent.InRange : ClaimEvent → Prop
  | .claim h _ _ offset count => offset.toNat + count.toNat ≤ h.size.toNat
  | _ => True

instance (a : ClaimEvent) : Decidable a.InRange := by
  cases a <;> simp only [ClaimEvent.InRange] <;> infer_instance

end Ipm
