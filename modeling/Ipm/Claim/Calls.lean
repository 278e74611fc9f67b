import Ipm.Claim.Region
import Ipm.Core.Platform
import Ipm.Lib.Reach
import Ipm.Lib.RobustMutex
import Ipm.Lib.Threads

/-!
# The region calls with their mutex

`Claim/System.lean` takes a critical section of `list_mutex` for one step. Here the mutex is part of
the state, with its owner and with what becomes of it when the owner dies, and a thread stands at a
point of its call between two operations on it: at `ipm_mutex_lock`, at the body, asleep in
`pthread_cond_wait`, at `ipm_mutex_unlock`. Sleepers may wake at any time, as POSIX allows, so nobody
needs to signal.

A refused `pthread_mutex_lock` does not always end the call. `ipm_mutex_lock` looks at `errno` and not
at the code, and takes an `EOWNERDEAD` that was left there for a mutex it has got. The caller then
goes on without the mutex.

Three things are kept beside the program: how often a thread has locked and unlocked, the claim it
has built, and whether it has handed that claim to `claim_add_to_list`.

Whoever has the mutex works on the list alone, so a body could be one step. The admission test and
`claim_add_to_list` are two all the same, because of the threads that go on without it. A thread that
dies in the middle of a body leaves the list in any state (`die`).
-/

set_option autoImplicit false

namespace Ipm

open Lib

/-- A call of one of the region functions. -/
inductive RegionCall where
  | claimRegion (h : Handle) (access : AccessMode) (offset count : UInt64)
  | releaseRegion (h : Handle) (claimId : UInt64)
  | releaseAll (h : Handle)
  | removeAllActiveClaims (h : Handle)
  deriving DecidableEq, Repr

/-- Where a thread stands. `out` is what has been written to `*p_claim_id` by the return. -/
inductive RegionPoint where
  | lock
  /-- `pthread_mutex_lock` has said `EOWNERDEAD`, and `pthread_mutex_consistent` comes next. -/
  | repair
  /-- `ipm_mutex_lock` has returned `IPM_RESULT_SUCCESS`. -/
  | body
  /-- At the top of the `for (;;)` of `ipm_memory_claim_region`. -/
  | turn (claim : MemoryClaim)
  /-- Past the admission test, at the call of `claim_add_to_list`. -/
  | admitted (claim : MemoryClaim)
  /-- In `pthread_cond_wait`. -/
  | asleep (claim : MemoryClaim)
  /-- At the unlock in the error branch of `claim_add_to_list`. -/
  | mismatch (claim : MemoryClaim)
  | unlock (res : IpmResult) (out : Option UInt64)
  | returned (res : IpmResult) (out : Option UInt64)
  | dead
  deriving DecidableEq, Repr

/-- The claim a thread is in the loop with. -/
def RegionPoint.trying : RegionPoint → Option MemoryClaim
  | turn claim => some claim
  | admitted claim => some claim
  | _ => none

structure RegionThread where
  call : RegionCall
  point : RegionPoint
  -- `ipm_mutex_lock` calls that returned `IPM_RESULT_SUCCESS` and `ipm_mutex_unlock` calls, with or
  -- without the mutex
  locks : Nat
  unlocks : Nat
  -- the claim, once it has its id, and whether `claim_add_to_list` has been called with it
  claim : Option MemoryClaim
  passed : Bool
  deriving DecidableEq, Repr

/-- What a call does before it locks: `ipm_memory_claim_region` looks at its arguments. -/
def RegionCall.start (b : Build) : RegionCall → RegionPoint
  | claimRegion h access offset count =>
    if b.ndebug = false ∧ count = 0 then .dead
    else
      match claimRegionCheck h access offset count with
      | some res => .returned res none
      | none => .lock
  | _ => .lock

def RegionThread.start (b : Build) (call : RegionCall) : RegionThread :=
  { call := call, point := call.start b, locks := 0, unlocks := 0, claim := none, passed := false }

/-- Where a thread goes on when its wait is over. -/
def RegionPoint.awake (dead : Bool) (code : Option Errno) (errno : Errno) (claim : MemoryClaim) :
    RegionPoint :=
  if ipmConditionWait (if dead then some .EOWNERDEAD else code) errno = .success then .turn claim
  -- reported, unlocked, and `return IPM_RESULT_SUCCESS`
  else .unlock .success none

structure RegionSys where
  mutex : RobustMutex Nat
  list : ClaimList
  threads : List RegionThread

inductive RegionEvent where
  /-- A thread starts a call. -/
  | call (call : RegionCall)
  /-- Thread `i` gets the mutex, or `pthread_mutex_lock` returns an error code with this `errno`
  around. -/
  | lock (i : Nat) (refused : Option (Errno × Errno))
  /-- The wait of thread `i` ends with the mutex re-acquired. What `pthread_cond_wait` returns is
  `EOWNERDEAD` if the last owner died, and `code` otherwise. -/
  | wake (i : Nat) (code : Option Errno) (errno : Errno)
  /-- Thread `i` goes on from any other point. -/
  | step (i : Nat)
  /-- Thread `i` dies; if it had the mutex, it leaves `left` behind. -/
  | die (i : Nat) (left : ClaimList)

namespace RegionSys

/-- Thread `i` is `t` from now on. -/
def put (s : RegionSys) (i : Nat) (t : RegionThread) : RegionSys :=
  { s with threads := s.threads.set i t }

/-- The end of a body: the thread goes on, or its process is gone with the mutex in its hands. -/
def finish {α : Type} (s : RegionSys) (i : Nat) (t : RegionThread) (o : Outcome ClaimList α)
    (k : α → RegionSys → Option RegionSys) : Option RegionSys :=
  match o with
  | .ret a list => k a { s with list := list }
  | .stop .spin _ => none
  | .stop _ list =>
    some ({ s with list := list, mutex := s.mutex.die i }.put i { t with point := .dead })

/-- The body of a releasing call. -/
def release (b : Build) (call : RegionCall) (list : ClaimList) : Outcome ClaimList IpmResult :=
  match call with
  | .claimRegion .. => .ret .success list
  | .releaseRegion _ claimId => ipmMemoryReleaseRegion b .success claimId list
  | .releaseAll h => ipmMemoryReleaseAll b .success h.accessId list
  | .removeAllActiveClaims _ => ipmMemoryRemoveAllActiveClaims b .success list

/-- The next operation of thread `i`. -/
def advance (b : Build) (s : RegionSys) (i : Nat) (t : RegionThread) : Option RegionSys :=
  match t.point with
  | .repair => some ({ s with mutex := s.mutex.consistent i }.put i { t with point := .body })
  | .body =>
    match t.call with
    | .claimRegion h access offset count =>
      let claim := s.list.newClaim h access offset count
      some ({ s with list := s.list.takeId }.put i { t with point := .turn claim, claim := some claim })
    | call =>
      s.finish i t (release b call s.list) fun res s =>
        some (s.put i { t with point := .unlock res none })
  | .turn claim =>
    if admits s.list claim then some (s.put i { t with point := .admitted claim })
    else if s.mutex.owner = some i then
      some ({ s with mutex := s.mutex.unlock i }.put i { t with point := .asleep claim })
    else
      -- `pthread_cond_wait` returns `EPERM` at once: reported, unlocked, `return IPM_RESULT_SUCCESS`
      some (s.put i { t with point := .unlock .success none })
  | .admitted claim =>
    let t := { t with passed := true }
    s.finish i t (claimAddToList b claim s.list) fun res s =>
      match res with
      | .errListSizeMismatch => some (s.put i { t with point := .mismatch claim })
      | res => some (s.put i { t with point := .unlock res (some claim.claimId) })
  | .mismatch claim =>
    some ({ s with mutex := s.mutex.unlock i }.put i
      { t with point := .unlock .errListSizeMismatch (some claim.claimId)
               unlocks := t.unlocks + 1 })
  | .unlock res out =>
    some ({ s with mutex := s.mutex.unlock i }.put i
      { t with point := .returned res out, unlocks := t.unlocks + 1 })
  | _ => none

def step (b : Build) (s : RegionSys) : RegionEvent → Option RegionSys
  | .call call => some { s with threads := s.threads ++ [.start b call] }
  | .lock i refused =>
    (s.threads[i]?).bind fun t =>
      match t.point, refused with
      | .lock, none =>
        (s.mutex.acquire i).map fun (dead, mutex) =>
          { s with mutex := mutex }.put i
            { t with point := if dead then .repair else .body, locks := t.locks + 1 }
      | .lock, some (code, errno) =>
        -- with `EOWNERDEAD` as its code the thread has the mutex
        if code = .EOWNERDEAD then none
        else
          let res := ipmMutexLock (some code) errno
          if res = .success then
            some (s.put i { t with point := .body, locks := t.locks + 1 })
          else some (s.put i { t with point := .returned res none })
      | _, _ => none
  | .wake i code errno =>
    (s.threads[i]?).bind fun t =>
      match t.point with
      | .asleep claim =>
        (s.mutex.acquire i).map fun (dead, mutex) =>
          { s with mutex := mutex }.put i
            { t with point := .awake dead code errno claim }
      | _ => none
  | .step i => (s.threads[i]?).bind fun t => s.advance b i t
  | .die i left =>
    (s.threads[i]?).bind fun t =>
      match t.point with
      | .returned _ _ => none
      | .dead => none
      | _ =>
        some ({ s with list := if s.mutex.owner = some i then left else s.list
                       mutex := s.mutex.die i }.put i { t with point := .dead })

/-- Right after `claim_list_init`. -/
def init (raw : ClaimList) (capacity : Nat) : RegionSys :=
  { mutex := .free, list := claimListInit raw capacity, threads := [] }

/-- A releasing call made by a thread that has the list to itself. -/
def alone (b : Build) (call : RegionCall) (list : ClaimList) : Option RegionSys :=
  runGuarded (step b) (fun _ _ => true) { mutex := .free, list := list, threads := [] }
    [.call call, .lock 0 none, .step 0, .step 0]

/-! ## What a step can do

Everything below a step function is said once, here: a step is a new call, or one thread's own move,
and `ThreadMove` lists the moves. -/

/-- Thread `i`, standing as `t` with the mutex `m` and the list `l` before it, makes one move. -/
inductive ThreadMove (b : Build) (i : Nat) (m : RobustMutex Nat) (l : ClaimList) (t : RegionThread) :
    RegionEvent → RobustMutex Nat → ClaimList → RegionThread → Prop
  | acquire {dead : Bool} {m' : RobustMutex Nat} (hp : t.point = .lock)
      (hm : m.acquire i = some (dead, m')) :
      ThreadMove b i m l t (.lock i none) m' l
        { t with point := if dead then .repair else .body, locks := t.locks + 1 }
  /-- On without the mutex. -/
  | trespass {code errno : Errno} (hp : t.point = .lock) (hcode : code ≠ .EOWNERDEAD)
      (hres : ipmMutexLock (some code) errno = .success) :
      ThreadMove b i m l t (.lock i (some (code, errno))) m l
        { t with point := .body, locks := t.locks + 1 }
  | refuse {code errno : Errno} (hp : t.point = .lock)
      (hres : ipmMutexLock (some code) errno ≠ .success) :
      ThreadMove b i m l t (.lock i (some (code, errno))) m l
        { t with point := .returned (ipmMutexLock (some code) errno) none }
  | wake {claim : MemoryClaim} {dead : Bool} {m' : RobustMutex Nat} {code : Option Errno}
      {errno : Errno} (hp : t.point = .asleep claim) (hm : m.acquire i = some (dead, m')) :
      ThreadMove b i m l t (.wake i code errno) m' l
        { t with point := .awake dead code errno claim }
  | repair (hp : t.point = .repair) :
      ThreadMove b i m l t (.step i) (m.consistent i) l { t with point := .body }
  | takeId {h : Handle} {access : AccessMode} {offset count : UInt64} (hp : t.point = .body)
      (hcall : t.call = .claimRegion h access offset count) :
      ThreadMove b i m l t (.step i) m l.takeId
        { t with point := .turn (l.newClaim h access offset count)
                 claim := some (l.newClaim h access offset count) }
  | release {res : IpmResult} {l' : ClaimList} (hp : t.point = .body)
      (hcall : ∀ h access offset count, t.call ≠ .claimRegion h access offset count)
      (hrun : release b t.call l = .ret res l') :
      ThreadMove b i m l t (.step i) m l' { t with point := .unlock res none }
  | sleep {claim : MemoryClaim} (hp : t.point = .turn claim) (hadmits : admits l claim = false)
      (hown : m.owner = some i) :
      ThreadMove b i m l t (.step i) (m.unlock i) l { t with point := .asleep claim }
  | refuseWait {claim : MemoryClaim} (hp : t.point = .turn claim) (hown : m.owner ≠ some i) :
      ThreadMove b i m l t (.step i) m l { t with point := .unlock .success none }
  | letIn {claim : MemoryClaim} (hp : t.point = .turn claim) (hadmits : admits l claim = true) :
      ThreadMove b i m l t (.step i) m l { t with point := .admitted claim }
  | add {claim : MemoryClaim} {res : IpmResult} {l' : ClaimList} (hp : t.point = .admitted claim)
      (hrun : claimAddToList b claim l = .ret res l') (hres : res ≠ .errListSizeMismatch) :
      ThreadMove b i m l t (.step i) m l'
        { t with point := .unlock res (some claim.claimId), passed := true }
  | mismatch {claim : MemoryClaim} {l' : ClaimList} (hp : t.point = .admitted claim)
      (hrun : claimAddToList b claim l = .ret .errListSizeMismatch l') :
      ThreadMove b i m l t (.step i) m l' { t with point := .mismatch claim, passed := true }
  | unlockMismatch {claim : MemoryClaim} (hp : t.point = .mismatch claim) :
      ThreadMove b i m l t (.step i) (m.unlock i) l
        { t with point := .unlock .errListSizeMismatch (some claim.claimId)
                 unlocks := t.unlocks + 1 }
  | unlock {res : IpmResult} {out : Option UInt64} (hp : t.point = .unlock res out) :
      ThreadMove b i m l t (.step i) (m.unlock i) l
        { t with point := .returned res out, unlocks := t.unlocks + 1 }
  | stopped {w : Stop} {l' : ClaimList} (hp : t.point = .body)
      (hcall : ∀ h access offset count, t.call ≠ .claimRegion h access offset count)
      (hrun : release b t.call l = .stop w l') :
      ThreadMove b i m l t (.step i) (m.die i) l' { t with point := .dead }
  | stoppedAdding {claim : MemoryClaim} {w : Stop} {l' : ClaimList}
      (hp : t.point = .admitted claim) (hrun : claimAddToList b claim l = .stop w l') :
      ThreadMove b i m l t (.step i) (m.die i) l' { t with point := .dead, passed := true }
  | die {left : ClaimList} (hret : ∀ res out, t.point ≠ .returned res out) (hdead : t.point ≠ .dead) :
      ThreadMove b i m l t (.die i left) (m.die i) (if m.owner = some i then left else l)
        { t with point := .dead }

variable {b : Build} {s s' : RegionSys} {i : Nat} {t : RegionThread}

/-- A call locks first, unless its arguments are bad. -/
theorem start_cases (b : Build) (call : RegionCall) :
    call.start b = .lock ∨ call.start b = .dead ∨ ∃ res, call.start b = .returned res none := by
  cases call with
  | claimRegion h access offset count =>
    simp only [RegionCall.start]
    split
    · exact .inr (.inl rfl)
    · split
      · exact .inr (.inr ⟨_, rfl⟩)
      · exact .inl rfl
  | releaseRegion h claimId => exact .inl rfl
  | releaseAll h => exact .inl rfl
  | removeAllActiveClaims h => exact .inl rfl

/-- A wait that returns anything but 0 ends the call. -/
theorem awake_cases (dead : Bool) (code : Option Errno) (errno : Errno) (claim : MemoryClaim) :
    dead = false ∧ RegionPoint.awake dead code errno claim = .turn claim ∨
      RegionPoint.awake dead code errno claim = .unlock .success none := by
  simp only [RegionPoint.awake, ipmConditionWait_eq_success_iff]
  cases dead with
  | true => simp
  | false =>
    by_cases hcode : code = none
    · simp [hcode]
    · simp [hcode]

/-- How a body ends. -/
theorem finish_cases {α : Type} {o : Outcome ClaimList α} {k : α → RegionSys → Option RegionSys}
    (h : s.finish i t o k = some s') :
    (∃ a l, o = .ret a l ∧ k a { s with list := l } = some s') ∨
    (∃ w l, o = .stop w l ∧
      s' = ⟨s.mutex.die i, l, s.threads.set i { t with point := .dead }⟩) := by
  cases o with
  | ret a l => exact .inl ⟨a, l, rfl, h⟩
  | stop w l =>
    cases w with
    | spin => cases h
    | assertion => exact .inr ⟨.assertion, l, rfl, (Option.some.inj h).symm⟩
    | fault => exact .inr ⟨.fault, l, rfl, (Option.some.inj h).symm⟩

theorem advance_cases (h : s.advance b i t = some s') :
    ∃ m l t', ThreadMove b i s.mutex s.list t (.step i) m l t' ∧ s' = ⟨m, l, s.threads.set i t'⟩ := by
  unfold advance at h
  split at h
  · rename_i hp
    exact ⟨_, _, _, .repair hp, (Option.some.inj h).symm⟩
  · rename_i hp
    split at h
    · rename_i hcall
      exact ⟨_, _, _, .takeId hp hcall, (Option.some.inj h).symm⟩
    · rename_i hcall
      rcases finish_cases h with ⟨res, l, hrun, hs⟩ | ⟨w, l, hrun, rfl⟩
      · exact ⟨_, _, _, .release hp hcall hrun, (Option.some.inj hs).symm⟩
      · exact ⟨_, _, _, .stopped hp hcall hrun, rfl⟩
  · rename_i claim hp
    split at h
    · rename_i ha
      exact ⟨_, _, _, .letIn hp ha, (Option.some.inj h).symm⟩
    · rename_i ha
      split at h
      · rename_i hown
        exact ⟨_, _, _, .sleep hp (Bool.eq_false_iff.mpr ha) hown, (Option.some.inj h).symm⟩
      · rename_i hown
        exact ⟨_, _, _, .refuseWait hp hown, (Option.some.inj h).symm⟩
  · rename_i claim hp
    rcases finish_cases h with ⟨res, l, hrun, hs⟩ | ⟨w, l, hrun, rfl⟩
    · by_cases hres : res = .errListSizeMismatch
      · subst hres
        exact ⟨_, _, _, .mismatch hp hrun, (Option.some.inj hs).symm⟩
      · refine ⟨_, _, _, .add hp hrun hres, ?_⟩
        cases res <;> first | exact (Option.some.inj hs).symm | exact absurd rfl hres
    · exact ⟨_, _, _, .stoppedAdding hp hrun, rfl⟩
  · rename_i claim hp
    exact ⟨_, _, _, .unlockMismatch hp, (Option.some.inj h).symm⟩
  · rename_i res out hp
    exact ⟨_, _, _, .unlock hp, (Option.some.inj h).symm⟩
  · cases h

/-- **What a step can do.** -/
theorem step_cases {a : RegionEvent} (h : step b s a = some s') :
    (∃ call, a = .call call ∧ s' = { s with threads := s.threads ++ [.start b call] }) ∨
    ∃ i t m l t', s.threads[i]? = some t ∧ ThreadMove b i s.mutex s.list t a m l t' ∧
      s' = ⟨m, l, s.threads.set i t'⟩ := by
  cases a with
  | call call => exact .inl ⟨call, rfl, (Option.some.inj h).symm⟩
  | lock i refused =>
    obtain ⟨t, hget, h⟩ := Option.bind_eq_some_iff.mp h
    refine .inr ⟨i, t, ?_⟩
    split at h
    · rename_i hp _
      obtain ⟨⟨dead, m⟩, hm, hs⟩ := Option.map_eq_some_iff.mp h
      exact ⟨_, _, _, hget, .acquire hp hm, hs.symm⟩
    · rename_i hp _
      dsimp only at h
      split at h
      · cases h
      · rename_i hcode
        split at h
        · rename_i hres
          exact ⟨_, _, _, hget, .trespass hp hcode hres, (Option.some.inj h).symm⟩
        · rename_i hres
          exact ⟨_, _, _, hget, .refuse hp hres, (Option.some.inj h).symm⟩
    · cases h
  | wake i code errno =>
    obtain ⟨t, hget, h⟩ := Option.bind_eq_some_iff.mp h
    refine .inr ⟨i, t, ?_⟩
    split at h
    · rename_i claim hp
      obtain ⟨⟨dead, m⟩, hm, hs⟩ := Option.map_eq_some_iff.mp h
      exact ⟨_, _, _, hget, .wake hp hm, hs.symm⟩
    · cases h
  | step i =>
    obtain ⟨t, hget, h⟩ := Option.bind_eq_some_iff.mp h
    obtain ⟨m, l, t', hmove, hs⟩ := advance_cases h
    exact .inr ⟨i, t, m, l, t', hget, hmove, hs⟩
  | die i left =>
    obtain ⟨t, hget, h⟩ := Option.bind_eq_some_iff.mp h
    refine .inr ⟨i, t, ?_⟩
    split at h
    · cases h
    · cases h
    · rename_i hret hdead
      exact ⟨_, _, _, hget, .die hret hdead, (Option.some.inj h).symm⟩

end RegionSys

end Ipm
