import Ipm.Core.Platform
import Ipm.Lib.RobustMutex

/-!
# `ipm_mutex_lock` on a mutex

`Core/Platform.lean` says what the wrapper makes of the code it gets. Here is where the code comes
from: a robust, error-checking mutex, as `ipm_mutex_init` makes them. A thread that has the mutex is
refused with `EDEADLK`, one that finds it in the hands of another does not return.
-/

set_option autoImplicit false

namespace Ipm

open Lib

variable {ι : Type} [DecidableEq ι]

/-- `ENOTRECOVERABLE`. -/
def notRecoverableCode : Errno := .other 131

/-- `pthread_mutex_lock` by `me`: the code, and the mutex afterwards. `refused` is an error it may
have for a reason of its own. -/
def pthreadMutexLock (m : RobustMutex ι) (me : ι) (refused : Option Errno) :
    Option (Option Errno × RobustMutex ι) :=
  match refused with
  | some code => some (some code, m)
  | none =>
    match m.acquire me with
    | some (dead, m') => some (if dead then some .EOWNERDEAD else none, m')
    | none =>
      if m.owner = some me then some (some .EDEADLK, m)
      else if m = .notRecoverable then some (some notRecoverableCode, m)
      else none

/-- `ipm_mutex_lock` by `me`: what it returns, and the mutex afterwards. `none` is a call that waits
for somebody else. -/
def ipmMutexLockBy (m : RobustMutex ι) (me : ι) (refused : Option Errno) (errno : Errno) :
    Option (IpmResult × RobustMutex ι) :=
  (pthreadMutexLock m me refused).map fun (code, m') =>
    (ipmMutexLock code errno,
      -- `pthread_mutex_consistent`, in either of its two places
      if code = some .EOWNERDEAD ∨ code ≠ none ∧ errno = .EOWNERDEAD then m'.consistent me else m')

variable {m m' : RobustMutex ι} {me : ι} {refused : Option Errno} {errno : Errno} {dead : Bool}

/-- A mutex that can be had is had, and in order. -/
theorem ipmMutexLockBy_acquire (h : m.acquire me = some (dead, m')) :
    ipmMutexLockBy m me none errno = some (.success, .held me) := by
  rcases RobustMutex.acquire_cases h with ⟨rfl, rfl, rfl⟩ | ⟨rfl, rfl, rfl⟩
  · simp [ipmMutexLockBy, pthreadMutexLock, RobustMutex.acquire, ipmMutexLock]
  · simp [ipmMutexLockBy, pthreadMutexLock, RobustMutex.acquire, ipmMutexLock,
      RobustMutex.consistent, RobustMutex.onOwn]

/-- A usable mutex in the hands of another is waited for. -/
theorem ipmMutexLockBy_waits (hacq : m.acquire me = none) (hown : m.owner ≠ some me)
    (husable : m ≠ .notRecoverable) : ipmMutexLockBy m me none errno = none := by
  simp only [ipmMutexLockBy, pthreadMutexLock, hacq, if_neg hown, if_neg husable, Option.map_none]

/-- `pthread_mutex_lock` gives the mutex to `me`. -/
def Locks (m : RobustMutex ι) (me : ι) (refused : Option Errno) : Prop :=
  refused = none ∧ m.acquire me ≠ none

/-- Who is not told of a success has not got the mutex. -/
theorem not_locks_of_refused {res : IpmResult}
    (h : ipmMutexLockBy m me refused errno = some (res, m')) (hres : res ≠ .success) :
    ¬ Locks m me refused := by
  rintro ⟨rfl, hgot⟩
  obtain ⟨⟨dead, m₁⟩, hacq⟩ := Option.ne_none_iff_exists'.mp hgot
  rw [ipmMutexLockBy_acquire hacq] at h
  exact hres (Prod.mk.inj (Option.some.inj h)).1.symm

/-- A mutex that `me` does not get stays with whom it is. -/
theorem owner_of_not_locks {res : IpmResult} (hnot : ¬ Locks m me refused)
    (h : ipmMutexLockBy m me refused errno = some (res, m')) : m'.owner = m.owner := by
  have hkept : ∀ code m₁, pthreadMutexLock m me refused = some (code, m₁) → m₁ = m := by
    intro code m₁ hcode
    cases refused with
    | some c =>
      exact (Prod.mk.inj (Option.some.inj hcode)).2.symm
    | none =>
      have hnone : m.acquire me = none := not_not.mp fun hgot => hnot ⟨rfl, hgot⟩
      simp only [pthreadMutexLock, hnone] at hcode
      split_ifs at hcode
      · exact (Prod.mk.inj (Option.some.inj hcode)).2.symm
      · exact (Prod.mk.inj (Option.some.inj hcode)).2.symm
  obtain ⟨⟨code, m₁⟩, hcode, hres⟩ := Option.map_eq_some_iff.mp h
  obtain rfl := hkept code m₁ hcode
  rw [← (Prod.mk.inj hres).2]
  split
  · exact RobustMutex.owner_consistent m₁ me
  · rfl

end Ipm
