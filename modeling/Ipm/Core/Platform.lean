import Mathlib.Tactic.SplitIfs
import Ipm.Core.Common

/-!
# `ipm_platform.c`: mutexes and condition variables

The wrappers make pthread calls and fold their return codes into an `ipm_result`. The codes are
arguments (`0` is success). When a call fails the wrappers `switch` on `errno`, which pthread
functions do not set: they read whatever an earlier call left there.
-/

set_option autoImplicit false

namespace Ipm

/-- What the pthread calls of `ipm_mutex_init` return, in order. -/
structure MutexInitCodes where
  attrInit : Nat
  setPshared : Nat
  setType : Nat
  setRobust : Nat
  init : Nat
  deriving DecidableEq, Repr

/-- What the pthread calls of `ipm_condition_init` return, in order. -/
structure ConditionInitCodes where
  attrInit : Nat
  setPshared : Nat
  init : Nat
  deriving DecidableEq, Repr

/-- `ipm_mutex_init`. -/
def ipmMutexInit (codes : MutexInitCodes) (errno : Errno) : IpmResult :=
  if codes.attrInit ≠ 0 then .errOsUnexpected
  else if codes.setPshared ≠ 0 then .errOsUnexpected
  else if codes.setType ≠ 0 then .errOsUnexpected
  else if codes.setRobust ≠ 0 then .errOsUnexpected
  else if codes.init ≠ 0 then
    match errno with
    | .EAGAIN => .errOsOutOfMemory
    | .ENOMEM => .errOsOutOfMemory
    | .EPERM => .errAccess
    | .EBUSY => .errBadInit
    | .EINVAL => .errBadValue
    | _ => .errOsUnexpected
  else .success

/-- `ipm_condition_init`. Its `switch` has no default: another `errno` falls through to success. -/
def ipmConditionInit (codes : ConditionInitCodes) (errno : Errno) : IpmResult :=
  if codes.attrInit ≠ 0 then .errOsUnexpected
  else if codes.setPshared ≠ 0 then .errOsUnexpected
  else if codes.init ≠ 0 then
    match errno with
    | .EAGAIN => .errOsOutOfMemory
    | .ENOMEM => .errOsOutOfMemory
    | .EBUSY => .errBadInit
    | .EINVAL => .errBadValue
    | _ => .success
  else .success

/-- `ipm_mutex_lock`, once `pthread_mutex_lock` has returned `code` (`none` is 0). `EOWNERDEAD` is
answered with `pthread_mutex_consistent`. -/
def ipmMutexLock (code : Option Errno) (errno : Errno) : IpmResult :=
  match code with
  | none => .success
  | some .EOWNERDEAD => .success
  | some _ =>
    match errno with
    | .EINVAL => .errBadValue
    | .EDEADLK => .errDeadlock
    | .EOWNERDEAD => .success
    | _ => .errOsUnexpected

/-- After a failed `pthread_mutex_unlock`. -/
def unlockError : Errno → IpmResult
  | .EPERM => .errNotLocked
  | _ => .errOsUnexpected

/-- After a failed `pthread_mutex_destroy` or `pthread_cond_destroy`. -/
def destroyError : Errno → IpmResult
  | .EBUSY => .errAlreadyLocked
  | .EINVAL => .errBadValue
  | _ => .errOsUnexpected

/-- After a failed `pthread_cond_broadcast` or `pthread_cond_signal`. -/
def notifyError : Errno → IpmResult
  | .EINVAL => .errBadValue
  | _ => .errOsUnexpected

/-- `if (res != 0) { switch (errno) … } return IPM_RESULT_SUCCESS;`, where `res` is `code`. -/
def pthreadResult (switch : Errno → IpmResult) (code : Option Errno) (errno : Errno) : IpmResult :=
  match code with
  | none => .success
  | some _ => switch errno

/-- `ipm_mutex_unlock`. -/
def ipmMutexUnlock : Option Errno → Errno → IpmResult := pthreadResult unlockError

/-- `ipm_mutex_destroy`. -/
def ipmMutexDestroy : Option Errno → Errno → IpmResult := pthreadResult destroyError

/-- `ipm_condition_broadcast`. -/
def ipmConditionBroadcast : Option Errno → Errno → IpmResult := pthreadResult notifyError

/-- `ipm_condition_signal`. -/
def ipmConditionSignal : Option Errno → Errno → IpmResult := pthreadResult notifyError

/-- `ipm_condition_destroy`. -/
def ipmConditionDestroy : Option Errno → Errno → IpmResult := pthreadResult destroyError

/-- `ipm_condition_wait`, once `pthread_cond_wait` has returned `code`. It has no case for
`EOWNERDEAD`. -/
def ipmConditionWait (code : Option Errno) (errno : Errno) : IpmResult :=
  match code with
  | none => .success
  | some _ =>
    match errno with
    | .EINVAL => .errBadValue
    | .EPERM => .errNotLocked
    | _ => .errOsUnexpected

theorem ipmConditionWait_eq_success_iff {code : Option Errno} {errno : Errno} :
    ipmConditionWait code errno = .success ↔ code = none := by
  cases code with
  | none => simp [ipmConditionWait]
  | some c =>
    simp only [ipmConditionWait]
    constructor
    · intro h
      split at h <;> cases h
    · intro h
      cases h

theorem ipmMutexInit_eq_success_iff {codes : MutexInitCodes} {errno : Errno} :
    ipmMutexInit codes errno = .success ↔ codes = ⟨0, 0, 0, 0, 0⟩ := by
  obtain ⟨attrInit, setPshared, setType, setRobust, init⟩ := codes
  simp only [ipmMutexInit, MutexInitCodes.mk.injEq]
  constructor
  · intro h
    split_ifs at h with h1 h2 h3 h4 h5
    · split at h <;> cases h
    · rw [not_not] at h1 h2 h3 h4 h5
      exact ⟨h1, h2, h3, h4, h5⟩
  · rintro ⟨rfl, rfl, rfl, rfl, rfl⟩
    rfl

/-- `pthread_cond_init` fails, and `ipm_condition_init` has no case for what `errno` happens to be. -/
structure ConditionInitCodes.Silent (codes : ConditionInitCodes) (errno : Errno) : Prop where
  attrInit : codes.attrInit = 0
  setPshared : codes.setPshared = 0
  init : codes.init ≠ 0
  errno : errno ∉ [.EAGAIN, .ENOMEM, .EBUSY, .EINVAL]

/-- **Success of `ipm_condition_init`**: all went well, or what did not is not told. -/
theorem ipmConditionInit_eq_success_iff {codes : ConditionInitCodes} {errno : Errno} :
    ipmConditionInit codes errno = .success ↔ codes = ⟨0, 0, 0⟩ ∨ codes.Silent errno := by
  obtain ⟨attrInit, setPshared, init⟩ := codes
  simp only [ipmConditionInit, ConditionInitCodes.mk.injEq]
  constructor
  · intro h
    split_ifs at h with h1 h2 h3
    · rw [not_not] at h1 h2
      refine .inr ⟨h1, h2, h3, ?_⟩
      intro hmem
      simp only [List.mem_cons, List.not_mem_nil, or_false] at hmem
      rcases hmem with rfl | rfl | rfl | rfl <;> cases h
    · rw [not_not] at h1 h2 h3
      exact .inl ⟨h1, h2, h3⟩
  · rintro (⟨rfl, rfl, rfl⟩ | ⟨h1, h2, h3, hmem⟩)
    · rfl
    · rw [if_neg (not_not.mpr h1), if_neg (not_not.mpr h2), if_pos h3]
      simp only [List.mem_cons, List.not_mem_nil, or_false, not_or] at hmem
      obtain ⟨h4, h5, h6, h7⟩ := hmem
      split <;> first | rfl | contradiction

theorem ipmMutexInit_ne_errExists (codes : MutexInitCodes) (errno : Errno) :
    ipmMutexInit codes errno ≠ .errExists := by
  unfold ipmMutexInit
  intro h
  split_ifs at h
  split at h <;> cases h

theorem ipmConditionInit_ne_errExists (codes : ConditionInitCodes) (errno : Errno) :
    ipmConditionInit codes errno ≠ .errExists := by
  unfold ipmConditionInit
  intro h
  split_ifs at h
  split at h <;> cases h

end Ipm
