import Mathlib.Tactic.ByContra
import Ipm.Core.Platform

/-!
# What the wrappers report

A pthread function returns its error and leaves `errno` alone, and the wrappers of `ipm_platform.c`
look at `errno`. Once the call a wrapper is for has failed, the result is what an earlier call has left
there: one error for another and, from `ipm_mutex_lock` and `ipm_condition_init`, success.
-/

set_option autoImplicit false

namespace Ipm

/-- A call of one of the wrappers, with what pthread answers. -/
inductive SyncCall where
  | mutexInit (codes : MutexInitCodes)
  | mutexLock (code : Option Errno)
  | mutexUnlock (code : Option Errno)
  | mutexDestroy (code : Option Errno)
  | conditionInit (codes : ConditionInitCodes)
  | conditionWait (code : Option Errno)
  | conditionBroadcast (code : Option Errno)
  | conditionSignal (code : Option Errno)
  | conditionDestroy (code : Option Errno)
  deriving DecidableEq, Repr

namespace SyncCall

/-- What it returns to a thread with this `errno`. -/
def result : SyncCall → Errno → IpmResult
  | mutexInit codes => ipmMutexInit codes
  | mutexLock code => ipmMutexLock code
  | mutexUnlock code => ipmMutexUnlock code
  | mutexDestroy code => ipmMutexDestroy code
  | conditionInit codes => ipmConditionInit codes
  | conditionWait code => ipmConditionWait code
  | conditionBroadcast code => ipmConditionBroadcast code
  | conditionSignal code => ipmConditionSignal code
  | conditionDestroy code => ipmConditionDestroy code

/-- Every pthread call that matters returned 0, or the lock was had from a dead owner. -/
def Answered : SyncCall → Prop
  | mutexInit codes => codes = ⟨0, 0, 0, 0, 0⟩
  | mutexLock code => code = none ∨ code = some .EOWNERDEAD
  | conditionInit codes => codes = ⟨0, 0, 0⟩
  | mutexUnlock code | mutexDestroy code | conditionWait code | conditionBroadcast code
  | conditionSignal code | conditionDestroy code => code = none

/-- The call the wrapper is for is made and fails. -/
def Refused : SyncCall → Prop
  | mutexInit codes => codes.attrInit = 0 ∧ codes.setPshared = 0 ∧ codes.setType = 0 ∧
      codes.setRobust = 0 ∧ codes.init ≠ 0
  | mutexLock code => code ≠ none ∧ code ≠ some .EOWNERDEAD
  | conditionInit codes => codes.attrInit = 0 ∧ codes.setPshared = 0 ∧ codes.init ≠ 0
  | mutexUnlock code | mutexDestroy code | conditionWait code | conditionBroadcast code
  | conditionSignal code | conditionDestroy code => code ≠ none

/-- The failures that this `errno` turns into a success. -/
def Silent : SyncCall → Errno → Prop
  | mutexLock code, errno => (code ≠ none ∧ code ≠ some .EOWNERDEAD) ∧ errno = .EOWNERDEAD
  | conditionInit codes, errno => codes.Silent errno
  | _, _ => False

/-- The result says what pthread said: no `errno` makes a difference to it, and it is success when
pthread was. -/
structure Reports (c : SyncCall) : Prop where
  same : ∀ errno errno', c.result errno = c.result errno'
  success : ∀ errno, c.result errno = .success ↔ c.Answered

end SyncCall

theorem pthreadResult_eq_success_iff {switch : Errno → IpmResult} (h : ∀ e, switch e ≠ .success)
    {code : Option Errno} {errno : Errno} :
    pthreadResult switch code errno = .success ↔ code = none := by
  cases code with
  | none => simp [pthreadResult]
  | some c => simpa [pthreadResult] using h errno

theorem unlockError_ne_success (e : Errno) : unlockError e ≠ .success := by
  cases e <;> exact nofun

theorem destroyError_ne_success (e : Errno) : destroyError e ≠ .success := by
  cases e <;> exact nofun

theorem notifyError_ne_success (e : Errno) : notifyError e ≠ .success := by
  cases e <;> exact nofun

/-- All errors but `EOWNERDEAD` are one to it. -/
theorem ipmMutexLock_refused {code : Option Errno} (h : code ≠ none ∧ code ≠ some .EOWNERDEAD)
    (errno : Errno) : ipmMutexLock code errno = ipmMutexLock (some .EINVAL) errno := by
  obtain ⟨hfail, hdead⟩ := h
  cases code with
  | none => exact absurd rfl hfail
  | some c =>
    cases c with
    | EOWNERDEAD => exact absurd rfl hdead
    | _ => rfl

theorem ipmMutexLock_eq_success_iff {code : Option Errno} {errno : Errno} :
    ipmMutexLock code errno = .success ↔
      (code = none ∨ code = some .EOWNERDEAD) ∨
        (code ≠ none ∧ code ≠ some .EOWNERDEAD) ∧ errno = .EOWNERDEAD := by
  by_cases h : code = none ∨ code = some .EOWNERDEAD
  · refine iff_of_true ?_ (.inl h)
    rcases h with rfl | rfl
    · rfl
    · rfl
  · have hrefused := not_or.mp h
    rw [ipmMutexLock_refused hrefused]
    constructor
    · intro hres
      refine .inr ⟨hrefused, ?_⟩
      cases errno <;> first | rfl | cases hres
    · rintro (hans | ⟨-, rfl⟩)
      · exact absurd hans h
      · rfl

namespace SyncCall

variable {c : SyncCall} {errno errno' : Errno}

/-- **Success**: pthread was successful, or what it said is passed over. -/
theorem result_eq_success_iff : c.result errno = .success ↔ c.Answered ∨ c.Silent errno := by
  cases c with
  | mutexLock code => exact ipmMutexLock_eq_success_iff
  | conditionInit codes => exact ipmConditionInit_eq_success_iff
  | mutexInit codes =>
    simp only [result, Answered, Silent, or_false]
    exact ipmMutexInit_eq_success_iff
  | conditionWait code =>
    simp only [result, Answered, Silent, or_false]
    exact ipmConditionWait_eq_success_iff
  | mutexUnlock code =>
    simp only [result, Answered, Silent, or_false]
    exact pthreadResult_eq_success_iff unlockError_ne_success
  | mutexDestroy code | conditionDestroy code =>
    simp only [result, Answered, Silent, or_false]
    exact pthreadResult_eq_success_iff destroyError_ne_success
  | conditionBroadcast code | conditionSignal code =>
    simp only [result, Answered, Silent, or_false]
    exact pthreadResult_eq_success_iff notifyError_ne_success

theorem Silent.refused (h : c.Silent errno) : c.Refused := by
  cases c with
  | mutexLock code => exact h.1
  | conditionInit codes => exact ⟨h.attrInit, h.setPshared, h.init⟩
  | _ => exact h.elim

/-- A call that is not refused does not come to its `switch`. -/
theorem result_eq_of_not_refused (h : ¬ c.Refused) : c.result errno = c.result errno' := by
  cases c with
  | mutexInit codes =>
    simp only [result, ipmMutexInit]
    split_ifs with h1 h2 h3 h4 h5
    · rfl
    · rfl
    · rfl
    · rfl
    · rw [not_not] at h1 h2 h3 h4
      exact absurd ⟨h1, h2, h3, h4, h5⟩ h
    · rfl
  | conditionInit codes =>
    simp only [result, ipmConditionInit]
    split_ifs with h1 h2 h3
    · rfl
    · rfl
    · rw [not_not] at h1 h2
      exact absurd ⟨h1, h2, h3⟩ h
    · rfl
  | mutexLock code =>
    have hans : code = none ∨ code = some .EOWNERDEAD := by
      by_contra hnot
      exact h (not_or.mp hnot)
    rcases hans with rfl | rfl
    · rfl
    · rfl
  | mutexUnlock code | mutexDestroy code | conditionWait code | conditionBroadcast code
  | conditionSignal code | conditionDestroy code =>
    obtain rfl : code = none := not_not.mp h
    rfl

/-- A call that is refused does, and two of the cases there are told apart. -/
theorem exists_result_ne (h : c.Refused) : ∃ errno errno', c.result errno ≠ c.result errno' := by
  cases c with
  | mutexInit codes =>
    obtain ⟨h1, h2, h3, h4, h5⟩ := h
    refine ⟨.EINVAL, .EPERM, ?_⟩
    simp [result, ipmMutexInit, h1, h2, h3, h4, h5]
  | conditionInit codes =>
    obtain ⟨h1, h2, h3⟩ := h
    refine ⟨.EINVAL, .EBUSY, ?_⟩
    simp [result, ipmConditionInit, h1, h2, h3]
  | mutexLock code =>
    refine ⟨.EINVAL, .EDEADLK, ?_⟩
    simp only [result, ipmMutexLock_refused h]
    decide
  | mutexUnlock code =>
    obtain ⟨e, rfl⟩ := Option.ne_none_iff_exists'.mp h
    refine ⟨.EPERM, .EINVAL, ?_⟩
    intro heq
    cases heq
  | mutexDestroy code | conditionDestroy code =>
    obtain ⟨e, rfl⟩ := Option.ne_none_iff_exists'.mp h
    refine ⟨.EBUSY, .EINVAL, ?_⟩
    intro heq
    cases heq
  | conditionWait code | conditionBroadcast code | conditionSignal code =>
    obtain ⟨e, rfl⟩ := Option.ne_none_iff_exists'.mp h
    refine ⟨.EINVAL, .EAGAIN, ?_⟩
    intro heq
    cases heq

/-- **A wrapper reports what pthread said exactly when the call it is for does not fail.** -/
theorem reports_iff (c : SyncCall) : c.Reports ↔ ¬ c.Refused := by
  constructor
  · intro hreports hrefused
    obtain ⟨errno, errno', hne⟩ := exists_result_ne hrefused
    exact hne (hreports.same errno errno')
  · intro hnot
    refine ⟨fun _ _ => result_eq_of_not_refused hnot, ?_⟩
    intro errno
    rw [result_eq_success_iff]
    exact or_iff_left fun hsilent => hnot hsilent.refused

/-- `pthread_cond_init` fails, and so does `pthread_mutex_lock`: with one `errno` left over from before
the wrapper returns success, with another an error. -/
theorem failures_reported_as_success :
    ¬ (conditionInit ⟨0, 0, 12⟩).Reports ∧
      (conditionInit ⟨0, 0, 12⟩).result (.other 0) = .success ∧
      (conditionInit ⟨0, 0, 12⟩).result .EINVAL = .errBadValue ∧
      ¬ (mutexLock (some .EINVAL)).Reports ∧
      (mutexLock (some .EINVAL)).result .EOWNERDEAD = .success ∧
      (mutexLock (some .EINVAL)).result .EINVAL = .errBadValue := by
  refine ⟨?_, rfl, rfl, ?_, rfl, rfl⟩
  · intro hreports
    exact absurd (hreports.same (.other 0) .EINVAL) nofun
  · intro hreports
    exact absurd (hreports.same .EOWNERDEAD .EINVAL) nofun

end SyncCall

end Ipm
