import Mathlib.Tactic.SplitIfs

/-!
# A counting semaphore

A number of permits, which does not go past a bound. Taking one may have to wait; giving one back is
refused when the bound is reached.
-/

set_option autoImplicit false

namespace Lib

/-- A semaphore of at most `bound` permits. -/
structure Semaphore (bound : Nat) where
  value : Nat
  value_le : value ≤ bound

namespace Semaphore

variable {bound : Nat}

/-- One permit more. -/
def post (s : Semaphore bound) : Option (Semaphore bound) :=
  if h : s.value < bound then some ⟨s.value + 1, h⟩ else none

/-- One permit less; `none` has to wait. -/
def take (s : Semaphore bound) : Option (Semaphore bound) :=
  if s.value = 0 then none else some ⟨s.value - 1, Nat.le_trans (Nat.sub_le _ _) s.value_le⟩

variable {s s' : Semaphore bound}

theorem take_eq_none_iff : s.take = none ↔ s.value = 0 := by
  simp [take]

/-- A permit that is taken is missing. -/
theorem value_take (h : s.take = some s') : s'.value + 1 = s.value := by
  rw [take] at h
  split_ifs at h with hzero
  obtain rfl := Option.some.inj h
  exact Nat.succ_pred hzero

theorem value_post (h : s.post = some s') : s'.value = s.value + 1 := by
  rw [post] at h
  split_ifs at h
  obtain rfl := Option.some.inj h
  rfl

theorem post_isSome_of_lt (h : s.value < bound) : s.post.isSome := by
  simp [post, h]

end Semaphore

end Lib
